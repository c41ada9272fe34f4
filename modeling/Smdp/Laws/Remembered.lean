import Smdp.Server.Step

/-!
# Smdp — the store remembers the eUICC that was given the Profile

The `eid` and `euicc_cert` of an order are a register: every `authenticate_client` answered
Executed-Success against the order writes there what its session reports, and nothing else
does (`euicc?_eq_latest`). A hand-out does not look at it. So the store remembers the
downloader exactly when no other eUICC authenticated against the order since
(`remembersDownloader_iff`).
-/

namespace Smdp

open Interaction

variable {σ : Type} {config : ServerConfig} {s s' : AppState σ}
  {h : List (Step (AppState σ) (Event σ))}

/-! ## What is reported -/

/-- The EID and the certificate the library reports for a session. -/
def reportOf (lib : Library σ) (session : σ) : Option (String × Bytes) :=
  match lib.eid session, lib.euiccCert session with
  | .ok eid, .ok cert => some (eid, cert)
  | _, _ => none

/-- What is reported for the session of a step that is an `authenticate_client` answered
Executed-Success against order `i`. -/
def reportedFor (i : Int) (x : Step (AppState σ) (Event σ)) : Option (String × Bytes) :=
  match x.label.command, x.label.answer with
  | .authenticateClient req, .http r =>
    if r.Succeeded then
      match x.post.sessions.get req.transactionId with
      | some e =>
        if e.orderId = some i then reportOf x.label.input.library e.session else none
      | none => none
    else
      none
  | _, _ => none

/-- The two columns as a register: both written, or neither. -/
def columns (p : Option (String × Bytes)) : Option String × Option Bytes :=
  (p.map Prod.fst, p.map Prod.snd)

theorem columns_eq {p : Option (String × Bytes)} {eid : String} {cert : Bytes} :
    columns p = (some eid, some cert) ↔ p = some (eid, cert) := by
  unfold columns
  rcases p with _ | ⟨eid', cert'⟩ <;> simp

/-! ## One step -/

/-- An answered `authenticate_client` writes what its session reports, when both accessors
succeed, and nothing when one does not. -/
theorem AnsweredFor.euicc {x : Event σ} {i : Int} (hx : AnsweredFor s x i)
    (step : Serving config s x s') (hfaults : x.input.faults = StoreFaults.none) :
    ∃ p, s.store.euicc? i = some p
      ∧ s'.store.euicc? i
        = some (match reportedFor i ⟨s, x, s'⟩ with
          | some q => columns (some q)
          | none => p) := by
  obtain ⟨req, r, order, entry, session, command, answer, succeeded, chosen, rfl, hstore, hentry⟩ :=
    hx.elim step
  have hi : s.store.euicc? order.id = some (order.eid, order.euiccCert) :=
    SqliteStore.euicc?_of_row? chosen.onOffer.1
  refine ⟨_, hi, ?_⟩
  have hreported : reportedFor order.id ⟨s, x, s'⟩ = reportOf x.input.library session := by
    unfold reportedFor
    simp only [command, answer, if_pos succeeded, hentry, if_true]
  rw [hreported, hstore]
  unfold boundStore SqliteStore.remember reportOf
  cases heid : x.input.library.eid session with
  | error e => exact SqliteStore.euicc?_after_of_some (by simp) hi
  | ok eid =>
    cases hcert : x.input.library.euiccCert session with
    | error e => exact SqliteStore.euicc?_after_of_some (by simp) hi
    | ok cert =>
      have hunfaulted : x.input.faults (.bindEuicc order.id eid cert) = none := by rw [hfaults]; rfl
      have hbound := (SqliteStore.euicc?_written hi).mpr (.inl hunfaulted)
      exact SqliteStore.euicc?_after_of_some (by simp) hbound

/-- Any other step reports nothing for the order. -/
theorem reportedFor_eq_none {x : Event σ} {i : Int} (hx : ¬ AnsweredFor s x i)
    (step : Serving config s x s') : reportedFor i ⟨s, x, s'⟩ = none := by
  unfold reportedFor
  dsimp only
  split
  · rename_i req r command answer
    split
    · rename_i succeeded
      split
      · rename_i e hentry
        split
        · rename_i horder
          -- the session is for `i` after the step, so `i` is the order it was answered for
          obtain ⟨order, entry, session, _, _, chosen, _, _, rfl⟩ :=
            serving_answered step command answer succeeded
          have hput := (AppState.get_putSession s req.transactionId req.transactionId
            { entry with session, orderId := some order.id }).trans (if_pos rfl)
          obtain rfl := Option.some.inj (hentry.symm.trans hput)
          exact absurd ⟨req, r, order, entry, command, answer, succeeded, chosen,
            Option.some.inj horder⟩ hx
        · rfl
      · rfl
    · rfl
  · rfl

/-! ## Whole runs -/

/-- The order is not there and was never reported for, or its columns hold the latest
report. -/
def Remembers (st : SqliteStore) (h : List (Step (AppState σ) (Event σ))) (i : Int) : Prop :=
  (st.euicc? i = none ∧ latest (reportedFor i) h = none)
    ∨ st.euicc? i = some (columns (latest (reportedFor i) h))

/-- **The columns of an order are a register of what was reported for it.** Induction on the
run: an answered `authenticate_client` is a write, and every other step keeps what is there,
or adds the order with nothing in it. -/
theorem euicc?_eq_latest (run : ServerRun config h s) (hfaults : NoFaults h) (i : Int) :
    Remembers s.store h i := by
  induction run with
  | nil => exact .inl ⟨rfl, rfl⟩
  | @snoc h s s' x run step ih =>
    have hprev := ih fun y hy => hfaults y (by simp [hy])
    have hlatest := latest_snoc (reportedFor i) h ⟨s, x, s'⟩
    unfold Remembers
    rw [hlatest]
    by_cases hx : AnsweredFor s x i
    · -- a write of what was reported, or none if an accessor failed
      obtain ⟨p, hp, hstored⟩ := hx.euicc step (hfaults ⟨s, x, s'⟩ (by simp))
      right
      rcases hprev with ⟨hnone, _⟩ | hcolumns
      · rw [hnone] at hp
        cases hp
      · obtain rfl := Option.some.inj (hp.symm.trans hcolumns)
        rw [hstored]
        cases reportedFor i ⟨s, x, s'⟩ <;> rfl
    · rw [reportedFor_eq_none hx step, Option.none_or]
      rcases hprev with ⟨hnone, hnever⟩ | hcolumns
      · -- the order is still not there, or was just added with nothing in it
        rw [hnever]
        refine serving_unbound
          (fun st => (st.euicc? i = none ∧ (none : Option (String × Bytes)) = none)
            ∨ st.euicc? i = some (none, none)) ?_ step hx (.inl ⟨hnone, rfl⟩)
        rintro faults c st hc (⟨habsent, _⟩ | hempty)
        · rcases SqliteStore.euicc?_after_of_none faults c habsent with h | h
          · exact .inl ⟨h, rfl⟩
          · exact .inr h
        · exact .inr (SqliteStore.euicc?_after_of_some hc hempty)
      · right
        exact serving_unbound (fun st => st.euicc? i = some (columns (latest (reportedFor i) h)))
          (fun faults c st hc hst => SqliteStore.euicc?_after_of_some hc hst) step hx hcolumns

/-! ## The law -/

/-- Right after a hand-out the order holds the EID and the certificate that the library
reports for the session it was handed out over. -/
def RemembersDownloader (h : List (Step (AppState σ) (Event σ))) : Prop :=
  ∀ pre y post entry i eid cert, h = pre ++ y :: post → HandsOutOver y.pre y.label entry i →
    reportOf y.label.input.library entry.session = some (eid, cert) →
    y.post.store.euicc? i = some (some eid, some cert)

/-- Whenever a package is asked for, the last `authenticate_client` answered Executed-Success
against its order was for the eUICC that asks. -/
def LastAuthenticatedAsks (h : List (Step (AppState σ) (Event σ))) : Prop :=
  ∀ pre y post entry i eid cert, h = pre ++ y :: post → AsksOver y.pre y.label entry i →
    reportOf y.label.input.library entry.session = some (eid, cert) →
    latest (reportedFor i) pre = some (eid, cert)

/-- **The store remembers the eUICC that was given the Profile exactly when that is the last one
that authenticated against the order.** A hand-out writes neither column, so what it finds there is
what the last `bind_euicc` left, and that is what `latest (reportedFor i)` says of the history;
both sides are compared hand-out by hand-out. -/
theorem remembersDownloader_iff (run : ServerRun config h s) (hfaults : NoFaults h) :
    RemembersDownloader h ↔ LastAuthenticatedAsks h := by
  have hand : ∀ pre y post entry i eid cert, h = pre ++ y :: post →
      HandsOutOver y.pre y.label entry i →
      (y.post.store.euicc? i = some (some eid, some cert)
        ↔ latest (reportedFor i) pre = some (eid, cert)) := by
    rintro pre y post entry i eid cert rfl hover
    obtain ⟨before, step, _⟩ := run.split
    have hy : HandsOut y.pre y.label i := ⟨entry, hover⟩
    obtain ⟨order, hrow⟩ := hy.row
    have hthere : y.pre.store.euicc? i = some (order.eid, order.euiccCert) :=
      SqliteStore.euicc?_of_row? hrow
    have hkept : y.post.store.euicc? i = y.pre.store.euicc? i := by
      rw [hy.store step, hthere]
      exact SqliteStore.euicc?_after_of_some (by simp) hthere
    have hregister : y.pre.store.euicc? i = some (columns (latest (reportedFor i) pre)) := by
      rcases euicc?_eq_latest before (fun x hx => hfaults x (by simp [hx])) i with ⟨hnone, _⟩ | h
      · rw [hthere] at hnone
        cases hnone
      · exact h
    rw [hkept, hregister, Option.some_inj]
    exact columns_eq
  have steps : ∀ pre y post, h = pre ++ y :: post → Serving config y.pre y.label y.post := by
    rintro pre y post rfl
    exact run.split.2.1
  constructor
  · intro hremembers pre y post entry i eid cert hh hasks hreport
    have hover := (handsOutOver_iff (steps pre y post hh)).mpr hasks
    exact (hand pre y post entry i eid cert hh hover).mp
      (hremembers pre y post entry i eid cert hh hover hreport)
  · intro hlast pre y post entry i eid cert hh hover hreport
    have hasks := (handsOutOver_iff (steps pre y post hh)).mp hover
    exact (hand pre y post entry i eid cert hh hover).mpr
      (hlast pre y post entry i eid cert hh hasks hreport)

/-- Two eUICCs authenticate against the order, and the first one downloads. -/
def otherEuicc : List (Command × Env Bytes) :=
  [(addProfile 7 "A", .echo 0), (initiate, .echo 1), (initiate, .echo 2),
   (authenticate 1 [65], .echo 0), (authenticate 2 [66], .echo 0), (download 1, .echo 0)]

theorem otherEuicc_noFaults : NoFaults (echoed otherEuicc) :=
  noFaults_echoed (by simp [otherEuicc, Env.echo])

theorem remembersDownloader_iff_otherEuicc :
    RemembersDownloader (echoed otherEuicc) ↔ LastAuthenticatedAsks (echoed otherEuicc) :=
  remembersDownloader_iff (run_echoed otherEuicc) otherEuicc_noFaults

/-- The accessors succeed on every session the library accepted an eUICC with. -/
def AccessorsSucceed (h : List (Step (AppState σ) (Event σ))) : Prop :=
  ∀ x ∈ h, ∀ req session metadata session' resp, x.label.command = .authenticateClient req →
    x.label.input.library.authenticateClient session req.authenticateServerResponse metadata
      = (session', .ok resp) →
    ∃ p, reportOf x.label.input.library session' = some p

theorem otherEuicc_accessorsSucceed : AccessorsSucceed (echoed otherEuicc) := by
  intro x hx req session metadata session' resp command acceptance
  have hmem : (x.label.command, x.label.input) ∈ otherEuicc := mem_of_mem_served _ _ hx
  rw [command] at hmem
  have hresp : (req.authenticateServerResponse = [65] ∨ req.authenticateServerResponse = [66])
      ∧ x.label.input = .echo 0 := by
    simp [otherEuicc, addProfile, initiate, authenticate, download] at hmem
    rcases hmem with ⟨rfl, henv⟩ | ⟨rfl, henv⟩
    · exact ⟨.inl rfl, henv⟩
    · exact ⟨.inr rfl, henv⟩
  obtain ⟨hresp, henv⟩ := hresp
  rw [henv] at acceptance ⊢
  cases acceptance
  rcases hresp with h | h <;> rw [h]
  · exact ⟨("A", [65]), by decide⟩
  · exact ⟨("B", [66]), by decide⟩

/-- Session 1 downloads for `A`, and the order remembers `B`. -/
theorem forgets_downloader :
    ¬ ∀ (config : ServerConfig) (h : List (Step (AppState Bytes) (Event Bytes)))
        (s : AppState Bytes), ServerRun config h s → NoFaults h → AccessorsSucceed h →
        RemembersDownloader h := by
  intro hall
  have hremembers := hall _ _ _ (run_echoed otherEuicc) otherEuicc_noFaults
    otherEuicc_accessorsSucceed
  have hstored := hremembers ((echoed otherEuicc).take 5) ((echoed otherEuicc)[5]) [] _ 1
    "A" [65] rfl ⟨_, _, _, rfl, rfl, rfl, ⟨rfl, rfl⟩, rfl⟩ (by decide)
  have hother : ((echoed otherEuicc)[5]).post.store.euicc? 1 = some (some "B", some [66]) := by
    decide
  exact absurd (hother.symm.trans hstored) (by decide)

end Smdp
