import Smdp.Laws.MatchingId
import Smdp.Laws.Verdict

/-!
# Smdp — what a caller is told is what was done

A command that is told to have failed has written nothing to the database, whether the operator
asked for it or an eUICC, and whatever else was going on (`failure_writes_nothing`). An operator who
is told of success can rely on it: the order is on file as it was asked for, the order was made
available, the list is what was on file at one moment; and that was the one write there was, or
there was none (`operator_told`).
-/

namespace Smdp

open Interaction Rowid

variable {σ : Type}

/-! ## Writes -/

/-- The call wrote to the database. -/
def wrote : Call (ServerSig σ) → Bool
  | ⟨.store (.addOrder _), .ok _⟩ => true
  | ⟨.store (.bindEuicc _ _ _), .ok _⟩ => true
  | ⟨.store (.setState _ _), .ok _⟩ => true
  | ⟨.store (.recordNotification _), .ok _⟩ => true
  | _ => false

/-- What has not written has changed nothing. -/
theorem store_of_not_wrote {config : ServerConfig} {q q' : ServerPool σ} {t : Nat} {c : Command}
    {env : Env σ} {call : Call (ServerSig σ)}
    (step : LifeServing config q (.alive (.called t c env call)) q') (h : wrote call = false) :
    q'.shared.store = q.shared.store := by
  cases step with
  | alive step =>
    obtain ⟨hanswer, hshared⟩ := step.answered
    rw [hshared]
    obtain ⟨op, answer⟩ := call
    cases op with
    | store sc =>
      show q.shared.store.after env.faults sc = q.shared.store
      have hasked : (q.shared.store.performUnder env.faults sc).1 = answer := hanswer.symm
      cases hanswered : answer with
      | error e => exact after_of_error (hasked.trans hanswered)
      | ok v =>
        rw [hanswered] at h
        -- a write that went through is out of the question, and the rest only reads
        cases sc with
        | addOrder | bindEuicc | setState | recordNotification => cases h
        | _ =>
          unfold SqliteStore.after SqliteStore.performUnder
          split <;> rfl
    | _ => rfl

/-! ## What is told -/

/-- The answer says that nothing came of it. -/
def Answer.Failure : Answer → Prop
  | .http r => r.Failed
  | .added (.error _) | .reset (.error _) | .listed (.error _) | .reopened (.error _) => True
  | _ => False

/-- What an answer says of the calls `made` to serve `c`. -/
def Answer.Says (c : Command) (made : List (Call (ServerSig σ))) : Answer → Prop
  | .http r => r.Failed → made.filter wrote = []
  | .added (.ok o) =>
    ∃ args new, c = .orderAdd args ∧ IsOrdered made args new
      ∧ made.filter wrote = [⟨.store (.addOrder new), .ok o⟩]
  | .reset (.ok _) =>
    ∃ i o, c = .orderReset i ∧ Listed made o ∧ o.id = i
      ∧ made.filter wrote = [⟨.store (.setState i .available), .ok ()⟩]
  | .listed (.ok orders) =>
    ⟨.store .listOrders, .ok orders⟩ ∈ made ∧ made.filter wrote = []
  | _ => made.filter wrote = []

/-- Whichever way a command fails, it says that it wrote nothing. -/
theorem Answer.Failure.wrote_nothing {c : Command} {made : List (Call (ServerSig σ))} {a : Answer}
    (hfailed : a.Failure) (h : a.Says c made) : made.filter wrote = [] := by
  cases a with
  | http r => exact h hfailed
  | added r | reset r | listed r | reopened r =>
    cases r with
    | error e => exact h
    | ok v => cases hfailed

/-! ## One command at a time -/

section

variable (config : ServerConfig)

/-- What a program returns, wrapped as the answer to `c`, says what it has done. -/
abbrev Truthful {α : Type} (c : Command) (wrap : α → Answer) (p : Handler σ α) : Prop :=
  p.Keeps (.recording fun _ _ => True) (fun a made => (wrap a).Says c made) []

attribute [local simp] Prog.ask Handler.rsp Handler.store Handler.openStore Handler.addOrder
  Handler.listOrders Handler.orderByIccid Handler.bindEuicc Handler.setState
  Handler.recordNotification Handler.lock Handler.unlock Handler.getSession Handler.putSession
  Handler.removeSession Handler.insertSession DpSession.authenticateClient
  DpSession.getBoundProfilePackage DpSession.eid DpSession.euiccCert initiateFields
  authenticateFields checkCode_ok checkCode_error

/-! `simp` runs a program from call to call, up to where the source looks at an answer. At its end
the calls are there one by one, and which of them wrote is computed. -/

/-- `order add` returns the order it inserted, and every error before that is one of reading or of
the store. -/
theorem truthful_orderAdd (args : OrderAdd) :
    Truthful (σ := σ) (.orderAdd args) .added (orderAdd args) := by
  unfold orderAdd
  cases hiccid : args.readIccid with
  | error e =>
    simp
    exact rfl
  | ok iccid =>
    simp
    rintro (e | _)
    · simp
      exact rfl
    · cases hchosen : args.matchingId with
      | some m =>
        simp [createOrder, orGenerate]
        rintro (e | o)
        · simp
          exact rfl
        · simp
          exact ⟨args, _, rfl, ⟨hiccid, rfl, rfl, .inl hchosen⟩, rfl⟩
      | none =>
        simp [createOrder, orGenerate]
        rintro raw hraw (e | o)
        · simp
          exact rfl
        · simp
          exact ⟨args, _, rfl, ⟨hiccid, rfl, rfl,
            .inr ⟨hchosen, ⟨raw, hraw⟩, by simp, rfl⟩⟩, rfl⟩

/-- `order reset` answers `Ok` for the write alone; the order was on the list by then. -/
theorem truthful_orderReset (id : Int) :
    Truthful (σ := σ) (.orderReset id) .reset (orderReset id) := by
  unfold orderReset
  simp
  rintro (e | _)
  · simp
    exact rfl
  · simp [listOrders]
    rintro (e | known)
    · simp
      exact rfl
    · simp
      split
      · rename_i hknown
        obtain ⟨o, ho, hid⟩ := hknown
        simp
        rintro (e | _)
        · simp
          exact rfl
        · simp
          exact ⟨id, o, rfl, ⟨known, by simp, ho⟩, hid, rfl⟩
      · simp
        exact rfl

/-- `order list` returns what it was answered. -/
theorem truthful_orderList : Truthful (σ := σ) .orderList .listed orderList := by
  unfold orderList
  simp
  rintro (e | _)
  · simp
    exact rfl
  · simp [listOrders]
    rintro (e | orders)
    · simp
      exact rfl
    · simp
      exact ⟨by simp, rfl⟩

theorem says_of_not_failed {c : Command} {made : List (Call (ServerSig σ))} {r : Response}
    (h : ¬ r.Failed) : (Answer.http r).Says c made := fun hfailed => absurd hfailed h

/-- InitiateAuthentication never writes to the store, so a failure of it cannot have. -/
theorem truthful_initiateAuthentication (req : InitiateAuthenticationRequest) :
    Truthful (σ := σ) (.initiateAuthentication req) .http (initiateAuthentication config req) := by
  unfold initiateAuthentication
  cases Octets.ofBytes? 16 req.euiccChallenge with
  | none =>
    simp
    exact fun _ => rfl
  | some challenge =>
    simp
    intro transactionId _ serverChallenge _
    unfold DpSession.initiate
    split
    · simp
      exact fun _ => rfl
    · simp
      exact fun _ => rfl
    · simp
      rintro (n | ⟨session, resp⟩)
      · simp
        exact fun _ => rfl
      · simp
        rintro (n | fields)
        · simp
          exact fun _ => rfl
        · simp
          exact fun _ => says_of_not_failed (not_failed_of_success rfl)

/-- AuthenticateClient writes last, once nothing can fail any more. -/
theorem truthful_authenticateClient (req : AuthenticateClientRequest) :
    Truthful (σ := σ) (.authenticateClient req) .http (authenticateClient req) := by
  unfold authenticateClient
  simp
  rintro (e | orders)
  · simp
    exact fun _ => rfl
  · dsimp only
    generalize availableOrders orders = offered
    -- none on offer, one, or several: only the one goes on
    rcases offered with _ | ⟨order, _ | ⟨second, rest⟩⟩
    · simp
      exact fun _ => rfl
    · simp
      rintro _ (_ | entry)
      · simp
        exact fun _ _ => rfl
      · simp
        rintro session (n | resp)
        · simp
          exact fun _ _ => rfl
        · simp
          rintro eid cert _ (n | g)
          · simp
            exact fun _ => rfl
          · -- both writes are made for an answer of success
            simp [rememberEuicc]
            split
            · simp
              exact fun _ _ => says_of_not_failed (not_failed_of_success rfl)
            · simp
              exact fun _ => says_of_not_failed (not_failed_of_success rfl)
    · simp
      exact fun _ => rfl

/-- GetBoundProfilePackage likewise: the state is set after the package was built. -/
theorem truthful_getBoundProfilePackage (req : GetBoundProfilePackageRequest) :
    Truthful (σ := σ) (.getBoundProfilePackage req) .http (getBoundProfilePackage req) := by
  unfold getBoundProfilePackage
  simp
  rintro otskDp hotskDp _ (_ | entry)
  · simp
    exact fun _ _ => rfl
  · simp [findUpp]
    split
    · simp
      exact fun _ _ => rfl
    · simp
      rintro (e | orders)
      · simp
        exact fun _ _ => rfl
      · simp
        split
        · simp
          exact fun _ _ => rfl
        · simp
          rintro session (n | bpp)
          · simp
            exact fun _ _ => rfl
          · simp
            exact fun _ _ => says_of_not_failed (not_failed_of_success rfl)

/-- A notification is never answered with a failure. -/
theorem truthful_handleNotification (req : HandleNotificationRequest) :
    Truthful (σ := σ) (.handleNotification req) .http (handleNotification req) := by
  have hafter : ∀ {α β : Type} (p : Handler σ α) {k : α → Handler σ β}
      {post : β → List (Call (ServerSig σ)) → Prop} {made : List (Call (ServerSig σ))},
      (∀ a made', (k a).Keeps (.recording fun _ _ => True) post made') →
      (p >>= k).Keeps (.recording fun _ _ => True) post made := by
    intro α β p k post made hk
    rw [Prog.keeps_bind]
    exact (p.keeps_of_allowed (fun _ _ => trivial) made).mono fun a made' _ => hk a made'
  unfold handleNotification
  -- six parts, and after each of them any calls may have been made
  refine hafter _ fun first _ => hafter _ fun order _ => hafter _ fun verified _ => ?_
  refine hafter _ fun second _ => hafter _ fun kept _ => hafter _ fun moved _ => ?_
  -- 204 is not Failed
  intro hfailed
  exact absurd hfailed (by decide)

/-- **What a command answers says what it has done.** -/
theorem truthful (c : Command) : Truthful (σ := σ) c id (c.program config) := by
  have hwraps : ∀ {α : Type} {p : Handler σ α} {wrap : α → Answer}, Truthful c wrap p →
      Truthful c id (p >>= fun a => pure (wrap a)) := by
    intro α p wrap hp
    unfold Truthful
    rw [Prog.keeps_bind]
    exact hp.mono fun a made h => h
  cases c with
  | initiateAuthentication req => exact hwraps (truthful_initiateAuthentication config req)
  | authenticateClient req => exact hwraps (truthful_authenticateClient req)
  | getBoundProfilePackage req => exact hwraps (truthful_getBoundProfilePackage req)
  | handleNotification req => exact hwraps (truthful_handleNotification req)
  | orderAdd args => exact hwraps (truthful_orderAdd args)
  | orderReset i => exact hwraps (truthful_orderReset i)
  | orderList => exact hwraps truthful_orderList
  | reopen =>
    refine hwraps ?_
    simp
    exact fun _ => rfl

end

/-! ## Over every history -/

variable {config : ServerConfig} {p : ServerPool σ}
  {h : List (Step (ServerPool σ) (ServerLifeEvent σ))}

/-- What a command answers says what it has done in its life. -/
theorem says_of_answered (run : LifeRun config h p) {t : Nat} {c : Command} {a : Answer}
    (ht : p.threads[t]? = some ⟨c, .ret a⟩) : a.Says c (Machine.callsInLife t h) := by
  have hreturned := Machine.Run.returned_lives
    (P := fun _ => Protocol.recording fun _ _ => True) (truthful config) run ht
  rw [Protocol.recording_after] at hreturned
  exact hreturned

/-- **A failure has written nothing.** Whoever is told that a command failed, the database was left
as it was by every step of that command. The answer speaks for all the calls of its life
(`truthful`): none of them wrote, and a call that writes nothing leaves the database. -/
theorem failure_writes_nothing (run : LifeRun config h p) {t : Nat} {c : Command} {a : Answer}
    (ht : p.threads[t]? = some ⟨c, .ret a⟩) (hfailed : a.Failure) {before x after env call}
    (hh : h = before ++ x :: after) (hlife : ∀ y ∈ after, y.label ≠ .crashed)
    (hx : x.label = .alive (.called t c env call)) :
    x.post.shared.store = x.pre.shared.store := by
  have hnothing := hfailed.wrote_nothing (says_of_answered run ht)
  -- the call is one of those its answer speaks for: no crash has come since
  have hmade : call ∈ Machine.callsInLife t h := by
    rw [hh]
    exact Machine.mem_callsInLife_of_alive hlife hx
  have hcall : wrote call = false := by
    have hnone := List.filter_eq_nil_iff.mp hnothing call hmade
    simpa using hnone
  rw [hh] at run
  obtain ⟨_, step, _⟩ := run.split
  rw [hx] at step
  exact store_of_not_wrote step hcall

/-- In the next process the operator adds the same order again. -/
def addedAgain : List (Machine.Action Command (Env Bytes)) :=
  uninterrupted 0 (addProfile 7 "A") (.echo 0)

/-- The second order is refused as a duplicate, and its insert left the table alone. -/
theorem failure_writes_nothing_addedAgain :
    ((restarted beforeRestart addedAgain)[26]).post.shared.store
      = ((restarted beforeRestart addedAgain)[26]).pre.shared.store := by
  have ht : (restartedPool beforeRestart addedAgain).threads[0]?
      = some ⟨addProfile 7 "A",
          .ret (.added (.error (.service (.store (.duplicateMatchingId "A")))))⟩ := rfl
  exact failure_writes_nothing (run_restarted beforeRestart addedAgain) ht trivial
    (List.take_append_drop 26 _).symm (by simp) rfl

/-- **What an operator is told is so.** An order that was added is on file ever after, through
whatever later processes do (`h'`), as it was asked for. An order that was made available is on file
ever after, and that was written. What was listed was on file at one moment of the process that
listed it. And the one write there was is the one told of. -/
theorem operator_told (run : LifeRun config h p) {t : Nat} :
    (∀ args o, p.threads[t]? = some ⟨.orderAdd args, .ret (.added (.ok o))⟩ →
        ∃ new, IsOrdered (Machine.callsInLife t h) args new ∧ o.toRow = new.toRow o.id
          ∧ (∀ h' p', Run (LifeServing config) p h' p' →
            ∃ r, p'.shared.store.orders.row? o.id = some r ∧ o.toRow.SameProfile r)
          ∧ (Machine.callsInLife t h).filter wrote = [⟨.store (.addOrder new), .ok o⟩])
      ∧ (∀ i, p.threads[t]? = some ⟨.orderReset i, .ret (.reset (.ok ()))⟩ →
        (∀ h' p', Run (LifeServing config) p h' p' →
            ∃ r, p'.shared.store.orders.row? i = some r)
          ∧ (Machine.callsInLife t h).filter wrote
            = [⟨.store (.setState i .available), .ok ()⟩])
      ∧ ∀ orders, p.threads[t]? = some ⟨.orderList, .ret (.listed (.ok orders))⟩ →
        (∃ before x after env, h = before ++ x :: after
          ∧ x.label = .alive (.called t .orderList env ⟨.store .listOrders, .ok orders⟩)
          ∧ (∀ y ∈ after, y.label ≠ .crashed)
          ∧ x.pre.shared.store.orders.rows = orders.map Order.toRow)
        ∧ (Machine.callsInLife t h).filter wrote = [] := by
  refine ⟨?_, ?_, ?_⟩
  · -- added: the one write there was is the insert, at a step `x` of this life
    intro args o ht
    obtain ⟨_, new, hc, hordered, honce⟩ := says_of_answered run ht
    cases hc
    have hmade : ⟨.store (.addOrder new), .ok o⟩ ∈ Machine.callsInLife t h :=
      List.mem_of_mem_filter (honce ▸ List.mem_cons_self)
    obtain ⟨before, x, after, env, rfl, hx, _⟩ := Machine.Run.mem_callsInLife run ht hmade
    obtain ⟨_, step, hrest⟩ := run.split
    rw [hx] at step
    obtain ⟨hrow, hnew⟩ := row_of_added step
    refine ⟨new, hordered, hnew, ?_, honce⟩
    intro h' p' later
    exact lives_sameProfile (hrest.append later) hrow
  · -- reset: it was listed, so it is there, and a row stays for good
    intro i ht
    obtain ⟨_, o, hc, hlisted, rfl, honce⟩ := says_of_answered run ht
    cases hc
    obtain ⟨_, life, _, _, hlife, hcalls⟩ := Machine.Run.lastLife run
    rw [hcalls t] at hlisted
    obtain ⟨r, hr, _⟩ := row_of_listed hlife hlisted
    refine ⟨?_, honce⟩
    intro h' p' later
    obtain ⟨r', hr', _⟩ := lives_sameProfile later hr
    exact ⟨r', hr'⟩
  · -- listed: at one step `x`, and what it returned are the rows of that moment
    intro orders ht
    obtain ⟨hmade, hnone⟩ := says_of_answered run ht
    obtain ⟨before, x, after, env, rfl, hx, hlife⟩ := Machine.Run.mem_callsInLife run ht hmade
    obtain ⟨_, step, _⟩ := run.split
    rw [hx] at step
    refine ⟨⟨before, x, after, env, rfl, hx, hlife, ?_⟩, hnone⟩
    cases step with
    | alive step => exact SqliteStore.listed_eq_ok step.answered.1.symm

/-- The order is still there after a restart, and what `A` does then. -/
theorem operator_told_beforeRestart :
    ∃ r, (resumedPool (restartedPool [] beforeRestart) afterRestart).shared.store.orders.row? 1
        = some r ∧ r.matchingId = "A" := by
  have ht : (restartedPool [] beforeRestart).threads[0]?
      = some ⟨addProfile 7 "A", .ret (.added (.ok ⟨1, "A", iccidOf 7, [7],
          [0xbf, 0x25, 0x0c, 0x5a, 0x0a] ++ List.replicate 10 7, .available, none, none⟩))⟩ := rfl
  obtain ⟨_, _, _, hever, _⟩ := (operator_told (run_restarted [] beforeRestart)).1 _ _ ht
  obtain ⟨r, hr, hsame⟩ := hever _ _ (run_resumed (restartedPool [] beforeRestart) afterRestart)
  exact ⟨r, hr, hsame.matchingId⟩

end Smdp
