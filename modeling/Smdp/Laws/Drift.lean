import Smdp.Laws.OneDownload

/-!
# Smdp — metadata and Profile never drift apart

The metadata is handed to the library in `authenticate_client`, the UPP in
`get_bound_profile_package`, and all that links the two is the id in `order_id`.
`chosen_of_live` is what that id is worth: it is the order that was the only one on offer
when the library last accepted the session. Ids are never reused and no store call rewrites
a Profile (`run_sameProfile`), so the UPP found by it later is the same order's
(`no_drift`). Nothing is assumed of the library or of the store calls that fail.
-/

namespace Smdp

open Interaction

variable {σ : Type} {config : ServerConfig} {s s' s₀ : AppState σ}
  {h : List (Step (AppState σ) (Event σ))}

/-! ## What was handed to the library -/

/-- An AuthenticateClient call on `t` with the metadata `metadata` that the library
accepted. -/
def Accepts (x : Event σ) (t metadata : Bytes) : Prop :=
  ∃ req, x.command = .authenticateClient req ∧ req.transactionId = t
    ∧ metadata ∈ x.calls.filterMap acceptedMetadata

/-- An order chosen for an `authenticate_client` is the only one on offer. -/
theorem Chosen.only {env : Env σ} {t : Bytes} {order : Order} {entry : Entry σ}
    (hchosen : Chosen env s t order entry) (i : Int) : s.store.OnOffer i ↔ i = order.id := by
  constructor
  · rintro ⟨state, hoffered, hstate⟩
    obtain ⟨⟨orders, hlist, havail⟩, _⟩ := hchosen
    -- the row of `i` holds a listed order, which passes the filter
    obtain ⟨r, hrow, hr⟩ := Option.map_eq_some_iff.mp hstate
    have hrows := SqliteStore.listed_eq_ok hlist
    have hmem : r ∈ orders.map Order.toRow := hrows ▸ Rowid.Table.mem_of_row? hrow
    obtain ⟨o, ho, rfl⟩ := List.mem_map.mp hmem
    have hsame : o.state = state := OrderState.asStr_inj.mp hr
    have hin : o ∈ availableOrders orders := by
      unfold availableOrders
      refine List.mem_filter.mpr ⟨ho, ?_⟩
      rw [hsame]
      simpa [OrderState.Offered] using hoffered
    rw [havail] at hin
    obtain rfl := List.mem_singleton.mp hin
    exact (Rowid.Table.key_of_row? hrow).symm
  · rintro rfl
    obtain ⟨hrow, hoffered⟩ := hchosen.onOffer
    exact ⟨order.state, hoffered, SqliteStore.state?_of_row? hrow⟩

/-- What an accepted call says: an order was chosen, its metadata was handed over, and the
session is for it from then on. -/
theorem Accepts.elim {x : Event σ} {t metadata : Bytes} (hx : Accepts x t metadata)
    (step : Serving config s x s') :
    ∃ order entry e, Chosen x.input s t order entry ∧ metadata = order.metadata
      ∧ s'.sessions.get t = some e ∧ e.orderId = some order.id := by
  obtain ⟨req, command, rfl, hmem⟩ := hx
  obtain ⟨r, _, exit⟩ := serving_authenticateClient step command
  cases exit with
  | turnedAway _ _ unasked =>
    rw [unasked] at hmem
    cases hmem
  | refused _ _ _ unaccepted =>
    rw [unaccepted] at hmem
    cases hmem
  | @uncut _ _ order entry _ _ _ chosen _ _ _ accepted =>
    rw [accepted] at hmem
    exact ⟨order, entry, _, chosen, List.mem_singleton.mp hmem,
      (AppState.get_putSession s _ _ _).trans (if_pos rfl), rfl⟩
  | @answered _ _ order entry _ _ _ chosen _ _ _ accepted =>
    rw [accepted] at hmem
    exact ⟨order, entry, _, chosen, List.mem_singleton.mp hmem,
      (AppState.get_putSession s _ _ _).trans (if_pos rfl), rfl⟩

/-! ## A Profile is never rewritten -/

theorem run_sameProfile (run : Run (Serving config) s₀ h s) {i : Int} {r : OrderRow}
    (hr : s₀.store.orders.row? i = some r) :
    ∃ r', s.store.orders.row? i = some r' ∧ r.SameProfile r' := by
  refine run.invariant (fun s => ∃ r', s.store.orders.row? i = some r' ∧ r.SameProfile r')
    ⟨r, hr, .refl r⟩ ?_
  rintro s x s' ⟨r', hr', hsame⟩ step
  obtain ⟨r'', hr'', hsame'⟩ := serving_sameProfile step hr'
  exact ⟨r'', hr'', hsame.trans hsame'⟩

/-! ## What `order_id` is worth -/

/-- The last call on `t` that the library accepted handed over the metadata of order `i`,
which was then the only order on offer. -/
def LastAccepted (h : List (Step (AppState σ) (Event σ))) (t : Bytes) (i : Int) : Prop :=
  ∃ h₁ a h₂, ∃ order : Order, h = h₁ ++ a :: h₂ ∧ Accepts a.label t order.metadata
    ∧ (∀ z ∈ h₂, ∀ metadata, ¬ Accepts z.label t metadata) ∧ order.id = i
    ∧ a.pre.store.orders.row? i = some order.toRow ∧ ∀ j, a.pre.store.OnOffer j ↔ j = i

theorem LastAccepted.snoc {t : Bytes} {i : Int} {z : Step (AppState σ) (Event σ)}
    (hlast : LastAccepted h t i) (hz : ∀ metadata, ¬ Accepts z.label t metadata) :
    LastAccepted (h ++ [z]) t i := by
  obtain ⟨h₁, a, h₂, order, rfl, haccepts, hnone, hid, hrow, honly⟩ := hlast
  refine ⟨h₁, a, h₂ ++ [z], order, by simp, haccepts, ?_, hid, hrow, honly⟩
  intro z' hz'
  rcases List.mem_append.mp hz' with hz' | hz'
  · exact hnone z' hz'
  · obtain rfl := List.mem_singleton.mp hz'
    exact hz

/-- **A live session is for the order the library last accepted it with.** Induction on the
run: an accepted call on `t` sets the id itself, and no other step does. -/
theorem chosen_of_live (run : ServerRun config h s) :
    ∀ t e i, s.sessions.get t = some e → e.orderId = some i → LastAccepted h t i := by
  induction run with
  | nil =>
    intro t e i hlive
    cases hlive
  | @snoc h s s' x run step ih =>
    intro t e i hlive horder
    by_cases hx : ∃ metadata, Accepts x t metadata
    · obtain ⟨metadata, haccepts⟩ := hx
      -- accepted just now, on the only order on offer
      obtain ⟨order, entry, e', chosen, rfl, hlive', horder'⟩ := haccepts.elim step
      obtain rfl := Option.some.inj (hlive.symm.trans hlive')
      obtain rfl := Option.some.inj (horder.symm.trans horder')
      refine ⟨h, _, [], order, rfl, haccepts, ?_, rfl, chosen.onOffer.1, chosen.only⟩
      intro z hz
      cases hz
    · have hnone : ∀ metadata, ¬ Accepts x t metadata := fun metadata h => hx ⟨metadata, h⟩
      cases serving_session step t with
      | kept entry => exact (ih t e i (entry.symm.trans hlive) horder).snoc hnone
      | swept _ _ _ entry =>
        rw [hlive] at entry
        cases entry
      | opened _ _ _ _ _ entry =>
        obtain rfl := Option.some.inj (hlive.symm.trans entry)
        cases horder
      | @refused e₀ session _ _ live entry =>
        obtain rfl := Option.some.inj (hlive.symm.trans entry)
        exact (ih t e₀ i live horder).snoc hnone
      | @authenticated req _ order _ _ _ command names _ _ _ _ accepted =>
        refine absurd ⟨req, command, names, ?_⟩ (hnone order.metadata)
        rw [accepted]
        exact List.mem_singleton_self _
      | handedOut _ _ _ _ _ entry =>
        rw [hlive] at entry
        cases entry

/-! ## The law -/

/-- Whenever a package is delivered on `t`, the UPP handed to the library is that of the
order whose metadata it was handed in the last call on `t` it accepted, and that order was
then the only one on offer. -/
def NoDrift (h : List (Step (AppState σ) (Event σ))) : Prop :=
  ∀ pre y post t, h = pre ++ y :: post → Delivers y.label t →
    ∃ h₁ a h₂, ∃ order : Order, pre = h₁ ++ a :: h₂ ∧ Accepts a.label t order.metadata
      ∧ (∀ z ∈ h₂, ∀ metadata, ¬ Accepts z.label t metadata)
      ∧ a.pre.store.orders.row? order.id = some order.toRow
      ∧ (∀ j, a.pre.store.OnOffer j ↔ j = order.id)
      ∧ y.label.calls.filterMap handedUpp = [order.upp]

/-- **Metadata and Profile never drift apart, and the server never guesses.** The order on the
session was written there by the last call the library accepted on it (`chosen_of_live`), and from
that call to the hand-out the row of that order keeps its metadata and its UPP, whatever else
happens to it. -/
theorem no_drift (run : ServerRun config h s) : NoDrift h := by
  rintro pre y post t rfl ⟨req, r, command, rfl, answer, succeeded⟩
  obtain ⟨before, step, _⟩ := run.split
  obtain ⟨served, entry, _, _, deliverable, _, handed, _⟩ :=
    serving_handedOut step command answer succeeded
  obtain ⟨horder, hserved⟩ := SqliteStore.servedOrder_eq_some deliverable.served
  obtain ⟨h₁, a, h₂, order, rfl, haccepts, hnone, hid, hrow, honly⟩ :=
    chosen_of_live before _ _ _ deliverable.live horder
  -- from the accepted call to here the row kept its Profile
  obtain ⟨_, hstep, hrest⟩ := before.split
  obtain ⟨r', hr', hsame⟩ := run_sameProfile (Run.cons hstep hrest) hrow
  obtain rfl := Option.some.inj (hserved.symm.trans hr')
  have hupp : served.upp = order.upp := hsame.upp
  rw [← hid] at hrow honly
  refine ⟨h₁, a, h₂, order, rfl, haccepts, hnone, hrow, honly, ?_⟩
  rw [handed, hupp]

/-- The download of `oneDownload` goes by the order that was accepted. -/
theorem no_drift_oneDownload : NoDrift (echoed oneDownload) := no_drift (run_echoed oneDownload)

end Smdp
