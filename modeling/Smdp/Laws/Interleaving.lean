import Smdp.Server.Concurrent

/-!
# Smdp — a settled order under interleaving

`authenticate_client` lists the orders, and writes `Bound` some operations later without
looking again. If another request settles the order in between, the write puts it back on
offer (`slips_back`). That is the one way: a run never lets a settled order slip back exactly
if no request binds an order that was settled, and not reset, after that request listed it
(`neverSlipsBack_iff`).
-/

namespace Smdp

open Interaction

variable {σ : Type} {config : ServerConfig} {p : ServerPool σ}
  {h : List (Step (ServerPool σ) (ServerPoolEvent σ))}

/-- An `order reset` of order `i` makes it available. -/
def ResetsNow (x : Step (ServerPool σ) (ServerPoolEvent σ)) (i : Int) : Prop :=
  ∃ t, Writes x.label t (.orderReset i) i .available

/-- A request records that order `i` was handed out or what its eUICC reported. -/
def SettlesNow (x : Step (ServerPool σ) (ServerPoolEvent σ)) (i : Int) : Prop :=
  ∃ t c state, ¬ state.Offered ∧ Writes x.label t c i state

/-- Once settled, an order is on offer again only after an `order reset` of it. -/
def NeverSlipsBack (h : List (Step (ServerPool σ) (ServerPoolEvent σ))) : Prop :=
  ∀ pre x mid y post i, h = pre ++ x :: (mid ++ y :: post) → x.post.shared.store.Settled i →
    y.post.shared.store.OnOffer i → ∃ z ∈ mid ++ [y], ResetsNow z i

/-- Whenever a request binds an order, whatever settled that order since the request listed it
has been followed by an `order reset`. -/
def BindsInTime (h : List (Step (ServerPool σ) (ServerPoolEvent σ))) : Prop :=
  ∀ pre x mid y post t c i, h = pre ++ x :: (mid ++ y :: post) → Lists x.label t i →
    Writes y.label t c i .bound →
    ∀ before w after, mid = before ++ w :: after → SettlesNow w i → ∃ z ∈ after, ResetsNow z i

/-! ## One step -/

variable {x : Step (ServerPool σ) (ServerPoolEvent σ)} {i : Int}

theorem SettlesNow.settled {txt : String} (hx : SettlesNow x i)
    (step : PoolServing config x.pre x.label x.post) (hi : x.pre.shared.store.state? i = some txt) :
    x.post.shared.store.Settled i := by
  obtain ⟨t, c, state, hstate, writes⟩ := hx
  exact ⟨state, hstate, writes.state step hi⟩

/-- An order becomes settled by a write. -/
theorem settlesNow_of_settled {txt : String} (step : PoolServing config x.pre x.label x.post)
    (hi : x.pre.shared.store.state? i = some txt) (hbefore : ¬ x.pre.shared.store.Settled i)
    (hafter : x.post.shared.store.Settled i) : SettlesNow x i := by
  obtain ⟨settled, hsettled, hstate⟩ := hafter
  rcases poolStep_state step hi with hkept | ⟨t, c, state, writes, hmoved⟩
  · rw [hkept] at hstate
    exact absurd ⟨settled, hsettled, hi.trans hstate⟩ hbefore
  · rw [hmoved] at hstate
    obtain rfl : state = settled := by simpa using hstate
    exact ⟨t, c, state, hsettled, writes⟩

/-- An order that is there stays. -/
theorem state?_kept (run : Run (PoolServing config) x.post h p) {txt : String}
    (hi : x.post.shared.store.state? i = some txt) :
    ∃ txt', p.shared.store.state? i = some txt' := by
  refine run.invariant (fun p => ∃ txt', p.shared.store.state? i = some txt') ⟨txt, hi⟩ ?_
  rintro p l p' ⟨txt', htxt'⟩ step
  rcases poolStep_state step htxt' with hkept | ⟨_, _, state, _, hmoved⟩
  · exact ⟨txt', hkept⟩
  · exact ⟨state.asStr, hmoved⟩

/-! ## Whole runs -/

/-- An order a request has seen on offer is not settled when the request binds it, if every
settling since was followed by a reset. The last write that settled it would have none. -/
theorem not_settled_of_inTime (hbinds : BindsInTime h) (run : PoolRun config h p)
    {pre mid post : List (Step (ServerPool σ) (ServerPoolEvent σ))}
    {y : Step (ServerPool σ) (ServerPoolEvent σ)} {t : Nat} {c : Command}
    (hh : h = pre ++ x :: (mid ++ y :: post)) (hx : Lists x.label t i)
    (hy : Writes y.label t c i .bound) : ¬ y.pre.shared.store.Settled i := by
  intro hsettled
  rw [hh] at run
  obtain ⟨_, stepx, rest⟩ := run.split
  obtain ⟨middle, _, _⟩ := rest.split
  have honOffer : x.post.shared.store.OnOffer i := hx.onOffer stepx
  obtain ⟨state, _, hstate⟩ := id honOffer
  obtain ⟨before, w, after, hmid, hw, hw', hsince⟩ :=
    middle.enters (P := fun p => p.shared.store.Settled i) (fun hs => hs.not_onOffer honOffer)
      hsettled
  rw [hmid] at middle
  obtain ⟨hbefore, stepw, hafter⟩ := middle.split
  obtain ⟨txt, htxt⟩ := state?_kept hbefore hstate
  have hsettles : SettlesNow w i := settlesNow_of_settled stepw htxt hw hw'
  obtain ⟨z, hz, t', hresets⟩ := hbinds _ _ _ _ _ _ _ _ hh hx hy before w after hmid hsettles
  -- the reset would have put the order back on offer
  obtain ⟨_, stepz⟩ := hafter.of_mem hz
  obtain ⟨⟨settled, _, hz'⟩, hzpost⟩ := hsince z hz
  exact hzpost.not_onOffer ⟨.available, .inl rfl, hresets.state stepz hz'⟩

/-- Under the condition an order settled stays settled until it is reset. -/
theorem settled_kept (hbinds : BindsInTime h) (run : PoolRun config h p) (hx : x ∈ h)
    (hi : x.pre.shared.store.Settled i) (hreset : ¬ ResetsNow x i) :
    x.post.shared.store.Settled i := by
  obtain ⟨before, after, hh⟩ := List.append_of_mem hx
  have hrun := run
  rw [hh] at hrun
  obtain ⟨hbefore, step, _⟩ := hrun.split
  obtain ⟨settled, hsettled, hstate⟩ := id hi
  rcases poolStep_state step hstate with hkept | ⟨t, c, state, writes, hmoved⟩
  · exact ⟨settled, hsettled, hkept⟩
  · by_cases hoffered : state.Offered
    · rcases writes.warranted hbefore step hoffered with ⟨rfl, rfl⟩ | ⟨rfl, y, hy, hlists⟩
      · exact absurd ⟨t, writes⟩ hreset
      · obtain ⟨pre, mid, rfl⟩ := List.append_of_mem hy
        have hcut : h = pre ++ y :: (mid ++ x :: after) := by simpa using hh
        exact absurd hi (not_settled_of_inTime hbinds run hcut hlists writes)
    · exact ⟨state, hoffered, hmoved⟩

/-- **A settled order never slips back exactly if every request binds in time.** A request that
lists an order, is overtaken by what settles it, and binds it all the same has put it back on offer
by that one write. The other way round, what is put back on offer was put there by a reset or by a
binding, and the binding was by a request that had listed it. -/
theorem neverSlipsBack_iff (run : PoolRun config h p) : NeverSlipsBack h ↔ BindsInTime h := by
  constructor
  · rintro hnever pre x mid y post t c i rfl hx hy before w after rfl hw
    obtain ⟨_, stepx, rest⟩ := run.split
    obtain ⟨middle, stepy, _⟩ := rest.split
    obtain ⟨hbefore, stepw, hafter⟩ := middle.split
    obtain ⟨state, _, hstate⟩ := hx.onOffer stepx
    obtain ⟨txt, htxt⟩ := state?_kept hbefore hstate
    have hsettled : w.post.shared.store.Settled i := hw.settled stepw htxt
    -- binding puts it back on offer
    obtain ⟨settled, _, hthere⟩ := id hsettled
    obtain ⟨txt', htxt'⟩ := state?_kept hafter hthere
    have honOffer : y.post.shared.store.OnOffer i := ⟨.bound, .inr rfl, hy.state stepy htxt'⟩
    obtain ⟨z, hz, hresets⟩ :=
      hnever (pre ++ x :: before) w after y post i (by simp) hsettled honOffer
    rcases List.mem_append.mp hz with hz | hz
    · exact ⟨z, hz, hresets⟩
    · obtain rfl := List.mem_singleton.mp hz
      obtain ⟨t', env', hlabel'⟩ := hresets
      obtain ⟨env, hlabel⟩ := hy
      rw [hlabel] at hlabel'
      cases hlabel'
  · rintro hbinds pre x mid y post i hh hsettled honOffer
    have hrun := run
    rw [hh] at hrun
    obtain ⟨_, _, rest⟩ := hrun.split
    have hrest : Run (PoolServing config) x.post (mid ++ [y]) y.post := by
      obtain ⟨middle, stepy, _⟩ := rest.split
      exact middle.snoc stepy
    by_contra hnone
    push Not at hnone
    refine (hrest.unless (P := fun p : ServerPool σ => p.shared.store.Settled i) (Q := fun z => ResetsNow z i)
      ?_ hsettled hnone).not_onOffer honOffer
    intro z hz _ hi hreset
    have hzh : z ∈ h := by
      rw [hh]
      simp only [List.mem_append, List.mem_cons] at hz ⊢
      tauto
    exact settled_kept hbinds run hzh hi hreset

/-! ## A run in which it does -/

/-- Start `c` as thread `t` and let it run until it returns. -/
def uninterrupted (t : Nat) (c : Command) (env : Env Bytes) :
    List (Machine.Action Command (Env Bytes)) :=
  .start c :: List.replicate 20 (.go t env)

/-- `B`'s request lists the order. Before it goes on, `A` authenticates and downloads. No
section under the session mutex is interrupted. -/
def lateBinding : List (Machine.Action Command (Env Bytes)) :=
  uninterrupted 0 (addProfile 7 "A") (.echo 0) ++ uninterrupted 1 initiate (.echo 1)
    ++ uninterrupted 2 initiate (.echo 2) ++ [.start (authenticate 2 [66]), .go 3 (.echo 0)]
    ++ uninterrupted 4 (authenticate 1 [65]) (.echo 0) ++ uninterrupted 5 (download 1) (.echo 0)
    ++ List.replicate 20 (.go 3 (.echo 0))

/-- The history of a schedule on a fresh database. -/
def scheduled (actions : List (Machine.Action Command (Env Bytes))) :
    List (Step (ServerPool Bytes) (ServerPoolEvent Bytes)) :=
  (machine ⟨"smdp.example.com"⟩).play (.idle AppState.fresh) actions

theorem run_scheduled (actions : List (Machine.Action Command (Env Bytes))) :
    PoolRun ⟨"smdp.example.com"⟩ (scheduled actions)
      ((machine ⟨"smdp.example.com"⟩).played (.idle AppState.fresh) actions) :=
  Machine.run_play _ actions

theorem neverSlipsBack_iff_lateBinding :
    NeverSlipsBack (scheduled lateBinding) ↔ BindsInTime (scheduled lateBinding) :=
  neverSlipsBack_iff (run_scheduled lateBinding)

/-- The order was downloaded, no `order reset` ran, and it is bound again. -/
theorem slips_back :
    ¬ ∀ (config : ServerConfig) (h : List (Step (ServerPool Bytes) (ServerPoolEvent Bytes)))
        (p : ServerPool Bytes), PoolRun config h p → NeverSlipsBack h := by
  intro hall
  have hnever := hall _ _ _ (run_scheduled lateBinding)
  have hsettled : ((scheduled lateBinding)[41]).post.shared.store.state? 1
      = some OrderState.downloaded.asStr := by decide
  have hbound : ((scheduled lateBinding)[51]).post.shared.store.state? 1
      = some OrderState.bound.asStr := by decide
  obtain ⟨z, hz, t, env, hlabel⟩ := hnever ((scheduled lateBinding).take 41)
    ((scheduled lateBinding)[41]) (((scheduled lateBinding).drop 42).take 9)
    ((scheduled lateBinding)[51]) [] 1 rfl ⟨.downloaded, by decide, hsettled⟩
    ⟨.bound, by decide, hbound⟩
  have hnone : ∀ z ∈ ((scheduled lateBinding).drop 42).take 9 ++ [(scheduled lateBinding)[51]],
      z.label.command ≠ .orderReset 1 := by decide
  exact hnone z hz (by rw [hlabel]; rfl)

end Smdp
