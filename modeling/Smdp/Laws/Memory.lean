import Mathlib.Data.Set.Card
import Smdp.Laws.Account
import Smdp.Server.Section

/-!
# Smdp — what the session table can hold

Nothing but a request or a later `insert` takes a session out of the table, so a device that opens
sessions and leaves them costs memory. How much is bounded by how many were opened lately: a live
session is one of the openings that no later `insert` has found older than `MAX_AGE`
(`live_mem_window`). The table is changed by many requests at once; that none of them brings back
a session that was swept rests on the mutex.
-/

namespace Smdp

open Interaction

variable {σ : Type} {config : ServerConfig} {p : ServerPool σ}
  {h : List (Step (ServerPool σ) (ServerLifeEvent σ))}

/-! ## The openings of late -/

/-- The transactionIds that were opened and when, less what `insert` found too old. -/
abbrev Window := List (Bytes × Instant)

def Window.next (w : Window) : ServerLifeEvent σ → Window
  | .alive (.called _ _ env ⟨.insertSession t _, _⟩) =>
    w.filter (fun o => env.sweptAt.durationSince o.2 < maxAge) ++ [(t, env.born)]
  | .alive _ => w
  | .crashed => []

def window (h : List (Step (ServerPool σ) (ServerLifeEvent σ))) : Window :=
  h.foldl (fun w x => w.next x.label) []

theorem window_snoc (x : Step (ServerPool σ) (ServerLifeEvent σ)) :
    window (h ++ [x]) = (window h).next x.label := by
  unfold window
  rw [List.foldl_append]
  rfl

/-! ## One call -/

/-- The entry a section is at work on is still in the table, as old as it was. -/
def Aged (s : AppState σ) : Section σ → Prop
  | .found t e | .refused t e | .accepted t e _ =>
    ∃ e', s.sessions.get t = some e' ∧ e'.born = e.born
  | _ => True

/-- Every live session is in the window. -/
def InWindow (w : Window) (s : AppState σ) : Prop :=
  ∀ t e, s.sessions.get t = some e → (t, e.born) ∈ w

variable {w : Window} {s : AppState σ} {φ : Section σ} {c : Command}
  {made : List (Call (ServerSig σ))}

theorem InWindow.insert (hw : InWindow w s) (env : Env σ) (t : Bytes) (session : σ) :
    InWindow (w.filter (fun o => env.sweptAt.durationSince o.2 < maxAge) ++ [(t, env.born)])
      (AppState.perform env (.insertSession t session) s).2 := by
  intro t' e he
  have hget : (s.sessions.insert t session env.sweptAt env.born).get t' = some e := he
  rw [Sessions.get_insert] at hget
  split at hget
  · rename_i ht
    obtain rfl := Option.some.inj hget
    rw [ht]
    simp
  · -- it survived the sweep, and so does its opening
    obtain ⟨hlive, hage⟩ := Option.filter_eq_some_iff.mp hget
    exact List.mem_append_left _ (List.mem_filter.mpr ⟨hw t' e hlive, hage⟩)

/-- Writing an entry back keeps the age of the session. -/
theorem InWindow.put (hw : InWindow w s) {t : Bytes} {e : Entry σ}
    (haged : ∃ e', s.sessions.get t = some e' ∧ e'.born = e.born) :
    InWindow w { s with sessions := s.sessions.put t e } := by
  intro t' e₁ he₁
  have hget : (s.sessions.put t e).get t' = some e₁ := he₁
  rw [Sessions.get_put] at hget
  split at hget
  · rename_i ht
    obtain rfl := Option.some.inj hget
    obtain ⟨e', hlive, hborn⟩ := haged
    rw [ht, ← hborn]
    exact hw t e' hlive
  · exact hw t' e₁ hget

theorem InWindow.remove (hw : InWindow w s) (t : Bytes) :
    InWindow w { s with sessions := s.sessions.remove t } := by
  intro t' e he
  have hget : (s.sessions.remove t).get t' = some e := he
  rw [Sessions.get_remove] at hget
  split at hget
  · cases hget
  · exact hw t' e hget

/-- The library changes the session of an entry and not its age. -/
theorem Aged.asked (haged : Aged s φ) (session : σ) (done : Bytes → Entry σ → Section σ)
    (hdone : ∀ t e, Aged s (.found t e) → Aged s (done t e)) (ok : Bool) :
    Aged s (φ.asked session done ok) := by
  cases φ with
  | found t e =>
    cases ok with
    | true => exact hdone t _ haged
    | false => exact haged
  | _ => exact haged

/-- **A call that a section allows keeps the table in the window.** -/
theorem inWindow_step {op : ServerOp σ} (hop : op.InSection c φ made) (hw : InWindow w s)
    (haged : Aged s φ) (env : Env σ) (t : Nat) :
    InWindow (w.next (.alive (.called t c env ⟨op, (AppState.perform env op s).1⟩)))
        (AppState.perform env op s).2
      ∧ Aged (AppState.perform env op s).2 (φ.next ⟨op, (AppState.perform env op s).1⟩) := by
  cases op with
  | lock => exact ⟨hw, trivial⟩
  | unlock => exact ⟨hw, trivial⟩
  | insertSession t session =>
    obtain rfl : φ = .inside := hop
    exact ⟨hw.insert env t session, trivial⟩
  | getSession t =>
    obtain ⟨rfl, _⟩ := hop
    refine ⟨hw, ?_⟩
    show Aged s (Section.looked .inside t (s.sessions.get t))
    cases hlive : s.sessions.get t with
    | none => trivial
    | some e => exact ⟨e, hlive, rfl⟩
  | putSession t e =>
    rcases hop with rfl | ⟨e₀, o, _, rfl, rfl⟩
    · exact ⟨hw.put haged, trivial⟩
    · exact ⟨hw.put haged, trivial⟩
  | removeSession t =>
    obtain rfl : φ = .spent t := hop
    exact ⟨hw.remove t, trivial⟩
  | rsp call =>
    refine ⟨hw, ?_⟩
    cases call with
    | dpAuthenticateClient session authServerResp metadata =>
      exact haged.asked _ (fun t e => .accepted t e metadata) (fun _ _ haged => haged) _
    | dpGetBoundProfilePackage session resp upp otskDp =>
      exact haged.asked _ (fun t _ => .spent t) (fun _ _ _ => trivial) _
    | _ => exact haged
  | store call =>
    refine ⟨hw, ?_⟩
    show Aged { s with store := s.store.after env.faults call } φ
    -- a store call leaves the table, and where the thread stands
    cases φ <;> exact haged
  | _ => exact ⟨hw, haged⟩

/-! ## Histories -/

/-- **Every live session was opened lately.** -/
theorem live_mem_window (run : LifeRun config h p) : InWindow (window h) p.shared := by
  have hlives : ∃ life s₁, Run (PoolServing config) (.idle s₁) life p
      ∧ InWindow (window h) p.shared ∧ Aged p.shared (heldSection life p) := by
    -- over the lives, and in each of them over its steps. The entry that a thread holds in its
    -- hands is aged as the table's, which is what lets it be written back
    apply Machine.Run.inductLives run
    · refine ⟨?_, trivial⟩
      intro t e he
      cases he
    · rintro s₁ h life q l q' hlife step ⟨hw, haged⟩
      rw [window_snoc]
      cases l with
      | started t c =>
        obtain ⟨hshared, hsection⟩ := heldSection_started step
        rw [hshared, hsection]
        exact ⟨hw, haged⟩
      | called t c env call =>
        obtain ⟨hanswer, hshared⟩ := step.answered
        obtain ⟨op, answer⟩ := call
        obtain rfl : answer = (AppState.perform env op q.shared).1 := hanswer
        rw [hshared]
        rcases heldSection_of_step hlife step with ⟨hop, hsection⟩ | ⟨hquiet, hsection⟩
        · rw [hsection]
          exact inWindow_step hop hw haged env t
        · rw [hsection, ← hquiet.next (heldSection life q) (AppState.perform env op q.shared).1]
          have hop : op.InSection c (heldSection life q) [] := hquiet.inSection _
          exact inWindow_step hop hw haged env t
    · rintro h life q _
      refine ⟨?_, trivial⟩
      intro t e he
      cases he
  obtain ⟨_, _, _, hw, _⟩ := hlives
  exact hw

/-- **The session table is no larger than its window**: after any history the live sessions are
finitely many, and no more than were opened in this process and not since found to be `MAX_AGE` or
older by a request that opened another. Each of them is one of those openings, so a session that was
swept stays away, unless it is opened again. -/
theorem sessions_bounded (run : LifeRun config h p) :
    InWindow (window h) p.shared
      ∧ {t | p.shared.sessions.get t ≠ none}.Finite
      ∧ {t | p.shared.sessions.get t ≠ none}.ncard ≤ (window h).length := by
  have hlive := live_mem_window run
  have hsubset : {t | p.shared.sessions.get t ≠ none}
      ⊆ (((window h).map Prod.fst).toFinset : Set Bytes) := by
    intro t ht
    obtain ⟨e, he⟩ := Option.ne_none_iff_exists'.mp ht
    exact List.mem_toFinset.mpr (List.mem_map.mpr ⟨_, hlive t e he, rfl⟩)
  have hfinite := Finset.finite_toSet ((window h).map Prod.fst).toFinset
  refine ⟨hlive, hfinite.subset hsubset, ?_⟩
  -- each live key is the key of an opening in the window
  calc {t | p.shared.sessions.get t ≠ none}.ncard
      ≤ (((window h).map Prod.fst).toFinset : Set Bytes).ncard := Set.ncard_le_ncard hsubset hfinite
    _ = ((window h).map Prod.fst).toFinset.card := Set.ncard_coe_finset _
    _ ≤ ((window h).map Prod.fst).length := List.toFinset_card_le _
    _ = (window h).length := List.length_map _

/-- In the run of the two that bind late. -/
theorem sessions_bounded_lateBinding :
    InWindow (window ((scheduled lateBinding).map Step.inLife))
        ((machine ⟨"smdp.example.com"⟩).played (.idle AppState.fresh) lateBinding).shared
      ∧ {t | ((machine ⟨"smdp.example.com"⟩).played (.idle AppState.fresh)
          lateBinding).shared.sessions.get t ≠ none}.ncard
        ≤ (window ((scheduled lateBinding).map Step.inLife)).length := by
  obtain ⟨hlive, _, hcard⟩ := sessions_bounded (Machine.Run.inLife (run_scheduled lateBinding))
  exact ⟨hlive, hcard⟩

end Smdp
