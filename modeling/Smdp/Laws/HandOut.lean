import Mathlib.Tactic.IntervalCases
import Smdp.Server.Step

/-!
# Smdp — a Profile is handed out once

`get_bound_profile_package` looks its order up by the id the session remembers and never
looks at the order's state. Two sessions authenticated while an order was on offer are both
served (`handedOut_twice`). As long as every package asked for belongs to an order that is
still on offer, an order is handed out again only after a reset (`handedOut_once`).
-/

namespace Smdp

open Interaction

variable {σ : Type} {config : ServerConfig} {s : AppState σ}
  {h : List (Step (AppState σ) (Event σ))}

/-- Between any two hand-outs of an order it was reset. -/
def HandedOutOnce (h : List (Step (AppState σ) (Event σ))) : Prop :=
  ∀ pre x mid y post i, h = pre ++ x :: (mid ++ y :: post) → HandsOut x.pre x.label i →
    HandsOut y.pre y.label i → ∃ z ∈ mid, Resets z.label i

/-- A hand-out that the store records settles its order. -/
theorem HandsOut.settled {x : Event σ} {s s' : AppState σ} {i : Int} (hx : HandsOut s x i)
    (step : Serving config s x s') (hfaults : x.input.faults = StoreFaults.none) :
    s'.store.Settled i := by
  obtain ⟨order, hrow⟩ := hx.row
  refine ⟨.downloaded, by decide, ?_⟩
  rw [hx.store step, SqliteStore.state?_after_setState, hfaults, if_pos ⟨rfl, rfl⟩,
    SqliteStore.state?_of_row? hrow]
  rfl

/-- **An order is handed out once, until it is reset**, in every run in which every package
asked for belongs to an order that is still on offer: a hand-out settles its order, nothing
but a reset unsettles it, and a settled order is not on offer. -/
theorem handedOut_once (run : ServerRun config h s) (hfaults : NoFaults h)
    (hoffer : ∀ x ∈ h, ∀ i, AsksFor x.pre x.label i → x.pre.store.OnOffer i) :
    HandedOutOnce h := by
  rintro pre x mid y post i rfl hx hy
  obtain ⟨_, stepx, rest⟩ := run.split
  obtain ⟨_, stepy, _⟩ := rest.split
  have hsettled : x.post.store.Settled i := hx.settled stepx (hfaults x (by simp))
  have hasked : y.pre.store.OnOffer i := by
    obtain ⟨entry, hover⟩ := hy
    exact hoffer y (by simp) i ⟨entry, (handsOutOver_iff stepy).mp hover⟩
  refine run.between (P := fun s => s.store.Settled i) (Q := fun z => Resets z.label i) ?_
    hsettled (fun hy => hy.not_onOffer hasked)
  intro z _ step hz hreset
  exact serving_settled step hz hreset

/-- A download, a reset, and a download again. -/
def downloadAgain : List (Command × Env Bytes) :=
  [(addProfile 7 "A", .echo 0), (initiate, .echo 1), (authenticate 1 [65], .echo 0),
   (download 1, .echo 0), (.orderReset 1, .echo 0), (initiate, .echo 2),
   (authenticate 2 [65], .echo 0), (download 2, .echo 0)]

theorem downloadAgain_onOffer :
    ∀ x ∈ echoed downloadAgain, ∀ i, AsksFor x.pre x.label i → x.pre.store.OnOffer i := by
  intro x hx i hask
  obtain ⟨n, hn, rfl⟩ := List.getElem_of_mem hx
  obtain ⟨entry, req, order, session, bpp, command, deliverable, rfl, -⟩ := hask
  have hlt : n < 8 := hn
  interval_cases n
  case «3» | «7» =>
    -- the two downloads
    cases command
    obtain ⟨live, served⟩ := deliverable
    cases live
    cases served
    exact ⟨.bound, by decide, rfl⟩
  all_goals cases command

theorem handedOut_once_downloadAgain : HandedOutOnce (echoed downloadAgain) :=
  handedOut_once (run_echoed downloadAgain)
    (noFaults_echoed (by simp [downloadAgain, Env.echo])) downloadAgain_onOffer

/-- Two sessions of one eUICC, both authenticated before either downloads. -/
def twoDownloads : List (Command × Env Bytes) :=
  [(addProfile 7 "A", .echo 0), (initiate, .echo 1), (initiate, .echo 2),
   (authenticate 1 [65], .echo 0), (authenticate 2 [65], .echo 0),
   (download 1, .echo 0), (download 2, .echo 0)]

theorem twoDownloads_noFaults : NoFaults (echoed twoDownloads) :=
  noFaults_echoed (by simp [twoDownloads, Env.echo])

/-- The order is handed out to both, with nothing in between. -/
theorem handedOut_twice :
    ¬ ∀ (config : ServerConfig) (h : List (Step (AppState Bytes) (Event Bytes)))
        (s : AppState Bytes), ServerRun config h s → NoFaults h → HandedOutOnce h := by
  intro hall
  have honce := hall _ _ _ (run_echoed twoDownloads) twoDownloads_noFaults
  obtain ⟨z, hz, _⟩ := honce ((echoed twoDownloads).take 5) ((echoed twoDownloads)[5]) []
    ((echoed twoDownloads)[6]) [] 1 rfl ⟨_, _, _, _, rfl, rfl, rfl, ⟨rfl, rfl⟩, rfl⟩
    ⟨_, _, _, _, rfl, rfl, rfl, ⟨rfl, rfl⟩, rfl⟩
  cases hz

end Smdp
