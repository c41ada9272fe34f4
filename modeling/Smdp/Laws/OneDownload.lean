import Smdp.Server.Live

/-!
# Smdp — a session yields one package, after its own authentication

The session table keeps two bits of evidence: that an entry is there, and its `order_id`.
`accounted_of_live` says what they are evidence of, over whole runs: an entry for `t` was
opened by an answered `initiate_authentication`, nothing was downloaded on `t` since, and
an `order_id` means an `authenticate_client` on `t` was answered since. With it,
`one_download_per_session` says where a package can come from and what else can touch an
entry.
-/

namespace Smdp

open Interaction

variable {σ : Type} {config : ServerConfig} {s s' : AppState σ}
  {h : List (Step (AppState σ) (Event σ))}

/-! ## What a delivery tells of its session -/

/-- A package is delivered over a live session with an order, which is used up by it. -/
theorem Delivers.elim {x : Event σ} {t : Bytes} (hx : Delivers x t)
    (step : Serving config s x s') :
    (∃ e, s.sessions.get t = some e ∧ e.orderId ≠ none) ∧ s'.sessions.get t = none := by
  obtain ⟨req, r, command, rfl, answer, succeeded⟩ := hx
  obtain ⟨order, entry, _, _, deliverable, _, _, rfl⟩ :=
    serving_handedOut step command answer succeeded
  have horder := (SqliteStore.servedOrder_eq_some deliverable.served).1
  refine ⟨⟨entry, deliverable.live, ?_⟩, ?_⟩
  · rw [horder]
    exact Option.some_ne_none _
  · show (s.sessions.remove req.transactionId).get req.transactionId = none
    rw [Sessions.get_remove, if_pos rfl]

/-! ## What the history tells of a live entry -/

/-- The fields of every response the library accepts an eUICC with can be cut. -/
def FieldsCut (h : List (Step (AppState σ) (Event σ))) : Prop :=
  ∀ x ∈ h, ∀ req session metadata session' resp, x.label.command = .authenticateClient req →
    x.label.input.library.authenticateClient session req.authenticateServerResponse metadata
      = (session', .ok resp) →
    ∃ g, x.label.input.library.authenticateFields resp = .ok g

/-- `t` was opened, nothing was delivered on it since, and if it is for an order it was
authenticated since. -/
def Accounted (h : List (Step (AppState σ) (Event σ))) (t : Bytes) (e : Entry σ) : Prop :=
  ∃ h₁ x h₂, h = h₁ ++ x :: h₂ ∧ Opens x.label t ∧ (∀ z ∈ h₂, ¬ Delivers z.label t)
    ∧ (e.orderId ≠ none → ∃ a ∈ h₂, Authenticates a.label t)

theorem Accounted.of_opens {z : Step (AppState σ) (Event σ)} {t : Bytes} {e : Entry σ}
    (hz : Opens z.label t) (horder : e.orderId = none) : Accounted (h ++ [z]) t e := by
  refine ⟨h, z, [], rfl, hz, ?_, ?_⟩
  · intro z' hz'
    cases hz'
  · intro hsome
    exact absurd horder hsome

/-- A step that delivers nothing on `t` leaves it accounted for, if an order that is new to
the entry comes with an authentication. -/
theorem Accounted.snoc {z : Step (AppState σ) (Event σ)} {t : Bytes} {e e' : Entry σ}
    (hacc : Accounted h t e) (hz : ¬ Delivers z.label t)
    (horder : e'.orderId = e.orderId ∨ Authenticates z.label t) : Accounted (h ++ [z]) t e' := by
  obtain ⟨h₁, x, h₂, rfl, hopens, hnone, hauth⟩ := hacc
  refine ⟨h₁, x, h₂ ++ [z], by simp, hopens, ?_, ?_⟩
  · intro z' hz'
    rcases List.mem_append.mp hz' with hz' | hz'
    · exact hnone z' hz'
    · obtain rfl := List.mem_singleton.mp hz'
      exact hz
  · intro hsome
    rcases horder with hsame | hnow
    · rw [hsame] at hsome
      obtain ⟨a, ha, hauthenticates⟩ := hauth hsome
      exact ⟨a, List.mem_append_left _ ha, hauthenticates⟩
    · exact ⟨z, by simp, hnow⟩

/-- **Every live entry is accounted for.** Induction on the run: the last step kept the
entry, opened it, had it replaced, or authenticated it; it cannot have delivered on it. -/
theorem accounted_of_live (run : ServerRun config h s) (hcut : FieldsCut h) :
    ∀ t e, s.sessions.get t = some e → Accounted h t e := by
  induction run with
  | nil =>
    intro t e hlive
    cases hlive
  | @snoc h s s' x run step ih =>
    have hcut' : FieldsCut h := fun y hy => hcut y (by simp [hy])
    intro t e hlive
    have hnone : ¬ Delivers x t := by
      intro hx
      have hgone := (hx.elim step).2
      rw [hlive] at hgone
      cases hgone
    cases serving_session step t with
    | kept entry =>
      have hacc := ih hcut' t e (entry.symm.trans hlive)
      exact hacc.snoc hnone (.inl rfl)
    | swept _ _ _ entry =>
      rw [hlive] at entry
      cases entry
    | opened command answer succeeded body drawn entry =>
      obtain rfl := Option.some.inj (hlive.symm.trans entry)
      exact .of_opens ⟨_, _, _, command, answer, succeeded, body, drawn⟩ rfl
    | @refused e₀ session _ _ live entry =>
      obtain rfl := Option.some.inj (hlive.symm.trans entry)
      exact (ih hcut' t e₀ live).snoc hnone (.inl rfl)
    | @authenticated req r order e₀ session resp command names answer chosen acceptance cut _
        entry =>
      obtain rfl := Option.some.inj (hlive.symm.trans entry)
      have hsucceeded : r.Succeeded := by
        rcases cut with hsucceeded | ⟨err, hfields⟩
        · exact hsucceeded
        · -- the fields can be cut, so the handler did not stop there
          obtain ⟨g, hg⟩ := hcut ⟨s, x, s'⟩ (by simp) req e₀.session order.metadata session resp
            command acceptance
          rw [show x.input.library.authenticateFields resp = .ok g from hg] at hfields
          cases hfields
      exact (ih hcut' t e₀ chosen.live).snoc hnone
        (.inr ⟨req, r, command, names, answer, hsucceeded⟩)
    | handedOut _ _ _ _ _ entry =>
      rw [hlive] at entry
      cases entry

/-! ## The two laws -/

/-- Every package delivered on `t` comes after `t` was opened and then authenticated, with
no other package delivered on `t` since it was opened. -/
def OnePackageEach (h : List (Step (AppState σ) (Event σ))) : Prop :=
  ∀ pre y post t, h = pre ++ y :: post → Delivers y.label t →
    ∃ h₁ x h₂, pre = h₁ ++ x :: h₂ ∧ Opens x.label t
      ∧ (∃ a ∈ h₂, Authenticates a.label t) ∧ ∀ z ∈ h₂, ¬ Delivers z.label t

/-- An entry changes or goes only by a request that names it, an `initiate_authentication`
that draws it again, or a sweep at its age, as a session is inserted. -/
def EntriesLeftAlone (h : List (Step (AppState σ) (Event σ))) : Prop :=
  ∀ x ∈ h, ∀ t e, x.pre.sessions.get t = some e → x.post.sessions.get t ≠ some e →
    Names x.label t ∨ Opens x.label t ∨ Sweeps x.label e.born

/-- A session gives one package at most: what builds one takes the session out, and it has to be
opened again. -/
theorem onePackageEach (run : ServerRun config h s) (hcut : FieldsCut h) : OnePackageEach h := by
  rintro pre y post t rfl hy
  obtain ⟨before, step, _⟩ := run.split
  have hcut' : FieldsCut pre := fun x hx => hcut x (by simp [hx])
  obtain ⟨⟨e, hlive, horder⟩, _⟩ := hy.elim step
  obtain ⟨h₁, x, h₂, rfl, hopens, hnone, hauth⟩ := accounted_of_live before hcut' t e hlive
  exact ⟨h₁, x, h₂, rfl, hopens, hauth horder, hnone⟩

/-- Between the steps that name a session nothing happens to it, but for the sweep of one that is
old. -/
theorem entriesLeftAlone (run : ServerRun config h s) : EntriesLeftAlone h := by
  intro x hx t e hlive hchanged
  have step := (run.of_mem hx).2
  cases serving_session step t with
  | kept entry => exact absurd (entry.trans hlive) hchanged
  | swept opens live old _ =>
    obtain rfl := Option.some.inj (hlive.symm.trans live)
    exact .inr (.inr ⟨opens, old⟩)
  | opened command answer succeeded body drawn _ =>
    exact .inr (.inl ⟨_, _, _, command, answer, succeeded, body, drawn⟩)
  | refused names => exact .inl names
  | authenticated command names => exact .inl (.inl ⟨_, command, names⟩)
  | handedOut command names => exact .inl (.inr ⟨_, command, names⟩)

/-- **A session yields at most one Bound Profile Package, and only after its own
authentication**; nothing but its own requests, a second draw of its id, or its age touches
its entry. -/
theorem one_download_per_session (run : ServerRun config h s) (hcut : FieldsCut h) :
    OnePackageEach h ∧ EntriesLeftAlone h :=
  ⟨onePackageEach run hcut, entriesLeftAlone run⟩

/-- A download on session 1, and then a second one that is turned away. -/
def oneDownload : List (Command × Env Bytes) :=
  [(addProfile 7 "A", .echo 0), (initiate, .echo 1), (authenticate 1 [65], .echo 0),
   (download 1, .echo 0), (download 1, .echo 0)]

theorem oneDownload_fieldsCut : FieldsCut (echoed oneDownload) := by
  intro x hx req session metadata session' resp command acceptance
  have hmem : (x.label.command, x.label.input) ∈ oneDownload := mem_of_mem_served _ _ hx
  rw [command] at hmem
  -- the only `authenticate_client` is the one with the response `[65]`
  obtain ⟨rfl, henv⟩ : req = ⟨List.replicate 16 1, [65], none⟩ ∧ x.label.input = .echo 0 := by
    simpa [oneDownload, addProfile, initiate, authenticate, download] using hmem
  rw [henv] at acceptance ⊢
  cases acceptance
  exact ⟨_, rfl⟩

theorem one_download_per_session_once :
    OnePackageEach (echoed oneDownload) ∧ EntriesLeftAlone (echoed oneDownload) :=
  one_download_per_session (run_echoed oneDownload) oneDownload_fieldsCut

end Smdp
