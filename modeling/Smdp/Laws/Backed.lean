import Smdp.Server.Step

/-!
# Smdp — an answer of success is backed by the store

`authenticate_client` and `get_bound_profile_package` look at every read of the store but
drop the result of every write (`let _ =`). So they answer Executed-Success whether or not
the write behind the answer went through (`backed_iff_written`), and a download whose write
fails leaves its order on offer (`success_unbacked`).
-/

namespace Smdp

open Interaction

variable {σ : Type}

/-- An `authenticate_client` answered Executed-Success left the chosen order stored as
`Bound`, with the EID and the certificate the session reports. -/
def AuthenticationBacked (x : Step (AppState σ) (Event σ)) : Prop :=
  ∀ req r order entry session resp eid cert, x.label.command = .authenticateClient req →
    x.label.answer = .http r → r.Succeeded → Chosen x.label.input x.pre req.transactionId order entry →
    x.label.input.library.authenticateClient entry.session req.authenticateServerResponse
      order.metadata = (session, .ok resp) →
    x.label.input.library.eid session = .ok eid → x.label.input.library.euiccCert session = .ok cert →
    x.post.store.state? order.id = some OrderState.bound.asStr
      ∧ x.post.store.euicc? order.id = some (some eid, some cert)

/-- A `get_bound_profile_package` answered Executed-Success left the order it served stored
as `Downloaded`. -/
def DownloadBacked (x : Step (AppState σ) (Event σ)) : Prop :=
  ∀ i, HandsOut x.pre x.label i → x.post.store.state? i = some OrderState.downloaded.asStr

/-- The writes behind an `authenticate_client` the library goes along with reach the store,
or find there what they would write. -/
def AuthenticationWritten (s : AppState σ) (c : Command) (env : Env σ) : Prop :=
  ∀ req order entry session resp g eid cert, c = .authenticateClient req →
    Chosen env s req.transactionId order entry →
    env.library.authenticateClient entry.session req.authenticateServerResponse order.metadata
      = (session, .ok resp) →
    env.library.authenticateFields resp = .ok g →
    env.library.eid session = .ok eid → env.library.euiccCert session = .ok cert →
    (env.faults (.setState order.id .bound) = none
        ∨ s.store.state? order.id = some OrderState.bound.asStr)
      ∧ (env.faults (.bindEuicc order.id eid cert) = none
        ∨ s.store.euicc? order.id = some (some eid, some cert))

/-- The same for a `get_bound_profile_package` the library builds a package for. -/
def DownloadWritten (s : AppState σ) (c : Command) (env : Env σ) : Prop :=
  ∀ req order entry session bpp, c = .getBoundProfilePackage req →
    Deliverable env s req.transactionId order entry →
    env.library.getBoundProfilePackage entry.session req.prepareDownloadResponse order.upp
      env.nonces.otskDp = (session, .ok bpp) →
    env.faults (.setState order.id .downloaded) = none
      ∨ s.store.state? order.id = some OrderState.downloaded.asStr

/-! ## Both writes -/

/-- What the store holds of a chosen order after both writes. -/
theorem boundStore_written {env : Env σ} {s : AppState σ} {t : Bytes} {order : Order}
    {entry : Entry σ} {session : σ} {eid : String} {cert : Bytes}
    (chosen : Chosen env s t order entry) (heid : env.library.eid session = .ok eid)
    (hcert : env.library.euiccCert session = .ok cert) :
    ((boundStore env s.store order session).state? order.id = some OrderState.bound.asStr
        ∧ (boundStore env s.store order session).euicc? order.id = some (some eid, some cert))
      ↔ (env.faults (.setState order.id .bound) = none
            ∨ s.store.state? order.id = some OrderState.bound.asStr)
          ∧ (env.faults (.bindEuicc order.id eid cert) = none
            ∨ s.store.euicc? order.id = some (some eid, some cert)) := by
  have hrow := chosen.onOffer.1
  have hstate : s.store.state? order.id = some order.state.asStr := SqliteStore.state?_of_row? hrow
  have heuicc : s.store.euicc? order.id = some (order.eid, order.euiccCert) :=
    SqliteStore.euicc?_of_row? hrow
  have hstore : boundStore env s.store order session
      = (s.store.after env.faults (.bindEuicc order.id eid cert)).after env.faults
          (.setState order.id .bound) := by
    unfold boundStore
    rw [heid, hcert]
    rfl
  rw [hstore]
  -- the first write leaves the state alone, the second leaves the eUICC alone
  have hstate' : (s.store.after env.faults (.bindEuicc order.id eid cert)).state? order.id
      = s.store.state? order.id := by
    rw [hstate]
    exact SqliteStore.state?_after_of_some (by simp) hstate
  obtain ⟨p, heuicc'⟩ : ∃ p,
      (s.store.after env.faults (.bindEuicc order.id eid cert)).euicc? order.id = some p := by
    rw [SqliteStore.euicc?_after_bindEuicc, heuicc]
    split <;> exact ⟨_, rfl⟩
  have hkept : ((s.store.after env.faults (.bindEuicc order.id eid cert)).after env.faults
      (.setState order.id .bound)).euicc? order.id
        = (s.store.after env.faults (.bindEuicc order.id eid cert)).euicc? order.id := by
    rw [heuicc']
    exact SqliteStore.euicc?_after_of_some (by simp) heuicc'
  rw [hkept, SqliteStore.euicc?_written heuicc,
    SqliteStore.state?_written (hstate'.trans hstate), hstate']

/-! ## Both handlers -/

theorem authenticationBacked_iff {config : ServerConfig} {x : Step (AppState σ) (Event σ)}
    (step : Serving config x.pre x.label x.post) :
    AuthenticationBacked x
      ↔ AuthenticationWritten x.pre x.label.command x.label.input := by
  obtain ⟨s, ⟨c, env, ans, calls⟩, s'⟩ := x
  dsimp only at step
  constructor
  · -- the answer is Executed-Success, so what is stored was written
    intro hbacked req order entry session resp g eid cert hc chosen acceptance fields heid hcert
    obtain ⟨r, answer, exit⟩ := serving_authenticateClient step hc
    cases exit with
    | turnedAway unchosen => exact absurd chosen (unchosen order entry)
    | refused chosen' refusal =>
      obtain ⟨rfl, rfl⟩ := chosen.unique chosen'
      rw [acceptance] at refusal
      cases refusal
    | uncut chosen' acceptance' fields' =>
      obtain ⟨rfl, rfl⟩ := chosen.unique chosen'
      rw [acceptance] at acceptance'
      cases acceptance'
      rw [fields] at fields'
      cases fields'
    | answered chosen' acceptance' fields' succeeded =>
      obtain ⟨rfl, rfl⟩ := chosen.unique chosen'
      rw [acceptance] at acceptance'
      cases acceptance'
      have hstored := hbacked req r order entry session resp eid cert hc answer succeeded chosen
        acceptance heid hcert
      exact (boundStore_written chosen heid hcert).mp hstored
  · intro hwritten req r order entry session resp eid cert hc answer succeeded chosen acceptance
      heid hcert
    obtain ⟨order', entry', session', resp', g, chosen', acceptance', fields, rfl⟩ :=
      serving_answered step hc answer succeeded
    obtain ⟨rfl, rfl⟩ := chosen.unique chosen'
    rw [acceptance] at acceptance'
    cases acceptance'
    have hlands := hwritten req order entry session resp g eid cert hc chosen acceptance fields
      heid hcert
    exact (boundStore_written chosen heid hcert).mpr hlands

theorem downloadBacked_iff {config : ServerConfig} {x : Step (AppState σ) (Event σ)}
    (step : Serving config x.pre x.label x.post) :
    DownloadBacked x ↔ DownloadWritten x.pre x.label.command x.label.input := by
  obtain ⟨s, ⟨c, env, ans, calls⟩, s'⟩ := x
  dsimp only at step
  constructor
  · intro hbacked req order entry session bpp hc deliverable built
    have hrow := (SqliteStore.servedOrder_eq_some deliverable.served).2
    have hx : HandsOut s ⟨c, env, ans, calls⟩ order.id :=
      ⟨entry, (handsOutOver_iff step).mpr ⟨req, order, session, bpp, hc, deliverable, rfl, built⟩⟩
    have hstored : s'.store.state? order.id = some OrderState.downloaded.asStr :=
      hbacked order.id hx
    rw [hx.store step] at hstored
    exact (SqliteStore.state?_written (SqliteStore.state?_of_row? hrow)).mp hstored
  · intro hwritten i hx
    obtain ⟨entry, hover⟩ := hx
    obtain ⟨req, order, session, bpp, hc, deliverable, rfl, built⟩ := (handsOutOver_iff step).mp hover
    have hrow := (SqliteStore.servedOrder_eq_some deliverable.served).2
    show s'.store.state? order.id = some OrderState.downloaded.asStr
    rw [HandsOut.store ⟨entry, hover⟩ step]
    exact (SqliteStore.state?_written (SqliteStore.state?_of_row? hrow)).mpr
      (hwritten req order entry session bpp hc deliverable built)

/-- **An answer of success is backed by the store exactly when the writes behind it reach the
store**, or find there what they would write. Both handlers answer the same whether their last
writes went through or not (`let _ =`), so this is all there is to it. -/
theorem backed_iff_written (config : ServerConfig) (s : AppState σ) (c : Command)
    (env : Env σ) :
    (AuthenticationBacked (serve (Command.program config) AppState.perform s c env)
        ∧ DownloadBacked (serve (Command.program config) AppState.perform s c env))
      ↔ AuthenticationWritten s c env ∧ DownloadWritten s c env := by
  have step := serves_serve (Command.program config) AppState.perform s c env
  exact and_congr (authenticationBacked_iff step) (downloadBacked_iff step)

/-- A session authenticated against order 1, which is `Bound`. -/
def readyToDownload : List (Command × Env Bytes) :=
  [(addProfile 7 "A", .echo 0), (initiate, .echo 1), (authenticate 1 [65], .echo 0)]

/-- The database is locked while `Downloaded` is written. -/
def lockedOut : Env Bytes :=
  { Env.echo 0 with
    faults := fun c =>
      if c = .setState 1 .downloaded then some (.db "database is locked") else none }

/-- The Profile is handed out, the answer is Executed-Success, and the order is still
`Bound`. -/
theorem success_unbacked :
    ¬ ∀ (config : ServerConfig) (s : AppState Bytes) (c : Command) (env : Env Bytes),
      AuthenticationBacked (serve (Command.program config) AppState.perform s c env)
        ∧ DownloadBacked (serve (Command.program config) AppState.perform s c env) := by
  intro hall
  obtain ⟨_, hbacked⟩ :=
    hall ⟨"smdp.example.com"⟩ (echoedState readyToDownload) (download 1) lockedOut
  have hstored := hbacked 1 ⟨_, _, _, _, rfl, rfl, rfl, ⟨rfl, rfl⟩, rfl⟩
  have hbound : (echoedNext readyToDownload (download 1) lockedOut).post.store.state? 1
      = some OrderState.bound.asStr := rfl
  exact absurd (hbound.symm.trans hstored) (by decide)

end Smdp
