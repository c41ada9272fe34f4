import Mathlib.Data.List.Induction
import Smdp.Server.Lives

/-!
# Smdp — a section under the session mutex

A handler that works on a session finds its entry, hands the session to the library once, writes
back what the library made of it (or takes the entry out), and releases the mutex. `Section` is
where it stands in this, and `sectionProtocol` what it may ask for there: the library is handed the
session that was found and no other, and nothing the library changed is forgotten.

Every command keeps the protocol (`keeps_sectionProtocol`), and at most one thread is in a section
(`section_of_thread`).
-/

namespace Smdp

open Interaction

variable {σ : Type}

/-- The transactionId a request names. -/
def Command.names : Command → Option Bytes
  | .authenticateClient req => some req.transactionId
  | .getBoundProfilePackage req => some req.transactionId
  | _ => none

/-! ## Where a thread stands -/

/-- Where a thread stands with respect to the session mutex and the entry it is working on. Only
the library's verdict moves it on from `found`, and only the write that verdict calls for moves it
back to `inside`. -/
inductive Section (σ : Type) where
  /-- Not holding the mutex. -/
  | outside
  /-- Holding it, with nothing to write back. -/
  | inside
  /-- `e` is the entry of `t`. -/
  | found (t : Bytes) (e : Entry σ)
  /-- The library was asked and said no; `e` is to be written back. -/
  | refused (t : Bytes) (e : Entry σ)
  /-- The library accepted the eUICC for the Profile with this metadata. -/
  | accepted (t : Bytes) (e : Entry σ) (metadata : Bytes)
  /-- The library built the package, and the entry is to be taken out. -/
  | spent (t : Bytes)

namespace Section

/-- Every place but `outside` is under the mutex. -/
def held : Section σ → Bool
  | .outside => false
  | _ => true

/-- What the library made of the session that was found. -/
def asked (φ : Section σ) (session : σ) (done : Bytes → Entry σ → Section σ) (ok : Bool) :
    Section σ :=
  match φ with
  | .found t e => if ok then done t { e with session } else .refused t { e with session }
  | φ => φ

/-- The entry was looked up. -/
def looked (φ : Section σ) (t : Bytes) : Option (Entry σ) → Section σ
  | some e =>
    match φ with
    | .inside => .found t e
    | φ => φ
  | none => φ

/-- The entry was written back or taken out. -/
def written : Section σ → Section σ
  | .outside => .outside
  | _ => .inside

/-- Where a call and its answer lead. A call that is not listed leaves the thread where it is:
draws, store calls, and the library calls that work on no session. -/
def next (φ : Section σ) : Call (ServerSig σ) → Section σ
  | ⟨.lock, _⟩ => .inside
  | ⟨.unlock, _⟩ => .outside
  | ⟨.getSession t, live⟩ => φ.looked t live
  -- `r.1` is the session as the library left it, also where it said no
  | ⟨.rsp (.dpAuthenticateClient _ _ metadata), r⟩ =>
    φ.asked r.1 (fun t e => .accepted t e metadata) r.2.isOk
  | ⟨.rsp (.dpGetBoundProfilePackage ..), r⟩ => φ.asked r.1 (fun t _ => .spent t) r.2.isOk
  | ⟨.putSession _ _, _⟩ => φ.written
  | ⟨.removeSession _, _⟩ => φ.written
  | _ => φ

/-- Where the calls of a thread lead. -/
def after (calls : List (Call (ServerSig σ))) : Section σ := calls.foldl next .outside

theorem after_snoc (calls : List (Call (ServerSig σ))) (call : Call (ServerSig σ)) :
    after (calls ++ [call]) = (after calls).next call := by
  unfold after
  rw [List.foldl_append]
  rfl

/-- Asking the library neither takes the mutex nor releases it, whatever it answers and wherever
the answer leads (`done`). -/
theorem held_asked (φ : Section σ) (session : σ) (done : Bytes → Entry σ → Section σ)
    (hdone : ∀ t e, (done t e).held = true) (ok : Bool) :
    (φ.asked session done ok).held = φ.held := by
  cases φ with
  | found t e =>
    cases ok with
    | false => rfl
    | true => exact hdone t _
  | _ => rfl

theorem held_written (φ : Section σ) : φ.written.held = φ.held := by
  cases φ <;> rfl

theorem held_looked (φ : Section σ) (t : Bytes) (live : Option (Entry σ)) :
    (φ.looked t live).held = φ.held := by
  cases live with
  | none => rfl
  | some e => cases φ <;> rfl

/-- A thread is in a section from where it takes the mutex to where it releases it. -/
theorem held_next (config : ServerConfig) (φ : Section σ) (call : Call (ServerSig σ)) :
    (φ.next call).held
      = ((machine config).lockProtocol ServerOp.NeedsLock).next φ.held call := by
  obtain ⟨op, answer⟩ := call
  cases op with
  | lock | unlock => rfl
  | getSession t => exact φ.held_looked t answer
  | putSession | removeSession => exact φ.held_written
  | rsp c =>
    cases c with
    | dpAuthenticateClient => exact φ.held_asked _ (fun t e => .accepted t e _) (fun _ _ => rfl) _
    | dpGetBoundProfilePackage => exact φ.held_asked _ (fun t _ => .spent t) (fun _ _ => rfl) _
    | _ => rfl
  | _ => rfl

/-- Where the calls so far have led is under the mutex exactly if the lock discipline counts the
thread as holding it. -/
theorem held_after (config : ServerConfig) (calls : List (Call (ServerSig σ))) :
    (after calls).held
      = ((machine config).lockProtocol ServerOp.NeedsLock).after false calls := by
  -- on the last call: both sides are folds from the left
  induction calls using List.reverseRecOn with
  | nil => rfl
  | append_singleton calls call ih => rw [after_snoc, Protocol.after_snoc, held_next config, ih]

theorem eq_outside {φ : Section σ} (h : φ.held = false) : φ = .outside := by
  cases φ with
  | outside => rfl
  | _ => cases h

end Section

/-! ## What it may ask for there -/

/-- The rules of a section, for a thread that serves `c` and has made the calls `made`. -/
@[simp] def ServerOp.InSection (c : Command) (φ : Section σ) (made : List (Call (ServerSig σ))) :
    ServerOp σ → Prop
  | .lock => φ = .outside
  -- a guard dropped on an error path: nothing was handed to the library yet
  | .unlock => φ = .inside ∨ ∃ t e, φ = .found t e
  | .insertSession _ _ => φ = .inside
  | .getSession t => φ = .inside ∧ c.names = some t
  | .putSession t e =>
    φ = .refused t e
      -- the order written is the one whose metadata the library was shown
      ∨ ∃ e₀ o, Listed made o ∧ φ = .accepted t e₀ o.metadata ∧ e = { e₀ with orderId := some o.id }
  | .removeSession t => φ = .spent t
  | .rsp (.dpAuthenticateClient session _ _) =>
    ∃ t e, φ = .found t e ∧ c.names = some t ∧ e.session = session
  | .rsp (.dpGetBoundProfilePackage session _ upp _) =>
    ∃ t e o, φ = .found t e ∧ c.names = some t ∧ e.session = session ∧ Listed made o
      ∧ e.orderId = some o.id ∧ o.upp = upp
  | .rsp (.dpSessionEid session) =>
    ∃ t e metadata, φ = .accepted t e metadata ∧ c.names = some t ∧ e.session = session
  | .rsp (.dpSessionEuiccCert session) =>
    ∃ t e metadata, φ = .accepted t e metadata ∧ c.names = some t ∧ e.session = session
  | _ => True

/-- The rules of a section as a protocol: its state is where the thread stands together with the
calls it has made, since what it writes back has to be an order it was shown. -/
def sectionProtocol (c : Command) :
    Protocol (ServerSig σ) (Section σ × List (Call (ServerSig σ))) where
  start := (.outside, [])
  allowed φ op := op.InSection c φ.1 φ.2
  next φ call := (φ.1.next call, φ.2 ++ [call])

section

variable (c : Command) (φ : Section σ × List (Call (ServerSig σ)))

@[simp] theorem sectionProtocol_allowed (op : ServerOp σ) :
    (sectionProtocol c).allowed φ op ↔ op.InSection c φ.1 φ.2 := Iff.rfl

@[simp] theorem sectionProtocol_next (call : Call (ServerSig σ)) :
    (sectionProtocol c).next φ call = (φ.1.next call, φ.2 ++ [call]) := rfl

theorem sectionProtocol_after (calls : List (Call (ServerSig σ))) :
    (sectionProtocol c).after (.outside, []) calls = (Section.after calls, calls) := by
  -- on the last call, as `Section.after` is
  induction calls using List.reverseRecOn with
  | nil => rfl
  | append_singleton calls call ih =>
    rw [Protocol.after_snoc, ih, Section.after_snoc]
    rfl

end

/-- The program keeps to its section and leaves it. -/
abbrev KeepsSection (c : Command) {α : Type} (p : Handler σ α) : Prop :=
  p.Keeps (sectionProtocol c) (fun _ φ => φ.1 = .outside) (.outside, [])

section

variable (config : ServerConfig)

/-! As with the discipline, `simp` runs a program from call to call, and each case is a branch of
the source. -/

attribute [local simp] Prog.ask Handler.rsp Handler.store Handler.openStore Handler.addOrder
  Handler.listOrders Handler.orderByIccid Handler.bindEuicc Handler.setState
  Handler.recordNotification Handler.lock Handler.unlock Handler.getSession Handler.putSession
  Handler.removeSession Handler.insertSession DpSession.authenticateClient
  DpSession.getBoundProfilePackage DpSession.eid DpSession.euiccCert initiateFields
  authenticateFields notificationMetadata verifyNotification
  Section.next Section.looked Section.asked Section.written Command.names Except.isOk Except.toBool
  checkCode_ok checkCode_error

/-- InitiateAuthentication finds no session: it takes the mutex to insert one and nothing else. -/
theorem keepsSection_initiateAuthentication (req : InitiateAuthenticationRequest) :
    KeepsSection (σ := σ) (.initiateAuthentication req) (initiateAuthentication config req) := by
  unfold initiateAuthentication
  cases Octets.ofBytes? 16 req.euiccChallenge with
  | none => simp
  | some challenge =>
    simp
    intro transactionId _ serverChallenge _
    unfold DpSession.initiate
    split
    · simp
    · simp
    · simp
      intro asked
      split
      · simp
      · simp
        intro fields
        split <;> simp

/-- AuthenticateClient: the session found goes to the library; refused, it is written back as it
came; accepted, its EID and its certificate are asked of it before it is written back with the
order on it. -/
theorem keepsSection_authenticateClient (req : AuthenticateClientRequest) :
    KeepsSection (σ := σ) (.authenticateClient req) (authenticateClient req) := by
  unfold authenticateClient
  simp
  intro listed
  cases listed with
  | error e => simp
  | ok orders =>
    dsimp only
    match havail : availableOrders orders with
    -- no order on offer, or more than one: the mutex is not even taken
    | [] => simp
    | _ :: _ :: _ => simp
    | [order] =>
      -- the one on offer was on the list, which is what `Listed` asks at the write-back
      have hmem : order ∈ orders := by
        have hfiltered : order ∈ availableOrders orders := by simp [havail]
        exact (List.mem_filter.mp hfiltered).1
      simp
      intro _ live
      cases live with
      | none => simp
      | some entry =>
        simp
        rintro session (code | resp)
        · -- refused: the session goes back as the library left it
          simp
        · simp
          intro eid cert
          -- `entry.order_id = Some(order.id)`; what comes after it is outside the lock
          refine ⟨⟨order, ⟨orders, by simp, hmem⟩, rfl, rfl⟩, ?_⟩
          -- the fields are cut outside the lock: cut or not, the entry is already written
          intro _ fields
          split
          · simp
          · simp [rememberEuicc]
            split <;> simp

/-- GetBoundProfilePackage: the session found goes to the library with the UPP of the order on it;
refused, it is written back; otherwise the entry is taken out. Both happen under the one lock. -/
theorem keepsSection_getBoundProfilePackage (req : GetBoundProfilePackageRequest) :
    KeepsSection (σ := σ) (.getBoundProfilePackage req) (getBoundProfilePackage req) := by
  unfold getBoundProfilePackage
  simp
  intro otskDp _ _ live
  cases live with
  | none => simp
  | some entry =>
    simp [findUpp]
    split
    · simp
    · rename_i id hid
      simp
      intro listed
      cases listed with
      | error e => simp
      | ok orders =>
        simp
        split
        · simp
        · rename_i upp hfound
          -- `find(|o| o.id == id).map(|o| o.upp)`: the UPP is that of a listed order with this id
          obtain ⟨order, hfind, rfl⟩ := Option.map_eq_some_iff.mp hfound
          have hid' : order.id = id := by simpa using List.find?_some hfind
          simp
          refine ⟨⟨order, ⟨orders, by simp, List.mem_of_find?_eq_some hfind⟩, ?_, rfl⟩, ?_⟩
          · rw [hid, hid']
          · -- refused or built: written back or taken out, both with the mutex held
            rintro session (code | bpp)
            · simp
            · simp

end

/-! ## Programs without a section -/

/-- What has nothing to do with sessions. -/
def ServerOp.Quiet : ServerOp σ → Prop
  | .lock | .unlock | .insertSession _ _ | .getSession _ | .putSession _ _ | .removeSession _ => False
  | .rsp (.dpAuthenticateClient ..) | .rsp (.dpGetBoundProfilePackage ..) => False
  | .rsp (.dpSessionEid _) | .rsp (.dpSessionEuiccCert _) => False
  | _ => True

section

variable {c : Command} {made : List (Call (ServerSig σ))}

theorem ServerOp.Quiet.inSection {op : ServerOp σ} (h : op.Quiet) (φ : Section σ) :
    op.InSection c φ made := by
  cases op with
  | rsp call => cases call <;> first | exact h.elim | trivial
  | _ => first | exact h.elim | trivial

theorem ServerOp.Quiet.next {op : ServerOp σ} (h : op.Quiet) (φ : Section σ)
    (answer : (ServerSig σ).Ret op) : φ.next ⟨op, answer⟩ = φ := by
  cases op with
  | rsp call => cases call <;> first | exact h.elim | rfl
  | _ => first | exact h.elim | rfl

/-- Outside a section a thread may enter one. -/
theorem ServerOp.InSection.outside {op : ServerOp σ} (h : op.InSection c .outside made) :
    op = .lock ∨ op.Quiet := by
  cases op with
  | lock => exact .inl rfl
  | rsp call => cases call <;> simp_all [ServerOp.Quiet]
  | _ => simp_all [ServerOp.Quiet]

theorem ServerOp.Quiet.lockUse {op : ServerOp σ} (h : op.Quiet) : op.lockUse = .neither := by
  cases op <;> first | exact h.elim | rfl

/-- The program stays out of every section. -/
def StaysOut (c : Command) {α : Type} (p : Handler σ α) : Prop :=
  ∀ made, p.Keeps (sectionProtocol c) (fun _ φ => φ.1 = .outside) (.outside, made)

theorem staysOut_pure {α : Type} (a : α) : StaysOut c (pure a : Handler σ α) := fun _ => rfl

theorem staysOut_ask {op : ServerOp σ} (hop : op.Quiet) :
    StaysOut c (Prog.ask (F := ServerSig σ) op) :=
  fun _ => ⟨hop.inSection _, fun answer => hop.next _ answer⟩

/-- The parts of a program that stay out make a program that does: each part is run from wherever
the calls before it have led, which is outside. -/
theorem staysOut_bind {α β : Type} {p : Handler σ α} {k : α → Handler σ β} (hp : StaysOut c p)
    (hk : ∀ a, StaysOut c (k a)) : StaysOut c (p >>= k) := by
  intro made
  rw [Prog.keeps_bind]
  refine (hp made).mono ?_
  rintro a ⟨φ, made'⟩ hout
  obtain rfl : φ = .outside := hout
  exact hk a made'

/-- Notifications and the commands on orders have nothing to do with sessions. -/
theorem staysOut_program (hc : c.names = none) (hinitiates : ∀ req, c ≠ .initiateAuthentication req)
    (config : ServerConfig) : StaysOut (σ := σ) c (c.program config) := by
  cases c with
  | initiateAuthentication req => exact absurd rfl (hinitiates req)
  | authenticateClient req => cases hc
  | getBoundProfilePackage req => cases hc
  | _ =>
    dsimp only [Command.program, handleNotification, matchOrder, keepNotification, moveOrder,
      orderAdd, createOrder, orGenerate, orderReset, orderList, listOrders]
    -- the parts of each handler one after the other; every call among them is quiet
    repeat' first
      | exact staysOut_pure _
      | exact staysOut_ask trivial
      | refine staysOut_bind ?_ fun _ => ?_
      | split

end

/-- Wrapping the answer as a reply is no call. -/
theorem KeepsSection.map {c : Command} {α β : Type} {p : Handler σ α} (h : KeepsSection c p)
    (f : α → β) : KeepsSection c (p >>= fun a => pure (f a)) := by
  simpa [KeepsSection] using h

/-- **Every command keeps to its section.** -/
theorem keepsSection (config : ServerConfig) (c : Command) :
    KeepsSection (σ := σ) c (c.program config) := by
  cases c with
  | initiateAuthentication req => exact (keepsSection_initiateAuthentication config req).map _
  | authenticateClient req => exact (keepsSection_authenticateClient req).map _
  | getBoundProfilePackage req => exact (keepsSection_getBoundProfilePackage req).map _
  | handleNotification | orderAdd | orderReset | orderList | reopen =>
    exact staysOut_program rfl (by simp) config []

/-! ## Threads in sections -/

variable {config : ServerConfig} {p p' : ServerPool σ} {s₁ : AppState σ}
  {life : List (Step (ServerPool σ) (ServerPoolEvent σ))} {t : Nat} {c : Command} {env : Env σ}
  {call : Call (ServerSig σ)}

/-- What a thread asks for is what its section allows. -/
theorem inSection_of_step (run : Run (PoolServing config) (.idle s₁) life p)
    (step : PoolServing config p (.called t c env call) p') :
    call.op.InSection c (Section.after (Machine.callsOf t life)) (Machine.callsOf t life) := by
  have hallowed := Machine.Run.allowed (P := sectionProtocol) (keepsSection config) run step
  rw [show (sectionProtocol c).start = (.outside, []) from rfl, sectionProtocol_after] at hallowed
  exact hallowed

/-- **A thread is in a section exactly if it holds the mutex.** -/
theorem section_of_thread (run : Run (PoolServing config) (.idle s₁) life p)
    (ht : t < p.threads.length) :
    (Section.after (Machine.callsOf t life)).held = decide (p.holder = some t) := by
  rw [Section.held_after config]
  exact Machine.Run.held (lockSafe config) run ht

/-- The section of the thread that holds the mutex. -/
def heldSection (life : List (Step (ServerPool σ) (ServerPoolEvent σ))) (p : ServerPool σ) :
    Section σ :=
  match p.holder with
  | none => .outside
  | some t => Section.after (Machine.callsOf t life)

theorem heldSection_of_free (h : p.holder = none) : heldSection life p = .outside := by
  unfold heldSection
  rw [h]

/-- A request that comes in moves no thread. -/
theorem heldSection_started (step : PoolServing config p (.started t c) p') :
    p'.shared = p.shared
      ∧ heldSection (life ++ [⟨p, .started t c, p'⟩]) p' = heldSection life p := by
  cases step with
  | started =>
    refine ⟨rfl, ?_⟩
    unfold heldSection
    simp only [Machine.callsOf_snoc_started]

/-- A call is made in the one section there is, or it is made outside and has nothing to do with
sessions. -/
theorem heldSection_of_step (run : Run (PoolServing config) (.idle s₁) life p)
    (step : PoolServing config p (.called t c env call) p') :
    (call.op.InSection c (heldSection life p) (Machine.callsOf t life)
        ∧ heldSection (life ++ [⟨p, .called t c env call, p'⟩]) p'
          = (heldSection life p).next call)
      ∨ (call.op.Quiet
        ∧ heldSection (life ++ [⟨p, .called t c env call, p'⟩]) p' = heldSection life p) := by
  have hallowed := inSection_of_step run step
  obtain ⟨hlt, hfree, hholder⟩ := step.holder
  have hheld := section_of_thread run hlt
  -- the thread's own section moves on
  have hnext : Section.after (Machine.callsOf t (life ++ [⟨p, .called t c env call, p'⟩]))
      = (Section.after (Machine.callsOf t life)).next call := by
    rw [Machine.callsOf_snoc_called, if_pos rfl, Section.after_snoc]
  have hlt' : t < p'.threads.length := by
    cases step with
    | called input running free => simpa [Machine.advance] using hlt
  have hheld' := section_of_thread (run.snoc step) hlt'
  rw [hnext] at hheld'
  -- either the thread may work on the session table (it holds the mutex, or is about to take it),
  -- or another holds it and this call has nothing to do with sessions
  by_cases hmine : p.holder = none ∨ p.holder = some t
  · left
    have hsection : heldSection life p = Section.after (Machine.callsOf t life) := by
      unfold heldSection
      rcases hmine with hnone | hsome
      · rw [hnone] at hheld ⊢
        exact (Section.eq_outside (by simpa using hheld)).symm
      · rw [hsome]
    rw [hsection]
    refine ⟨hallowed, ?_⟩
    have hmine' : p'.holder = none ∨ p'.holder = some t := by
      rw [hholder]
      unfold Machine.holderAfter
      split
      · exact .inr rfl
      · exact .inl rfl
      · exact hmine
    unfold heldSection
    rcases hmine' with hnone | hsome
    · rw [hnone] at hheld' ⊢
      exact (Section.eq_outside (by simpa using hheld')).symm
    · rw [hsome]
      exact hnext
  · right
    push Not at hmine
    obtain ⟨u, hu⟩ := Option.ne_none_iff_exists'.mp hmine.1
    have hut : t ≠ u := by
      rintro rfl
      exact hmine.2 hu
    have houtside : Section.after (Machine.callsOf t life) = .outside := by
      apply Section.eq_outside
      rw [hheld]
      exact decide_eq_false hmine.2
    rw [houtside] at hallowed
    rcases hallowed.outside with hlock | hquiet
    · -- it would have to wait
      rw [hfree (by rw [hlock]; rfl)] at hu
      cases hu
    · refine ⟨hquiet, ?_⟩
      have hsame : p'.holder = some u := by
        rw [hholder]
        unfold Machine.holderAfter
        rw [machine_lockUse, hquiet.lockUse]
        exact hu
      unfold heldSection
      rw [hsame, hu]
      show Section.after (Machine.callsOf u _) = _
      rw [Machine.callsOf_snoc_called, if_neg hut]

end Smdp
