import Mathlib.Data.List.Induction
import Smdp.Laws.Interleaving
import Smdp.Laws.Orders
import Smdp.Server.Grounds

/-!
# Smdp — what is on file can be accounted for

Requests are served at once, store calls fail, and the process ends where it ends. What is on file
is still what the store calls that went through would have left one after the other
(`lives_refine`, `notifications_kept`), and behind each of them stands what the request that made
it had seen by then. So does what a request answers (`requests_rest`).
-/

namespace Smdp

open Interaction Rowid

variable {σ : Type} {config : ServerConfig} {p p' : ServerPool σ}
  {h : List (Step (ServerPool σ) (ServerLifeEvent σ))}

/-! ## Two processes -/

/-- The process that left `p` ends where it stands, and the next one plays `second`. -/
def resumed (p : ServerPool Bytes) (second : List (Machine.Action Command (Env Bytes))) :
    List (Step (ServerPool Bytes) (ServerLifeEvent Bytes)) :=
  ⟨p, .crashed, .idle p.shared.restart⟩
    :: ((machine ⟨"smdp.example.com"⟩).play (.idle p.shared.restart) second).map Step.inLife

/-- The pool that leaves. -/
def resumedPool (p : ServerPool Bytes) (second : List (Machine.Action Command (Env Bytes))) :
    ServerPool Bytes :=
  (machine ⟨"smdp.example.com"⟩).played (.idle p.shared.restart) second

/-- The end of one process and whatever the next one does is a run, from any state. -/
theorem run_resumed (p : ServerPool Bytes) (second : List (Machine.Action Command (Env Bytes))) :
    Run (LifeServing ⟨"smdp.example.com"⟩) p (resumed p second) (resumedPool p second) :=
  .cons .crashed (Machine.Run.inLife (Machine.run_play _ second))

/-- `first` is played on a fresh database, and then `second` by the next process. -/
def restarted (first second : List (Machine.Action Command (Env Bytes))) :
    List (Step (ServerPool Bytes) (ServerLifeEvent Bytes)) :=
  (scheduled first).map Step.inLife
    ++ resumed ((machine ⟨"smdp.example.com"⟩).played (.idle AppState.fresh) first) second

/-- The pool that leaves. -/
def restartedPool (first second : List (Machine.Action Command (Env Bytes))) : ServerPool Bytes :=
  resumedPool ((machine ⟨"smdp.example.com"⟩).played (.idle AppState.fresh) first) second

/-- Two processes, one after the other, are a history. -/
theorem run_restarted (first second : List (Machine.Action Command (Env Bytes))) :
    LifeRun ⟨"smdp.example.com"⟩ (restarted first second) (restartedPool first second) := by
  have hfirst : LifeRun ⟨"smdp.example.com"⟩ ((scheduled first).map Step.inLife) _ :=
    Machine.Run.inLife (run_scheduled first)
  exact hfirst.append (run_resumed _ second)

/-- `A` has authenticated when the process ends. -/
def beforeRestart : List (Machine.Action Command (Env Bytes)) :=
  uninterrupted 0 (addProfile 7 "A") (.echo 0) ++ uninterrupted 1 initiate (.echo 1)
    ++ uninterrupted 2 (authenticate 1 [65]) (.echo 0)

/-- The next process sees `A` begin again, download and report. -/
def afterRestart : List (Machine.Action Command (Env Bytes)) :=
  uninterrupted 0 initiate (.echo 2) ++ uninterrupted 1 (authenticate 2 [65]) (.echo 0)
    ++ uninterrupted 2 (download 2) (.echo 0)
    ++ uninterrupted 3 (.handleNotification ⟨65 :: 1 :: 1 :: List.replicate 10 7⟩) (.echo 0)

def downloadRestarted : List (Step (ServerPool Bytes) (ServerLifeEvent Bytes)) :=
  restarted beforeRestart afterRestart

/-! ## Requests -/

/-- **What a request does rests on what it has seen**, in the process that serves it. -/
theorem calls_rest (run : LifeRun config h p) {before after x t c env call}
    (hh : h = before ++ x :: after) (hx : x.label = .alive (.called t c env call)) :
    call.op.RestsOn c (Machine.callsInLife t before) := by
  rw [hh] at run
  obtain ⟨hbefore, step, _⟩ := run.split
  rw [hx] at step
  have hallowed := Machine.Run.allowed_lives (P := groundsProtocol) (restsOn config) hbefore step
  rw [Protocol.recording_after] at hallowed
  exact hallowed

/-- **What a request answers rests on what it has seen.** -/
theorem answers_rest (run : LifeRun config h p) {t : Nat} {c : Command} {a : Answer}
    (ht : p.threads[t]? = some ⟨c, .ret a⟩) : a.RestsOn config c (Machine.callsInLife t h) := by
  have hreturned := Machine.Run.returned_lives (P := groundsProtocol) (restsOn config) run ht
  rw [Protocol.recording_after] at hreturned
  exact hreturned

/-- **Whatever a request does rests on what it has seen** in the process that serves it: every
write to the store, everything the library is handed, the session whose EID and certificate it
reads, and every answer of success. What it has seen are its own calls in this life and their
answers, however the calls of other requests fell between them. -/
theorem requests_rest (run : LifeRun config h p) :
    (∀ before x after t c env call, h = before ++ x :: after →
        x.label = .alive (.called t c env call) →
        call.op.RestsOn c (Machine.callsInLife t before))
      ∧ ∀ t c (a : Answer), p.threads[t]? = some ⟨c, .ret a⟩ →
        a.RestsOn config c (Machine.callsInLife t h) :=
  ⟨fun _ _ _ _ _ _ _ hh hx => calls_rest run hh hx, fun _ _ _ ht => answers_rest run ht⟩

/-- `A`'s download in the second process: its last write, and its answer. -/
theorem requests_rest_downloadRestarted :
    (ServerOp.store (.setState 1 .downloaded)).RestsOn (download 2)
        (Machine.callsInLife 2 (downloadRestarted.take 52))
      ∧ (Answer.http (okJson (.getBoundProfilePackage
          ⟨ResponseHeader.success, List.replicate 16 2, [7]⟩))).RestsOn ⟨"smdp.example.com"⟩
          (download 2) (Machine.callsInLife 2 downloadRestarted) := by
  obtain ⟨hcalls, hanswers⟩ := requests_rest (run_restarted beforeRestart afterRestart)
  exact ⟨hcalls _ _ _ _ _ _ _ (List.take_append_drop 52 downloadRestarted).symm rfl,
    hanswers _ _ _ rfl⟩

/-! ## Orders -/

/-- A store call that went through. -/
def wentThrough : ServerLifeEvent σ → Option (Call StoreSig)
  | .alive (.called _ _ _ ⟨.store c, .ok v⟩) => some ⟨c, .ok v⟩
  | _ => none

variable {st : SqliteStore} {faults : StoreFaults} {sc : StoreCall}

/-- A call that went through is one the store answers, faults or not. -/
theorem answers_of_ok {v : sc.Val} (h : (st.performUnder faults sc).1 = .ok v) :
    Answers st ⟨sc, .ok v⟩ (st.after faults sc) := by
  unfold SqliteStore.after
  unfold SqliteStore.performUnder at h ⊢
  cases hfault : faults sc with
  | some e =>
    rw [hfault] at h
    cases h
  | none =>
    rw [hfault] at h
    exact Prod.ext h rfl

/-- A call that does not go through changes nothing. -/
theorem after_of_error {e : StoreError} (h : (st.performUnder faults sc).1 = .error e) :
    st.after faults sc = st := by
  cases sc with
  | addOrder new => exact SqliteStore.after_addOrder_of_error h
  | bindEuicc | setState | recordNotification =>
    rcases hfault : faults _ with _ | e'
    · unfold SqliteStore.performUnder at h
      rw [hfault] at h
      cases h
    · exact SqliteStore.after_of_some hfault
  | _ =>
    unfold SqliteStore.after SqliteStore.performUnder
    split <;> rfl

/-- A step of a process is a store call that goes through, or leaves the database as it is. -/
theorem lifeStep_store {l : ServerLifeEvent σ} (step : LifeServing config p l p') :
    Follows Answers wentThrough p.shared.store l p'.shared.store := by
  rcases step.cases with ⟨l, rfl, hstep⟩ | ⟨rfl, rfl⟩
  · cases l with
    | started t c =>
      have hsame : p'.shared = p.shared := by
        cases hstep with
        | started => rfl
      rw [hsame]
      exact .hides rfl
    | called t c env call =>
      obtain ⟨op, answer⟩ := call
      obtain ⟨hanswer, hshared⟩ := hstep.answered
      rw [hshared]
      cases op with
      | store sc =>
        have hperform : (p.shared.store.performUnder env.faults sc).1 = answer := hanswer.symm
        show Follows Answers wentThrough _ _ (p.shared.store.after env.faults sc)
        cases answer with
        | ok v => exact .shows rfl (answers_of_ok hperform)
        | error e =>
          rw [after_of_error hperform]
          exact .hides rfl
      | _ => exact .hides rfl
  · exact .hides rfl

/-- Only an insert adds a row, and it takes the next number. -/
theorem numbered_after (hst : st.orders.Numbered) (faults : StoreFaults) (sc : StoreCall) :
    (st.after faults sc).orders.Numbered := by
  rcases SqliteStore.after_cases faults sc st with hsame | hafter
  · rw [hsame]
    exact hst
  · rw [hafter]
    cases sc with
    | addOrder new =>
      show (st.addOrder new).2.orders.Numbered
      unfold SqliteStore.addOrder
      split
      · exact hst
      · exact hst.insert new.toRow new.toRow_id
    | setState order state =>
      exact hst.updateWhere order (fun r => { r with state := state.asStr }) fun _ => rfl
    | bindEuicc order eid cert =>
      exact hst.updateWhere order (fun r => { r with eid := some eid, euiccCert := some cert })
        fun _ => rfl
    | _ => exact hst

/-- The store calls that went through, one after the other, leave this database. -/
theorem storeRun_of_lives (run : LifeRun config h p) :
    ∃ g, StoreRun g p.shared.store ∧ g.map Step.label = shown wentThrough h := by
  have hsim : ∃ g st, StoreRun g st ∧ g.map Step.label = shown wentThrough h
      ∧ p.shared.store = st := by
    -- step by step: what a history shows are the store calls that went through, and those are the
    -- run
    apply run.simulates
    · rfl
    · rintro h₁ x h₂ st _ _ step rfl
      exact ⟨_, lifeStep_store step, rfl⟩
  obtain ⟨g, st, hg, hlabels, rfl⟩ := hsim
  exact ⟨g, hg, hlabels⟩

/-- **The database is a map of orders, whatever happens to its processes.** The store calls that
went through, in the order they went through and one after the other, are a history that leaves
this database: its orders are those that were added, numbered from 1 in turn, each as it was added,
in the state that was set last and with the eUICC that was bound last. -/
theorem lives_refine (run : LifeRun config h p) :
    ∃ g os, StoreRun g p.shared.store ∧ g.map Step.label = shown wentThrough h
      ∧ p.shared.store.listOrders = .ok os ∧ ListsAdded g os ∧ AnswersFor p.shared.store os
      ∧ os.map Order.id = (List.range os.length).map fun (k : Nat) => (k : Int) + 1 := by
  obtain ⟨g, hg, hlabels⟩ := storeRun_of_lives run
  have htyped := typed_of_run hg
  obtain ⟨os, hos, hrows, hmap⟩ := htyped.listOrders
  refine ⟨g, os, hg, hlabels, hos, listsAdded_of_run hg hrows fun o ho => (hmap o).mp ho,
    answersFor_of_rows htyped hrows, ?_⟩
  -- no row is ever deleted, by any process
  have hnumbered : p.shared.store.orders.Numbered :=
    lives_store (fun st => st.orders.Numbered) (fun faults sc st hst => numbered_after hst faults sc)
      run Table.numbered_empty
  unfold Table.Numbered at hnumbered
  rw [hrows, List.map_map, List.length_map] at hnumbered
  exact hnumbered

/-- With one restart between the order and its download. -/
theorem lives_refine_downloadRestarted :
    ∃ g os, g.map Step.label = shown wentThrough downloadRestarted ∧ ListsAdded g os
      ∧ os.map Order.id = (List.range os.length).map fun (k : Nat) => (k : Int) + 1 := by
  obtain ⟨g, os, _, hlabels, _, hadded, _, hids⟩ :=
    lives_refine (run_restarted beforeRestart afterRestart)
  exact ⟨g, os, hlabels, hadded, hids⟩

/-! ## One order -/

/-- The state that a store call sets for order `i`, if it sets one. -/
def setBy (i : Int) (call : Call StoreSig) : Option OrderState :=
  match call.op with
  | .setState order state => if order = i then some state else none
  | _ => none

/-- The eUICC that a store call binds to order `i`, if it binds one. -/
def boundBy (i : Int) (call : Call StoreSig) : Option (String × Bytes) :=
  match call.op with
  | .bindEuicc order eid euiccCert => if order = i then some (eid, euiccCert) else none
  | _ => none

/-- The state that a store call that went through sets for order `i`. -/
def stateMoved (i : Int) (x : Step (ServerPool σ) (ServerLifeEvent σ)) : Option OrderState :=
  (wentThrough x.label).bind (setBy i)

/-- The EID and the certificate that a store call that went through binds to order `i`. -/
def euiccMoved (i : Int) (x : Step (ServerPool σ) (ServerLifeEvent σ)) : Option (String × Bytes) :=
  (wentThrough x.label).bind (boundBy i)

variable {past after : List (Step (ServerPool σ) (ServerLifeEvent σ))} {i : Int}

/-- The last call in `after` that sets the state of order `i` sets this one, and rests on what its
request had seen. -/
def LastMoved (past after : List (Step (ServerPool σ) (ServerLifeEvent σ))) (i : Int)
    (state : OrderState) : Prop :=
  ∃ mid y rest t c env, after = mid ++ y :: rest
    ∧ y.label = .alive (.called t c env ⟨.store (.setState i state), .ok ()⟩)
    ∧ (ServerOp.store (.setState i state)).RestsOn c (Machine.callsInLife t (past ++ mid))
    ∧ ∀ z ∈ rest, stateMoved i z = none

/-- The last call in `after` that binds an eUICC to order `i` binds this one, and rests on what its
request had seen. -/
def LastBound (past after : List (Step (ServerPool σ) (ServerLifeEvent σ))) (i : Int) (eid : String)
    (cert : Bytes) : Prop :=
  ∃ mid y rest t c env, after = mid ++ y :: rest
    ∧ y.label = .alive (.called t c env ⟨.store (.bindEuicc i eid cert), .ok ()⟩)
    ∧ (ServerOp.store (.bindEuicc i eid cert)).RestsOn c (Machine.callsInLife t (past ++ mid))
    ∧ ∀ z ∈ rest, euiccMoved i z = none

theorem wentThrough_eq_some {l : ServerLifeEvent σ} {call : Call StoreSig}
    (hl : wentThrough l = some call) :
    ∃ sc v t c env, call = ⟨sc, .ok v⟩ ∧ l = .alive (.called t c env ⟨.store sc, .ok v⟩) := by
  unfold wentThrough at hl
  split at hl
  · cases hl
    exact ⟨_, _, _, _, _, rfl, rfl⟩
  · cases hl

theorem stateMoved_eq_some {x : Step (ServerPool σ) (ServerLifeEvent σ)} {state : OrderState}
    (hx : stateMoved i x = some state) :
    ∃ t c env, x.label = .alive (.called t c env ⟨.store (.setState i state), .ok ()⟩) := by
  obtain ⟨call, hthrough, hset⟩ := Option.bind_eq_some_iff.mp hx
  obtain ⟨sc, v, t, c, env, rfl, hlabel⟩ := wentThrough_eq_some hthrough
  cases sc with
  | setState order state' =>
    by_cases hid : order = i
    · obtain rfl : state' = state := Option.some.inj ((if_pos hid).symm.trans hset)
      exact ⟨t, c, env, hid ▸ hlabel⟩
    · exact absurd ((if_neg hid).symm.trans hset) (by simp)
  | _ => cases hset

theorem euiccMoved_eq_some {x : Step (ServerPool σ) (ServerLifeEvent σ)} {eid : String}
    {cert : Bytes} (hx : euiccMoved i x = some (eid, cert)) :
    ∃ t c env, x.label = .alive (.called t c env ⟨.store (.bindEuicc i eid cert), .ok ()⟩) := by
  obtain ⟨call, hthrough, hbind⟩ := Option.bind_eq_some_iff.mp hx
  obtain ⟨sc, v, t, c, env, rfl, hlabel⟩ := wentThrough_eq_some hthrough
  cases sc with
  | bindEuicc order eid' cert' =>
    by_cases hid : order = i
    · -- the call is on this order, and its two values are the two that were bound
      obtain ⟨rfl, rfl⟩ := Prod.mk.inj (Option.some.inj ((if_pos hid).symm.trans hbind))
      exact ⟨t, c, env, hid ▸ hlabel⟩
    · exact absurd ((if_neg hid).symm.trans hbind) (by simp)
  | _ => cases hbind

theorem lastMoved_of_latest (run : LifeRun config (past ++ after) p) {state : OrderState}
    (hstate : latest (stateMoved i) after = some state) : LastMoved past after i state := by
  obtain ⟨mid, y, rest, rfl, hy, hsince⟩ := cut_of_latest hstate
  obtain ⟨t, c, env, hlabel⟩ := stateMoved_eq_some hy
  have hrests := calls_rest run (List.append_assoc past mid (y :: rest)).symm hlabel
  exact ⟨mid, y, rest, t, c, env, rfl, hlabel, hrests, hsince⟩

theorem lastBound_of_latest (run : LifeRun config (past ++ after) p) {eid : String} {cert : Bytes}
    (heuicc : latest (euiccMoved i) after = some (eid, cert)) : LastBound past after i eid cert := by
  obtain ⟨mid, y, rest, rfl, hy, hsince⟩ := cut_of_latest heuicc
  obtain ⟨t, c, env, hlabel⟩ := euiccMoved_eq_some hy
  have hrests := calls_rest run (List.append_assoc past mid (y :: rest)).symm hlabel
  exact ⟨mid, y, rest, t, c, env, rfl, hlabel, hrests, hsince⟩

/-- **Every order on file is accounted for.** A request of the operator added it, as it stands in
its MatchingID, ICCID, UPP and metadata. If its state has changed since, some request set the state
it has, for what that request had seen; and so with its eUICC. -/
theorem order_account (run : LifeRun config h p) {os : List Order} {o : Order}
    (hos : p.shared.store.listOrders = .ok os) (ho : o ∈ os) :
    ∃ past x after t args env new added, h = past ++ x :: after
      ∧ x.label = .alive (.called t (.orderAdd args) env ⟨.store (.addOrder new), .ok added⟩)
      ∧ added.id = o.id ∧ IsOrdered (Machine.callsInLife t past) args new
      ∧ o.matchingId = new.matchingId ∧ o.iccid = new.iccid ∧ o.upp = args.upp
      ∧ o.metadata = args.metadata
      ∧ (LastMoved (past ++ [x]) after o.id o.state
        ∨ o.state = .available ∧ ∀ z ∈ after, stateMoved o.id z = none)
      ∧ ((∃ eid cert, o.eid = some eid ∧ o.euiccCert = some cert
          ∧ LastBound (past ++ [x]) after o.id eid cert)
        ∨ o.eid = none ∧ o.euiccCert = none ∧ ∀ z ∈ after, euiccMoved o.id z = none) := by
  obtain ⟨g, hg, hlabels⟩ := storeRun_of_lives run
  obtain ⟨os', hos', hrows, hmap⟩ := (typed_of_run hg).listOrders
  obtain rfl : os = os' := Except.ok.inj (hos.symm.trans hos')
  have hlists : ListsAdded g os := listsAdded_of_run hg hrows fun o ho => (hmap o).mp ho
  obtain ⟨gpast, gx, gafter, new, added, rfl, hgx, hid, hadded⟩ := hlists.accountable o ho
  -- `gx` of the store's run is the call that added it; `x` is the step of the history that made
  -- it
  rw [List.map_append, List.map_cons, hgx] at hlabels
  -- the call that added it is there in the history
  obtain ⟨past, x, after, rfl, _, hx, hafter⟩ := cut_of_shown hlabels.symm
  obtain ⟨sc, v, t, c, env, hcall, hlabel⟩ := wentThrough_eq_some hx
  cases hcall
  obtain ⟨args, rfl, hordered⟩ := calls_rest run rfl hlabel
  refine ⟨past, x, after, t, args, env, new, added, rfl, hlabel, hid, hordered, hadded.matchingId,
    hadded.iccid, hadded.upp.trans hordered.upp, hadded.metadata.trans hordered.metadata, ?_, ?_⟩
  · have hstate := hadded.state
    -- what the store's run sets last is what the history shows last
    have hsame : latest (stateSet o.id) gafter = latest (stateMoved o.id) after :=
      latest_shown hafter.symm (setBy o.id)
    rw [hsame] at hstate
    cases hlatest : latest (stateMoved o.id) after with
    | none =>
      rw [hlatest] at hstate
      exact .inr ⟨hstate, none_of_latest hlatest⟩
    | some state =>
      rw [hlatest] at hstate
      rw [hstate]
      exact .inl (lastMoved_of_latest (by simpa using run) hlatest)
  · have heid := hadded.eid
    have hcert := hadded.euiccCert
    have hsame : latest (euiccBound o.id) gafter = latest (euiccMoved o.id) after :=
      latest_shown hafter.symm (boundBy o.id)
    rw [hsame] at heid hcert
    cases hlatest : latest (euiccMoved o.id) after with
    | none =>
      rw [hlatest] at heid hcert
      exact .inr ⟨heid, hcert, none_of_latest hlatest⟩
    | some bound =>
      rw [hlatest] at heid hcert
      exact .inl ⟨bound.1, bound.2, heid, hcert,
        lastBound_of_latest (by simpa using run) hlatest⟩

/-- The order that `A` downloaded, as the second process leaves it. -/
theorem order_account_downloadRestarted :
    ∃ past x after, downloadRestarted = past ++ x :: after
      ∧ LastMoved (past ++ [x]) after 1 .downloaded := by
  have hos : (restartedPool beforeRestart afterRestart).shared.store.listOrders
      = .ok [⟨1, "A", iccidOf 7, [7], [0xbf, 0x25, 0x0c, 0x5a, 0x0a] ++ List.replicate 10 7,
          .downloaded, some "A", some [65]⟩] := rfl
  obtain ⟨past, x, after, _, _, _, _, _, hh, _, _, _, _, _, _, _, hmoved, _⟩ :=
    order_account (run_restarted beforeRestart afterRestart) hos List.mem_cons_self
  rcases hmoved with hmoved | ⟨havailable, _⟩
  · exact ⟨past, x, after, hh, hmoved⟩
  · cases havailable

/-! ## Notifications -/

/-- A notification that was put on file. -/
def filed : ServerLifeEvent σ → Option NewNotification
  | .alive (.called _ _ _ ⟨.store (.recordNotification n), .ok _⟩) => some n
  | _ => none

/-- The rows of the notifications, in the order they were put on file. -/
def rowsOf (ns : List NewNotification) : List NotificationRow :=
  ns.mapIdx fun k n => n.toRow (k + 1)

theorem rowsOf_snoc (ns : List NewNotification) (n : NewNotification) :
    rowsOf (ns ++ [n]) = rowsOf ns ++ [n.toRow (ns.length + 1)] := List.mapIdx_concat

/-- Rows made of a list of notifications are numbered in turn. -/
theorem numbered_of_rowsOf {t : NotificationTable} {ns : List NewNotification}
    (h : t.rows = rowsOf ns) : t.Numbered := by
  unfold Table.Numbered
  rw [h]
  clear h
  induction ns using List.reverseRecOn with
  | nil => rfl
  | append_singleton ns n ih =>
    rw [rowsOf_snoc, List.map_append, ih, List.length_append, List.length_singleton,
      List.range_succ, List.map_append]
    simp [rowsOf]

/-- A step puts one notification on file, or none. -/
theorem lifeStep_notifications {l : ServerLifeEvent σ} (step : LifeServing config p l p')
    {ns : List NewNotification} (hrows : p.shared.store.notifications.rows = rowsOf ns) :
    p'.shared.store.notifications.rows = rowsOf (ns ++ (filed l).toList) := by
  have hkept : p'.shared.store.notifications = p.shared.store.notifications →
      filed l = none → p'.shared.store.notifications.rows = rowsOf (ns ++ (filed l).toList) := by
    intro hsame hnone
    rw [hsame, hnone, hrows, Option.toList_none, List.append_nil]
  rcases step.cases with ⟨l, rfl, hstep⟩ | ⟨rfl, rfl⟩
  · cases l with
    | started t c =>
      refine hkept ?_ rfl
      cases hstep with
      | started => rfl
    | called t c env call =>
      obtain ⟨op, answer⟩ := call
      obtain ⟨hanswer, hshared⟩ := hstep.answered
      cases op with
      | store sc =>
        have hstore : p'.shared.store = p.shared.store.after env.faults sc :=
          congrArg AppState.store hshared
        -- one call puts a notification on file, and does so exactly if it goes through
        by_cases hrecord : ∃ n, sc = .recordNotification n
        · obtain ⟨n, rfl⟩ := hrecord
          have hperform : (p.shared.store.performUnder env.faults (.recordNotification n)).1
              = answer := hanswer.symm
          rw [hstore, SqliteStore.rows_after_recordNotification, hrows,
            (numbered_of_rowsOf hrows).nextKey, hrows]
          unfold SqliteStore.performUnder at hperform
          cases hfault : env.faults (.recordNotification n) with
          | some e =>
            rw [hfault] at hperform
            subst hperform
            simp [filed]
          | none =>
            rw [hfault] at hperform
            subst hperform
            rw [if_pos rfl]
            show _ = rowsOf (ns ++ [n])
            rw [rowsOf_snoc]
            simp [rowsOf]
        · refine hkept ?_ ?_
          · rw [hstore]
            exact SqliteStore.notifications_after sc fun n hn => hrecord ⟨n, hn⟩
          · cases sc with
            | recordNotification n => exact absurd ⟨n, rfl⟩ hrecord
            | _ => rfl
      | _ => exact hkept (congrArg (fun s => s.store.notifications) hshared) rfl
  · exact hkept rfl rfl

/-- **The notifications on file are those that were put there**, numbered from 1 in turn. -/
theorem rows_of_lives (run : LifeRun config h p) :
    p.shared.store.notifications.rows = rowsOf (shown filed h) := by
  induction run with
  | nil => rfl
  | @snoc h p p' l run step ih =>
    rw [lifeStep_notifications step ih, shown_append]
    rfl

/-- What the store said to keeping a notification tells whether it is on file. -/
theorem filed_of_noted (run : LifeRun config h p) {t : Nat}
    {x : Thread (ServerSig σ) Command Answer} (hx : p.threads[t]? = some x) {raw : Bytes}
    (hnoted : Noted (Machine.callsInLife t h) raw) :
    (∃ n ∈ shown filed h, ⟨.store (.recordNotification n), .ok ()⟩ ∈ Machine.callsInLife t h
        ∧ n.raw = raw)
      ∨ (∃ n e, ⟨.store (.recordNotification n), .error e⟩ ∈ Machine.callsInLife t h ∧ n.raw = raw)
      ∨ Unreadable (Machine.callsInLife t h) raw := by
  rcases hnoted with ⟨n, answer, hcall, hraw⟩ | hunreadable
  · cases answer with
    | error e => exact .inr (.inl ⟨n, e, hcall, hraw⟩)
    | ok _ =>
      refine .inl ⟨n, ?_, hcall, hraw⟩
      obtain ⟨before, y, after, env, rfl, hy, _⟩ := Machine.Run.mem_callsInLife run hx hcall
      exact List.mem_filterMap.mpr ⟨y, by simp, by rw [hy]; rfl⟩
  · exact .inr (.inr hunreadable)

/-- **Everything that arrives is kept**, by every process. What is on file is what was put there,
in turn, and nothing is ever taken away. A request puts there the notification it brought, once;
and one that has been answered has done so, unless the store refused its call, or the library
could make nothing of what it brought. -/
theorem notifications_kept (run : LifeRun config h p) :
    p.shared.store.notifications.rows = rowsOf (shown filed h)
      ∧ (∀ before x after t c env n r, h = before ++ x :: after →
          x.label = .alive (.called t c env ⟨.store (.recordNotification n), r⟩) →
          ∃ req, c = .handleNotification req
            ∧ Files (Machine.callsInLife t before) req.pendingNotification n)
      ∧ ∀ t req r, p.threads[t]? = some ⟨.handleNotification req, .ret (.http r)⟩ →
          (∃ n ∈ shown filed h, ⟨.store (.recordNotification n), .ok ()⟩ ∈ Machine.callsInLife t h
              ∧ n.raw = req.pendingNotification)
            ∨ (∃ n e, ⟨.store (.recordNotification n), .error e⟩ ∈ Machine.callsInLife t h
              ∧ n.raw = req.pendingNotification)
            ∨ Unreadable (Machine.callsInLife t h) req.pendingNotification := by
  refine ⟨rows_of_lives run, ?_, ?_⟩
  · intro before x after t c env n r hh hx
    exact calls_rest run hh hx
  · intro t req r ht
    have hrests : r.body.RestsOn config (.handleNotification req) (Machine.callsInLife t h) :=
      answers_rest run ht
    apply filed_of_noted run ht
    cases hbody : r.body with
    | empty =>
      rw [hbody] at hrests
      obtain ⟨req', hreq, hnoted⟩ := hrests
      cases hreq
      exact hnoted
    | failure b =>
      rw [hbody] at hrests
      exact absurd rfl (hrests req)
    | _ =>
      -- an answer of success is to another request
      rw [hbody] at hrests
      simp [Body.RestsOn] at hrests

/-- The report of the second process was answered, and it is on file. -/
theorem notifications_kept_downloadRestarted :
    (∃ n ∈ shown filed downloadRestarted, ⟨.store (.recordNotification n), .ok ()⟩
          ∈ Machine.callsInLife 3 downloadRestarted
        ∧ n.raw = 65 :: 1 :: 1 :: List.replicate 10 7)
      ∨ (∃ n e, ⟨.store (.recordNotification n), .error e⟩
          ∈ Machine.callsInLife 3 downloadRestarted
        ∧ n.raw = 65 :: 1 :: 1 :: List.replicate 10 7)
      ∨ Unreadable (Machine.callsInLife 3 downloadRestarted)
          (65 :: 1 :: 1 :: List.replicate 10 7) :=
  (notifications_kept (run_restarted beforeRestart afterRestart)).2.2 3
    ⟨65 :: 1 :: 1 :: List.replicate 10 7⟩ _ rfl

end Smdp
