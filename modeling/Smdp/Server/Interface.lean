import Smdp.Interaction.Program
import Smdp.Rsp.Library
import Smdp.Server.Sessions
import Smdp.Store.Interface

/-!
# Smdp — what a handler can ask for (`server/mod.rs`)

A handler runs over one shared `AppState` and asks for four kinds of thing: a call of the C
library, a call of the store, random bytes, and work on the session table under its mutex.
`ServerOp` lists them, `AppState.perform` answers them.

Everything a request does not decide is in its `Env`: how the library answers, which store
calls fail, the nonces drawn and the clock. `AppState.perform` ignores `lock` and `unlock`;
they matter when requests run concurrently.
-/

namespace Smdp

open Interaction

variable {σ : Type}

/-- The three values a session draws rather than receives. -/
structure Nonces where
  transactionId : Octets 16
  serverChallenge : Octets 16
  otskDp : Octets 32

/-- `ServerConfig`. Its nonce source is not here: what it yields is in the `Env` of each call. -/
structure ServerConfig where
  /-- This SM-DP+'s own address. -/
  serverAddress : String

/-- What every request shares: the store and the session table. The table's mutex is not state
here but a call (`lock`), which is what lets requests interleave around it. -/
structure AppState (σ : Type) where
  store : SqliteStore
  sessions : Sessions σ

/-- A server just started on a fresh database. -/
def AppState.fresh : AppState σ := ⟨SqliteStore.empty, Sessions.empty⟩

/-- What the environment decides while one request is served. -/
structure Env (σ : Type) where
  library : Library σ
  faults : StoreFaults
  nonces : Nonces
  /-- The clock when `insert` sweeps. -/
  sweptAt : Instant
  /-- The clock when `insert` stamps the new session. -/
  born : Instant
  /-- What `generate_matching_id` draws. -/
  random : Octets 22

/-- Everything a handler can ask of the world around it, one constructor a call. -/
inductive ServerOp (σ : Type) where
  | rsp (c : RspCall σ)
  | store (c : StoreCall)
  | transactionId
  | serverChallenge
  | otskDp
  | random
  /-- `st.sessions.lock()`. -/
  | lock
  /-- The guard is dropped. -/
  | unlock
  | insertSession (transactionId : Bytes) (session : σ)
  /-- `get_mut`, as far as reading the entry goes. -/
  | getSession (transactionId : Bytes)
  /-- What was written through the `&mut Entry`. -/
  | putSession (transactionId : Bytes) (entry : Entry σ)
  | removeSession (transactionId : Bytes)

/-- What each call hands back. Every draw hands back the octets drawn, and what only changes the
session table hands back nothing. -/
abbrev ServerSig (σ : Type) : Sig where
  Op := ServerOp σ
  Ret
    | .rsp c => c.Ret
    | .store c => c.Ret
    | .transactionId => Octets 16
    | .serverChallenge => Octets 16
    | .otskDp => Octets 32
    | .random => Octets 22
    | .getSession _ => Option (Entry σ)
    | _ => Unit

/-- How a call is answered and what it changes. The store and the session table are the only
things a call can change; a library call and a draw read from the environment. -/
def AppState.perform (env : Env σ) :
    (op : ServerOp σ) → AppState σ → (ServerSig σ).Ret op × AppState σ
  | .rsp c, s => (env.library c, s)
  | .store c, s =>
    let (r, store) := s.store.performUnder env.faults c
    (r, { s with store })
  | .transactionId, s => (env.nonces.transactionId, s)
  | .serverChallenge, s => (env.nonces.serverChallenge, s)
  | .otskDp, s => (env.nonces.otskDp, s)
  | .random, s => (env.random, s)
  -- the mutex is the machine's to keep (`Smdp.Server.Concurrent`); run alone, nobody else wants
  -- it
  | .lock, s => ((), s)
  | .unlock, s => ((), s)
  -- the sweep is part of the insert: it happens nowhere else
  | .insertSession t session, s =>
    ((), { s with sessions := s.sessions.insert t session env.sweptAt env.born })
  | .getSession t, s => (s.sessions.get t, s)
  -- an entry is written back whole, which is what a `&mut Entry` amounts to under the lock
  | .putSession t entry, s => ((), { s with sessions := s.sessions.put t entry })
  | .removeSession t, s => ((), { s with sessions := s.sessions.remove t })

/-- A program a handler is. -/
abbrev Handler (σ : Type) := Prog (ServerSig σ)

namespace Handler

def rsp (c : RspCall σ) : Handler σ c.Ret := Prog.ask (F := ServerSig σ) (.rsp c)

def store (c : StoreCall) : Handler σ c.Ret := Prog.ask (F := ServerSig σ) (.store c)

/-! The methods of `Store`, as the source calls them. -/

def openStore : Handler σ (Except StoreError Unit) := store .open

def addOrder (new : NewOrder) : Handler σ (Except StoreError Order) := store (.addOrder new)

def listOrders : Handler σ (Except StoreError (List Order)) := store .listOrders

def orderByIccid (iccid : Iccid) : Handler σ (Except StoreError (Option Order)) :=
  store (.orderByIccid iccid)

def bindEuicc (order : Int) (eid : String) (euiccCert : Bytes) :
    Handler σ (Except StoreError Unit) :=
  store (.bindEuicc order eid euiccCert)

def setState (order : Int) (state : OrderState) : Handler σ (Except StoreError Unit) :=
  store (.setState order state)

def recordNotification (n : NewNotification) : Handler σ (Except StoreError Unit) :=
  store (.recordNotification n)

/-! The session table and its mutex. -/

def lock : Handler σ Unit := Prog.ask (F := ServerSig σ) .lock

def unlock : Handler σ Unit := Prog.ask (F := ServerSig σ) .unlock

def getSession (t : Bytes) : Handler σ (Option (Entry σ)) :=
  Prog.ask (F := ServerSig σ) (.getSession t)

def putSession (t : Bytes) (entry : Entry σ) : Handler σ Unit :=
  Prog.ask (F := ServerSig σ) (.putSession t entry)

def removeSession (t : Bytes) : Handler σ Unit := Prog.ask (F := ServerSig σ) (.removeSession t)

def insertSession (t : Bytes) (session : σ) : Handler σ Unit :=
  Prog.ask (F := ServerSig σ) (.insertSession t session)

/-! What each of them does when nothing comes in between. -/

variable (env : Env σ) (s : AppState σ)

/-- A call of the store, whatever the environment makes of it: a fault answers an error and leaves
the tables alone, which is `performUnder`'s business and not this layer's. -/
theorem exec_store (c : StoreCall) :
    (store c).exec (AppState.perform env) s
      = ⟨(s.store.performUnder env.faults c).1, { s with store := s.store.after env.faults c },
          [⟨.store c, (s.store.performUnder env.faults c).1⟩]⟩ := rfl

/-- Opening and the two queries leave the store itself as it was, under any fault: that is a lemma
of `Smdp.Store.Interface` for each, used here. -/
@[simp] theorem exec_openStore :
    openStore.exec (AppState.perform env) s
      = ⟨(s.store.performUnder env.faults .open).1, s,
          [⟨.store .open, (s.store.performUnder env.faults .open).1⟩]⟩ := by
  refine (exec_store env s .open).trans ?_
  rw [SqliteStore.after_open]

@[simp] theorem exec_addOrder (new : NewOrder) :
    (addOrder new).exec (AppState.perform env) s
      = ⟨(s.store.performUnder env.faults (.addOrder new)).1,
          { s with store := s.store.after env.faults (.addOrder new) },
          [⟨.store (.addOrder new), (s.store.performUnder env.faults (.addOrder new)).1⟩]⟩ := rfl

@[simp] theorem exec_listOrders :
    listOrders.exec (AppState.perform env) s
      = ⟨s.store.listed env.faults, s,
          [⟨.store .listOrders, s.store.listed env.faults⟩]⟩ := by
  refine (exec_store env s .listOrders).trans ?_
  rw [SqliteStore.after_listOrders]
  rfl

@[simp] theorem exec_orderByIccid (iccid : Iccid) :
    (orderByIccid iccid).exec (AppState.perform env) s
      = ⟨(s.store.performUnder env.faults (.orderByIccid iccid)).1, s,
          [⟨.store (.orderByIccid iccid),
            (s.store.performUnder env.faults (.orderByIccid iccid)).1⟩]⟩ := by
  refine (exec_store env s (.orderByIccid iccid)).trans ?_
  rw [SqliteStore.after_orderByIccid]

@[simp] theorem exec_setState (order : Int) (state : OrderState) :
    (setState order state).exec (AppState.perform env) s
      = ⟨(s.store.performUnder env.faults (.setState order state)).1,
          { s with store := s.store.after env.faults (.setState order state) },
          [⟨.store (.setState order state),
            (s.store.performUnder env.faults (.setState order state)).1⟩]⟩ := rfl

@[simp] theorem exec_lock :
    lock.exec (AppState.perform env) s = ⟨(), s, [⟨.lock, ()⟩]⟩ := rfl

@[simp] theorem exec_unlock :
    unlock.exec (AppState.perform env) s = ⟨(), s, [⟨.unlock, ()⟩]⟩ := rfl

@[simp] theorem exec_getSession (t : Bytes) :
    (getSession t).exec (AppState.perform env) s
      = ⟨s.sessions.get t, s, [⟨.getSession t, s.sessions.get t⟩]⟩ := rfl

@[simp] theorem exec_putSession (t : Bytes) (entry : Entry σ) :
    (putSession t entry).exec (AppState.perform env) s
      = ⟨(), { s with sessions := s.sessions.put t entry }, [⟨.putSession t entry, ()⟩]⟩ := rfl

@[simp] theorem exec_removeSession (t : Bytes) :
    (removeSession t).exec (AppState.perform env) s
      = ⟨(), { s with sessions := s.sessions.remove t }, [⟨.removeSession t, ()⟩]⟩ := rfl

end Handler

end Smdp
