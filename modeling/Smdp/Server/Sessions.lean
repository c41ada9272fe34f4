import Mathlib.Logic.Function.Basic
import Smdp.Store.Order

/-!
# Smdp — the session table (`server/sessions.rs`)

RSP sessions, in memory, keyed by transactionId. The `HashMap` is a partial function from
keys, which is all its operations depend on. An `Instant` is a number of nanoseconds.
-/

namespace Smdp

/-- A reading of the clock, in nanoseconds. -/
abbrev Instant := Nat

/-- `Duration::from_secs(600)`. -/
def maxAge : Nat := 600 * 1000000000

/-- `duration_since`, which saturates at zero. -/
def Instant.durationSince (now born : Instant) : Nat := now - born

/-- A live session; `σ` is the library's own session state. -/
structure Entry (σ : Type) where
  session : σ
  /-- Which order this download is for, learned at AuthenticateClient. -/
  orderId : Option Int
  born : Instant
  deriving DecidableEq

/-- `Sessions`: the live sessions, by the transactionId each was opened under. -/
structure Sessions (σ : Type) where
  byTransaction : Bytes → Option (Entry σ)

namespace Sessions

variable {σ : Type} {t t' : Bytes}

/-- `Sessions::default`. -/
def empty : Sessions σ := ⟨fun _ => none⟩

/-- `retain`: drop what has reached `MAX_AGE`. -/
def sweep (ss : Sessions σ) (now : Instant) : Sessions σ :=
  ⟨fun t => (ss.byTransaction t).filter fun e => now.durationSince e.born < maxAge⟩

/-- `by_transaction.insert`, and the write through a `&mut Entry`. -/
def put (ss : Sessions σ) (t : Bytes) (e : Entry σ) : Sessions σ :=
  ⟨Function.update ss.byTransaction t (some e)⟩

/-- `Sessions::insert`. It reads the clock twice: once to sweep, once for `born`. -/
def insert (ss : Sessions σ) (t : Bytes) (session : σ) (sweptAt born : Instant) : Sessions σ :=
  (ss.sweep sweptAt).put t { session, orderId := none, born }

/-- `get_mut`, as far as looking goes; what is written through it is a `put`. -/
def get (ss : Sessions σ) (t : Bytes) : Option (Entry σ) := ss.byTransaction t

/-- `remove`: nothing happens to a key that is not there. -/
def remove (ss : Sessions σ) (t : Bytes) : Sessions σ :=
  ⟨Function.update ss.byTransaction t none⟩

/-- The table afterwards, key by key: the one written to, and all the others as they were. -/
theorem get_put (ss : Sessions σ) (e : Entry σ) :
    (ss.put t e).get t' = if t' = t then some e else ss.get t' := by
  simp only [put, get, Function.update_apply]

theorem get_remove (ss : Sessions σ) :
    (ss.remove t).get t' = if t' = t then none else ss.get t' := by
  simp only [remove, get, Function.update_apply]

/-- A sweep looks at ages and at nothing else, so it treats every key alike. -/
theorem get_sweep (ss : Sessions σ) (now : Instant) :
    (ss.sweep now).get t
      = (ss.get t).filter fun e => now.durationSince e.born < maxAge := rfl

/-- What an insert leaves behind: the new entry under its own key, whatever was there before, and
of the others exactly those that have not reached `MAX_AGE`. -/
theorem get_insert (ss : Sessions σ) (session : σ) (sweptAt born : Instant) :
    (ss.insert t session sweptAt born).get t'
      = if t' = t then some { session, orderId := none, born }
        else (ss.get t').filter fun e => sweptAt.durationSince e.born < maxAge := by
  rw [insert, get_put, get_sweep]

/-- Which order each live session is for: what is left of the table without the library's
own state in it. -/
def orderIds (ss : Sessions σ) (t : Bytes) : Option (Option Int) := (ss.get t).map Entry.orderId

theorem orderIds_put (ss : Sessions σ) (e : Entry σ) :
    (ss.put t e).orderIds t' = if t' = t then some e.orderId else ss.orderIds t' := by
  unfold orderIds
  rw [get_put]
  split <;> rfl

end Sessions

end Smdp
