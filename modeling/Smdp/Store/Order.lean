import Mathlib.Logic.Basic
import Mathlib.Tactic.Common

/-!
# Smdp — orders and notifications (`store/mod.rs`)

What has to outlive a process: which eUICC was given which Profile. These are the typed
values the `Store` trait speaks of. How SQLite keeps them is `Smdp.Store.Sqlite`.

A fixed-width byte array of the source (`[u8; 10]`, `[u8; 16]`) is `Octets n`, the byte
lists of that length, so an ICCID of the wrong width cannot be built.
-/

namespace Smdp

/-- A string of octets, the source's `Vec<u8>` and `&[u8]`. -/
abbrev Bytes := List UInt8

/-- A byte array of the fixed width `n`, the source's `[u8; n]`. -/
abbrev Octets (n : Nat) := { b : Bytes // b.length = n }

/-- `slice.try_into()` at a fixed width: the bytes, if there are exactly `n` of them. -/
def Octets.ofBytes? (n : Nat) (b : Bytes) : Option (Octets n) :=
  if h : b.length = n then some ⟨b, h⟩ else none

/-- An ICCID, `[u8; 10]`. -/
abbrev Iccid := Octets 10

@[simp] theorem Octets.ofBytes?_val {n : Nat} (b : Octets n) :
    Octets.ofBytes? n b.val = some b := by
  unfold Octets.ofBytes?
  rw [dif_pos b.property]

theorem Octets.ofBytes?_eq_some {n : Nat} {b : Bytes} {o : Octets n} :
    Octets.ofBytes? n b = some o ↔ b = o.val := by
  unfold Octets.ofBytes?
  constructor
  · intro h
    split at h
    · rw [← Option.some.inj h]
    · exact absurd h (by simp)
  · rintro rfl
    rw [dif_pos o.property]

/-! ## Order states -/

/-- `OrderState`: how far a Profile has come on its way to an eUICC. -/
inductive OrderState where
  /-- Nobody has downloaded it. -/
  | available
  /-- An eUICC authenticated against it; `eid` and `euiccCert` are set. -/
  | bound
  /-- A Bound Profile Package was handed out for it. -/
  | downloaded
  /-- The eUICC reported that it could not install it. -/
  | failed
  deriving DecidableEq, Repr

/-- `StoreError`. -/
inductive StoreError where
  /-- `rusqlite::Error`, by the text it displays. -/
  | db (e : String)
  | duplicateMatchingId (m : String)
  | unknownState (s : String)
  /-- The database was written by a newer version of this server. -/
  | schemaTooNew (v : Int)
  /-- A stored ICCID that is not ten bytes. -/
  | malformedIccid (n : Nat)
  deriving DecidableEq, Repr

/-- `impl Display for StoreError`. -/
def StoreError.display : StoreError → String
  | .db e => s!"database: {e}"
  | .duplicateMatchingId m => s!"MatchingID already exists: {m}"
  | .unknownState s => s!"unknown order state: {s}"
  | .schemaTooNew v => s!"this database has schema version {v}; this server understands 2"
  | .malformedIccid n => s!"stored ICCID is {n} bytes, expected 10"

/-- `as_str`: the TEXT a state is kept as. -/
def OrderState.asStr : OrderState → String
  | .available => "available"
  | .bound => "bound"
  | .downloaded => "downloaded"
  | .failed => "failed"

/-- A state this code does not understand is not a state to guess at. -/
def OrderState.parse (s : String) : Except StoreError OrderState :=
  if s = "available" then .ok .available
  else if s = "bound" then .ok .bound
  else if s = "downloaded" then .ok .downloaded
  else if s = "failed" then .ok .failed
  -- a row of a newer server's, or one edited by hand
  else .error (.unknownState s)

@[simp] theorem OrderState.parse_asStr (st : OrderState) :
    OrderState.parse st.asStr = .ok st := by
  cases st <;> decide

theorem OrderState.asStr_injective : Function.Injective OrderState.asStr := by
  intro a b h
  -- `parse` is a left inverse
  have hparse := congrArg OrderState.parse h
  simpa using hparse

@[simp] theorem OrderState.asStr_inj {a b : OrderState} : a.asStr = b.asStr ↔ a = b :=
  OrderState.asStr_injective.eq_iff

/-- What parses was written by `asStr`. -/
theorem OrderState.asStr_of_parse {s : String} {st : OrderState}
    (h : OrderState.parse s = .ok st) : s = st.asStr := by
  unfold OrderState.parse at h
  split at h
  · cases h; assumption
  · split at h
    · cases h; assumption
    · split at h
      · cases h; assumption
      · split at h
        · cases h; assumption
        · cases h

/-! ## Orders -/

/-- A Profile on sale, and where it stands. `None` in the last two columns is an eUICC that was
never remembered. -/
structure Order where
  id : Int
  matchingId : String
  iccid : Iccid
  upp : Bytes
  /-- An encoded StoreMetadataRequest. -/
  metadata : Bytes
  state : OrderState
  /-- Learned during AuthenticateClient. -/
  eid : Option String
  euiccCert : Option Bytes
  deriving DecidableEq

/-- What `order add` fixes of an order; the rest starts from its defaults. -/
structure NewOrder where
  matchingId : String
  iccid : Iccid
  upp : Bytes
  metadata : Bytes
  deriving DecidableEq

/-- The states an order is still offered in: `Available`, or `Bound` to an eUICC whose
download did not finish. -/
def OrderState.Offered (st : OrderState) : Prop := st = .available ∨ st = .bound

instance (st : OrderState) : Decidable st.Offered := by unfold OrderState.Offered; infer_instance

/-! ## Notifications -/

/-- A notification as it is put on file: what was read of it, and the octets themselves. -/
structure NewNotification where
  /-- Did it verify? A notification that did not is still kept. -/
  verified : Bool
  /-- Which order it was matched to, by ICCID. -/
  orderId : Option Int
  seqNumber : Int
  operation : Int
  iccid : Option Iccid
  installed : Option Bool
  raw : Bytes
  deriving DecidableEq

/-- A notification as it is shown. Its ICCID is a column that is written and not read back. -/
structure StoredNotification where
  id : Int
  verified : Bool
  orderId : Option Int
  seqNumber : Int
  operation : Int
  installed : Option Bool
  raw : Bytes
  deriving DecidableEq

end Smdp
