import Smdp.Rust
import Smdp.Server.Interface

/-!
# Smdp — what the command line does, minus the argument parsing (`service.rs`)
-/

namespace Smdp

open Interaction

variable {σ : Type}

/-- `ServiceError`. -/
inductive ServiceError where
  | store (e : StoreError)
  /-- The metadata handed in is not a StoreMetadataRequest whose first member is an ICCID. -/
  | notStoreMetadata
  deriving DecidableEq

/-! ## The MatchingID -/

/-- `ALPHABET`: thirty-two characters, none of them `0`, `O`, `1` or `I`. -/
def alphabet : List Char := "ABCDEFGHJKLMNPQRSTUVWXYZ23456789".toList

/-- The mask of five bits indexes into the alphabet and never past it. -/
theorem mask_lt_alphabet (b : UInt8) : (b &&& 0x1f).toNat < alphabet.length := by
  have hmask : (b &&& 0x1f).toNat ≤ 31 := by
    rw [UInt8.toNat_and]
    exact Nat.and_le_right
  have hlen : alphabet.length = 32 := by decide
  omega

/-- `generate_matching_id`, from the bytes it drew. Each character carries five bits. -/
def generateMatchingId (raw : Octets 22) : String :=
  String.ofList (raw.val.map fun b => alphabet.get ⟨(b &&& 0x1f).toNat, mask_lt_alphabet b⟩)

/-- `LPA:1$<host>$<matchingId>`. -/
def activationCode (host matchingId : String) : String := s!"LPA:1${host}${matchingId}"

/-! ## Orders -/

/-- `matching_id.unwrap_or_else(generate_matching_id)`. -/
def orGenerate : Option String → Handler σ String
  | some m => return m
  | none => do
    let raw ← Prog.ask (F := ServerSig σ) .random
    return generateMatchingId raw

/-- `create_order`: the MatchingID that was given, or one that is drawn. The store may refuse
either as taken. -/
def createOrder (iccid : Iccid) (upp metadata : Bytes) (matchingId : Option String) :
    Handler σ (Except ServiceError Order) := do
  let matchingId ← orGenerate matchingId
  match ← Handler.addOrder { matchingId, iccid, upp, metadata } with
  | .error e => return .error (.store e)
  | .ok order => return .ok order

/-- `list_orders`. -/
def listOrders : Handler σ (Except ServiceError (List Order)) := do
  match ← Handler.listOrders with
  | .error e => return .error (.store e)
  | .ok orders => return .ok orders

/-! ## The ICCID in the metadata -/

/-- The offset of the first member: past `BF 25`, the length octet `first`, and in the long
form the `n` octets it announces. -/
def firstMember (first : UInt8) : Option Nat :=
  if first ≥ 0x80 then
    -- the octets after `first` are counted over, and what they say is not read
    let n := (first &&& 0x7f).toNat
    if n = 0 ∨ n > 4 then none else some (3 + n)
  else
    some 3

/-- `iccid_from_metadata`. -/
def iccidFromMetadata (metadata : Bytes) : Panicking (Except ServiceError Iccid) := do
  if metadata.length < 4 then return .error .notStoreMetadata
  else if (← index metadata 0) ≠ 0xbf then return .error .notStoreMetadata
  else if (← index metadata 1) ≠ 0x25 then return .error .notStoreMetadata
  else
    match metadata[2]? with
    | none => return .error .notStoreMetadata
    | some first =>
      match firstMember first with
      | none => return .error .notStoreMetadata
      | some p =>
        -- iccid [90] Iccid: tag 5A, and Iccid is SIZE(10)
        if metadata[p]? ≠ some 0x5a ∨ metadata[p + 1]? ≠ some 0x0a then
          return .error .notStoreMetadata
        else
          -- `metadata.get(p + 2..p + 12)`, short where the metadata ends too soon
          match (getRange metadata (p + 2) 10).bind (Octets.ofBytes? 10) with
          | none => return .error .notStoreMetadata
          | some iccid => return .ok iccid

end Smdp
