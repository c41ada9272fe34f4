import Smdp.Hex
import Smdp.Service

/-!
# Smdp — the commands on orders (`bin/smdp.rs`)

Each command opens the database and then does its work in it. What is printed is left out;
what a command returns is its order, its list, or why it stopped.
-/

namespace Smdp

open Interaction

variable {σ : Type}

/-! ## Reading an ICCID -/

/-- What `parse_iccid` complains about. -/
inductive ParseIccidError where
  /-- `an ICCID is 20 hexadecimal digits, this is n`. -/
  | length (n : Nat)
  /-- `not hexadecimal at digit n: pair`. -/
  | notHex (digit : Nat) (pair : List Char)
  deriving DecidableEq

/-- `out[..n]` with one more octet. -/
def Octets.push {n : Nat} (o : Octets n) (b : UInt8) : Octets (n + 1) :=
  ⟨o.val ++ [b], by simp [o.property]⟩

/-- The loop of `parse_iccid` over the first `n` octets. -/
def parsePairs (cs : List Char) : (n : Nat) → Panicking (Except ParseIccidError (Octets n))
  | 0 => .ok (.ok ⟨[], rfl⟩)
  | i + 1 => do
    match ← parsePairs cs i with
    | .error e => return .error e
    | .ok out =>
      let pair ← strSlice cs (i * 2) 2
      match fromStrRadix16 pair with
      | none => return .error (.notHex (i * 2 + 1) pair)
      | some b => return .ok (out.push b)

def parseIccid (s : String) : Panicking (Except ParseIccidError Iccid) :=
  if s.utf8ByteSize ≠ 20 then .ok (.error (.length s.utf8ByteSize))
  else parsePairs s.toList 10

def hex (bytes : Bytes) : String := String.ofList (formatHex lowerDigit bytes)

/-! ## The commands -/

/-- What a command can end with. A Profile that cannot be sold is refused by the service, before
the store is asked. -/
inductive CliError where
  | panicked (p : Panic)
  | iccid (e : ParseIccidError)
  | service (e : ServiceError)
  /-- `no order id`. -/
  | noOrder (id : Int)
  deriving DecidableEq

structure OrderAdd where
  upp : Bytes
  metadata : Bytes
  iccid : Option String
  matchingId : Option String
  deriving DecidableEq

/-- The ICCID an order is added under: the flag if it was given, else the metadata's. -/
def OrderAdd.readIccid (args : OrderAdd) : Except CliError Iccid :=
  match args.iccid with
  | some h =>
    match parseIccid h with
    | .error p => .error (.panicked p)
    | .ok (.error e) => .error (.iccid e)
    | .ok (.ok iccid) => .ok iccid
  | none =>
    match iccidFromMetadata args.metadata with
    | .error p => .error (.panicked p)
    | .ok (.error e) => .error (.service e)
    | .ok (.ok iccid) => .ok iccid

/-- `smdp order add`. -/
def orderAdd (args : OrderAdd) : Handler σ (Except CliError Order) := do
  match args.readIccid with
  | .error e => return .error e
  | .ok iccid =>
    match ← Handler.openStore with
    | .error e => return .error (.service (.store e))
    | .ok _ =>
      match ← createOrder iccid args.upp args.metadata args.matchingId with
      | .error e => return .error (.service e)
      | .ok order => return .ok order

/-- `smdp order reset`. -/
def orderReset (id : Int) : Handler σ (Except CliError Unit) := do
  match ← Handler.openStore with
  | .error e => return .error (.service (.store e))
  | .ok _ =>
    match ← listOrders with
    | .error e => return .error (.service e)
    | .ok known =>
      if known.any (fun o => o.id = id) then
        match ← Handler.setState id .available with
        | .error e => return .error (.service (.store e))
        | .ok _ => return .ok ()
      else
        return .error (.noOrder id)

/-- `smdp order list`. -/
def orderList : Handler σ (Except CliError (List Order)) := do
  match ← Handler.openStore with
  | .error e => return .error (.service (.store e))
  | .ok _ =>
    match ← listOrders with
    | .error e => return .error (.service e)
    | .ok orders => return .ok orders

end Smdp
