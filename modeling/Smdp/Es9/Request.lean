import Smdp.Es9.Message
import Smdp.Es9.Wire

/-!
# Smdp — reading and writing the ES9+ requests (`es9/mod.rs`)

`Deserialize` of each request: its fields under the keys `rename_all = "camelCase"` gives them,
each with the adapter the source names; and `Serialize`, by the other half of the adapters.
`base64` is `STANDARD.decode`, and `encode` is `STANDARD.encode`.

Beside the fields stand the members (`InitiateAuthenticationRequest.members` and so on), which
say of the JSON alone what the fields read.
-/

namespace Smdp

open Serde

variable (base64 : String → Option Bytes) (encode : Bytes → String)

/-! ## Members -/

/-- A transactionId: upper or lower case, but whole bytes. -/
def hexMember (key : String) : Member := ⟨key, False, fun j => ∃ s, j = .string s ∧ IsHex s⟩

/-- A payload that base64 reads. -/
def base64Member (key : String) : Member :=
  ⟨key, False, fun j => ∃ s, j = .string s ∧ (base64 s).isSome⟩

/-- Any string: an address is not looked into when it is read. -/
def stringMember (key : String) : Member := ⟨key, False, fun j => ∃ s, j = .string s⟩

/-- A flag that may be left out, or be null. -/
def flagMember (key : String) : Member := ⟨key, True, fun j => j = .null ∨ ∃ b, j = .bool b⟩

/-! ## Fields -/

/-- `#[serde(with = "wire::hex_field")]`, which is for a transactionId only. -/
def hexRequired (key : String) : Field WireFault Bytes := ⟨key, hexField, none⟩

/-- A payload field: DER, as base64. -/
def base64Required (key : String) : Field WireFault Bytes := ⟨key, b64Field base64, none⟩

/-- A plain `String` field. -/
def stringRequired (key : String) : Field WireFault String := ⟨key, Serde.string, none⟩

/-- `#[serde(default)]` on an `Option<bool>`. -/
def flagDefault (key : String) : Field WireFault (Option Bool) :=
  ⟨key, Serde.option Serde.bool, some none⟩

/-- What each kind of field asks of the one who writes the JSON: a field and its member have one
key, and the member admits what the field reads. -/
@[simp] theorem member_hexRequired (key : String) : (hexRequired key).member = hexMember key := by
  unfold Field.member hexMember hexRequired
  congr 1
  · simp
  · funext j
    exact propext hexField_ok_iff

@[simp] theorem member_base64Required (key : String) :
    (base64Required base64 key).member = base64Member base64 key := by
  unfold Field.member base64Member base64Required
  congr 1
  · simp
  · funext j
    exact propext b64Field_ok_iff

@[simp] theorem member_stringRequired (key : String) :
    (stringRequired key).member = stringMember key := by
  unfold Field.member stringMember stringRequired
  congr 1
  · simp
  · funext j
    exact propext string_ok_iff

@[simp] theorem member_flagDefault (key : String) : (flagDefault key).member = flagMember key := by
  unfold Field.member flagMember flagDefault
  congr 1
  · simp
  · funext j
    exact propext (option_ok_iff.trans (or_congr Iff.rfl bool_ok_iff))

/-! None of them panics. -/

/-- The adapter cuts characters in twos after it counted bytes, and still panics on nothing. -/
theorem failBy_hexRequired (key : String) : (hexRequired key).FailBy fun e => ¬ e.IsPanic :=
  fun _ _ h => hexField_no_panic h

theorem failBy_base64Required (key : String) :
    (base64Required base64 key).FailBy fun e => ¬ e.IsPanic :=
  fun _ _ h => b64Field_no_panic h

theorem failBy_stringRequired (key : String) :
    (stringRequired key).FailBy fun e => ¬ e.IsPanic :=
  -- serde's own readers report a type, never a fault of the adapter's
  fun _ _ h => absurd h string_ne_custom

theorem failBy_flagDefault (key : String) : (flagDefault key).FailBy fun e => ¬ e.IsPanic :=
  fun _ _ h => option_custom (P := fun e => ¬ e.IsPanic)
    (fun _ hbool => absurd hbool bool_ne_custom) h

/-! ## Writers -/

/-- The writers that go with these fields, under the same keys. -/
def hexWriter (key : String) : Writer Bytes := required key writeHexField

def base64Writer (key : String) : Writer Bytes := required key (writeB64Field encode)

def stringWriter (key : String) : Writer String := required key .string

/-- `skip_serializing_if` on an `Option<bool>`. -/
def flagWriter (key : String) : Writer (Option Bool) := skipNone key .bool

section

variable {base64 encode}

/-- Each kind of field reads back what its writer wrote. For base64 that is what is asked of the
two halves of the crate. -/
theorem undoes_hex (key : String) : (hexRequired key).Undoes (hexWriter key) :=
  undoes_required fun _ _ => hexField_of_same

theorem undoes_base64 (hbase64 : ∀ b, base64 (encode b) = some b) (key : String) :
    (base64Required base64 key).Undoes (base64Writer encode key) :=
  undoes_required fun _ _ => b64Field_of_same hbase64

theorem string_of_same {δ : Type} {s : String} {j : Json} (h : (Json.string s).Same j) :
    Serde.string (δ := δ) j = .ok s := by
  rw [h.string]
  rfl

theorem undoes_string (key : String) : (stringRequired key).Undoes (stringWriter key) :=
  undoes_required fun _ _ => string_of_same

theorem undoes_flag (key : String) : (flagDefault key).Undoes (flagWriter key) := by
  apply undoes_skipNone
  · intro b j hj
    rw [hj.bool]
    rfl
  · intro b hb
    cases hb

end

/-- What the fields read is what the members admit. -/
theorem deserialize_ok_iff {α β : Type} {name : String} {fs : Fields WireFault α} {build : α → β}
    {members : List Member} (hmembers : fs.members = members)
    (hkeys : (members.map Member.key).Nodup) {j : Json} :
    (∃ req, (fs.decode name j).map build = .ok req) ↔ Fits members j := by
  subst hmembers
  rw [← Fields.decode_ok_iff hkeys]
  -- building the struct cannot fail, so only the reading decides
  cases fs.decode name j with
  | error e => simp [Except.map]
  | ok a => simp [Except.map]

/-- No field of it can panic, so it cannot. -/
theorem deserialize_no_panic {α β : Type} {name : String} {fs : Fields WireFault α}
    {build : α → β} (hfs : fs.FailBy fun e => ¬ e.IsPanic) {j : Json} {e : WireFault}
    (h : (fs.decode name j).map build = .error (.custom e)) : ¬ e.IsPanic := by
  cases hread : fs.decode name j with
  | error e' =>
    rw [hread] at h
    cases h
    exact Fields.decode_custom hfs hread
  | ok a =>
    rw [hread] at h
    cases h

/-- What the writers wrote is read back. -/
theorem deserialize_of_same {α β δ : Type} {name : String} {fs : Fields δ α} {ws : Writers α}
    {build : α → β} (h : fs.Undoes ws) (hkeys : ws.keys.Nodup) {v : α} {j : Json}
    (hj : (ws.encode v).Same j) : (fs.decode name j).map build = .ok (build v) := by
  rw [Fields.decode_of_same h hkeys hj]
  rfl

/-! ## Requests -/

namespace InitiateAuthenticationRequest

/-- The fields in the order of the struct; an array is read in that order. -/
def fields : Fields WireFault (Bytes × Bytes × String × Unit) :=
  .cons (base64Required base64 "euiccChallenge")
    (.cons (base64Required base64 "euiccInfo1") (.cons (stringRequired "smdpAddress") .nil))

/-- What the fields ask of the JSON, field by field. -/
def members : List Member :=
  [base64Member base64 "euiccChallenge", base64Member base64 "euiccInfo1",
    stringMember "smdpAddress"]

/-- The derived `Deserialize`: the fields are read, then the struct is built. -/
def deserialize : Wire InitiateAuthenticationRequest := fun j =>
  ((fields base64).decode "InitiateAuthenticationRequest" j).map
    fun (euiccChallenge, euiccInfo1, smdpAddress, _) => { euiccChallenge, euiccInfo1, smdpAddress }

/-- The fields as they are written, under the same keys. -/
def writers : Writers (Bytes × Bytes × String × Unit) :=
  .cons (base64Writer encode "euiccChallenge")
    (.cons (base64Writer encode "euiccInfo1") (.cons (stringWriter "smdpAddress") .nil))

/-- The derived `Serialize`. -/
def serialize (req : InitiateAuthenticationRequest) : Json :=
  (writers encode).encode (req.euiccChallenge, req.euiccInfo1, req.smdpAddress, ())

/-- What a peer writes, in any order of its entries, is the request that is read. -/
theorem deserialize_serialize {base64 encode} (hbase64 : ∀ b, base64 (encode b) = some b)
    {req : InitiateAuthenticationRequest} {j : Json} (hj : (serialize encode req).Same j) :
    deserialize base64 j = .ok req := by
  -- no two fields of the struct are written under one key
  have hkeys : (writers encode).keys.Nodup := by
    show ["euiccChallenge", "euiccInfo1", "smdpAddress"].Nodup
    decide
  exact deserialize_of_same
    (.cons (undoes_base64 hbase64 _) (.cons (undoes_base64 hbase64 _)
      (.cons (undoes_string _) .nil))) hkeys hj

end InitiateAuthenticationRequest

namespace AuthenticateClientRequest

def fields : Fields WireFault (Bytes × Bytes × Option Bool × Unit) :=
  .cons (hexRequired "transactionId")
    (.cons (base64Required base64 "authenticateServerResponse")
      (.cons (flagDefault "useMatchingIdForAcr") .nil))

def members : List Member :=
  [hexMember "transactionId", base64Member base64 "authenticateServerResponse",
    flagMember "useMatchingIdForAcr"]

/-- The flag may be left out, and comes as `None` then. -/
def deserialize : Wire AuthenticateClientRequest := fun j =>
  ((fields base64).decode "AuthenticateClientRequest" j).map
    fun (transactionId, authenticateServerResponse, useMatchingIdForAcr, _) =>
      { transactionId, authenticateServerResponse, useMatchingIdForAcr }

def writers : Writers (Bytes × Bytes × Option Bool × Unit) :=
  .cons (hexWriter "transactionId")
    (.cons (base64Writer encode "authenticateServerResponse")
      (.cons (flagWriter "useMatchingIdForAcr") .nil))

def serialize (req : AuthenticateClientRequest) : Json :=
  (writers encode).encode
    (req.transactionId, req.authenticateServerResponse, req.useMatchingIdForAcr, ())

/-- The flag is not written when it is `None`, and left out it reads as `None`. -/
theorem deserialize_serialize {base64 encode} (hbase64 : ∀ b, base64 (encode b) = some b)
    {req : AuthenticateClientRequest} {j : Json} (hj : (serialize encode req).Same j) :
    deserialize base64 j = .ok req := by
  have hkeys : (writers encode).keys.Nodup := by
    show ["transactionId", "authenticateServerResponse", "useMatchingIdForAcr"].Nodup
    decide
  exact deserialize_of_same
    (.cons (undoes_hex _) (.cons (undoes_base64 hbase64 _) (.cons (undoes_flag _) .nil))) hkeys hj

end AuthenticateClientRequest

namespace GetBoundProfilePackageRequest

def fields : Fields WireFault (Bytes × Bytes × Unit) :=
  .cons (hexRequired "transactionId")
    (.cons (base64Required base64 "prepareDownloadResponse") .nil)

def members : List Member :=
  [hexMember "transactionId", base64Member base64 "prepareDownloadResponse"]

/-- Both members are required. -/
def deserialize : Wire GetBoundProfilePackageRequest := fun j =>
  ((fields base64).decode "GetBoundProfilePackageRequest" j).map
    fun (transactionId, prepareDownloadResponse, _) => { transactionId, prepareDownloadResponse }

def writers : Writers (Bytes × Bytes × Unit) :=
  .cons (hexWriter "transactionId")
    (.cons (base64Writer encode "prepareDownloadResponse") .nil)

def serialize (req : GetBoundProfilePackageRequest) : Json :=
  (writers encode).encode (req.transactionId, req.prepareDownloadResponse, ())

/-- The transactionId comes back from hexadecimal, and the response from base64. -/
theorem deserialize_serialize {base64 encode} (hbase64 : ∀ b, base64 (encode b) = some b)
    {req : GetBoundProfilePackageRequest} {j : Json} (hj : (serialize encode req).Same j) :
    deserialize base64 j = .ok req := by
  have hkeys : (writers encode).keys.Nodup := by
    show ["transactionId", "prepareDownloadResponse"].Nodup
    decide
  exact deserialize_of_same
    (.cons (undoes_hex _) (.cons (undoes_base64 hbase64 _) .nil)) hkeys hj

end GetBoundProfilePackageRequest

namespace HandleNotificationRequest

def fields : Fields WireFault (Bytes × Unit) :=
  .cons (base64Required base64 "pendingNotification") .nil

def members : List Member := [base64Member base64 "pendingNotification"]

/-- A single member, the notification itself. -/
def deserialize : Wire HandleNotificationRequest := fun j =>
  ((fields base64).decode "HandleNotificationRequest" j).map
    fun (pendingNotification, _) => { pendingNotification }

def writers : Writers (Bytes × Unit) := .cons (base64Writer encode "pendingNotification") .nil

def serialize (req : HandleNotificationRequest) : Json :=
  (writers encode).encode (req.pendingNotification, ())

theorem deserialize_serialize {base64 encode} (hbase64 : ∀ b, base64 (encode b) = some b)
    {req : HandleNotificationRequest} {j : Json} (hj : (serialize encode req).Same j) :
    deserialize base64 j = .ok req := by
  have hkeys : (writers encode).keys.Nodup := by
    show ["pendingNotification"].Nodup
    decide
  exact deserialize_of_same
    (.cons (undoes_base64 hbase64 _) .nil) hkeys hj

end HandleNotificationRequest

end Smdp
