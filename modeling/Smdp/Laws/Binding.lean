import Smdp.Base64.Standard
import Smdp.Es9.Response

/-!
# Smdp — the JSON binding loses nothing

Each ES9+ message is written as an object that reads back as the message, in whatever order its
members arrive. So no two messages of a type are written as the same object, and the octets that
were signed are the octets the peer reads.
-/

namespace Smdp

open Serde

/-! ## The messages of the binding -/

/-- The messages of the binding: the requests and the responses, and the answer every function
fails with. -/
inductive MessageType where
  | initiateAuthenticationRequest
  | initiateAuthenticationResponse
  | authenticateClientRequest
  | authenticateClientResponse
  | getBoundProfilePackageRequest
  | getBoundProfilePackageResponse
  | handleNotificationRequest
  | failureResponse
  deriving DecidableEq

namespace MessageType

@[reducible] def Value : MessageType → Type
  | initiateAuthenticationRequest => InitiateAuthenticationRequest
  | initiateAuthenticationResponse => InitiateAuthenticationResponse
  | authenticateClientRequest => AuthenticateClientRequest
  | authenticateClientResponse => AuthenticateClientResponse
  | getBoundProfilePackageRequest => GetBoundProfilePackageRequest
  | getBoundProfilePackageResponse => GetBoundProfilePackageResponse
  | handleNotificationRequest => HandleNotificationRequest
  | failureResponse => FailureResponse

/-- How each message is written. -/
def serialize (encode : Bytes → String) : (k : MessageType) → k.Value → Json
  | initiateAuthenticationRequest => InitiateAuthenticationRequest.serialize encode
  | initiateAuthenticationResponse => InitiateAuthenticationResponse.serialize encode
  | authenticateClientRequest => AuthenticateClientRequest.serialize encode
  | authenticateClientResponse => AuthenticateClientResponse.serialize encode
  | getBoundProfilePackageRequest => GetBoundProfilePackageRequest.serialize encode
  | getBoundProfilePackageResponse => GetBoundProfilePackageResponse.serialize encode
  | handleNotificationRequest => HandleNotificationRequest.serialize encode
  | failureResponse => FailureResponse.serialize

/-- A request as it is read among responses. -/
def ofRequest {α : Type} (read : Wire α) : Read α := fun j =>
  (read j).mapError (Error.map .wire)

/-- How each message is read. -/
def deserialize (base64 : String → Option Bytes) : (k : MessageType) → Read k.Value
  | initiateAuthenticationRequest => ofRequest (InitiateAuthenticationRequest.deserialize base64)
  | initiateAuthenticationResponse => InitiateAuthenticationResponse.deserialize base64
  | authenticateClientRequest => ofRequest (AuthenticateClientRequest.deserialize base64)
  | authenticateClientResponse => AuthenticateClientResponse.deserialize base64
  | getBoundProfilePackageRequest => ofRequest (GetBoundProfilePackageRequest.deserialize base64)
  | getBoundProfilePackageResponse => GetBoundProfilePackageResponse.deserialize base64
  | handleNotificationRequest => ofRequest (HandleNotificationRequest.deserialize base64)
  | failureResponse => FailureResponse.deserialize

theorem ofRequest_ok {α : Type} {read : Wire α} {j : Json} {a : α} (h : read j = .ok a) :
    ofRequest read j = .ok a := by
  unfold ofRequest
  rw [h]
  rfl

variable {base64 : String → Option Bytes} {encode : Bytes → String}

theorem serialize_object (k : MessageType) (m : k.Value) :
    ∃ entries, k.serialize encode m = .object entries := by
  cases k <;> exact ⟨_, rfl⟩

/-- **A message is read back.** One case for each type. -/
theorem deserialize_of_same (hbase64 : ∀ b, base64 (encode b) = some b) (k : MessageType)
    (m : k.Value) {j : Json} (hj : (k.serialize encode m).Same j) :
    k.deserialize base64 j = .ok m := by
  cases k with
  | initiateAuthenticationRequest =>
    exact ofRequest_ok (InitiateAuthenticationRequest.deserialize_serialize hbase64 hj)
  | initiateAuthenticationResponse =>
    exact InitiateAuthenticationResponse.deserialize_serialize hbase64 hj
  | authenticateClientRequest =>
    exact ofRequest_ok (AuthenticateClientRequest.deserialize_serialize hbase64 hj)
  | authenticateClientResponse =>
    exact AuthenticateClientResponse.deserialize_serialize hbase64 hj
  | getBoundProfilePackageRequest =>
    exact ofRequest_ok (GetBoundProfilePackageRequest.deserialize_serialize hbase64 hj)
  | getBoundProfilePackageResponse =>
    exact GetBoundProfilePackageResponse.deserialize_serialize hbase64 hj
  | handleNotificationRequest =>
    exact ofRequest_ok (HandleNotificationRequest.deserialize_serialize hbase64 hj)
  | failureResponse => exact FailureResponse.deserialize_serialize hj

end MessageType

/-! ## Nothing is lost -/

/-- **The binding is lossless.** Where base64 decoding undoes encoding, a message is written as an
object, all that says the same as it is read as the message, and messages of one type that are
written as what says the same are one message. -/
theorem binding_lossless {base64 : String → Option Bytes} {encode : Bytes → String}
    (hbase64 : ∀ b, base64 (encode b) = some b) (k : MessageType) (m : k.Value) :
    (∃ entries, k.serialize encode m = .object entries)
      ∧ (∀ j, (k.serialize encode m).Same j → k.deserialize base64 j = .ok m)
      ∧ ∀ m' : k.Value, (k.serialize encode m).Same (k.serialize encode m') → m = m' := by
  have hread : ∀ j, (k.serialize encode m).Same j → k.deserialize base64 j = .ok m :=
    fun j hj => MessageType.deserialize_of_same hbase64 k m hj
  refine ⟨MessageType.serialize_object k m, hread, fun m' hsame => ?_⟩
  have hself : k.deserialize base64 (k.serialize encode m') = .ok m' :=
    MessageType.deserialize_of_same hbase64 k m' (.refl _)
  have hother : k.deserialize base64 (k.serialize encode m') = .ok m := hread _ hsame
  exact Except.ok.inj (hother.symm.trans hself)

/-- With base64 as RFC 4648 has it. -/
theorem binding_lossless_standard :
    (∃ entries, MessageType.getBoundProfilePackageResponse.serialize Base64.encode
        ⟨.success, [0x01, 0xab, 0xff], [0x30, 0x00]⟩ = .object entries)
      ∧ (∀ j, (MessageType.getBoundProfilePackageResponse.serialize Base64.encode
            ⟨.success, [0x01, 0xab, 0xff], [0x30, 0x00]⟩).Same j →
          MessageType.getBoundProfilePackageResponse.deserialize Base64.decode j
            = .ok ⟨.success, [0x01, 0xab, 0xff], [0x30, 0x00]⟩)
      ∧ ∀ m' : GetBoundProfilePackageResponse,
        (MessageType.getBoundProfilePackageResponse.serialize Base64.encode
            ⟨.success, [0x01, 0xab, 0xff], [0x30, 0x00]⟩).Same
          (MessageType.getBoundProfilePackageResponse.serialize Base64.encode m') →
        ⟨.success, [0x01, 0xab, 0xff], [0x30, 0x00]⟩ = m' :=
  binding_lossless Base64.decode_encode .getBoundProfilePackageResponse
    ⟨.success, [0x01, 0xab, 0xff], [0x30, 0x00]⟩

/-- A transactionId is upper-case hexadecimal, the rest is base64. -/
example : GetBoundProfilePackageRequest.serialize Base64.encode ⟨[0x01, 0xab, 0xff], [0x30, 0x00]⟩
    = .object [("transactionId", .string "01ABFF"), ("prepareDownloadResponse", .string "MAA=")] :=
  rfl

end Smdp
