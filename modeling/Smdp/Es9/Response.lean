import Smdp.Es9.Request

/-!
# Smdp — writing and reading the ES9+ responses (`es9/mod.rs`)

`Serialize` of each response, which the server uses, and `Deserialize`, which its peer does. The
fields of a response are read as those of a request are, and the header brings failures of its own
(`ResponseFault`).
-/

namespace Smdp

open Serde

variable (base64 : String → Option Bytes) (encode : Bytes → String)

/-- How a response fails to be read. -/
inductive ResponseFault where
  | wire (e : WireFault)
  | unknownVariant (variant : String)
  /-- An enum as an object that has not one key. -/
  | notOneKey
  deriving DecidableEq

/-- A value in a response. -/
abbrev Read (α : Type) := Json → Except (Error ResponseFault) α

/-- What the writers wrote is read back, by a struct that an object may leave options out of. -/
theorem deserializeOption_of_same {α β γ : Type} {name : String}
    {fields : Option (Option γ) → Fields ResponseFault α} {ws : Writers α} {build : α → β}
    (h : (fields (some none)).Undoes ws) (hkeys : ws.keys.Nodup) {v : α} {j : Json}
    (hj : (ws.encode v).Same j) :
    (Fields.decodeOption name fields j).map build = .ok (build v) := by
  rw [Fields.decodeOption_of_same h hkeys hj]
  rfl

/-! ## The header -/

namespace ExecutionStatus

/-- The name of the variant, as `#[serde(rename)]` has it. -/
def variant : ExecutionStatus → String
  | .executedSuccess => "Executed-Success"
  | .executedWithWarning => "Executed-WithWarning"
  | .failed => "Failed"
  | .expired => "Expired"

/-- The variant of a name. The comparison is with the whole name, so the case of a letter matters.
-/
def ofVariant (variant : String) : Except (Error ResponseFault) ExecutionStatus :=
  if variant = "Executed-Success" then .ok .executedSuccess
  else if variant = "Executed-WithWarning" then .ok .executedWithWarning
  else if variant = "Failed" then .ok .failed
  else if variant = "Expired" then .ok .expired
  else .error (.custom (.unknownVariant variant))

def serialize (status : ExecutionStatus) : Json := .string status.variant

/-- The name of a variant, alone or as the one key of an object that has nothing to say. -/
def deserialize : Read ExecutionStatus
  | .string variant => ofVariant variant
  | .object [(variant, content)] =>
    match ofVariant variant with
    | .error e => .error e
    | .ok status =>
      match content with
      | .null => .ok status
      | j => .error (.invalidType j.unexpected "unit")
  | .object _ => .error (.custom .notOneKey)
  | j => .error (.invalidType j.unexpected "string or map")

/-- A variant is one string, and reads as itself. -/
theorem deserialize_serialize {status : ExecutionStatus} {j : Json}
    (hj : (serialize status).Same j) : deserialize j = .ok status := by
  rw [hj.string]
  cases status with
  | executedSuccess | executedWithWarning | failed | expired => rfl

end ExecutionStatus

namespace StatusCodeData

/-- `left` is what becomes of an `Option` that is left out. -/
def fields (left : Option (Option String)) :
    Fields ResponseFault (String × String × Option String × Option String × Unit) :=
  .cons ((stringRequired "subjectCode").mapError .wire)
    (.cons ((stringRequired "reasonCode").mapError .wire)
      (.cons ⟨"subjectIdentifier", Serde.option Serde.string, left⟩
        (.cons ⟨"message", Serde.option Serde.string, left⟩ .nil)))

/-- The two codes are required, the other two are `Option`s and may be left out of an object. -/
def deserialize : Read StatusCodeData := fun j =>
  (Fields.decodeOption "StatusCodeData" fields j).map
    fun (subjectCode, reasonCode, subjectIdentifier, message, _) =>
      { subjectCode, reasonCode, subjectIdentifier, message }

def writers : Writers (String × String × Option String × Option String × Unit) :=
  .cons (stringWriter "subjectCode") (.cons (stringWriter "reasonCode")
    (.cons (skipNone "subjectIdentifier" .string) (.cons (skipNone "message" .string) .nil)))

def serialize (d : StatusCodeData) : Json :=
  writers.encode (d.subjectCode, d.reasonCode, d.subjectIdentifier, d.message, ())

/-- Each `Option` is skipped where it is `None`, and is `None` where it does not come. -/
theorem deserialize_serialize {d : StatusCodeData} {j : Json} (hj : (serialize d).Same j) :
    deserialize j = .ok d := by
  have hkeys : writers.keys.Nodup := by
    show ["subjectCode", "reasonCode", "subjectIdentifier", "message"].Nodup
    decide
  have hoption (key : String) : Field.Undoes (δ := ResponseFault)
      ⟨key, Serde.option Serde.string, some none⟩ (skipNone key .string) := by
    apply undoes_skipNone
    · intro s j hs
      exact string_of_same hs
    · intro s hs
      cases hs
  exact deserializeOption_of_same
    (.cons (undoes_string _).mapError (.cons (undoes_string _).mapError
      (.cons (hoption _) (.cons (hoption _) .nil)))) hkeys hj

end StatusCodeData

namespace FunctionExecutionStatus

/-- `left` is what becomes of an `Option` that is left out. -/
def fields (left : Option (Option StatusCodeData)) :
    Fields ResponseFault (ExecutionStatus × Option StatusCodeData × Unit) :=
  .cons ⟨"status", ExecutionStatus.deserialize, none⟩
    (.cons ⟨"statusCodeData", Serde.option StatusCodeData.deserialize, left⟩ .nil)

def deserialize : Read FunctionExecutionStatus := fun j =>
  (Fields.decodeOption "FunctionExecutionStatus" fields j).map
    fun (status, statusCodeData, _) => { status, statusCodeData }

def writers : Writers (ExecutionStatus × Option StatusCodeData × Unit) :=
  .cons (required "status" ExecutionStatus.serialize)
    (.cons (skipNone "statusCodeData" StatusCodeData.serialize) .nil)

def serialize (status : FunctionExecutionStatus) : Json :=
  writers.encode (status.status, status.statusCodeData, ())

/-- The data of the status code is an object inside the object, its entries in any order too. -/
theorem deserialize_serialize {status : FunctionExecutionStatus} {j : Json}
    (hj : (serialize status).Same j) : deserialize j = .ok status := by
  have hkeys : writers.keys.Nodup := by
    show ["status", "statusCodeData"].Nodup
    decide
  have hdata : Field.Undoes ⟨"statusCodeData", Serde.option StatusCodeData.deserialize, some none⟩
      (skipNone "statusCodeData" StatusCodeData.serialize) := by
    apply undoes_skipNone
    · intro d j hd
      exact StatusCodeData.deserialize_serialize hd
    · intro d hd
      cases hd
  exact deserializeOption_of_same
    (.cons (undoes_required fun _ _ => ExecutionStatus.deserialize_serialize)
      (.cons hdata .nil)) hkeys hj

end FunctionExecutionStatus

namespace ResponseHeader

def fields : Fields ResponseFault (FunctionExecutionStatus × Unit) :=
  .cons ⟨"functionExecutionStatus", FunctionExecutionStatus.deserialize, none⟩ .nil

def deserialize : Read ResponseHeader := fun j =>
  (fields.decode "ResponseHeader" j).map
    fun (functionExecutionStatus, _) => { functionExecutionStatus }

def writers : Writers (FunctionExecutionStatus × Unit) :=
  .cons (required "functionExecutionStatus" FunctionExecutionStatus.serialize) .nil

def serialize (header : ResponseHeader) : Json :=
  writers.encode (header.functionExecutionStatus, ())

/-- The header is the status, one object further in. -/
theorem deserialize_serialize {header : ResponseHeader} {j : Json}
    (hj : (serialize header).Same j) : deserialize j = .ok header := by
  have hkeys : writers.keys.Nodup := by
    show ["functionExecutionStatus"].Nodup
    decide
  exact deserialize_of_same
    (.cons (undoes_required fun _ _ => FunctionExecutionStatus.deserialize_serialize) .nil) hkeys hj

end ResponseHeader

/-! ## Fields of a response -/

/-- `header`, which every response begins with. -/
def headerField : Field ResponseFault ResponseHeader :=
  ⟨"header", ResponseHeader.deserialize, none⟩

/-- Every answer of the synchronous MEP starts with the header. -/
def headerWriter : Writer ResponseHeader := required "header" ResponseHeader.serialize

/-- A field of a response that is read as one of a request is. -/
def hexAnswer (key : String) : Field ResponseFault Bytes := (hexRequired key).mapError .wire

/-- A base64 member of an answer, read as the request's are. -/
def base64Answer (key : String) : Field ResponseFault Bytes :=
  (base64Required base64 key).mapError .wire

section

variable {base64 encode}

theorem undoes_header : headerField.Undoes headerWriter :=
  undoes_required fun _ _ => ResponseHeader.deserialize_serialize

theorem undoes_hexAnswer (key : String) : (hexAnswer key).Undoes (hexWriter key) :=
  (undoes_hex key).mapError

theorem undoes_base64Answer (hbase64 : ∀ b, base64 (encode b) = some b) (key : String) :
    (base64Answer base64 key).Undoes (base64Writer encode key) :=
  (undoes_base64 hbase64 key).mapError

end

/-! ## Responses -/

namespace FailureResponse

/-- The header alone. Every other entry is ignored, so a response of any function can be read as
one of these. -/
def fields : Fields ResponseFault (ResponseHeader × Unit) := .cons headerField .nil

def deserialize : Read FailureResponse := fun j =>
  (fields.decode "FailureResponse" j).map fun (header, _) => { header }

def writers : Writers (ResponseHeader × Unit) := .cons headerWriter .nil

def serialize (resp : FailureResponse) : Json := writers.encode (resp.header, ())

/-- The Failed answer is a header and nothing else. -/
theorem deserialize_serialize {resp : FailureResponse} {j : Json} (hj : (serialize resp).Same j) :
    deserialize j = .ok resp := by
  have hkeys : writers.keys.Nodup := by
    show ["header"].Nodup
    decide
  exact deserialize_of_same (.cons undoes_header .nil) hkeys hj

end FailureResponse

namespace InitiateAuthenticationResponse

/-- The last but one is spelled as the specification has it, which is not what `rename_all` would
make of the name in the source. -/
def fields :
    Fields ResponseFault (ResponseHeader × Bytes × Bytes × Bytes × Bytes × Bytes × Unit) :=
  .cons headerField (.cons (hexAnswer "transactionId")
    (.cons (base64Answer base64 "serverSigned1") (.cons (base64Answer base64 "serverSignature1")
      (.cons (base64Answer base64 "euiccCiPKIdToBeUsed")
        (.cons (base64Answer base64 "serverCertificate") .nil)))))

def deserialize : Read InitiateAuthenticationResponse := fun j =>
  ((fields base64).decode "InitiateAuthenticationResponse" j).map
    fun (header, transactionId, serverSigned1, serverSignature1, euiccCiPkidToBeUsed,
        serverCertificate, _) =>
      { header, transactionId, serverSigned1, serverSignature1, euiccCiPkidToBeUsed,
        serverCertificate }

def writers : Writers (ResponseHeader × Bytes × Bytes × Bytes × Bytes × Bytes × Unit) :=
  .cons headerWriter (.cons (hexWriter "transactionId")
    (.cons (base64Writer encode "serverSigned1") (.cons (base64Writer encode "serverSignature1")
      (.cons (base64Writer encode "euiccCiPKIdToBeUsed")
        (.cons (base64Writer encode "serverCertificate") .nil)))))

def serialize (resp : InitiateAuthenticationResponse) : Json :=
  (writers encode).encode (resp.header, resp.transactionId, resp.serverSigned1,
    resp.serverSignature1, resp.euiccCiPkidToBeUsed, resp.serverCertificate, ())

/-- The answer to InitiateAuthentication: the transactionId in hexadecimal, the rest in base64. -/
theorem deserialize_serialize {base64 encode} (hbase64 : ∀ b, base64 (encode b) = some b)
    {resp : InitiateAuthenticationResponse} {j : Json} (hj : (serialize encode resp).Same j) :
    deserialize base64 j = .ok resp := by
  have hkeys : (writers encode).keys.Nodup := by
    show ["header", "transactionId", "serverSigned1", "serverSignature1", "euiccCiPKIdToBeUsed",
      "serverCertificate"].Nodup
    decide
  have hbytes := undoes_base64Answer hbase64
  exact deserialize_of_same
    (.cons undoes_header (.cons (undoes_hexAnswer _) (.cons (hbytes _) (.cons (hbytes _)
      (.cons (hbytes _) (.cons (hbytes _) .nil)))))) hkeys hj

end InitiateAuthenticationResponse

namespace AuthenticateClientResponse

def fields :
    Fields ResponseFault (ResponseHeader × Bytes × Bytes × Bytes × Bytes × Bytes × Unit) :=
  .cons headerField (.cons (hexAnswer "transactionId")
    (.cons (base64Answer base64 "profileMetadata") (.cons (base64Answer base64 "smdpSigned2")
      (.cons (base64Answer base64 "smdpSignature2")
        (.cons (base64Answer base64 "smdpCertificate") .nil)))))

def deserialize : Read AuthenticateClientResponse := fun j =>
  ((fields base64).decode "AuthenticateClientResponse" j).map
    fun (header, transactionId, profileMetadata, smdpSigned2, smdpSignature2, smdpCertificate, _) =>
      { header, transactionId, profileMetadata, smdpSigned2, smdpSignature2, smdpCertificate }

def writers : Writers (ResponseHeader × Bytes × Bytes × Bytes × Bytes × Bytes × Unit) :=
  .cons headerWriter (.cons (hexWriter "transactionId")
    (.cons (base64Writer encode "profileMetadata") (.cons (base64Writer encode "smdpSigned2")
      (.cons (base64Writer encode "smdpSignature2")
        (.cons (base64Writer encode "smdpCertificate") .nil)))))

def serialize (resp : AuthenticateClientResponse) : Json :=
  (writers encode).encode (resp.header, resp.transactionId, resp.profileMetadata,
    resp.smdpSigned2, resp.smdpSignature2, resp.smdpCertificate, ())

/-- The answer to AuthenticateClient, likewise. -/
theorem deserialize_serialize {base64 encode} (hbase64 : ∀ b, base64 (encode b) = some b)
    {resp : AuthenticateClientResponse} {j : Json} (hj : (serialize encode resp).Same j) :
    deserialize base64 j = .ok resp := by
  have hkeys : (writers encode).keys.Nodup := by
    show ["header", "transactionId", "profileMetadata", "smdpSigned2", "smdpSignature2",
      "smdpCertificate"].Nodup
    decide
  have hbytes := undoes_base64Answer hbase64
  exact deserialize_of_same
    (.cons undoes_header (.cons (undoes_hexAnswer _) (.cons (hbytes _) (.cons (hbytes _)
      (.cons (hbytes _) (.cons (hbytes _) .nil)))))) hkeys hj

end AuthenticateClientResponse

namespace GetBoundProfilePackageResponse

def fields : Fields ResponseFault (ResponseHeader × Bytes × Bytes × Unit) :=
  .cons headerField (.cons (hexAnswer "transactionId")
    (.cons (base64Answer base64 "boundProfilePackage") .nil))

def deserialize : Read GetBoundProfilePackageResponse := fun j =>
  ((fields base64).decode "GetBoundProfilePackageResponse" j).map
    fun (header, transactionId, boundProfilePackage, _) =>
      { header, transactionId, boundProfilePackage }

def writers : Writers (ResponseHeader × Bytes × Bytes × Unit) :=
  .cons headerWriter (.cons (hexWriter "transactionId")
    (.cons (base64Writer encode "boundProfilePackage") .nil))

def serialize (resp : GetBoundProfilePackageResponse) : Json :=
  (writers encode).encode (resp.header, resp.transactionId, resp.boundProfilePackage, ())

/-- The answer to GetBoundProfilePackage. -/
theorem deserialize_serialize {base64 encode} (hbase64 : ∀ b, base64 (encode b) = some b)
    {resp : GetBoundProfilePackageResponse} {j : Json} (hj : (serialize encode resp).Same j) :
    deserialize base64 j = .ok resp := by
  have hkeys : (writers encode).keys.Nodup := by
    show ["header", "transactionId", "boundProfilePackage"].Nodup
    decide
  exact deserialize_of_same
    (.cons undoes_header (.cons (undoes_hexAnswer _)
      (.cons (undoes_base64Answer hbase64 _) .nil))) hkeys hj

end GetBoundProfilePackageResponse

end Smdp
