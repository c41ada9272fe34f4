import Smdp.Store.Order

/-!
# Smdp — the ES9+ messages (`es9/mod.rs`)

The bodies of requests and responses, and the HTTP response a handler answers with.
-/

namespace Smdp

/-- The version this server claims in X-Admin-Protocol. -/
def adminProtocol : String := "gsma/rsp/v2.6.0"

/-- What came of a function. Only the first and the third are ever sent by this server; a peer may
read any of the four. -/
inductive ExecutionStatus where
  | executedSuccess
  | executedWithWarning
  | failed
  | expired
  deriving DecidableEq, Repr

/-- Why a function failed: two object identifiers, and a text for people. -/
structure StatusCodeData where
  subjectCode : String
  reasonCode : String
  subjectIdentifier : Option String
  message : Option String
  deriving DecidableEq

/-- What came of the function. The HTTP status says nothing of it: that is 200 in either case. -/
structure FunctionExecutionStatus where
  status : ExecutionStatus
  statusCodeData : Option StatusCodeData
  deriving DecidableEq

/-- Every ES9+ response carries this. Requests do not. -/
structure ResponseHeader where
  functionExecutionStatus : FunctionExecutionStatus
  deriving DecidableEq

def ResponseHeader.success : ResponseHeader := ⟨⟨.executedSuccess, none⟩⟩

/-- `subject` and `reason` are object identifiers of the specification, `message` is this server's
own. -/
def ResponseHeader.failed (subject reason message : String) : ResponseHeader :=
  ⟨⟨.failed, some
    { subjectCode := subject, reasonCode := reason,
      subjectIdentifier := none, message := some message }⟩⟩

/-! ## Bodies -/

/-- A body that is nothing but a failure report, whichever function was asked for. -/
structure FailureResponse where
  header : ResponseHeader
  deriving DecidableEq

/-- The request of `initiateAuthentication`. The challenge is octets of any number here: that
there are sixteen is for the handler to check. -/
structure InitiateAuthenticationRequest where
  euiccChallenge : Bytes
  euiccInfo1 : Bytes
  smdpAddress : String
  deriving DecidableEq

structure InitiateAuthenticationResponse where
  header : ResponseHeader
  transactionId : Bytes
  serverSigned1 : Bytes
  serverSignature1 : Bytes
  euiccCiPkidToBeUsed : Bytes
  serverCertificate : Bytes
  deriving DecidableEq

/-- The request of `authenticateClient`. The flag is read and not used. -/
structure AuthenticateClientRequest where
  transactionId : Bytes
  authenticateServerResponse : Bytes
  useMatchingIdForAcr : Option Bool
  deriving DecidableEq

structure AuthenticateClientResponse where
  header : ResponseHeader
  transactionId : Bytes
  profileMetadata : Bytes
  smdpSigned2 : Bytes
  smdpSignature2 : Bytes
  smdpCertificate : Bytes
  deriving DecidableEq

structure GetBoundProfilePackageRequest where
  transactionId : Bytes
  prepareDownloadResponse : Bytes
  deriving DecidableEq

structure GetBoundProfilePackageResponse where
  header : ResponseHeader
  transactionId : Bytes
  boundProfilePackage : Bytes
  deriving DecidableEq

/-- The one asynchronous function. It has no response body. -/
structure HandleNotificationRequest where
  pendingNotification : Bytes
  deriving DecidableEq

/-! ## Responses -/

/-- What a handler puts in a response. -/
inductive Body where
  | empty
  | failure (b : FailureResponse)
  | initiateAuthentication (b : InitiateAuthenticationResponse)
  | authenticateClient (b : AuthenticateClientResponse)
  | getBoundProfilePackage (b : GetBoundProfilePackageResponse)
  deriving DecidableEq

/-- The header of a body, which only an empty one is without. -/
def Body.header? : Body → Option ResponseHeader
  | .empty => none
  | .failure b => some b.header
  | .initiateAuthentication b => some b.header
  | .authenticateClient b => some b.header
  | .getBoundProfilePackage b => some b.header

structure Response where
  status : Nat
  headers : List (String × String)
  body : Body
  deriving DecidableEq

/-- The `functionExecutionStatus.status` of the body, where it has one. -/
def Response.executionStatus (r : Response) : Option ExecutionStatus :=
  r.body.header?.map fun h => h.functionExecutionStatus.status

/-- The answer is Executed-Success. -/
def Response.Succeeded (r : Response) : Prop := r.executionStatus = some .executedSuccess

/-- The answer is Failed. -/
def Response.Failed (r : Response) : Prop := r.executionStatus = some .failed

instance (r : Response) : Decidable r.Succeeded := by unfold Response.Succeeded; infer_instance

instance (r : Response) : Decidable r.Failed := by unfold Response.Failed; infer_instance

theorem Response.not_succeeded_of_failed {r : Response} (h : r.Failed) : ¬ r.Succeeded := by
  unfold Response.Failed at h
  unfold Response.Succeeded
  rw [h]
  decide

end Smdp
