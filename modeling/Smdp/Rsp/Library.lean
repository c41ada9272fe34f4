import Smdp.Rust

/-!
# Smdp — the C library's interface (`rsp/error.rs`, the calls of `rsp/mod.rs`)

euicc-rsp runs the protocol itself; its source is not part of this repository. Each C
function the wrapper calls is one `RspCall`, with the arguments it is handed and the type
of what it hands back. A `Library` is any way of answering those calls: nothing is assumed
of it here, and what a result assumes it names.

A C function that does not return 0 hands back its return code alone (`Except Int`). One
that works on a session hands the session back as well, whatever it returned: it was
given a mutable pointer.

One of them fills a buffer it is handed instead of handing one back (`rsp_dp_session_eid`).
What it reports to have written stays within that buffer: it is handed the size, and the
wrapper slices by the report. `EidBuffer` carries that bound, and it is the one thing the
type of a call says beyond the C signature.
-/

namespace Smdp

/-! ## The failure convention -/

inductive RspError where
  /-- `-1`: asked, answered no. -/
  | refused (what : String)
  /-- `-2`: never reached. -/
  | notReached (what : String)
  deriving DecidableEq, Repr

/-- `RspError::from_code`. -/
def RspError.fromCode (code : Int) (what : String) : RspError :=
  if code = -1 then .refused what else .notReached what

/-! ## What the calls hand back -/

/-- `rsp_dp_initiate_fields_t`: the five fields of InitiateAuthenticationOkEs9 the JSON binding
names. -/
structure InitiateFields where
  transactionId : Bytes
  serverSigned1 : Bytes
  serverSignature1 : Bytes
  euiccCiPkid : Bytes
  serverCertificate : Bytes
  deriving DecidableEq

/-- `rsp_dp_authenticate_fields_t`: the five fields of AuthenticateClientOk. -/
structure AuthenticateFields where
  transactionId : Bytes
  profileMetadata : Bytes
  smdpSigned2 : Bytes
  smdpSignature2 : Bytes
  smdpCertificate : Bytes
  deriving DecidableEq

/-- `rsp_notification_t`. -/
structure RspNotification where
  isInstallationResult : Int
  seqNumber : Int
  operation : Int
  haveIccid : Int
  iccid : Iccid
  installed : Int
  deriving DecidableEq

/-- The 64 octets `eid` hands over, as `rsp_dp_session_eid` leaves them, and how many of them
it reports to be the EID. A report past the end of the buffer is not an answer that function
can give; `DpSession::eid` would panic on one, with the session still locked. -/
structure EidBuffer where
  buf : Octets 64
  len : Nat
  fits : len ≤ 64

/-- The octets reported, without the zeros after them. -/
def EidBuffer.eid (e : EidBuffer) : Bytes := e.buf.val.take e.len

/-- The slice `buf[..len]` does not panic. -/
theorem EidBuffer.sliceTo_ok (e : EidBuffer) : sliceTo e.buf.val e.len = .ok e.eid :=
  if_pos (e.buf.property.symm ▸ e.fits)

/-- The buffer with as much of `b` written to it as it holds. -/
def EidBuffer.write (b : Bytes) : EidBuffer where
  buf := ⟨b.take 64 ++ List.replicate (64 - (b.take 64).length) 0, by
    rw [List.length_append, List.length_replicate]
    exact Nat.add_sub_of_le (List.length_take_le 64 b)⟩
  len := (b.take 64).length
  fits := List.length_take_le 64 b

/-! ## The calls -/

/-- A call of the C library; `σ` is `rsp_dp_session_t`. -/
inductive RspCall (σ : Type) where
  | dpInitiateAuthentication (euiccChallenge : Octets 16) (euiccInfo1 : Bytes)
      (transactionId serverChallenge : Octets 16) (serverAddress : String)
      (requestedAddress : Option String)
  | dpAuthenticateClient (session : σ) (authServerResp metadata : Bytes)
  | dpGetBoundProfilePackage (session : σ) (prepareDownloadResp upp : Bytes)
      (otskDp : Octets 32)
  | dpSessionEuiccCert (session : σ)
  | dpSessionEid (session : σ)
  | dpInitiateFields (resp : Bytes)
  | dpAuthenticateFields (resp : Bytes)
  | dpNotificationMetadata (notification : Bytes)
  | dpVerifyNotification (certEuicc : Option Bytes) (notification : Bytes)

variable {σ : Type}

/-- What a call hands back: its out-parameters where it returned 0, and its return code where it
did not. -/
abbrev RspCall.Ret : RspCall σ → Type
  | .dpInitiateAuthentication .. => Except Int (σ × Bytes)
  | .dpAuthenticateClient .. => σ × Except Int Bytes
  | .dpGetBoundProfilePackage .. => σ × Except Int Bytes
  | .dpSessionEuiccCert _ => Except Int Bytes
  | .dpSessionEid _ => Except Int EidBuffer
  | .dpInitiateFields _ => Except Int InitiateFields
  | .dpAuthenticateFields _ => Except Int AuthenticateFields
  | .dpNotificationMetadata _ => Except Int RspNotification
  | .dpVerifyNotification _ _ => Except Int RspNotification

/-- A way of answering every call. -/
abbrev Library (σ : Type) := (c : RspCall σ) → c.Ret

/-! ## What the wrapper makes of an answer

The pure half of `rsp/mod.rs`: return codes become `RspError`s, integers become booleans.
The half that makes the calls is `Smdp.Rsp.Session`. -/

/-- What a verified notification turned out to be. -/
structure Notification where
  isInstallationResult : Bool
  seqNumber : Int
  operation : Int
  iccid : Option Iccid
  /-- Only meaningful for an installation result. -/
  installed : Bool
  deriving DecidableEq

/-- The `if rc != 0` every wrapper function starts with, `WHAT` being its own name for itself. -/
def checkCode {α : Type} (what : String) : Except Int α → Except RspError α
  | .ok a => .ok a
  | .error code => .error (RspError.fromCode code what)

theorem checkCode_ok {α : Type} (what : String) (a : α) : checkCode what (.ok a) = .ok a := rfl

theorem checkCode_error {α : Type} (what : String) (code : Int) :
    checkCode what (.error code : Except Int α) = .error (RspError.fromCode code what) := rfl

/-- `String::from_utf8` on the EID the library wrote: on `buf[..len]`, which is `e.eid`
(`EidBuffer.sliceTo_ok`). An EID that is not UTF-8 counts as never reached. -/
def readEid (r : Except Int EidBuffer) : Except RspError String :=
  match checkCode "session EID" r with
  | .error e => .error e
  | .ok e =>
    match String.fromUTF8? ⟨e.eid.toArray⟩ with
    | some eid => .ok eid
    -- as the source maps the `Utf8Error`: the question could not be attempted
    | none => .error (.notReached "session EID")

/-- The C struct as the wrapper reads it: any nonzero integer is true, and the ICCID counts only
where `have_iccid` says so. -/
def RspNotification.toNotification (v : RspNotification) : Notification where
  isInstallationResult := v.isInstallationResult != 0
  seqNumber := v.seqNumber
  operation := v.operation
  iccid := if v.haveIccid != 0 then some v.iccid else none
  installed := v.installed != 0

/-- `notification_metadata` reads the same struct, but `installed` is always false. -/
def readMetadata (r : Except Int RspNotification) : Except RspError Notification :=
  (checkCode "notification metadata" r).map fun v =>
    { v.toNotification with installed := false }

/-- `verify_notification`: the struct as it stands, `installed` included. -/
def readVerified (r : Except Int RspNotification) : Except RspError Notification :=
  (checkCode "HandleNotification" r).map RspNotification.toNotification

namespace Library

variable (lib : Library σ)

/-! What a library says, as the handlers see it. -/

def authenticateClient (session : σ) (authServerResp metadata : Bytes) :
    σ × Except RspError Bytes :=
  let (session', r) := lib (.dpAuthenticateClient session authServerResp metadata)
  (session', checkCode "AuthenticateClient" r)

def getBoundProfilePackage (session : σ) (prepareDownloadResp upp : Bytes)
    (otskDp : Octets 32) : σ × Except RspError Bytes :=
  let (session', r) := lib (.dpGetBoundProfilePackage session prepareDownloadResp upp otskDp)
  (session', checkCode "GetBoundProfilePackage" r)

def euiccCert (session : σ) : Except RspError Bytes :=
  checkCode "session eUICC certificate" (lib (.dpSessionEuiccCert session))

def eid (session : σ) : Except RspError String := readEid (lib (.dpSessionEid session))

def initiateFields (resp : Bytes) : Except RspError InitiateFields :=
  checkCode "InitiateAuthentication fields" (lib (.dpInitiateFields resp))

def authenticateFields (resp : Bytes) : Except RspError AuthenticateFields :=
  checkCode "AuthenticateClient fields" (lib (.dpAuthenticateFields resp))

def notificationMetadata (notification : Bytes) : Except RspError Notification :=
  readMetadata (lib (.dpNotificationMetadata notification))

def verifyNotification (certEuicc : Option Bytes) (notification : Bytes) :
    Except RspError Notification :=
  readVerified (lib (.dpVerifyNotification certEuicc notification))

end Library

/-! ## A library to run against

`Library.echo` takes every eUICC at its word. The session is the last response it accepted,
and that is the EID (as far as the buffer holds it) and the certificate as well; a Bound
Profile Package is the UPP. A notification is written `signer`, `seqNumber`, `installed`,
ICCID, and verifies against the certificate `[signer]`. What it was never shown (an empty
response, a short notification) it does not read. -/

/-- The installation result a byte string spells. -/
def readEcho (raw : Bytes) : Except Int (UInt8 × RspNotification) :=
  match raw with
  -- three octets and the ten of an ICCID, or nothing is read
  | signer :: seqNumber :: installed :: rest =>
    match Octets.ofBytes? 10 rest with
    | none => .error (-2)
    | some iccid =>
      .ok (signer,
        { isInstallationResult := 1, seqNumber := seqNumber.toNat, operation := 0, haveIccid := 1,
          iccid, installed := installed.toNat })
  | _ => .error (-2)

/-- The library itself, call by call. -/
def Library.echo : Library Bytes
  | .dpInitiateAuthentication .. => .ok ([], [])
  -- the session is whatever it last accepted
  | .dpAuthenticateClient _ authServerResp _ => (authServerResp, .ok authServerResp)
  | .dpGetBoundProfilePackage session _ upp _ => (session, .ok upp)
  | .dpSessionEuiccCert session => .ok session
  | .dpSessionEid session => .ok (.write session)
  | .dpInitiateFields resp => .ok ⟨[], resp, [], [], []⟩
  | .dpAuthenticateFields resp =>
    -- the one failure after an eUICC was accepted: its answer was empty
    if resp = [] then .error (-2) else .ok ⟨[], resp, [], [], []⟩
  | .dpNotificationMetadata notification => (readEcho notification).map Prod.snd
  | .dpVerifyNotification certEuicc notification =>
    match readEcho notification with
    | .error code => .error code
    -- readable and not verified: the case the store keeps with `verified = false`
    | .ok (signer, v) => if certEuicc = some [signer] then .ok v else .error (-1)

end Smdp
