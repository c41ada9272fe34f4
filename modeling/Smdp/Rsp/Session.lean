import Smdp.Server.Interface

/-!
# Smdp — the safe wrapper (`rsp/mod.rs`)

Each function of the wrapper as a program: one call of the C library, and its answer read
by the matching function of `Smdp.Rsp.Library`. `DpSession` is the session state `σ`.
-/

namespace Smdp

open Interaction

variable {σ : Type}

namespace DpSession

/-- `CString::new`: an address with a NUL in it never reaches the library. -/
def cString (s : String) : Option String := if '\x00' ∈ s.toList then none else some s

/-- `initiate`: the library is asked only once both addresses have become C strings. A NUL in
either means the question was never put, which is `NotReached` and no call. -/
def initiate (euiccChallenge : Octets 16) (euiccInfo1 : Bytes)
    (transactionId serverChallenge : Octets 16) (serverAddress : String)
    (requestedAddress : Option String) : Handler σ (Except RspError (σ × Bytes)) := do
  let what := "InitiateAuthentication"
  -- `own` is made first, so a bad address of the server's is reported without looking at the
  -- LPA's
  match cString serverAddress, requestedAddress.map cString with
  | none, _ => return .error (.notReached what)
  | some _, some none => return .error (.notReached what)
  -- no requested address, or one that went through; the handlers here always send one
  | some own, req =>
    let r ← Handler.rsp (.dpInitiateAuthentication euiccChallenge euiccInfo1 transactionId
      serverChallenge own req.join)
    return checkCode what r

/-- `authenticate_client`, on the session it is handed: the pointer is mutable, so the session
comes back changed whether or not the eUICC was accepted. -/
def authenticateClient (session : σ) (authServerResp metadata : Bytes) :
    Handler σ (σ × Except RspError Bytes) := do
  let r ← Handler.rsp (.dpAuthenticateClient session authServerResp metadata)
  return (r.1, checkCode "AuthenticateClient" r.2)

/-- `get_bound_profile_package`. As above: the session keys land in the session also when no
package comes of it. -/
def getBoundProfilePackage (session : σ) (prepareDownloadResp upp : Bytes)
    (otskDp : Octets 32) : Handler σ (σ × Except RspError Bytes) := do
  let r ← Handler.rsp (.dpGetBoundProfilePackage session prepareDownloadResp upp otskDp)
  return (r.1, checkCode "GetBoundProfilePackage" r.2)

/-- `euicc_cert`: the certificate the session learned, copied out. -/
def euiccCert (session : σ) : Handler σ (Except RspError Bytes) := do
  let r ← Handler.rsp (.dpSessionEuiccCert session)
  return checkCode "session eUICC certificate" r

/-- `eid`: the library fills the buffer and `readEid` reads as much of it as it reported. -/
def eid (session : σ) : Handler σ (Except RspError String) := do
  let r ← Handler.rsp (.dpSessionEid session)
  return readEid r

/-! What each of them does when nothing comes in between: one call, answered as the pure
half reads it. -/

variable (env : Env σ) (s : AppState σ)

/-- `exec_*`: run alone, a wrapper leaves the shared state as it was, makes its one call of the
library, and answers what the pure half makes of the result. -/
@[simp] theorem exec_authenticateClient (session : σ) (authServerResp metadata : Bytes) :
    (authenticateClient session authServerResp metadata).exec (AppState.perform env) s
      = ⟨env.library.authenticateClient session authServerResp metadata, s,
          [⟨.rsp (.dpAuthenticateClient session authServerResp metadata),
            env.library (.dpAuthenticateClient session authServerResp metadata)⟩]⟩ := rfl

@[simp] theorem exec_getBoundProfilePackage (session : σ) (prepareDownloadResp upp : Bytes)
    (otskDp : Octets 32) :
    (getBoundProfilePackage session prepareDownloadResp upp otskDp).exec (AppState.perform env) s
      = ⟨env.library.getBoundProfilePackage session prepareDownloadResp upp otskDp, s,
          [⟨.rsp (.dpGetBoundProfilePackage session prepareDownloadResp upp otskDp),
            env.library (.dpGetBoundProfilePackage session prepareDownloadResp upp otskDp)⟩]⟩ := rfl

@[simp] theorem exec_euiccCert (session : σ) :
    (euiccCert session).exec (AppState.perform env) s
      = ⟨env.library.euiccCert session, s,
          [⟨.rsp (.dpSessionEuiccCert session), env.library (.dpSessionEuiccCert session)⟩]⟩ := rfl

@[simp] theorem exec_eid (session : σ) :
    (eid session).exec (AppState.perform env) s
      = ⟨env.library.eid session, s,
          [⟨.rsp (.dpSessionEid session), env.library (.dpSessionEid session)⟩]⟩ := rfl

/-- Asking changes nothing, whether or not the addresses can be asked with. -/
@[simp] theorem exec_initiate_state (euiccChallenge : Octets 16) (euiccInfo1 : Bytes)
    (transactionId serverChallenge : Octets 16) (serverAddress : String)
    (requestedAddress : Option String) :
    ((initiate euiccChallenge euiccInfo1 transactionId serverChallenge serverAddress
      requestedAddress).exec (AppState.perform env) s).state = s := by
  unfold initiate
  -- two of the three branches ask nothing, and the third asks the library, not the state
  split <;> rfl

end DpSession

/-- `initiate_fields`: the library cuts its own answer, no session needed. -/
def initiateFields (resp : Bytes) : Handler σ (Except RspError InitiateFields) := do
  let r ← Handler.rsp (.dpInitiateFields resp)
  return checkCode "InitiateAuthentication fields" r

/-- `authenticate_fields`, the same for the answer to AuthenticateClient. -/
def authenticateFields (resp : Bytes) : Handler σ (Except RspError AuthenticateFields) := do
  let r ← Handler.rsp (.dpAuthenticateFields resp)
  return checkCode "AuthenticateClient fields" r

/-- `notification_metadata`: read without verifying anything, so `installed` is never set by it.
-/
def notificationMetadata (notification : Bytes) : Handler σ (Except RspError Notification) := do
  let r ← Handler.rsp (.dpNotificationMetadata notification)
  return readMetadata r

/-- `verify_notification`: with the certificate of the order its ICCID led to, or with none. -/
def verifyNotification (certEuicc : Option Bytes) (notification : Bytes) :
    Handler σ (Except RspError Notification) := do
  let r ← Handler.rsp (.dpVerifyNotification certEuicc notification)
  return readVerified r

section

variable (env : Env σ) (s : AppState σ)

@[simp] theorem exec_initiateFields (resp : Bytes) :
    (initiateFields resp).exec (AppState.perform env) s
      = ⟨env.library.initiateFields resp, s,
          [⟨.rsp (.dpInitiateFields resp), env.library (.dpInitiateFields resp)⟩]⟩ := rfl

@[simp] theorem exec_authenticateFields (resp : Bytes) :
    (authenticateFields resp).exec (AppState.perform env) s
      = ⟨env.library.authenticateFields resp, s,
          [⟨.rsp (.dpAuthenticateFields resp), env.library (.dpAuthenticateFields resp)⟩]⟩ := rfl

@[simp] theorem exec_notificationMetadata (notification : Bytes) :
    (notificationMetadata notification).exec (AppState.perform env) s
      = ⟨env.library.notificationMetadata notification, s,
          [⟨.rsp (.dpNotificationMetadata notification),
            env.library (.dpNotificationMetadata notification)⟩]⟩ := rfl

@[simp] theorem exec_verifyNotification (cert : Option Bytes) (notification : Bytes) :
    (verifyNotification cert notification).exec (AppState.perform env) s
      = ⟨env.library.verifyNotification cert notification, s,
          [⟨.rsp (.dpVerifyNotification cert notification),
            env.library (.dpVerifyNotification cert notification)⟩]⟩ := rfl

end

end Smdp
