import Smdp.Es9.Message
import Smdp.Rsp.Session

/-!
# Smdp — one handler per ES9+ function (`server/es9.rs`)

Each handler is a program over `ServerOp`, a call where the source has a call, in the
source's order. A section under the session mutex runs from `lock` to `unlock`; an early
return inside it drops the guard, which is an `unlock` before the answer. `let _ =` on a
store call is a result that is bound and not looked at.
-/

namespace Smdp

open Interaction

variable {σ : Type}

/-! ## Answers -/

/-- `ok_json`: 200, whatever the body says, under the headers of the binding. -/
def okJson (body : Body) : Response where
  status := 200
  headers := [("X-Admin-Protocol", adminProtocol), ("content-type", "application/json")]
  body := body

/-- `failed`: a Failed status is a 200 as well, with the reason in the header of the body. -/
def failed (subject reason message : String) : Response :=
  okJson (.failure { header := ResponseHeader.failed subject reason message })

/-! Status codes from SGP.22 sections 5.2.6.1 and 5.2.6.2. -/

namespace code

/-- 8.1.1 -- the SM-DP+ address subject. -/
def smdpAddress : String := "8.1.1"
/-- 8.10.1 -- the transactionId subject. -/
def transactionId : String := "8.10.1"
/-- 8.2.5 -- the Profile subject. -/
def profile : String := "8.2.5"
/-- 3.8 -- refused. -/
def refused : String := "3.8"
/-- 3.9 -- unknown / not found. -/
def unknown : String := "3.9"
/-- 4.2 -- execution error. -/
def execution : String := "4.2"

end code

/-- `from_rsp_error`: refused is 3.8 and never reached is 4.2, under a subject of the caller's. -/
def fromRspError (e : RspError) (subject : String) : Response :=
  match e with
  | .refused what => failed subject code.refused s!"{what}: refused"
  | .notReached what => failed subject code.execution s!"{what}: could not be attempted"

/-! ## The handlers -/

/-- `initiate_authentication`. The session goes on the table last, once there is an answer to go
with it; a challenge that is not sixteen octets ends it before anything is drawn. -/
def initiateAuthentication (config : ServerConfig) (req : InitiateAuthenticationRequest) :
    Handler σ Response := do
  match Octets.ofBytes? 16 req.euiccChallenge with
  | none => return failed code.execution code.execution "euiccChallenge is not 16 bytes"
  | some challenge =>
    let transactionId ← Prog.ask (F := ServerSig σ) .transactionId
    let serverChallenge ← Prog.ask (F := ServerSig σ) .serverChallenge
    match ← DpSession.initiate challenge req.euiccInfo1 transactionId serverChallenge
        config.serverAddress (some req.smdpAddress) with
    | .error e => return fromRspError e code.smdpAddress
    | .ok (session, resp) =>
      match ← initiateFields resp with
      | .error e => return fromRspError e code.execution
      | .ok f =>
        Handler.lock
        Handler.insertSession transactionId.val session
        Handler.unlock
        return okJson (.initiateAuthentication
          { header := ResponseHeader.success
            transactionId := transactionId.val
            serverSigned1 := f.serverSigned1
            serverSignature1 := f.serverSignature1
            euiccCiPkidToBeUsed := f.euiccCiPkid
            serverCertificate := f.serverCertificate })

/-- `if let (Some(eid), Some(cert)) = (eid, cert) { let _ = bind_euicc(..) }`. -/
def rememberEuicc (order : Int) (eid : Option String) (cert : Option Bytes) :
    Handler σ (Except StoreError Unit) :=
  match eid, cert with
  | some eid, some cert => Handler.bindEuicc order eid cert
  | _, _ => return .ok ()

/-- The orders still on offer. -/
def availableOrders (orders : List Order) : List Order :=
  orders.filter fun o => o.state = .available ∨ o.state = .bound

/-- `authenticate_client`. Which order the download is for is decided before the session is looked
up, by the state column alone: the MatchingID in `ctxParams1` is not read. -/
def authenticateClient (req : AuthenticateClientRequest) : Handler σ Response := do
  match ← Handler.listOrders with
  | .error e => return failed code.profile code.execution e.display
  | .ok orders =>
    match availableOrders orders with
    | [] =>
      return failed code.profile code.unknown
        ("no order is available -- add one, or reset one that has "
          ++ "already been downloaded (smdp order list shows their state)")
    | _ :: _ :: rest =>
      return failed code.profile code.unknown
        (s!"{rest.length + 2} orders are available and the MatchingID is not read from "
          ++ "ctxParams1 yet, so this server cannot tell which is wanted")
    | [order] =>
      Handler.lock
      match ← Handler.getSession req.transactionId with
      | none =>
        Handler.unlock
        return failed code.transactionId code.unknown "no session with this transactionId"
      | some entry =>
        let (session, resp) ←
          DpSession.authenticateClient entry.session req.authenticateServerResponse order.metadata
        match resp with
        | .error e =>
          -- the library was handed `&mut`: what it did to the session stays, the refusal
          -- notwithstanding
          Handler.putSession req.transactionId { entry with session }
          Handler.unlock
          return fromRspError e code.transactionId
        | .ok resp =>
          let eid ← DpSession.eid session
          let cert ← DpSession.euiccCert session
          -- before the fields are cut, so also where that fails
          Handler.putSession req.transactionId { entry with session, orderId := some order.id }
          Handler.unlock
          match ← authenticateFields resp with
          | .error e => return fromRspError e code.execution
          | .ok g =>
            let body := Body.authenticateClient
              { header := ResponseHeader.success
                transactionId := req.transactionId
                profileMetadata := g.profileMetadata
                smdpSigned2 := g.smdpSigned2
                smdpSignature2 := g.smdpSignature2
                smdpCertificate := g.smdpCertificate }
            -- neither store call is looked at; the answer is the same without them
            let _ ← rememberEuicc order.id eid.toOption cert.toOption
            let _ ← Handler.setState order.id .bound
            return okJson body

/-- `order_id.and_then(|id| list_orders().ok()?.into_iter().find(..).map(|o| o.upp))`. -/
def findUpp (orderId : Option Int) : Handler σ (Option Bytes) := do
  match orderId with
  | none => return none
  | some id =>
    match ← Handler.listOrders with
    | .error _ => return none
    | .ok orders => return (orders.find? fun o => o.id = id).map Order.upp

/-- `get_bound_profile_package`. The order is found by the id on the session; its state is not
looked at. On success the session is gone before the store hears of it. -/
def getBoundProfilePackage (req : GetBoundProfilePackageRequest) : Handler σ Response := do
  let otskDp ← Prog.ask (F := ServerSig σ) .otskDp
  Handler.lock
  match ← Handler.getSession req.transactionId with
  | none =>
    Handler.unlock
    return failed code.transactionId code.unknown "no session with this transactionId"
  | some entry =>
    -- under the session mutex, though it asks the store
    match ← findUpp entry.orderId with
    | none =>
      Handler.unlock
      return failed code.profile code.unknown
        "this session has not authenticated against an order yet"
    | some upp =>
      let (session, bpp) ←
        DpSession.getBoundProfilePackage entry.session req.prepareDownloadResponse upp otskDp
      match bpp with
      | .error e =>
        Handler.putSession req.transactionId { entry with session }
        Handler.unlock
        return fromRspError e code.transactionId
      | .ok bpp =>
        let body := Body.getBoundProfilePackage
          { header := ResponseHeader.success
            transactionId := req.transactionId
            boundProfilePackage := bpp }
        Handler.removeSession req.transactionId
        Handler.unlock
        -- `if let Some(id) = order_id`: without one there was no UPP, so this is always `some`
        match entry.orderId with
        | none => return okJson body
        | some id =>
          let _ ← Handler.setState id .downloaded
          return okJson body

/-- `iccid.and_then(|i| order_by_iccid(&i).ok().flatten())`. -/
def matchOrder (iccid : Option Iccid) : Handler σ (Option Order) := do
  match iccid with
  | none => return none
  | some i =>
    match ← Handler.orderByIccid i with
    | .error _ => return none
    | .ok order => return order

/-- What is kept of a notification: `m` is what it verified as, or else what its metadata
says. -/
def toRecord (verified : Option Notification) (m : Notification) (order : Option Order)
    (raw : Bytes) : NewNotification where
  verified := verified.isSome
  orderId := order.map Order.id
  seqNumber := m.seqNumber
  operation := m.operation
  iccid := m.iccid
  installed := if verified.isSome && m.isInstallationResult then some m.installed else none
  raw := raw

/-- Everything that arrives is kept, verified or not. -/
def keepNotification (verified metadata : Option Notification) (order : Option Order)
    (raw : Bytes) : Handler σ (Except StoreError Unit) :=
  match verified.or metadata with
  | some m => Handler.recordNotification (toRecord verified m order raw)
  | none => return .ok ()

/-- Only a verified notification moves an order. -/
def moveOrder (verified : Option Notification) (order : Option Order) :
    Handler σ (Except StoreError Unit) :=
  match verified, order with
  | some v, some o =>
    if v.isInstallationResult then
      Handler.setState o.id (if v.installed then .downloaded else .failed)
    else
      return .ok ()
  | _, _ => return .ok ()

/-- `handle_notification`. It always answers 204, whatever the library or the store said on the
way; `first` and `second` are two calls of the library, as in the source. -/
def handleNotification (req : HandleNotificationRequest) : Handler σ Response := do
  let first ← notificationMetadata req.pendingNotification
  let iccid := first.toOption.bind Notification.iccid
  let order ← matchOrder iccid
  let cert := order.bind Order.euiccCert
  let checked ← verifyNotification cert req.pendingNotification
  let verified := checked.toOption
  let second ← notificationMetadata req.pendingNotification
  let _ ← keepNotification verified second.toOption order req.pendingNotification
  let _ ← moveOrder verified order
  return { status := 204, headers := [("X-Admin-Protocol", adminProtocol)], body := .empty }

end Smdp
