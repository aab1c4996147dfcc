import VaultServer.Api.Accounts

/-!
# Stamps, addresses, keys and devices

The rest of `api/core/accounts.rs` that writes: resetting the stamp, changing and verifying the
address, deleting the account, the API key, the push tokens of a device, and the requests to approve
a login.  `register_push_device` is from `api/push.rs`, `recover_account` from
`api/core/organizations.rs`.
-/

namespace VaultServer

open Lib Prog

variable (env : Env)

/-- The devices go whatever became of the save, and its error is reported last. -/
def postSstamp (data : PasswordOrOtpData) (headers : Headers) : Cmd Unit := do
  data.validate env headers.user true
  let user ← headers.user.resetSecurityStamp env
  let saved ← catchErr (user.save env)
  Device.deleteAllByUser user.uuid
  let _ ← lift saved

/-! ## The address -/

structure EmailTokenData where
  masterPasswordHash : String
  newEmail : String

/-- The code goes to the new address; here it is drawn and kept as a number. -/
def postEmailToken (data : EmailTokenData) (headers : Headers) : Cmd Unit := do
  ensure env.emailChangeAllowed "Email change is not allowed."
  ensure (headers.user.checkValidPassword env data.masterPasswordHash) "Invalid password"
  match ← query (User.findByMail · data.newEmail) with
  | some _ =>
    when env.mailEnabled do
      let _ ← (external "mail").attempt
    err "Email already in use"
  | none =>
    ensure (env.isEmailDomainAllowed data.newEmail) "Email domain not allowed"
    let token ← getUuid
    when env.mailEnabled do
      let _ ← (external "mail").attempt
    let _ ← User.save env { headers.user with
      emailNew := some data.newEmail
      emailNewToken := some (toString token) }

structure ChangeEmailData where
  masterPasswordHash : String
  newEmail : String
  key : String
  newMasterPasswordHash : String
  token : String

/-- The code is only asked for where it could be sent. -/
def postEmail (data : ChangeEmailData) (headers : Headers) : Cmd Unit := do
  ensure env.emailChangeAllowed "Email change is not allowed."
  ensure (headers.user.checkValidPassword env data.masterPasswordHash) "Invalid password"
  let other ← query (User.findByMail · data.newEmail)
  ensure other.isNone "Email already in use"
  ensure headers.user.emailNew.isSome "No email change pending"
  ensure (headers.user.emailNew = some data.newEmail) "Email change mismatch"
  when env.mailEnabled do
    ensure headers.user.emailNewToken.isSome "No email change pending"
    ensure (headers.user.emailNewToken = some data.token) "Token mismatch"
  let user ← User.setPassword env
    { headers.user with
      verifiedAt := if env.mailEnabled then some env.now else none
      email := data.newEmail
      emailNew := none
      emailNewToken := none }
    data.newMasterPasswordHash (some data.key) true none
  let _ ← user.save env

/-- A token in the name of one account. -/
structure BasicJwtClaims where
  sub : UserId

/-- Whether the save succeeds is only logged. -/
def postVerifyEmailToken (userId : UserId) (token : Signed BasicJwtClaims) : Cmd Unit := do
  match ← loadUser (User.findByUuid · userId) with
  | none => err "User doesn't exist"
  | some user =>
    match ← catchErr (decodeJwt env token) with
    | .error _ => err "Invalid claim"
    | .ok claims =>
      ensure (claims.sub = user.uuid) "Invalid claim"
      let _ ← (User.save env { user with
        verifiedAt := some env.now
        lastVerifyingAt := none
        loginVerifyCount := 0 }).attempt

/-! ## Deleting the account -/

def postDeleteRecoverToken (userId : UserId) (token : Signed BasicJwtClaims) : Cmd Unit := do
  match ← catchErr (decodeJwt env token) with
  | .error _ => err "Invalid claim"
  | .ok claims =>
    match ← query (User.findByUuid · userId) with
    | none => err "User doesn't exist"
    | some user =>
      ensure (claims.sub = user.uuid) "Invalid claim"
      user.delete env

def deleteAccount (data : PasswordOrOtpData) (headers : Headers) : Cmd Unit := do
  data.validate env headers.user true
  headers.user.delete env

/-! ## The API key -/

/-- A failed save is a panic here. -/
def updateApiKey (data : PasswordOrOtpData) (rotate : Bool) (headers : Headers) : Cmd Unit := do
  data.validate env headers.user true
  when (rotate ∨ headers.user.apiKey.isNone) do
    let key ← getUuid
    match ← (User.save env { headers.user with apiKey := some key }).attempt with
    | .ok _ => pure ()
    | .error _ => .fail (.panic "Error saving API key")

/-! ## Devices -/

/-- Returns the copy as it was registered. -/
def registerPushDevice (d : Device) : Cmd Device :=
  if !env.pushEnabled ∨ !d.isPushDevice ∨ d.pushToken.isNone then pure d
  else do
    let pushUuid ← (match d.pushUuid with
      | some id => pure id
      | none => getUuid)
    external "An error occurred while proceeding registration of a device"
    match ← catchErr (Device.save env true { d with pushUuid := some pushUuid }) with
    | .ok d => pure d
    | .error _ =>
      err "An error occurred while trying to save the (registered) device push uuid"

def putDeviceToken (deviceId : DeviceId) (pushToken : String) (headers : Headers) : Cmd Unit := do
  match ← loadDevice (Device.findByUuidAndUser · headers.device.uuid headers.user.uuid) with
  | none => err ("Error: device " ++ toString deviceId.val
      ++ " should be present before a token can be assigned")
  | some d =>
    if d.pushToken = some pushToken then pure ()
    else do
      match ← catchErr (Device.save env true { d with pushToken := some pushToken }) with
      | .error _ => err "An error occurred while trying to save the device push token"
      | .ok d => do
        let _ ← registerPushDevice env d

def clearPushTokenStmt (uuid : DeviceId) (db : Db) : Db :=
  { db with
    devices := db.devices.updateWhere (fun d => d.uuid = uuid)
      (fun d => { d with pushToken := none }) (fun _ => rfl) fun _ => rfl }

def putClearDeviceToken (deviceId : DeviceId) : Cmd Unit :=
  if !env.pushEnabled then pure ()
  else do
    match ← query fun db => db.devices.find? fun d => d.uuid = deviceId with
    | none => pure ()
    | some d =>
      execTotal (clearPushTokenStmt deviceId) "Error removing push token"
      when d.pushUuid.isSome (external "An error occurred during device unregistration")

/-! ## Approving a login on another device -/

namespace AuthRequest

def findByUuidAndUser (db : Db) (uuid : Nat) (user : UserId) : Option AuthRequest :=
  db.authRequests.find? fun a => a.uuid = uuid ∧ a.userUuid = user

def saveStmt (a : AuthRequest) (db : Db) : Option Db :=
  Db.guarded (db.hasUser a.userUuid) { db with authRequests := db.authRequests.upsert a }

def save (a : AuthRequest) : Cmd Unit := exec a.saveStmt "Error saving auth_request" .write

def delete (a : AuthRequest) : Cmd Unit :=
  execTotal (fun db => { db with authRequests := db.authRequests.deleteWhere fun x => x.uuid = a.uuid })
    "Error deleting auth request"

/-- The job that removes requests older than a quarter of an hour, as far as that works. -/
def purgeExpiredAuthRequests : Cmd Unit := do
  let requests ← query fun db => db.authRequests.rows.filter fun a => a.creationDate < env.now - 900
  each requests fun a => do
    let _ ← a.delete.attempt

end AuthRequest

structure AuthRequestRequest where
  accessCode : String
  deviceIdentifier : DeviceId
  email : String

def postAuthRequest (data : AuthRequestRequest) (deviceType : Int) (ip : String) : Cmd Nat := do
  match ← query (User.findByMail · data.email) with
  | none => err "AuthRequest doesn't exist"
  | some user =>
    let device ← query (Device.findByUuidAndUser · data.deviceIdentifier user.uuid)
    ensure (device.any fun d => d.atype = deviceType) "AuthRequest doesn't exist"
    let uuid ← getUuid
    AuthRequest.save
      ⟨uuid, user.uuid, data.deviceIdentifier, deviceType, ip, data.accessCode, none, env.now⟩
    pure uuid

structure AuthResponseRequest where
  deviceIdentifier : DeviceId
  requestApproved : Bool

/-- A denied request is removed. -/
def putAuthRequest (id : Nat) (data : AuthResponseRequest) (headers : Headers) : Cmd Unit := do
  match ← query (AuthRequest.findByUuidAndUser · id headers.user.uuid) with
  | none => err "AuthRequest doesn't exist"
  | some request =>
    ensure (headers.device.uuid = data.deviceIdentifier) "AuthRequest doesn't exist"
    ensure request.approved.isNone "An authentication request with the same device already exists"
    if data.requestApproved then AuthRequest.save { request with approved := some true }
    else request.delete

/-! ## Recovery by an organization -/

structure OrganizationUserRecoverAccountRequest where
  newMasterPasswordHash : String
  key : String

/-- An admin may not reset an owner. -/
def checkResetPasswordApplicableAndPermissions (org : OrganizationId)
    (memberId : MembershipId) (headers : OrgHeaders) : Cmd Unit := do
  checkResetPasswordApplicable env org
  match ← query (Membership.findByUuidAndOrg · memberId org) with
  | none => err "Reset target user not found"
  | some target =>
    ensure (headers.membershipType = .owner ∨
        (headers.membershipType = .admin ∧ target.atype ≤ MembershipType.admin))
      "No permission to reset this user's password"

def recoverAccount (org : OrganizationId) (memberId : MembershipId)
    (request : OrganizationUserRecoverAccountRequest) (headers : OrgHeaders) : Cmd Unit := do
  ensure (org = headers.membership.orgUuid) orgIdMessage
  let found ← query (Organization.findByUuid · org)
  ensure found.isSome "Required organization not found"
  match ← query (Membership.findByUuidAndOrg · memberId org) with
  | none => err "User to reset isn't member of required organization"
  | some member =>
    match ← loadUser (User.findByUuid · member.userUuid) with
    | none => err "User not found"
    | some user =>
      checkResetPasswordApplicableAndPermissions env org memberId headers
      ensure member.resetPasswordKey.isSome "Password reset not or not correctly enrolled"
      ensure (member.hasStatus .confirmed)
        "Organization user must be confirmed for password reset functionality"
      external "Error sending user reset password email"
      let user ← user.setPassword env request.newMasterPasswordHash (some request.key) true none
      let _ ← user.save env

end VaultServer
