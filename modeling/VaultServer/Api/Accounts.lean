import VaultServer.Api.Sends
import VaultServer.Api.Members

/-!
# Accounts

`api/core/accounts.rs`: registration, the profile, the password and everything else that writes the
caller's own account row. Each of these handlers works on the copy of the row it was given (by the
guard or by a look-up) and writes the whole copy back at the end.
-/

namespace VaultServer

open Lib Prog

/-! ## Key derivation and hints -/

structure KDFData where
  kdf : Int
  kdfIterations : Int
  kdfMemory : Option Int
  kdfParallelism : Option Int
  deriving DecidableEq

/-- The settings of the copy, checked against the bounds of the two algorithms (0 and 1). -/
def setKdfData (u : User) (data : KDFData) : Cmd User := do
  ensure (data.kdf ≠ 0 ∨ 100000 ≤ data.kdfIterations)
    "PBKDF2 KDF iterations must be at least 100000."
  when (data.kdf = 1) do
    ensure (1 ≤ data.kdfIterations) "Argon2 KDF iterations must be at least 1."
    ensure data.kdfMemory.isSome "Argon2 memory parameter is required."
    ensure (data.kdfMemory.all fun m => 15 ≤ m ∧ m ≤ 1024)
      "Argon2 memory must be between 15 MB and 1024 MB."
    ensure data.kdfParallelism.isSome "Argon2 parallelism parameter is required."
    ensure (data.kdfParallelism.all fun p => 1 ≤ p ∧ p ≤ 16)
      "Argon2 parallelism must be between 1 and 16."
  let argon := data.kdf = 1
  pure { u with
    clientKdfMemory := if argon then data.kdfMemory else none
    clientKdfParallelism := if argon then data.kdfParallelism else none
    clientKdfIter := data.kdfIterations
    clientKdfType := data.kdf }

def cleanPasswordHint (hint : Option String) : Option String :=
  (hint.map trimText).filter fun h => !h.isEmpty

variable (env : Env)

def enforcePasswordHintSetting (hint : Option String) : Cmd Unit :=
  ensure (hint.isNone || env.passwordHintsAllowed)
    "Password hints have been disabled by the administrator. Remove the hint and try again."

/-! ## Emergency contacts -/

/-- `EmergencyAccess::accept_invite`. -/
def EmergencyAccess.acceptInvite (ea : EmergencyAccess) (grantee : UserId)
    (granteeEmail : String) : Cmd Unit := do
  ensure (ea.email = some granteeEmail) "User email does not match invite."
  ensure (ea.status ≠ .accepted) "Emergency contact already accepted."
  EmergencyAccess.save env { ea with
    status := .accepted
    granteeUuid := some grantee
    email := none }

structure EmergencyAccessInviteJwtClaims where
  email : String
  emerId : Nat
  grantorName : String
  grantorEmail : String

/-! ## Registration -/

structure KeysData where
  encryptedPrivateKey : String
  publicKey : String

/-- Takes over the key pair, where the request has one. -/
def User.withKeys (u : User) : Option KeysData → User
  | some keys => { u with
      privateKey := some keys.encryptedPrivateKey
      publicKey := some keys.publicKey }
  | none => u

structure MasterPasswordAuthentication where
  kdf : KDFData
  salt : String
  hash : String

structure MasterPasswordUnlock where
  kdf : KDFData
  salt : String
  key : String

inductive RegisterDataCompat where
  | registerDataOld (kdf : KDFData) (key masterPasswordHash : String)
  | registerDataCur (authentication : MasterPasswordAuthentication) (unlock : MasterPasswordUnlock)

structure RegisterVerifyClaims where
  sub : String
  name : Option String
  verified : Bool

structure RegisterData where
  email : String
  compat : RegisterDataCompat
  keys : Option KeysData
  masterPasswordHint : Option String
  name : Option String
  organizationUserId : Option (Option MembershipId)
  emailVerificationToken : Option (Signed RegisterVerifyClaims)
  acceptEmergencyAccessId : Option Nat
  acceptEmergencyAccessInviteToken : Option (Signed EmergencyAccessInviteJwtClaims)
  orgInviteToken : Option (Signed InviteJwtClaims)

namespace RegisterData

def hash (data : RegisterData) : String :=
  match data.compat with
  | .registerDataOld _ _ hash => hash
  | .registerDataCur a _ => a.hash

def kdf (data : RegisterData) : KDFData :=
  match data.compat with
  | .registerDataOld kdf _ _ => kdf
  | .registerDataCur a _ => a.kdf

def key (data : RegisterData) : String :=
  match data.compat with
  | .registerDataOld _ key _ => key
  | .registerDataCur _ u => u.key

def unprocessable (data : RegisterData) : Bool :=
  match data.compat with
  | .registerDataOld .. => false
  | .registerDataCur a u =>
    let email := toLowercase (trimText data.email)
    a.kdf ≠ u.kdf ∨ a.salt ≠ email ∨ u.salt ≠ email

/-- The tokens of a registration: the name to use, whether the address counts as verified, and
whether a waiting emergency contact registers. -/
def verifyTokens (data : RegisterData) : Cmd (Option String × Bool × Bool) :=
  match data.emailVerificationToken, data.acceptEmergencyAccessId,
      data.acceptEmergencyAccessInviteToken, data.organizationUserId, data.orgInviteToken with
  | some token, none, none, none, none => do
    let claims ← decodeJwt env token
    ensure (claims.sub = data.email) "Email verification token does not match email"
    pure (claims.name.or data.name, claims.verified, false)
  | none, some emerId, some token, none, none => do
    ensure env.emergencyAccessAllowed "Emergency access is not enabled."
    let claims ← decodeJwt env token
    ensure (claims.email = data.email) "Claim email does not match email"
    ensure (claims.emerId = emerId) "Claim emer_id does not match accept_emergency_access_id"
    pure (data.name, true, true)
  | none, none, none, some memberId, some token => do
    let claims ← decodeJwt env token
    ensure (claims.email = data.email) "Claim email does not match email"
    ensure (claims.memberId = memberId) "Claim org_user_id does not match organization_user_id"
    pure (data.name, true, false)
  | _, _, _, _, _ => err "Registration is missing required parameters"

end RegisterData

def notAllowedMessage : String := "Registration not allowed or user already exists"

/-- The row a registration fills in, a stub that waits for it or a new one, and whether its address
is verified. -/
def registrationUser (data : RegisterData) (email : String) (verified pending : Bool) :
    Cmd (User × Bool) := do
  match ← loadUser (User.findByMail · email) with
  | some user =>
    ensure user.passwordHash.isEmpty notAllowedMessage
    match data.orgInviteToken with
    | some token =>
      let claims ← decodeJwt env token
      ensure (claims.email = email) "Registration email does not match invite email"
      pure (user, true)
    | none =>
      if ← Invitation.take email then do
        Membership.acceptUserInvitations user.uuid
        pure (user, verified)
      else do
        let invited ← query (EmergencyAccess.findInvitedByGranteeEmail · email)
        ensure (env.isSignupAllowed email || (env.emergencyAccessAllowed && invited.isSome))
          notAllowedMessage
        pure (user, verified)
  | none =>
    let taken ← Invitation.take email
    ensure (taken || env.isSignupAllowed email || pending) notAllowedMessage
    let user ← User.fresh env email none
    pure (user, verified)

def isEmail2faRequired (member : Option (Option MembershipId)) (db : Db) : Bool :=
  env.enableEmail2fa && (env.email2faEnforceOnVerifiedInvite ||
    member.join.any fun m => OrgPolicy.isEnabledForMember db m .twoFactorAuthentication)

/-- The mails of a registration; their errors are only logged. -/
def sendWelcome (data : RegisterData) (user : User) (verified : Bool) : Cmd Unit :=
  if env.mailEnabled then do
    let _ ← (external "mail").attempt
    let required ← query (isEmail2faRequired env data.organizationUserId)
    if verified ∧ required then do
      let _ ← (activateEmail2fa env user).attempt
  else pure ()

def nameMessage : String := "The field Name must be a string with a maximum length of 50."

def register (data : RegisterData) (emailVerification : Bool) : Cmd Unit := do
  ensure (!data.unprocessable) "Unexpected RegisterData format"
  let (name, verified, pending) ←
    (if emailVerification then data.verifyTokens env else pure (data.name, false, false))
  ensure (name.all fun n => n.utf8ByteSize ≤ 50) nameMessage
  let hint := cleanPasswordHint data.masterPasswordHint
  enforcePasswordHintSetting env hint
  let (user, verified) ← registrationUser env data (toLowercase data.email) verified pending
  let _ ← Invitation.take (toLowercase data.email)
  let user ← setKdfData user data.kdf
  let user ← user.setPassword env data.hash (some data.key) true none
  let mustVerify := env.mailEnabled && env.signupsVerify && !verified
  let user := { user.withKeys data.keys with
    passwordHint := hint
    name := name.getD user.name
    verifiedAt := if verified then some env.now else user.verifiedAt
    lastVerifyingAt := if mustVerify then some user.createdAt else user.lastVerifyingAt }
  sendWelcome env data user verified
  let user ← user.save env
  if !env.mailEnabled ∧ env.emergencyAccessAllowed then do
    let invites ← query (EmergencyAccess.findAllInvitedByGranteeEmail · user.email)
    each invites fun ea => do
      let _ ← (ea.acceptInvite env user.uuid user.email).attempt

structure SetPasswordData where
  kdf : KDFData
  key : String
  keys : Option KeysData
  masterPasswordHash : String
  masterPasswordHint : Option String
  /-- The organization the account was invited to; the fixed ids of the admin page and of single
  sign-on count as none. -/
  orgIdentifier : Option OrganizationId

/-- Accepts the invitation the first password goes with. -/
def acceptIdentifiedOrg (user : UserId) : Option OrganizationId → Cmd Unit
  | none => pure ()
  | some id => do
    match ← query (Organization.findByUuid · id) with
    | none => err "Failed to retrieve the associated organization"
    | some org =>
      match ← query (Membership.findByUserAndOrg · user org.uuid) with
      | none => err "Failed to retrieve the invitation"
      | some member => acceptOrgInvite env member none

/-- The first password of an account that came in through single sign-on. The stamp stays. -/
def postSetPassword (data : SetPasswordData) (headers : Headers) : Cmd Unit := do
  ensure headers.user.privateKey.isNone "Account already initialized, cannot set password"
  let hint := cleanPasswordHint data.masterPasswordHint
  enforcePasswordHintSetting env hint
  let user ← setKdfData headers.user data.kdf
  let user ← user.setPassword env data.masterPasswordHash (some data.key) false
    (some ["revision_date"])
  let user := { user.withKeys data.keys with passwordHint := hint }
  acceptIdentifiedOrg env user.uuid data.orgIdentifier
  (if env.mailEnabled then external "mail" else Membership.acceptUserInvitations user.uuid)
  let _ ← user.save env

/-! ## Profile and keys -/

def postProfile (name : String) (headers : Headers) : Cmd Unit := do
  ensure (name.utf8ByteSize ≤ 50) nameMessage
  let _ ← User.save env { headers.user with name := name }

def putAvatar (avatarColor : Option String) (headers : Headers) : Cmd Unit := do
  ensure (avatarColor.all fun c => c.utf8ByteSize = 7)
    "The field AvatarColor must be a HTML/Hex color code with a length of 7 characters"
  let _ ← User.save env { headers.user with avatarColor := avatarColor }

def postKeys (data : KeysData) (headers : Headers) : Cmd Unit := do
  let _ ← (headers.user.withKeys (some data)).save env

structure EquivDomainData where
  excludedGlobalEquivalentDomains : Option (List Int)
  equivalentDomains : Option (List (List String))

/-- `post_settings_domains`, which `put_settings_domains` hands on to. -/
def postSettingsDomains (data : EquivDomainData) (headers : Headers) : Cmd Unit := do
  let _ ← User.save env { headers.user with
    excludedGlobals := data.excludedGlobalEquivalentDomains.getD []
    equivalentDomains := data.equivalentDomains.getD [] }

/-! ## Password and key derivation -/

structure ChangePassData where
  masterPasswordHash : String
  newMasterPasswordHash : String
  masterPasswordHint : Option String
  key : String

/-- Changing the password starts a key rotation; these routes keep the old stamp meanwhile. -/
def passwordRoutes : List String :=
  ["post_rotatekey", "get_contacts", "get_public_keys", "get_api_webauthn"]

def postPassword (data : ChangePassData) (headers : Headers) : Cmd Unit := do
  ensure (headers.user.checkValidPassword env data.masterPasswordHash) "Invalid password"
  let hint := cleanPasswordHint data.masterPasswordHint
  enforcePasswordHintSetting env hint
  let user ← User.setPassword env { headers.user with passwordHint := hint }
    data.newMasterPasswordHash (some data.key) true (some passwordRoutes)
  let _ ← user.save env

structure ChangeKdfData where
  authenticationData : MasterPasswordAuthentication
  unlockData : MasterPasswordUnlock
  masterPasswordHash : String

def postKdf (data : ChangeKdfData) (headers : Headers) : Cmd Unit := do
  ensure (headers.user.checkValidPassword env data.masterPasswordHash) "Invalid password"
  ensure (data.authenticationData.kdf = data.unlockData.kdf)
    "KDF settings must be equal for authentication and unlock"
  ensure (headers.user.email = data.authenticationData.salt ∧
      headers.user.email = data.unlockData.salt) "Invalid master password salt"
  let user ← setKdfData headers.user data.unlockData.kdf
  let user ← user.setPassword env data.authenticationData.hash (some data.unlockData.key) true none
  let _ ← user.save env

/-- The iterations are raised at a login that shows the password; errors of the save are only
logged. Returns the copy the login goes on with. -/
def kdfUpgrade (user : User) (password : String) : Cmd User :=
  if user.passwordIterations < env.passwordIterations then do
    let user ← User.setPassword env { user with passwordIterations := env.passwordIterations }
      password none false none
    match ← catchErr (user.save env) with
    | .ok saved => pure saved
    | .error _ => pure user
  else pure user

def verifyPassword (masterPasswordHash : String) (headers : Headers) : Cmd Unit := do
  ensure (headers.user.checkValidPassword env masterPasswordHash) "Invalid password"
  let _ ← kdfUpgrade env headers.user masterPasswordHash

/-! ## Key rotation -/

structure UpdateFolderData where
  id : Option FolderId
  name : String

structure UpdateEmergencyAccessData where
  id : Nat
  keyEncrypted : String

structure UpdateResetPasswordData where
  organizationId : OrganizationId
  resetPasswordKey : String

structure KeyData where
  emergencyAccessUnlockData : List UpdateEmergencyAccessData
  masterPasswordUnlockData : MasterPasswordUnlock
  masterKeyAuthenticationHash : String
  organizationAccountRecoveryUnlockData : List UpdateResetPasswordData
  userKeyEncryptedAccountPrivateKey : String
  accountPublicKey : String
  ciphers : List CipherData
  folders : List UpdateFolderData
  sends : List SendData
  oldMasterKeyAuthenticationHash : String

/-- The rows of the account that are encrypted with its key. -/
structure RotatedRows where
  ciphers : List Cipher
  folders : List Folder
  emergencyAccess : List EmergencyAccess
  memberships : List Membership
  sends : List Send

def RotatedRows.load (db : Db) (user : UserId) : RotatedRows where
  ciphers := Cipher.findOwnedByUser db user
  folders := Folder.findByUser db user
  emergencyAccess := EmergencyAccess.findAllConfirmedByGrantorUuid db user
  memberships := (Membership.findByUser db user).filter fun m => m.resetPasswordKey.isSome
  sends := Send.findByUser db user

/-- The settings of the account may not change, and every row has to be in the request. -/
def validateKeydata (data : KeyData) (rows : RotatedRows) (user : User) : Cmd Unit := do
  let unlock := data.masterPasswordUnlockData
  ensure (user.clientKdfType = unlock.kdf.kdf ∧ user.clientKdfIter = unlock.kdf.kdfIterations ∧
      user.clientKdfMemory = unlock.kdf.kdfMemory ∧
      user.clientKdfParallelism = unlock.kdf.kdfParallelism ∧ user.email = unlock.salt)
    "Changing the kdf variant or email is not supported during key rotation"
  ensure (user.publicKey = some data.accountPublicKey)
    "Changing the asymmetric keypair is not possible during key rotation"
  ensure (rows.ciphers.all fun c =>
      data.ciphers.any fun d => d.organizationId.isNone && d.id = some c.uuid)
    "All existing ciphers must be included in the rotation"
  ensure (rows.folders.all fun f => data.folders.any fun d => d.id = some f.uuid)
    "All existing folders must be included in the rotation"
  ensure (rows.emergencyAccess.all fun ea =>
      data.emergencyAccessUnlockData.any fun d => d.id = ea.uuid)
    "All existing emergency access keys must be included in the rotation"
  ensure (rows.memberships.all fun m =>
      data.organizationAccountRecoveryUnlockData.any fun d => d.organizationId = m.orgUuid)
    "All existing reset password keys must be included in the rotation"
  ensure (rows.sends.all fun s => data.sends.any fun d => d.id = some s.uuid)
    "All existing sends must be included in the rotation"

def rotateFolder (folders : List Folder) (d : UpdateFolderData) : Cmd Unit :=
  match d.id with
  | none => pure ()
  | some id =>
    match folders.find? fun f => f.uuid = id with
    | none => err "Folder doesn't exist"
    | some f => Folder.save env { f with name := d.name }

def rotateEmergencyAccess (contacts : List EmergencyAccess)
    (d : UpdateEmergencyAccessData) : Cmd Unit :=
  match contacts.find? fun ea => ea.uuid = d.id with
  | none => err "Emergency access doesn't exist or is not owned by the user"
  | some ea => EmergencyAccess.save env { ea with keyEncrypted := some d.keyEncrypted }

def rotateMembership (members : List Membership) (d : UpdateResetPasswordData) : Cmd Unit :=
  match members.find? fun m => m.orgUuid = d.organizationId with
  | none => err "Reset password doesn't exist"
  | some m => Membership.save env { m with resetPasswordKey := some d.resetPasswordKey }

/-- The copies that were updated stay updated for the rest of the loop. -/
def rotateSend (headers : Headers) (sends : List Send) (d : SendData) : Cmd (List Send) :=
  match sends, d.id with
  | [], _ => err "Send doesn't exist"
  | _, none => .fail (.panic "called `Option::unwrap()` on a `None` value")
  | sends, some id =>
    match sends.find? fun s => s.uuid = id with
    | none => err "Send doesn't exist"
    | some s => do
      let s ← updateSendFromData env s d headers false
      pure (sends.map fun x => if x.uuid = id then s else x)

/-- The same for the vault items. -/
def rotateCipher (me : UserId) (ciphers : List Cipher) (d : CipherData) : Cmd (List Cipher) :=
  if d.organizationId.isSome then pure ciphers
  else
    match ciphers, d.id with
    | [], _ => err "Cipher doesn't exist"
    | _, none => .fail (.panic "called `Option::unwrap()` on a `None` value")
    | ciphers, some id =>
      match ciphers.find? fun c => c.uuid = id with
      | none => err "Cipher doesn't exist"
      | some c => do
        let c ← updateCipherFromData env c d me none .none
        pure (ciphers.map fun x => if x.uuid = id then c else x)

def postRotatekey (data : KeyData) (headers : Headers) : Cmd Unit := do
  ensure (headers.user.checkValidPassword env data.oldMasterKeyAuthenticationHash)
    "Invalid password"
  validateCipherData env.toConfig data.ciphers
  let rows ← query (RotatedRows.load · headers.user.uuid)
  validateKeydata data rows headers.user
  each data.folders (rotateFolder env rows.folders)
  each data.emergencyAccessUnlockData (rotateEmergencyAccess env rows.emergencyAccess)
  each data.organizationAccountRecoveryUnlockData (rotateMembership env rows.memberships)
  let _ ← Prog.foldl data.sends rows.sends (rotateSend env headers)
  let _ ← Prog.foldl data.ciphers rows.ciphers (rotateCipher env headers.user.uuid)
  let user ← User.setPassword env
    { headers.user with privateKey := some data.userKeyEncryptedAccountPrivateKey }
    data.masterKeyAuthenticationHash (some data.masterPasswordUnlockData.key) true none
  let _ ← user.save env

end VaultServer
