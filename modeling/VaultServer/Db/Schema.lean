import VaultServer.Lib.Table
import VaultServer.Lib.Json
import VaultServer.Lib.Prog

/-!
# The database schema

One row type per table, with the columns the modelled functions read or write, and the database
as a record of keyed tables. Identifiers are numbers behind a wrapper per table; the server draws
them from one counter, which stands for the random source (two draws never agree). Times are
seconds. The integer columns the source only fills from an enumeration are that enumeration;
`users_organizations.status` stays an integer because revoking is arithmetic on it.
-/

namespace VaultServer

open Lib

/-! ## Identifiers -/

structure UserId where
  val : Nat
  deriving DecidableEq

structure OrganizationId where
  val : Nat
  deriving DecidableEq

structure MembershipId where
  val : Nat
  deriving DecidableEq

structure CollectionId where
  val : Nat
  deriving DecidableEq

structure GroupId where
  val : Nat
  deriving DecidableEq

structure CipherId where
  val : Nat
  deriving DecidableEq

structure FolderId where
  val : Nat
  deriving DecidableEq

structure SendId where
  val : Nat
  deriving DecidableEq

structure DeviceId where
  val : Nat
  deriving DecidableEq

/-- A value of `get_uuid` or of the random secret generators that no table is keyed by. -/
abbrev Secret := Nat

abbrev Time := Int

/-! ## Accounts -/

/-- The stored exception that lets the previous stamp pass on some routes for a while. -/
structure UserStampException where
  routes : List String
  securityStamp : Secret
  expire : Time
  deriving DecidableEq

structure User where
  uuid : UserId
  enabled : Bool
  createdAt : Time
  updatedAt : Time
  verifiedAt : Option Time
  lastVerifyingAt : Option Time
  loginVerifyCount : Nat
  email : String
  emailNew : Option String
  emailNewToken : Option String
  name : String
  passwordHash : String
  salt : Secret
  passwordIterations : Nat
  passwordHint : Option String
  akey : String
  privateKey : Option String
  publicKey : Option String
  totpRecover : Option String
  securityStamp : Secret
  stampException : Option UserStampException
  clientKdfType : Int
  clientKdfIter : Int
  clientKdfMemory : Option Int
  clientKdfParallelism : Option Int
  apiKey : Option Secret
  avatarColor : Option String
  equivalentDomains : List (List String) := []
  excludedGlobals : List Int := []
  deriving DecidableEq

structure Device where
  uuid : DeviceId
  userUuid : UserId
  createdAt : Time
  updatedAt : Time
  name : String
  atype : Int
  pushUuid : Option Secret
  pushToken : Option String
  refreshToken : Secret
  /-- The signed note that lets the device skip the second factor. -/
  twofactorRemember : Option String
  deriving DecidableEq

structure Invitation where
  email : String
  deriving DecidableEq

inductive TwoFactorType where
  | authenticator
  | email
  | duo
  | yubiKey
  | u2f
  | remember
  | organizationDuo
  | webauthn
  | recoveryCode
  -- implementation details
  | u2fRegisterChallenge
  | u2fLoginChallenge
  | emailVerificationChallenge
  | webauthnRegisterChallenge
  | webauthnLoginChallenge
  | protectedActions
  deriving DecidableEq

/-- What an e-mail provider keeps: the address, the code it waits for and when that was sent. -/
structure TwoFactor.EmailTokenData where
  email : String
  lastToken : Option String
  tokenSent : Time
  attempts : Nat
  deriving DecidableEq

/-- A code that confirms an action in the place of the password. -/
structure ProtectedActionData where
  token : String
  tokenSent : Time
  attempts : Nat
  deriving DecidableEq

structure WebauthnRegistration where
  id : Int
  name : String
  credId : String
  deriving DecidableEq

structure U2FRegistration where
  id : Int
  keyHandle : String
  deriving DecidableEq

structure DuoData where
  host : String
  ik : String
  sk : String
  deriving DecidableEq

/-- The `data` column by what it parses as; `text` is everything else, such as a secret or the
state of a challenge. -/
inductive TwoFactorData where
  | text (text : String)
  | email (data : TwoFactor.EmailTokenData)
  | webauthn (registrations : List WebauthnRegistration)
  | u2f (registrations : List U2FRegistration)
  | yubikey (keys : List String) (nfc : Bool)
  | duo (data : DuoData)
  | protectedAction (data : ProtectedActionData)
  deriving DecidableEq

structure TwoFactor where
  uuid : Nat
  userUuid : UserId
  atype : TwoFactorType
  enabled : Bool
  data : TwoFactorData
  /-- The last time step an authenticator code was accepted for. -/
  lastUsed : Int
  deriving DecidableEq

/-- A login that has not shown its second factor yet; the device is what the client says. -/
structure TwoFactorIncomplete where
  userUuid : UserId
  deviceUuid : DeviceId
  deviceName : String
  deviceType : Int
  loginTime : Time
  ipAddress : String
  deriving DecidableEq

structure SsoUser where
  userUuid : UserId
  identifier : String
  deriving DecidableEq

structure OIDCCodeResponseError where
  error : String
  errorDescription : Option String
  deriving DecidableEq

/-- What the provider says about who logged in. -/
structure OIDCAuthenticatedUser where
  refreshToken : Option String
  accessToken : String
  expiresIn : Option Time
  identifier : String
  email : String
  emailVerified : Option Bool
  userName : Option String
  deriving DecidableEq

/-- A single sign-on that is under way, from the redirect to the provider until its code is
redeemed. -/
structure SsoAuth where
  state : String
  clientChallenge : String
  nonce : Secret
  redirectUri : String
  codeResponse : Option String
  codeResponseError : Option OIDCCodeResponseError
  authResponse : Option OIDCAuthenticatedUser
  createdAt : Time
  updatedAt : Time
  bindingHash : Option String
  deriving DecidableEq

/-- `Takeover` lets the contact set a new password, `View` only read the vault. -/
inductive EmergencyAccessType where
  | view
  | takeover
  deriving DecidableEq

inductive EmergencyAccessStatus where
  | invited
  | accepted
  | confirmed
  | recoveryInitiated
  | recoveryApproved
  deriving DecidableEq

structure EmergencyAccess where
  uuid : Nat
  grantorUuid : UserId
  granteeUuid : Option UserId
  email : Option String
  keyEncrypted : Option String
  atype : EmergencyAccessType
  status : EmergencyAccessStatus
  waitTimeDays : Int
  recoveryInitiatedAt : Option Time
  lastNotificationAt : Option Time
  deriving DecidableEq

/-- A login that another device is asked to approve. -/
structure AuthRequest where
  uuid : Nat
  userUuid : UserId
  requestDeviceIdentifier : DeviceId
  deviceType : Int
  requestIp : String
  accessCode : String
  approved : Option Bool
  creationDate : Time
  deriving DecidableEq

/-- Something that was put up for others to fetch. `organization_uuid` is never set; `data` is what
the column parses as. -/
structure Send where
  uuid : SendId
  userUuid : Option UserId
  name : String
  notes : Option String
  atype : Int
  data : Value
  akey : String
  passwordHash : Option String
  passwordSalt : Option Secret
  passwordIter : Option Nat
  maxAccessCount : Option Int
  accessCount : Int
  creationDate : Time
  revisionDate : Time
  expirationDate : Option Time
  deletionDate : Time
  disabled : Bool
  hideEmail : Option Bool

/-! ## Organizations -/

structure Organization where
  uuid : OrganizationId
  name : String
  billingEmail : String
  privateKey : Option String
  publicKey : Option String
  deriving DecidableEq

inductive MembershipType where
  | owner
  | admin
  | user
  | manager
  deriving DecidableEq

/-- The named values of `users_organizations.status`; a revoked row holds one of them minus 128. -/
inductive MembershipStatus where
  | revoked
  | invited
  | accepted
  | confirmed
  deriving DecidableEq

structure Membership where
  uuid : MembershipId
  userUuid : UserId
  orgUuid : OrganizationId
  invitedByEmail : Option String
  accessAll : Bool
  akey : String
  status : Int
  atype : MembershipType
  resetPasswordKey : Option String
  externalId : Option String
  deriving DecidableEq

inductive OrgPolicyType where
  | twoFactorAuthentication
  | masterPassword
  | passwordGenerator
  | singleOrg
  | personalOwnership
  | disableSend
  | sendOptions
  | resetPassword
  | removeUnlockWithPin
  | restrictedItemTypes
  | uriMatchDefaults
  deriving DecidableEq

structure OrgPolicy where
  uuid : Nat
  orgUuid : OrganizationId
  atype : OrgPolicyType
  enabled : Bool
  data : String
  deriving DecidableEq

structure OrganizationApiKey where
  uuid : Nat
  orgUuid : OrganizationId
  apiKey : Secret
  deriving DecidableEq

structure Collection where
  uuid : CollectionId
  orgUuid : OrganizationId
  name : String
  externalId : Option String
  deriving DecidableEq

structure CollectionUser where
  userUuid : UserId
  collectionUuid : CollectionId
  readOnly : Bool
  hidePasswords : Bool
  manage : Bool
  deriving DecidableEq

structure CollectionCipher where
  cipherUuid : CipherId
  collectionUuid : CollectionId
  deriving DecidableEq

structure Group where
  uuid : GroupId
  organizationsUuid : OrganizationId
  name : String
  accessAll : Bool
  externalId : Option String
  deriving DecidableEq

structure CollectionGroup where
  collectionsUuid : CollectionId
  groupsUuid : GroupId
  readOnly : Bool
  hidePasswords : Bool
  manage : Bool
  deriving DecidableEq

structure GroupUser where
  groupsUuid : GroupId
  usersOrganizationsUuid : MembershipId
  deriving DecidableEq

/-! ## Vault items -/

structure Cipher where
  uuid : CipherId
  updatedAt : Time
  userUuid : Option UserId
  organizationUuid : Option OrganizationId
  key : Option String
  atype : Int
  name : String
  notes : Option String
  fields : Option String
  data : String
  passwordHistory : Option String
  deletedAt : Option Time
  reprompt : Option Int
  deriving DecidableEq

structure Folder where
  uuid : FolderId
  userUuid : UserId
  name : String
  deriving DecidableEq

structure FolderCipher where
  cipherUuid : CipherId
  folderUuid : FolderId
  deriving DecidableEq

structure Favorite where
  userUuid : UserId
  cipherUuid : CipherId
  deriving DecidableEq

structure Archive where
  userUuid : UserId
  cipherUuid : CipherId
  archivedAt : Time
  deriving DecidableEq

structure Attachment where
  id : Nat
  cipherUuid : CipherId
  fileName : String
  fileSize : Int
  akey : Option String
  deriving DecidableEq

/-! ## Keys of the tables keyed by more than one column -/

def Device.key (d : Device) : DeviceId × UserId := (d.uuid, d.userUuid)
def TwoFactor.userType (t : TwoFactor) : UserId × TwoFactorType := (t.userUuid, t.atype)
def TwoFactorIncomplete.key (t : TwoFactorIncomplete) : UserId × DeviceId :=
  (t.userUuid, t.deviceUuid)
def Membership.userOrg (m : Membership) : UserId × OrganizationId := (m.userUuid, m.orgUuid)
def OrgPolicy.orgType (p : OrgPolicy) : OrganizationId × OrgPolicyType := (p.orgUuid, p.atype)
def OrganizationApiKey.key (k : OrganizationApiKey) : Nat × OrganizationId := (k.uuid, k.orgUuid)
def CollectionUser.key (r : CollectionUser) : UserId × CollectionId :=
  (r.userUuid, r.collectionUuid)
def CollectionCipher.key (r : CollectionCipher) : CipherId × CollectionId :=
  (r.cipherUuid, r.collectionUuid)
def CollectionGroup.key (r : CollectionGroup) : CollectionId × GroupId :=
  (r.collectionsUuid, r.groupsUuid)
def GroupUser.key (r : GroupUser) : GroupId × MembershipId :=
  (r.groupsUuid, r.usersOrganizationsUuid)
def FolderCipher.key (r : FolderCipher) : CipherId × FolderId := (r.cipherUuid, r.folderUuid)
def Favorite.key (r : Favorite) : UserId × CipherId := (r.userUuid, r.cipherUuid)
def Archive.key (r : Archive) : UserId × CipherId := (r.userUuid, r.cipherUuid)

/-! ## The database -/

structure Db where
  users : Table User.uuid User.email
  devices : Table Device.key Device.key
  invitations : Table Invitation.email Invitation.email
  twofactor : Table TwoFactor.uuid TwoFactor.userType
  twofactorIncomplete : Table TwoFactorIncomplete.key TwoFactorIncomplete.key
  ssoUsers : Table SsoUser.userUuid SsoUser.identifier
  ssoAuth : Table SsoAuth.state SsoAuth.state
  emergencyAccess : Table EmergencyAccess.uuid EmergencyAccess.uuid
  authRequests : Table AuthRequest.uuid AuthRequest.uuid
  sends : Table Send.uuid Send.uuid
  organizations : Table Organization.uuid Organization.uuid
  usersOrganizations : Table Membership.uuid Membership.userOrg
  orgPolicies : Table OrgPolicy.uuid OrgPolicy.orgType
  organizationApiKey : Table OrganizationApiKey.key OrganizationApiKey.key
  collections : Table Collection.uuid Collection.uuid
  usersCollections : Table CollectionUser.key CollectionUser.key
  ciphersCollections : Table CollectionCipher.key CollectionCipher.key
  groups : Table Group.uuid Group.uuid
  collectionsGroups : Table CollectionGroup.key CollectionGroup.key
  groupsUsers : Table GroupUser.key GroupUser.key
  ciphers : Table Cipher.uuid Cipher.uuid
  folders : Table Folder.uuid Folder.uuid
  foldersCiphers : Table FolderCipher.key FolderCipher.key
  favorites : Table Favorite.key Favorite.key
  archives : Table Archive.key Archive.key
  attachments : Table Attachment.id Attachment.id

def Db.empty : Db :=
  ⟨.empty, .empty, .empty, .empty, .empty, .empty, .empty, .empty, .empty, .empty, .empty, .empty,
    .empty, .empty, .empty, .empty, .empty, .empty, .empty, .empty, .empty, .empty, .empty, .empty,
    .empty, .empty⟩

end VaultServer
