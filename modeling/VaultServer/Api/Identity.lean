import VaultServer.Api.TwoFactor
import VaultServer.Api.SignOn

/-!
# Logging in

`api/identity.rs`: the token endpoint with its grant types. A login looks the account up, checks
what the client shows, finds or creates the device row, asks for the second factor and answers with
an access token and, except for the API keys, a refresh token.
-/

namespace VaultServer

open Lib Prog

/-! ## Requests and answers -/

/-- A client id: `user.<id>`, `organization.<id>`, or the name of a client. -/
inductive ClientId where
  | user (id : UserId)
  | organization (id : OrganizationId)
  | client (name : String)

structure ConnectData where
  refreshToken : Option (Signed RefreshJwtClaims) := none
  clientId : Option ClientId := none
  clientSecret : Option Secret := none
  password : Option String := none
  scope : Option String := none
  username : Option String := none
  deviceIdentifier : Option DeviceId := none
  deviceName : Option String := none
  deviceType : Option String := none
  twoFactorProvider : Option Int := none
  twoFactorToken : Option String := none
  twoFactorRemember : Option Nat := none
  /-- The version of the client says that it asks for the e-mail code itself. -/
  disabledSend : Bool := false
  authRequest : Option Nat := none
  code : Option String := none
  codeVerifier : Option String := none

/-- The claims of an organization's API token. -/
structure OrgApiKeyLoginJwtClaims where
  sub : Nat
  clientId : ClientId
  clientSub : OrganizationId

inductive TokenResponse where
  | session (accessClaims : LoginJwtClaims) (refreshClaims : Option (Signed RefreshJwtClaims))
      (twoFactorToken : Option String)
  | organization (claims : Signed OrgApiKeyLoginJwtClaims)

/-! ## Refreshing -/

variable (env : Env) (d : Device) (user : User)

/-- The device is saved a second time, as the copy that `refreshTokens` returned. -/
def refreshLogin (p : ProviderTokens) (data : ConnectData) : Cmd TokenResponse := do
  match data.refreshToken with
  | none => err "Missing refresh_token"
  | some token =>
    match ← catchErr (refreshTokens env p token) with
    | .error (.err message) => err ("Unable to refresh login credentials: " ++ message)
    | .error e => .fail e
    | .ok (d, tokens) =>
      let _ ← d.save env true
      pure (.session tokens.accessClaims (some tokens.refreshClaims) none)

/-! ## The device -/

def newDevice (uuid : DeviceId) (user : UserId) (name : String) (atype : Int) : Cmd Device := do
  let pushId ← getUuid
  let token ← getUuid
  pure (Device.new env uuid user name atype pushId token)

variable (data : ConnectData) (ip : String)

/-- Type 14 is an unknown browser. -/
def getDevice (user : User) : Cmd Device := do
  let atype := ((data.deviceType.bind parseInt?).filter (fitsSigned 32)).getD 14
  let uuid ← unwrap data.deviceIdentifier
  let name ← unwrap data.deviceName
  match ← loadDevice (Device.findByUuidAndUser · uuid user.uuid) with
  | some d => pure d
  | none =>
    let d ← newDevice env uuid user.uuid name atype
    d.save env false

/-- The mail about a new device, which may be mandatory. -/
def sendNewDeviceLoggedIn : Cmd Unit :=
  if env.mailEnabled ∧ d.isNew then do
    match ← (external "mail").attempt with
    | .ok () => pure ()
    | .error _ =>
      ensure (!env.requireDeviceEmail)
        "Could not send login notification email. Please contact your administrator."
  else pure ()

/-! ## The second factor -/

/-- What the answer says about one provider when the second factor is still missing; a challenge is
stored for it, and a code is sent when e-mail is the only choice. -/
def describeProvider (ids : List TwoFactorType) (user : User) (disabledSend : Bool) :
    TwoFactorType → Cmd Unit
  | .webauthn => when env.isWebauthn2faSupported (generateWebauthnLogin user.uuid)
  | .duo => external "Can't fetch Duo Keys"
  | .yubiKey => do
    match ← query (TwoFactor.findByUserAndType · user.uuid TwoFactorType.yubiKey.toI32) with
    | none => err "No YubiKey devices registered"
    | some tf =>
      match tf.data with
      | .yubikey _ _ => pure ()
      | _ => err "Failed to parse JSON"
  | .email => do
    match ← query (TwoFactor.findByUserAndType · user.uuid TwoFactorType.email.toI32) with
    | none => err "No twofactor email registered"
    | some tf =>
      when (ids.length = 1 ∧ !disabledSend) (sendToken env user.uuid)
      let _ ← lift (TwoFactor.EmailTokenData.fromJson tf.data)
  | _ => pure ()

/-- `json_err_twofactor`, then the error that goes with it. -/
def refuseTwofactor {α : Type} (env : Env) (ids : List TwoFactorType) (user : User)
    (data : ConnectData) (message : String) : Cmd α := do
  each ids (describeProvider env ids user data.disabledSend)
  err message

def selectedData (tf : Option TwoFactor) : Except Failure TwoFactorData :=
  match tf with
  | some tf => .ok tf.data
  | none => .error (.err "Two factor doesn't exist")

/-- The check of a provider's own answer. Some ignore the selected row. -/
def validateProvider (token ip : String) (row : Option TwoFactor) : TwoFactorType → Cmd Unit
  | .authenticator => do
    let data ← lift (selectedData row)
    validateTotpCodeStr env user.uuid token data ip
  | .webauthn => validateWebauthnLogin env user.uuid token
  | .yubiKey => do
    let data ← lift (selectedData row)
    validateYubikeyLogin env.toConfig token data
  | .duo => validateDuoLogin
  | .email => do
    let data ← lift (selectedData row)
    validateEmailCodeStr env user.uuid token data ip
  | _ => err "Invalid two factor provider"

def rememberAccepted (d : Device) (token : String) : Bool :=
  d.twofactorRemember.any fun stored =>
    !env.disable2faRemember && stored = token && (env.decode2faRemember token).any fun claims =>
      claims.sub = d.uuid && claims.userUuid = user.uuid

/-- A stored note that does not help is removed, and the login ends. -/
def checkRemember (ids : List TwoFactorType) (user : User) (data : ConnectData)
    (d : Device) (token : String) : Cmd Unit :=
  if rememberAccepted env user d token then pure ()
  else do
    when d.twofactorRemember.isSome do
      let _ ← Device.save env true { d with twofactorRemember := none }
    refuseTwofactor env ids user data "2FA Remember token not provided or expired"

def User.checkValidRecoveryCode (u : User) (code : String) : Bool :=
  u.totpRecover.any fun stored => code = toLowercase stored

/-- Using the recovery code removes every second factor, and the code. -/
def useRecoveryCode (token : String) : Cmd User := do
  ensure (user.checkValidRecoveryCode token) "Recovery code is incorrect. Try again."
  TwoFactor.deleteAllByUser user.uuid
  enforce2faPolicy env user.uuid
  User.save env { user with totpRecover := none }

/-- Checks the answer for the selected type; the remembered device and the recovery code are no
providers of their own. -/
def checkSecondFactor (d : Device) (ip : String)
    (ids : List TwoFactorType) (selected : Int) (row : Option TwoFactor) (token : String) :
    Cmd User :=
  match TwoFactorType.fromI32 selected with
  | some .remember => do
    checkRemember env ids user data d token
    pure user
  | some .recoveryCode => useRecoveryCode env user token
  | some atype => do
    validateProvider env user token ip row atype
    pure user
  | none => err "Invalid two factor provider"

/-- The providers a login may choose from. -/
def usableProviders (cfg : Config) (factors : List TwoFactor) : List TwoFactorType :=
  (factors.filter fun f => f.enabled && isTwofactorProviderUsable cfg f.atype f.data).map
    fun f => f.atype

/-- `Device::refresh_twofactor_remember`. -/
def refreshTwofactorRemember : Device × String :=
  let note := env.encode2faRemember ⟨env.now, env.now + days 30, d.uuid, d.userUuid⟩
  ({ d with twofactorRemember := some note }, note)

/-- Returns the copies of the account and of the device the login goes on with, and the note for
the client to remember. -/
def twofactorAuth (d : Device) (ip : String) : Cmd (User × Device × Option String) := do
  let factors ← query (TwoFactor.findByUser · user.uuid)
  if factors.isEmpty then do
    enforce2faPolicy env user.uuid
    pure (user, d, none)
  else do
    TwoFactorIncomplete.markIncomplete env ⟨user.uuid, d.uuid, d.name, d.atype, env.now, ip⟩
    let ids := usableProviders env.toConfig factors
    match ids with
    | [] => err "No enabled and usable two factor providers are available for this account"
    | first :: _ =>
      let selected := data.twoFactorProvider.getD first.toI32
      if selected ≠ TwoFactorType.remember.toI32 ∧ selected ≠ TwoFactorType.recoveryCode.toI32 ∧
          !(ids.map TwoFactorType.toI32).contains selected then
        refuseTwofactor env ids user data "Invalid two factor provider"
      else
        match data.twoFactorToken with
        | none => refuseTwofactor env ids user data "2FA token not provided"
        | some token => do
          let row := factors.find? fun f => f.atype.toI32 = selected && f.enabled
          let user ← checkSecondFactor env user data d ip ids selected row token
          TwoFactorIncomplete.markComplete env user.uuid d.uuid
          if !env.disable2faRemember ∧ data.twoFactorRemember = some 1 then
            let (d, note) := refreshTwofactorRemember env d
            pure (user, d, some note)
          else pure (user, d, none)

def authenticatedResponse (tokens : AuthTokens) (note : Option String) : Cmd TokenResponse := do
  sendNewDeviceLoggedIn env d
  let d ← (if d.isNew then pure d else registerPushDevice env d)
  let _ ← d.save env true
  pure (.session tokens.accessClaims (some tokens.refreshClaims) note)

/-! ## The password grant -/

def wrongCodeMessage : String := "Username or access code is incorrect. Try again"

/-- A login that another device approved shows the access code instead of the password. -/
def checkAuthRequest (ip password : String) (id : Nat) : Cmd Unit := do
  match ← query (AuthRequest.findByUuidAndUser · id user.uuid) with
  | none => err "Auth request not found. Try again."
  | some request =>
    ensure (request.userUuid = user.uuid ∧ request.approved.getD false = true ∧
        env.now < request.creationDate + 300 ∧ ip = request.requestIp ∧
        password = request.accessCode) wrongCodeMessage

/-- An approved request or the password; a shown password may raise the iterations. -/
def checkLogin (ip password : String) : Option Nat → Cmd User
  | some id => do
    checkAuthRequest env user ip password id
    pure user
  | none => do
    ensure (user.checkValidPassword env password) "Username or password is incorrect. Try again"
    kdfUpgrade env user password

/-- The login fails until the address is verified; a reminder goes out now and then. -/
def remindToVerify : Cmd Unit := do
  let due := user.lastVerifyingAt.all fun t => env.now - t > env.signupsVerifyResendTime
  let limit := env.signupsVerifyResendLimit
  when (due ∧ (limit = 0 ∨ user.loginVerifyCount < limit)) do
    let _ ← (User.save env { user with
      lastVerifyingAt := some env.now
      loginVerifyCount := user.loginVerifyCount + 1 }).attempt
    let _ ← (external "mail").attempt
  err "Please verify your email before trying again."

def passwordLogin : Cmd TokenResponse := do
  AuthMethod.password.checkScope data.scope
  external "Too many login requests"
  let username ← unwrap data.username
  match ← loadUser (User.findByMail · (trimText username)) with
  | none => err "Username or password is incorrect. Try again"
  | some user =>
    ensure user.enabled "This user has been disabled"
    let password ← unwrap data.password
    let user ← checkLogin env user ip password data.authRequest
    when (user.verifiedAt.isNone ∧ env.mailEnabled ∧ env.signupsVerify) (remindToVerify env user)
    let d ← getDevice env data user
    let (user, d, note) ← twofactorAuth env user data d ip
    authenticatedResponse env d (.new env d user .password) note

/-! ## API keys -/

def userApiKeyLogin : Cmd TokenResponse := do
  match data.clientId with
  | some (.user id) =>
    match ← query (User.findByUuid · id) with
    | none => err "Invalid client_id"
    | some user =>
      ensure user.enabled "This user has been disabled (API key login)"
      ensure (user.apiKey.isSome ∧ user.apiKey = data.clientSecret) "Incorrect client_secret"
      let d ← getDevice env data user
      sendNewDeviceLoggedIn env d
      let _ ← d.save env true
      pure (.session (.default env d user) none none)
  | _ => err "Malformed client_id"

namespace OrganizationApiKey

def findByOrgUuid (db : Db) (org : OrganizationId) : Option OrganizationApiKey :=
  db.organizationApiKey.find? fun k => k.orgUuid = org

def saveStmt (k : OrganizationApiKey) (db : Db) : Option Db :=
  Db.guarded (db.hasOrganization k.orgUuid)
    { db with organizationApiKey := db.organizationApiKey.upsert k }

def save (k : OrganizationApiKey) : Cmd Unit := exec k.saveStmt "Error saving organization" .write

end OrganizationApiKey

/-- `api_key` of `api/core/organizations.rs`; a failed save is a panic. -/
def apiKey (env : Env) (org : OrganizationId) (data : PasswordOrOtpData) (rotate : Bool)
    (headers : OrgHeaders) : Cmd Unit := do
  ensure (org = headers.membership.orgUuid) orgIdMessage
  data.validate env headers.user true
  match ← query (OrganizationApiKey.findByOrgUuid · org) with
  | some key =>
    when rotate do
      let secret ← getUuid
      match ← (OrganizationApiKey.save { key with apiKey := secret }).attempt with
      | .ok () => pure ()
      | .error _ => .fail (.panic "Error rotating organization API Key")
  | none =>
    let secret ← getUuid
    let uuid ← getUuid
    match ← (OrganizationApiKey.save ⟨uuid, org, secret⟩).attempt with
    | .ok () => pure ()
    | .error _ => .fail (.panic "Error creating organization API Key")

/-- The guard of the directory import: the token of an organization's current API key. -/
def PublicToken.fromRequest (token : Signed OrgApiKeyLoginJwtClaims) : Cmd OrganizationId := do
  match ← catchErr (decodeJwt env token) with
  | .error _ => err "Invalid claim"
  | .ok claims =>
    ensure (token.nbf ≤ env.now) "Token issued in the future"
    ensure (env.now ≤ token.exp) "Token expired"
    match claims.clientId with
    | .organization org =>
      match ← query (OrganizationApiKey.findByOrgUuid · org) with
      | none => err "Invalid client_id"
      | some key =>
        ensure (key.orgUuid = claims.clientSub) "Token not issued for this org"
        ensure (key.uuid = claims.sub) "Token not issued for this client"
        pure claims.clientSub
    | _ => err "Malformed client_id"

def organizationApiKeyLogin : Cmd TokenResponse := do
  match data.clientId with
  | some (.organization org) =>
    match ← query (OrganizationApiKey.findByOrgUuid · org) with
    | none => err "Invalid client_id"
    | some key =>
      ensure (data.clientSecret = some key.apiKey) "Incorrect client_secret"
      pure (.organization
        ⟨true, env.now, env.now + 3600, key.uuid, .organization key.orgUuid, key.orgUuid⟩)
  | _ => err "Malformed client_id"

def apiKeyLogin : Cmd TokenResponse := do
  external "Too many login requests"
  if data.scope = some AuthMethod.userApiKey.scope then userApiKeyLogin env data
  else if data.scope = some AuthMethod.orgApiKey.scope then organizationApiKeyLogin env data
  else err "Scope not supported"

/-! ## Single sign-on -/

/-- The account of a provider's identity, linked or to be linked by its address. -/
def ssoAccount (info : OIDCAuthenticatedUser) : Cmd (Option (User × Option SsoUser)) := do
  match ← loadUser (SsoUser.findByIdentifier · info.identifier) with
  | some (user, link) => pure (some (user, some link))
  | none =>
    match ← loadUser (SsoUser.findByMail · info.email) with
    | none => pure none
    | some (_, some _) => err "Existing SSO user with same email"
    | some (user, none) =>
      ensure (user.privateKey.isNone ∨ env.ssoSignupsMatchEmail)
        "Existing non SSO user with same email"
      ensure (info.emailVerified.isSome ∨ env.ssoAllowUnknownEmailVerification)
        "Email verification status is unknown"
      ensure (info.emailVerified ≠ some false) "Email is not verified by the SSO provider"
      pure (some (user, none))

/-- The first login of an identity creates its account. -/
def ssoSignup (info : OIDCAuthenticatedUser) : Cmd User := do
  ensure (env.isEmailDomainAllowed info.email) "Email domain not allowed"
  ensure (info.emailVerified.isSome ∨ env.ssoAllowUnknownEmailVerification)
    ("Your provider does not send email verification status.\nYou will need to change the server "
      ++ "configuration (check `SSO_ALLOW_UNKNOWN_EMAIL_VERIFICATION`) to log in.")
  ensure (info.emailVerified ≠ some false)
    "You need to verify your email with your provider before you can log in"
  let user ← User.fresh env info.email info.userName
  User.save env { user with verifiedAt := some env.now }

def OIDCAuthenticatedUser.tokens (info : OIDCAuthenticatedUser) : ProviderTokens :=
  ⟨info.refreshToken, info.accessToken, info.expiresIn, env.decodeTokenClaims⟩

/-- The sign-on is over and its link stored before the tokens are made. -/
def redeem (link : Option SsoUser) (ssoAuth : SsoAuth)
    (info : OIDCAuthenticatedUser) : Cmd AuthTokens := do
  ssoAuth.delete (.redeemSsoAuth ssoAuth.state)
  when link.isNone (SsoUser.save ⟨user.uuid, info.identifier⟩)
  createAuthTokens env d user (info.tokens env)

/-- The stub of an invited account gets its name and counts as verified. -/
def ssoFillStub (info : OIDCAuthenticatedUser) : Cmd User :=
  if user.privateKey.isNone then
    User.save env { user with
      verifiedAt := some env.now
      name := info.userName.getD user.name }
  else pure user

/-- The login of an identity that the provider has vouched for. -/
def ssoLoginAs (ssoAuth : SsoAuth) (info : OIDCAuthenticatedUser) : Cmd TokenResponse := do
  match ← ssoAccount env info with
  | none =>
    let user ← ssoSignup env info
    let d ← getDevice env data user
    let tokens ← redeem env d user none ssoAuth info
    authenticatedResponse env d tokens none
  | some (user, link) =>
    ensure user.enabled "This user has been disabled"
    let d ← getDevice env data user
    let (user, d, note) ← twofactorAuth env user data d ip
    let user ← ssoFillStub env user info
    when (user.email ≠ info.email ∧ env.mailEnabled) (external "mail")
    let tokens ← redeem env d user link ssoAuth info
    authenticatedResponse env d tokens note

def ssoLogin (answer : ProviderAnswer) : Cmd TokenResponse := do
  AuthMethod.sso.checkScope data.scope
  external "Too many login requests"
  match data.code, data.codeVerifier with
  | none, _ => err "Got no code in OIDC data"
  | _, none => err "Got no code verifier in OIDC data"
  | some code, some codeVerifier =>
    let (ssoAuth, info) ← exchangeCode env answer code codeVerifier
    ssoLoginAs env data ip ssoAuth info

/-! ## The token endpoint -/

/-- The grant types, with what the outside contributes to each. -/
inductive GrantType where
  | refreshToken (answer : ProviderTokens)
  | password
  | clientCredentials
  | authorizationCode (answer : ProviderAnswer)
  | other (name : String)

def checkDevice : Cmd Unit := do
  ensure data.deviceIdentifier.isSome "device_identifier cannot be blank"
  ensure data.deviceName.isSome "device_name cannot be blank"
  ensure data.deviceType.isSome "device_type cannot be blank"

def login (grantType : GrantType) (data : ConnectData) (ip : String) : Cmd TokenResponse :=
  match grantType with
  | .refreshToken answer => do
    ensure data.refreshToken.isSome "refresh_token cannot be blank"
    refreshLogin env answer data
  | .password => do
    ensure (!(env.ssoEnabled && env.ssoOnly)) "SSO sign-in is required"
    ensure data.clientId.isSome "client_id cannot be blank"
    ensure data.password.isSome "password cannot be blank"
    ensure data.scope.isSome "scope cannot be blank"
    ensure data.username.isSome "username cannot be blank"
    checkDevice data
    passwordLogin env data ip
  | .clientCredentials => do
    ensure data.clientId.isSome "client_id cannot be blank"
    ensure data.clientSecret.isSome "client_secret cannot be blank"
    ensure data.scope.isSome "scope cannot be blank"
    checkDevice data
    apiKeyLogin env data
  | .authorizationCode answer => do
    ensure env.ssoEnabled "SSO sign-in is not available"
    ensure data.clientId.isSome "client_id cannot be blank"
    ensure data.code.isSome "code cannot be blank"
    ensure data.codeVerifier.isSome "code verifier cannot be blank"
    checkDevice data
    ssoLogin env data ip answer
  | .other _ => err "Invalid type"

end VaultServer
