import VaultServer.Auth.Guards

/-!
# Devices, stamps and refresh tokens

`db/models/device.rs`, the stamp methods of `db/models/user.rs`, and `refresh_tokens` of `auth.rs`.
A device row holds the one refresh secret that is good for it. `Device::save` writes every column
of the copy it is given, `rotate_refresh_token_if_matches` is a compare-and-set on the secret.
-/

namespace VaultServer

open Lib

/-! ## Devices -/

variable (env : Env) (d : Device) (u : User) (db : Db) (user : UserId)

namespace Device

def findByUser : List Device := db.devices.rows.filter fun d => d.userUuid = user

def findByRefreshToken (token : Secret) : Option Device :=
  db.devices.find? fun d => d.refreshToken = token

/-- `pushId` and `token` are freshly drawn. -/
def new (uuid : DeviceId) (user : UserId) (name : String) (atype : Int)
    (pushId token : Secret) : Device where
  uuid := uuid
  userUuid := user
  createdAt := env.now
  updatedAt := env.now
  name := name
  atype := atype
  pushUuid := some pushId
  pushToken := none
  refreshToken := token
  twofactorRemember := none

def isNew : Bool := d.createdAt = d.updatedAt

/-- Android and iOS. -/
def isPushDevice : Bool := d.atype = 0 ∨ d.atype = 1

def saveStmt : Option Db :=
  Db.guarded (db.hasUser d.userUuid) { db with devices := db.devices.upsert d }

/-- Returns the copy as it was stored. -/
def save (updateTime : Bool) (d : Device) : Cmd Device := do
  let d := if updateTime then { d with updatedAt := env.now } else d
  exec d.saveStmt "Error saving device" (.saveDevice d)
  pure d

/-- Sets the secret of the one row that still holds the expected one. -/
def rotateStmt (uuid : DeviceId) (user : UserId) (expected new : Secret) (db : Db) : Db :=
  { db with
    devices := db.devices.updateWhere
      (fun d => d.uuid = uuid ∧ d.userUuid = user ∧ d.refreshToken = expected)
      (fun d => { d with refreshToken := new, updatedAt := env.now })
      (fun _ => rfl) fun _ => rfl }

def holds (uuid : DeviceId) (user : UserId) (expected : Secret) (db : Db) : Bool :=
  db.devices.rows.any fun d => d.uuid = uuid ∧ d.userUuid = user ∧ d.refreshToken = expected

/-- The update and the count of the updated rows are one statement. Returns the new copy, or
`none` when no row matched. -/
def rotateRefreshTokenIfMatches (expected : Secret) : Cmd (Option Device) := do
  let new ← getUuid
  .call (.rotateIfMatches d.uuid d.userUuid expected new)
    (World.exec fun db => some (rotateStmt env d.uuid d.userUuid expected new db))
    fun w =>
      if w.refuses fun db => some (rotateStmt env d.uuid d.userUuid expected new db) then
        err "Error consuming device refresh token"
      else if holds d.uuid d.userUuid expected w.db then
        pure (some { d with refreshToken := new, updatedAt := env.now })
      else pure none

/-- The devices are read once and written back one by one with a new secret each. -/
def rotateRefreshTokensByUser : Cmd Unit := do
  let devices ← .read (.loadDevices user) fun w => findByUser w.db user
  Prog.each devices fun d => do
    let token ← getUuid
    let _ ← save env false { d with refreshToken := token }

end Device

/-! ## Passwords and stamps -/

namespace User

/-- The old stamp stays good on the routes for two minutes. -/
def setStampException (routes : List String) : User :=
  { u with stampException := some ⟨routes, u.securityStamp, env.now + 120⟩ }

def resetSecurityStamp : Cmd User := do
  let stamp ← getUuid
  Device.rotateRefreshTokensByUser env u.uuid
  pure { u with securityStamp := stamp }

/-- The hash, the exception and the key of the copy; the stamp follows in `setPassword`. -/
def withPassword (password : String) (newKey : Option String)
    (allowNextRoute : Option (List String)) : User :=
  let u := { u with passwordHash := env.hashPassword password u.salt u.passwordIterations }
  let u := match allowNextRoute with
    | some routes => u.setStampException env routes
    | none => u
  match newKey with
  | some key => { u with akey := key }
  | none => u

def setPassword (password : String) (newKey : Option String)
    (resetStamp : Bool) (allowNextRoute : Option (List String)) : Cmd User :=
  let u := u.withPassword env password newKey allowNextRoute
  if resetStamp then u.resetSecurityStamp env else pure u

end User

/-! ## Tokens -/

inductive AuthMethod where
  | orgApiKey
  | password
  | sso
  | userApiKey
  deriving DecidableEq

def AuthMethod.scope : AuthMethod → String
  | orgApiKey => "api.organization"
  | userApiKey => "api"
  | password | sso => "api offline_access"

def AuthMethod.checkScope (method : AuthMethod) (scope : Option String) : Cmd Unit :=
  match scope with
  | none => err "Missing scope"
  | some s => ensure (s = method.scope) ("Scope (" ++ s ++ ") not supported")

/-- What a single sign-on refresh token carries of the provider's own tokens. -/
inductive TokenWrapper where
  | access (token : String)
  | refresh (token : String)

structure RefreshJwtClaims where
  sub : AuthMethod
  deviceToken : Secret
  token : Option TokenWrapper

structure AuthTokens where
  refreshClaims : Signed RefreshJwtClaims
  accessClaims : LoginJwtClaims

def LoginJwtClaims.new (nbf exp : Time) : LoginJwtClaims :=
  ⟨nbf, exp, u.uuid, u.securityStamp, d.uuid⟩

/-- Two hours. -/
def LoginJwtClaims.default : LoginJwtClaims := .new d u env.now (env.now + 7200)

def days (n : Nat) : Time := n * 86400

/-- Refresh tokens live thirty days, on mobile devices ninety. -/
def AuthTokens.new (sub : AuthMethod) : AuthTokens :=
  ⟨⟨true, env.now, env.now + days (if d.isPushDevice then 90 else 30), sub, d.refreshToken, none⟩,
    .default env d u⟩

/-! ## Single sign-on -/

def BasicTokenClaims.notBefore (c : BasicTokenClaims) : Time := (c.nbf.or c.iat).getD env.now

/-- What the provider hands out; its tokens need not be in JWT form. -/
structure ProviderTokens where
  refreshToken : Option String
  accessToken : String
  expiresIn : Option Time
  decodeTokenClaims : String → Option BasicTokenClaims

/-- The provider's access token travels on when there is nothing to refresh it with. -/
def createAuthTokensImpl (p : ProviderTokens) (accessClaims : LoginJwtClaims) : AuthTokens :=
  let (nbf, exp, token) := match p.refreshToken with
    | some rt =>
      match p.decodeTokenClaims rt with
      | none => (env.now, env.now + days 30, TokenWrapper.refresh rt)
      | some c => (c.notBefore env, c.exp, .refresh rt)
    | none => (accessClaims.nbf, accessClaims.exp, .access p.accessToken)
  ⟨⟨true, nbf, exp, .sso, d.refreshToken, some token⟩, accessClaims⟩

def createAuthTokens (p : ProviderTokens) : Cmd AuthTokens :=
  if env.ssoAuthOnlyNotSession then pure (.new env d u .sso)
  else
    match p.decodeTokenClaims p.accessToken, p.expiresIn with
    | some c, _ => pure (createAuthTokensImpl env d p (.new d u (c.notBefore env) c.exp))
    | none, some life => pure (createAuthTokensImpl env d p (.new d u env.now (env.now + life)))
    | none, none => err "Non jwt access_token and empty expires_in"

/-- The provider is asked and may refuse; `p` is what it answers. -/
def exchangeRefreshToken (p : ProviderTokens) (d : Device) (u : User) (exp : Time) :
    Option TokenWrapper → Cmd AuthTokens
  | some (.refresh rt) => do
    external "Request to exchange_refresh_token endpoint failed"
    createAuthTokens env d u { p with refreshToken := some (p.refreshToken.getD rt) }
  | some (.access token) => do
    ensure (env.now + 300 ≤ exp) "Access token is close to expiration but we have no refresh token"
    external "Request to user_info endpoint failed"
    pure (createAuthTokensImpl env d { p with refreshToken := none, accessToken := token }
      (.new d u env.now exp))
  | none => err "No token present while in SSO"

/-! ## Refreshing -/

/-- The tokens for a device that was found by its secret. -/
def tokensFor (p : ProviderTokens) (d : Device) (u : User)
    (token : Signed RefreshJwtClaims) : Cmd (Device × AuthTokens) :=
  match token.claims.sub with
  | .sso =>
    if env.ssoEnabled ∧ env.ssoAuthOnlyNotSession then pure (d, .new env d u .sso)
    else if env.ssoEnabled then do
      let tokens ← exchangeRefreshToken env p d u token.exp token.claims.token
      pure (d, tokens)
    else err "SSO is now disabled, Login again using email and master password"
  | .password =>
    if env.ssoEnabled ∧ env.ssoOnly then err "SSO is now required, Login again"
    else do
      -- the secret is consumed here: a replay finds another one and loses
      match ← d.rotateRefreshTokenIfMatches env token.claims.deviceToken with
      | none => err "Invalid refresh token"
      | some d => pure (d, .new env d u .password)
  | _ => err "Invalid auth method, cannot refresh token"

def refreshTokens (p : ProviderTokens) (token : Signed RefreshJwtClaims) :
    Cmd (Device × AuthTokens) := do
  ensure (token.genuine ∧ validAt env token.nbf token.exp) "Invalid refresh token"
  match ← loadDevice (Device.findByRefreshToken · token.claims.deviceToken) with
  | none => err "Invalid refresh token"
  | some d =>
    let d ← (if token.claims.sub = .sso then d.save env true else pure d)
    match ← query (User.findByUuid · d.userUuid) with
    | none => err "Impossible to find user"
    | some u => tokensFor env p d u token

end VaultServer
