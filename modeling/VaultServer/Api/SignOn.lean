import VaultServer.Auth.Guards

/-!
# Single sign-on, up to the provider's word

`sso.rs`, `sso_client.rs` and the redirects of `api/identity.rs`. The client starts a flow with a
state and a challenge of its own and is sent to the provider; the provider sends the browser back
with a code; the client shows the code and the verifier of its challenge, and the server exchanges
the code for what the provider says. That answer stays in the row of the flow, for a login that has
to come back with a second factor.
-/

namespace VaultServer

open Lib

/-! ## The redirects -/

variable (env : Env)

/-- Where the client wants to be sent in the end. -/
def redirectUri (clientId rawRedirectUri : String) : Except Failure String :=
  if clientId = "web" ∨ clientId = "browser" then .ok (env.domain ++ "/sso-connector.html")
  else if clientId = "desktop" ∨ clientId = "mobile" then .ok "bitwarden://sso-callback"
  else if clientId = "cli" then
    let port := rawRedirectUri.toList.drop 17
    if rawRedirectUri.toList.take 17 = "http://localhost:".toList ∧ port.length = 4 ∧
        port.all Char.isDigit then .ok ("http://localhost:" ++ String.ofList port)
    else .error (.err "Failed to extract port number")
  else .error (.err ("Unsupported client " ++ clientId))

/-- The nonce goes to the provider and has to come back in its token. -/
def SsoAuth.new (state clientChallenge : String) (nonce : Secret) (redirectUri : String)
    (bindingHash : Option String) : SsoAuth :=
  ⟨state, clientChallenge, nonce, redirectUri, none, none, none, env.now, env.now, bindingHash⟩

def authorizeUrl (state clientChallenge clientId rawRedirectUri : String)
    (bindingHash : Option String) : Cmd Unit := do
  let redirect ← lift (redirectUri env clientId rawRedirectUri)
  external "Failed to discover OpenID provider"
  let nonce ← getUuid
  (SsoAuth.new env state clientChallenge nonce redirect bindingHash).save

structure AuthorizeData where
  clientId : String
  redirectUri : String
  state : String
  codeChallenge : String
  codeChallengeMethod : String

/-- The browser gets a token that only its hash is kept of. -/
def authorize (data : AuthorizeData) : Cmd Unit := do
  ensure (data.codeChallengeMethod = "S256") "Unsupported code challenge method"
  let bindingToken ← getUuid
  authorizeUrl env data.state data.codeChallenge data.clientId data.redirectUri
    (some (env.sha256Hex (toString bindingToken)))

/-- The browser that comes back has to be the one that was sent away. -/
def oidcsigninRedirect (base64State code : String)
    (error : Option OIDCCodeResponseError) (cookie : Option String) : Cmd Unit := do
  match env.decodeState base64State with
  | none => err ("Failed to decode " ++ base64State ++ " using base64")
  | some state =>
    match ← query (SsoAuth.find env · state) with
    | none => err ("Cannot retrieve sso_auth for " ++ state)
    | some ssoAuth =>
      ensure (ssoAuth.bindingHash.isSome ∧ ssoAuth.bindingHash = cookie.map env.sha256Hex)
        ("SSO session binding mismatch for " ++ state)
      SsoAuth.save { ssoAuth with
        codeResponse := some code
        codeResponseError := error
        updatedAt := env.now }
      ensure (env.isUrl ssoAuth.redirectUri)
        ("Failed to parse redirect uri (" ++ ssoAuth.redirectUri ++ ")")

def oidcsignin (code state : String) (cookie : Option String) : Cmd Unit :=
  oidcsigninRedirect env state code none cookie

/-- The state is stored as the code, so that the client finds the error by it. -/
def oidcsigninError (state error : String) (errorDescription cookie : Option String) : Cmd Unit :=
  oidcsigninRedirect env state state (some ⟨error, errorDescription⟩) cookie

/-! ## The exchange -/

/-- The claims about a person, in the identity token or from the user information. -/
structure OIDCClaims where
  email : Option String
  emailVerified : Option Bool
  preferredUsername : Option String

/-- What the provider answers when a code is exchanged. -/
structure ProviderAnswer where
  refreshToken : Option String
  accessToken : String
  expiresIn : Option Time
  issuer : String
  subject : String
  nonce : Secret
  idClaims : OIDCClaims
  userInfo : OIDCClaims

/-- The client's half of the proof of possession; with provider-side PKCE it is up to the provider
to check it. -/
def Client.exchangeCode (answer : ProviderAnswer) (codeVerifier : String)
    (ssoAuth : SsoAuth) : Cmd Unit := do
  ensure (env.ssoPkce ∨ env.codeChallenge codeVerifier = ssoAuth.clientChallenge)
    "PKCE client challenge failed"
  external "Failed to contact token endpoint"
  ensure (answer.nonce = ssoAuth.nonce) "Could not read id_token claims"

def ProviderAnswer.authenticatedUser (answer : ProviderAnswer) (email : String) :
    OIDCAuthenticatedUser where
  refreshToken := answer.refreshToken
  accessToken := answer.accessToken
  expiresIn := answer.expiresIn
  identifier := answer.issuer ++ "/" ++ answer.subject
  email := toLowercase email
  emailVerified := answer.idClaims.emailVerified.or answer.userInfo.emailVerified
  userName := answer.idClaims.preferredUsername.or answer.userInfo.preferredUsername

/-- An answer that is stored already is used as it is: the code was exchanged for it before, and the
login has come back with its second factor. -/
def exchangeCode (answer : ProviderAnswer) (code codeVerifier : String) :
    Cmd (SsoAuth × OIDCAuthenticatedUser) := do
  match ← Prog.read (.loadSsoAuth code) fun w => SsoAuth.findByCode env w.db code with
  | none => err "Invalid code cannot retrieve sso auth"
  | some ssoAuth =>
    match ssoAuth.authResponse with
    | some info => pure (ssoAuth, info)
    | none =>
      match ssoAuth.codeResponse, ssoAuth.codeResponseError with
      | _, some e => do
        ssoAuth.delete .write
        err ("SSO authorization failed: " ++ e.error ++ ", " ++ e.errorDescription.getD "")
      | none, none => do
        ssoAuth.delete .write
        err "Missing authorization provider return"
      | some _, none => do
        external "Failed to discover OpenID provider"
        Client.exchangeCode env answer codeVerifier ssoAuth
        external "Request to user_info endpoint failed"
        match answer.idClaims.email.or answer.userInfo.email with
        | none => err "Neither id token nor userinfo contained an email"
        | some email => do
          let info := answer.authenticatedUser email
          let ssoAuth := { ssoAuth with authResponse := some info, updatedAt := env.now }
          ssoAuth.save
          pure (ssoAuth, info)

end VaultServer
