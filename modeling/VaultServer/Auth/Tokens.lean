import VaultServer.Lib.Serde
import VaultServer.Auth.Session

/-!
# Tokens as they are written

A token is a JSON object that the server has signed. Each kind has a generator and, except for the
token that starts a single sign-on, a decoder, which checks the issuer and the times and reads the
record of its kind. The guards and handlers take tokens in the typed form `Signed`, where a decoder
only ever sees its own kind; here are the objects that form stands for. Identifiers are texts, as in
the source.
-/

namespace VaultServer.Jwt

open Lib

/-- The settings and the clock a token is minted or read with. -/
structure Site where
  domainOrigin : String
  now : Int
  mailEnabled : Bool
  invitationExpirationHours : Nat
  adminSessionLifetime : Int

/-! ## Issuers -/

inductive Issuer where
  | login
  | invite
  | emergencyAccessInvite
  | delete
  | verifyEmail
  | admin
  | send
  | orgApiKey
  | fileDownload
  | registerVerify
  | twoFactorRemember
  | sso
  deriving DecidableEq

def Issuer.name : Issuer → String
  | login => "login"
  | invite => "invite"
  | emergencyAccessInvite => "emergencyaccessinvite"
  | delete => "delete"
  | verifyEmail => "verifyemail"
  | admin => "admin"
  | send => "send"
  | orgApiKey => "api.organization"
  | fileDownload => "file_download"
  | registerVerify => "register_verify"
  | twoFactorRemember => "2faremember"
  | sso => "sso"

variable (site : Site) (j : Json) (issuer : Issuer)

def Issuer.text : String := site.domainOrigin ++ "|" ++ issuer.name

/-! ## Decoding -/

/-- A `nbf` that is no number is not checked. -/
def immature (token : Json) : Bool :=
  match token.get? "nbf" with
  | some (.int nbf) => site.now + 30 < nbf
  | _ => false

/-- The library's own look at the registered claims: `exp` has to be there. -/
def validate (token : Json) : Except String Unit :=
  match token.get? "exp" with
  | some (.int exp) =>
    if exp < 0 then .error "Error decoding JWT: Error(MissingRequiredClaim(\"exp\"))"
    else if exp < site.now - 30 then .error "Token has expired"
    else if immature site token then .error "Error decoding JWT: Error(ImmatureSignature)"
    else
      match token.get? "iss" with
      | some (.string iss) =>
        if iss = issuer.text site then .ok () else .error "Issuer is invalid"
      | _ => .ok ()
  | _ => .error "Error decoding JWT: Error(MissingRequiredClaim(\"exp\"))"

def decodeJwt {α : Type} (read : Json → Option α) (issuer : Issuer) (site : Site) (token : Json) :
    Except String α :=
  match read token with
  | none => .error "Error decoding JWT: Error(Json)"
  | some claims => do
    validate site issuer token
    pure claims

/-! ## Records -/

/-- The claims every record starts with. -/
structure Registered where
  nbf : Int
  exp : Int
  iss : String

def Registered.entries (r : Registered) : List (String × Json) :=
  [("nbf", .int r.nbf), ("exp", .int r.exp), ("iss", .string r.iss)]

def Registered.read : Option Registered := do
  let nbf ← j.required Json.int64? "nbf"
  let exp ← j.required Json.int64? "exp"
  let iss ← j.required Json.string? "iss"
  pure ⟨nbf, exp, iss⟩

structure LoginJwtClaims extends Registered where
  sub : String
  premium : Bool
  name : String
  email : String
  emailVerified : Bool
  sstamp : String
  device : String
  devicetype : String
  clientId : String
  scope : List String
  amr : List String

namespace LoginJwtClaims

def write (c : LoginJwtClaims) : Json := .object (c.entries ++
  [("sub", .string c.sub), ("premium", .bool c.premium), ("name", .string c.name),
    ("email", .string c.email), ("email_verified", .bool c.emailVerified),
    ("sstamp", .string c.sstamp), ("device", .string c.device),
    ("devicetype", .string c.devicetype), ("client_id", .string c.clientId),
    ("scope", Json.strings c.scope), ("amr", Json.strings c.amr)])

def read : Option LoginJwtClaims := do
  let r ← Registered.read j
  let sub ← j.required Json.string? "sub"
  let premium ← j.required Json.bool? "premium"
  let name ← j.required Json.string? "name"
  let email ← j.required Json.string? "email"
  let emailVerified ← j.required Json.bool? "email_verified"
  let sstamp ← j.required Json.string? "sstamp"
  let device ← j.required Json.string? "device"
  let devicetype ← j.required Json.string? "devicetype"
  let clientId ← j.required Json.string? "client_id"
  let scope ← j.required Json.strings? "scope"
  let amr ← j.required Json.strings? "amr"
  pure ⟨r, sub, premium, name, email, emailVerified, sstamp, device, devicetype, clientId, scope, amr⟩

end LoginJwtClaims

/-- `rename_all = "lowercase"`. -/
def authMethodText : AuthMethod → String
  | .orgApiKey => "orgapikey"
  | .password => "password"
  | .sso => "sso"
  | .userApiKey => "userapikey"

def authMethod? : Json → Option AuthMethod
  | .string "orgapikey" => some .orgApiKey
  | .string "password" => some .password
  | .string "sso" => some .sso
  | .string "userapikey" => some .userApiKey
  | _ => none

def writeWrapper : TokenWrapper → Json
  | .access token => .object [("Access", .string token)]
  | .refresh token => .object [("Refresh", .string token)]

def wrapper? : Json → Option TokenWrapper
  | .object [("Access", .string token)] => some (.access token)
  | .object [("Refresh", .string token)] => some (.refresh token)
  | _ => none

structure RefreshJwtClaims extends Registered where
  sub : AuthMethod
  deviceToken : String
  token : Option TokenWrapper

namespace RefreshJwtClaims

def write (c : RefreshJwtClaims) : Json := .object (c.entries ++
  [("sub", .string (authMethodText c.sub)), ("device_token", .string c.deviceToken),
    ("token", Json.nullable writeWrapper c.token)])

def read : Option RefreshJwtClaims := do
  let r ← Registered.read j
  let sub ← j.required authMethod? "sub"
  let deviceToken ← j.required Json.string? "device_token"
  let token ← j.optional wrapper? "token"
  pure ⟨r, sub, deviceToken, token⟩

end RefreshJwtClaims

structure InviteJwtClaims extends Registered where
  sub : String
  email : String
  orgId : String
  memberId : String
  invitedByEmail : Option String

namespace InviteJwtClaims

def write (c : InviteJwtClaims) : Json := .object (c.entries ++
  [("sub", .string c.sub), ("email", .string c.email), ("org_id", .string c.orgId),
    ("member_id", .string c.memberId),
    ("invited_by_email", Json.nullable .string c.invitedByEmail)])

def read : Option InviteJwtClaims := do
  let r ← Registered.read j
  let sub ← j.required Json.string? "sub"
  let email ← j.required Json.string? "email"
  let orgId ← j.required Json.string? "org_id"
  let memberId ← j.required Json.string? "member_id"
  let invitedByEmail ← j.optional Json.string? "invited_by_email"
  pure ⟨r, sub, email, orgId, memberId, invitedByEmail⟩

end InviteJwtClaims

structure EmergencyAccessInviteJwtClaims extends Registered where
  sub : String
  email : String
  emerId : String
  grantorName : String
  grantorEmail : String

namespace EmergencyAccessInviteJwtClaims

def write (c : EmergencyAccessInviteJwtClaims) : Json := .object (c.entries ++
  [("sub", .string c.sub), ("email", .string c.email), ("emer_id", .string c.emerId),
    ("grantor_name", .string c.grantorName), ("grantor_email", .string c.grantorEmail)])

def read : Option EmergencyAccessInviteJwtClaims := do
  let r ← Registered.read j
  let sub ← j.required Json.string? "sub"
  let email ← j.required Json.string? "email"
  let emerId ← j.required Json.string? "emer_id"
  let grantorName ← j.required Json.string? "grantor_name"
  let grantorEmail ← j.required Json.string? "grantor_email"
  pure ⟨r, sub, email, emerId, grantorName, grantorEmail⟩

end EmergencyAccessInviteJwtClaims

structure OrgApiKeyLoginJwtClaims extends Registered where
  sub : String
  clientId : String
  clientSub : String
  scope : List String

namespace OrgApiKeyLoginJwtClaims

def write (c : OrgApiKeyLoginJwtClaims) : Json := .object (c.entries ++
  [("sub", .string c.sub), ("client_id", .string c.clientId), ("client_sub", .string c.clientSub),
    ("scope", Json.strings c.scope)])

def read : Option OrgApiKeyLoginJwtClaims := do
  let r ← Registered.read j
  let sub ← j.required Json.string? "sub"
  let clientId ← j.required Json.string? "client_id"
  let clientSub ← j.required Json.string? "client_sub"
  let scope ← j.required Json.strings? "scope"
  pure ⟨r, sub, clientId, clientSub, scope⟩

end OrgApiKeyLoginJwtClaims

structure FileDownloadClaims extends Registered where
  sub : String
  fileId : String

namespace FileDownloadClaims

def write (c : FileDownloadClaims) : Json :=
  .object (c.entries ++ [("sub", .string c.sub), ("file_id", .string c.fileId)])

def read : Option FileDownloadClaims := do
  let r ← Registered.read j
  let sub ← j.required Json.string? "sub"
  let fileId ← j.required Json.string? "file_id"
  pure ⟨r, sub, fileId⟩

end FileDownloadClaims

structure RegisterVerifyClaims extends Registered where
  sub : String
  name : Option String
  verified : Bool

namespace RegisterVerifyClaims

def write (c : RegisterVerifyClaims) : Json := .object (c.entries ++
  [("sub", .string c.sub), ("name", Json.nullable .string c.name), ("verified", .bool c.verified)])

def read : Option RegisterVerifyClaims := do
  let r ← Registered.read j
  let sub ← j.required Json.string? "sub"
  let name ← j.optional Json.string? "name"
  let verified ← j.required Json.bool? "verified"
  pure ⟨r, sub, name, verified⟩

end RegisterVerifyClaims

structure TwoFactorRememberClaims extends Registered where
  sub : String
  userUuid : String

namespace TwoFactorRememberClaims

def write (c : TwoFactorRememberClaims) : Json :=
  .object (c.entries ++ [("sub", .string c.sub), ("user_uuid", .string c.userUuid)])

def read : Option TwoFactorRememberClaims := do
  let r ← Registered.read j
  let sub ← j.required Json.string? "sub"
  let userUuid ← j.required Json.string? "user_uuid"
  pure ⟨r, sub, userUuid⟩

end TwoFactorRememberClaims

/-- Also the record of the token that starts a single sign-on. -/
structure BasicJwtClaims extends Registered where
  sub : String

namespace BasicJwtClaims

def write (c : BasicJwtClaims) : Json := .object (c.entries ++ [("sub", .string c.sub)])

def read : Option BasicJwtClaims := do
  let r ← Registered.read j
  let sub ← j.required Json.string? "sub"
  pure ⟨r, sub⟩

end BasicJwtClaims

/-! ## Round trips -/

/-- Times that the records can hold. -/
def Registered.Fits (r : Registered) : Prop := fitsSigned 64 r.nbf = true ∧ fitsSigned 64 r.exp = true

theorem Registered.read_entries (h : r.Fits) (rest : List (String × Json)) :
    Registered.read (.object (r.entries ++ rest)) = some r := by
  simp [Registered.read, Registered.entries, Json.required, Json.get?, List.lookup, Json.int64?,
    Json.string?, h.1, h.2]

theorem LoginJwtClaims.read_write (h : c.Fits) : read c.write = some c := by
  unfold LoginJwtClaims.read LoginJwtClaims.write
  rw [Registered.read_entries h]
  simp [Registered.entries, Json.required, Json.get?, List.lookup, Json.string?, Json.bool?]

theorem authMethod?_text (m : AuthMethod) : authMethod? (.string (authMethodText m)) = some m := by
  cases m <;> rfl

theorem wrapper?_write (t : TokenWrapper) : wrapper? (writeWrapper t) = some t := by
  cases t <;> rfl

theorem RefreshJwtClaims.read_write (h : c.Fits) : read c.write = some c := by
  have hwrapper : ∀ t, writeWrapper t ≠ .null := by
    intro t
    cases t <;> exact nofun
  unfold RefreshJwtClaims.read RefreshJwtClaims.write
  rw [Registered.read_entries h, Json.required_of_get? rfl (authMethod?_text c.sub),
    Json.required_of_get? (a := c.deviceToken) rfl rfl,
    Json.optional_of_get? (o := c.token) rfl wrapper?_write hwrapper]
  rfl

theorem InviteJwtClaims.read_write (h : c.Fits) : read c.write = some c := by
  unfold InviteJwtClaims.read InviteJwtClaims.write
  rw [Registered.read_entries h, Json.optional_string_of_get? (o := c.invitedByEmail) rfl]
  rfl

theorem EmergencyAccessInviteJwtClaims.read_write (h : c.Fits) : read c.write = some c := by
  unfold EmergencyAccessInviteJwtClaims.read EmergencyAccessInviteJwtClaims.write
  rw [Registered.read_entries h]
  rfl

theorem OrgApiKeyLoginJwtClaims.read_write (h : c.Fits) : read c.write = some c := by
  unfold OrgApiKeyLoginJwtClaims.read OrgApiKeyLoginJwtClaims.write
  rw [Registered.read_entries h, Json.required_of_get? rfl (Json.strings?_strings c.scope)]
  rfl

theorem FileDownloadClaims.read_write (h : c.Fits) : read c.write = some c := by
  unfold FileDownloadClaims.read FileDownloadClaims.write
  rw [Registered.read_entries h]
  rfl

theorem RegisterVerifyClaims.read_write (h : c.Fits) : read c.write = some c := by
  unfold RegisterVerifyClaims.read RegisterVerifyClaims.write
  rw [Registered.read_entries h, Json.optional_string_of_get? (o := c.name) rfl]
  rfl

theorem TwoFactorRememberClaims.read_write (h : c.Fits) : read c.write = some c := by
  unfold TwoFactorRememberClaims.read TwoFactorRememberClaims.write
  rw [Registered.read_entries h]
  rfl

theorem BasicJwtClaims.read_write (h : c.Fits) : read c.write = some c := by
  unfold BasicJwtClaims.read BasicJwtClaims.write
  rw [Registered.read_entries h]
  rfl

/-! ## Generators -/

/-- The columns of an account that a login token shows. -/
structure UserText where
  uuid : String
  name : String
  email : String
  verified : Bool
  securityStamp : String

/-- The columns of a device that a login token shows, its type by name. -/
structure DeviceText where
  uuid : String
  devicetype : String

/-- From now on, for `life` seconds. -/
def Site.registered (life : Int) : Registered := ⟨site.now, site.now + life, issuer.text site⟩

def Site.invitationLife : Int := site.invitationExpirationHours * 3600

def LoginJwtClaims.new (device : DeviceText) (user : UserText) (nbf exp : Int)
    (scope : List String) (clientId : Option String) : LoginJwtClaims where
  nbf := nbf
  exp := exp
  iss := Issuer.login.text site
  sub := user.uuid
  premium := true
  name := user.name
  email := user.email
  emailVerified := !site.mailEnabled || user.verified
  sstamp := user.securityStamp
  device := device.uuid
  devicetype := device.devicetype
  clientId := clientId.getD "undefined"
  scope := scope
  amr := ["Application"]

/-- As `AuthTokens::new` and the end of a single sign-on fill it in. -/
def RefreshJwtClaims.new (nbf exp : Int) (sub : AuthMethod) (deviceToken : String)
    (token : Option TokenWrapper) : RefreshJwtClaims :=
  ⟨⟨nbf, exp, Issuer.login.text site⟩, sub, deviceToken, token⟩

def generateInviteClaims (userId email orgId memberId : String)
    (invitedByEmail : Option String) : InviteJwtClaims :=
  ⟨site.registered .invite site.invitationLife, userId, email, orgId, memberId, invitedByEmail⟩

def generateEmergencyAccessInviteClaims
    (userId email emerId grantorName grantorEmail : String) : EmergencyAccessInviteJwtClaims :=
  ⟨site.registered .emergencyAccessInvite site.invitationLife, userId, email, emerId, grantorName,
    grantorEmail⟩

def generateOrganizationApiKeyLoginClaims (orgApiKeyUuid orgId : String) :
    OrgApiKeyLoginJwtClaims :=
  ⟨site.registered .orgApiKey 3600, orgApiKeyUuid, "organization." ++ orgId, orgId,
    ["api.organization"]⟩

def generateFileDownloadClaims (cipherId fileId : String) : FileDownloadClaims :=
  ⟨site.registered .fileDownload 300, cipherId, fileId⟩

def generateRegisterVerifyClaims (email : String) (name : Option String)
    (verified : Bool) : RegisterVerifyClaims :=
  ⟨site.registered .registerVerify 1800, email, name, verified⟩

def generate2faRememberClaims (deviceUuid userUuid : String) : TwoFactorRememberClaims :=
  ⟨site.registered .twoFactorRemember (30 * 86400), deviceUuid, userUuid⟩

def generateDeleteClaims (uuid : String) : BasicJwtClaims :=
  ⟨site.registered .delete site.invitationLife, uuid⟩

def generateVerifyEmailClaims (userId : String) : BasicJwtClaims :=
  ⟨site.registered .verifyEmail site.invitationLife, userId⟩

def generateAdminClaims : BasicJwtClaims :=
  ⟨site.registered .admin (site.adminSessionLifetime * 60), "admin_panel"⟩

def generateSendClaims (sendId fileId : String) : BasicJwtClaims :=
  ⟨site.registered .send 120, sendId ++ "/" ++ fileId⟩

/-- The identifier comes out of `as_send_id`, which writes it in the hyphenated form. -/
def generateSendAccessClaims (sendId : BitVec 128) : BasicJwtClaims :=
  ⟨site.registered .send 120, String.ofList (hyphenated sendId)⟩

def encodeSsotokenClaims : BasicJwtClaims := ⟨site.registered .sso 120, "vaultwarden"⟩

/-! ## Decoders -/

def decodeRefresh := decodeJwt RefreshJwtClaims.read .login
def decodeLogin := decodeJwt LoginJwtClaims.read .login
def decodeInvite := decodeJwt InviteJwtClaims.read .invite
def decodeEmergencyAccessInvite :=
  decodeJwt EmergencyAccessInviteJwtClaims.read .emergencyAccessInvite
def decodeDelete := decodeJwt BasicJwtClaims.read .delete
def decodeVerifyEmail := decodeJwt BasicJwtClaims.read .verifyEmail
def decodeAdmin := decodeJwt BasicJwtClaims.read .admin
def decodeSend := decodeJwt BasicJwtClaims.read .send
def decodeApiOrg := decodeJwt OrgApiKeyLoginJwtClaims.read .orgApiKey
def decodeFileDownload := decodeJwt FileDownloadClaims.read .fileDownload
def decodeRegisterVerify := decodeJwt RegisterVerifyClaims.read .registerVerify
def decode2faRemember := decodeJwt TwoFactorRememberClaims.read .twoFactorRemember

/-! ## What is done with a token of a send -/

/-- `SendHeaders`: the subject goes for the identifier of the send. -/
def SendHeaders.fromRequest (token : Json) : Except String String :=
  match decodeSend site token with
  | .ok claims => .ok claims.sub
  | .error _ => .error "Invalid claim"

/-- `Send::find_by_uuid`; the number of a send is the `n`-th that `get_uuid` has drawn. -/
def findSend (draw : Nat → BitVec 128) (db : Db) (uuid : String) : Option Send :=
  db.sends.find? fun s => String.ofList (hyphenated (draw s.uuid.val)) = uuid

/-- The send that `post_access` and `post_access_file` go on with. -/
def accessedSend (draw : Nat → BitVec 128) (db : Db) (token : Json) : Option Send :=
  match SendHeaders.fromRequest site token with
  | .ok sendId => findSend draw db sendId
  | .error _ => none

/-- Whether `download_send` opens the file. -/
def downloadSend (sendId fileId : String) (token : Json) : Bool :=
  match decodeSend site token with
  | .ok claims => claims.sub = sendId ++ "/" ++ fileId
  | .error _ => false

end VaultServer.Jwt
