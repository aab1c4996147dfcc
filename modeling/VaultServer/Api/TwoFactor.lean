import VaultServer.Api.Security

/-!
# Second factors

`api/core/two_factor`: enrolling and removing providers, and the checks of a login's answer. Codes
of the authenticator and of the e-mail provider are checked against the stored row; the other
providers ask a library or a service.
-/

namespace VaultServer

open Lib Prog

variable (env : Env) (user : UserId) (cfg : Config)

def hasGlobalDuoCredentials : Bool :=
  cfg.enableDuo && cfg.duoHost.isSome && cfg.duoIkey.isSome && cfg.duoSkey.isSome

def yubicoConfigured : Bool :=
  cfg.enableYubico && cfg.yubicoClientId.isSome && cfg.yubicoSecretKey.isSome

def isTwofactorProviderUsable (atype : TwoFactorType) (data : TwoFactorData) : Bool :=
  match atype with
  | .authenticator | .recoveryCode => true
  | .email => cfg.enableEmail2fa
  | .duo | .organizationDuo =>
    (match data with
      | .duo d => !d.host.isEmpty && !d.ik.isEmpty && !d.sk.isEmpty
      | _ => false) || hasGlobalDuoCredentials cfg
  | .yubiKey => yubicoConfigured cfg
  | .webauthn => cfg.isWebauthn2faSupported
  | .remember => !cfg.disable2faRemember
  | _ => false

/-- Whether the save succeeds is ignored. -/
def generateRecoverCode (user : User) : Cmd Unit :=
  if user.totpRecover.isNone then do
    let code ← getUuid
    let _ ← (User.save env { user with totpRecover := some (toString code) }).attempt
  else pure ()

/-- Members below admin lose their place in organizations that demand a second factor. -/
def enforce2faPolicy : Cmd Unit := do
  let members ← query (Membership.findByUserAndPolicy · user .twoFactorAuthentication)
  each members fun m =>
    if m.atype < MembershipType.admin then do
      when env.mailEnabled do
        let _ ← unwrap (← query (Organization.findByUuid · m.orgUuid))
        external "mail"
      (m.revoke.getD m).save env
    else pure ()

/-- Enforces the policy once the last provider is gone. -/
def enforceIfNoneLeft : Cmd Unit := do
  let factors ← query (TwoFactor.findByUser · user)
  when factors.isEmpty (enforce2faPolicy env user)

def disableTwofactor (data : PasswordOrOtpData) (type : Int) (headers : Headers) : Cmd Unit := do
  data.validate env headers.user true
  match ← query (TwoFactor.findByUserAndType · headers.user.uuid type) with
  | some tf => tf.delete
  | none => pure ()
  enforceIfNoneLeft env headers.user.uuid

/-! ## The e-mail provider -/

/-- A new code is stored, then mailed. -/
def sendToken : Cmd Unit := do
  match ← query (TwoFactor.findByUserAndType · user TwoFactorType.email.toI32) with
  | none => err "Two factor not found"
  | some tf =>
    let token ← getUuid
    let data ← lift (TwoFactor.EmailTokenData.fromJson tf.data)
    let data := data.setToken env (toString token)
    TwoFactor.save { tf with data := .email data }
    mailToken env data.email (toString token)

structure SendEmailLoginData where
  /-- The account of the last unfinished login on the device the request names. -/
  deviceUser : Option UserId
  email : Option String
  masterPasswordHash : Option String
  authRequestId : Option Nat
  authRequestAccessCode : Option String

def AuthRequest.findByUuid (db : Db) (uuid : Nat) : Option AuthRequest :=
  db.authRequests.find? fun a => a.uuid = uuid

/-- Who asks for a code is known by the password, by an approved login, or by the device. -/
def emailLoginUser (data : SendEmailLoginData) (deviceType : Int) (ip : String) : Cmd User :=
  match data.email.filter fun e => !e.isEmpty with
  | none => do
    ensure data.deviceUser.isSome "No device identifier has been submitted."
    match ← query fun db => data.deviceUser.bind (User.findByUuid db) with
    | none => err "Username or password is incorrect. Try again."
    | some user => pure user
  | some email => do
    match ← query (User.findByMail · email) with
    | none => err "Username or password is incorrect. Try again."
    | some user =>
      match data.masterPasswordHash.filter fun h => !h.isEmpty, data.authRequestId with
      | some hash, _ =>
        ensure (user.checkValidPassword env hash) "Username or password is incorrect. Try again."
        pure user
      | none, some id =>
        match ← query (AuthRequest.findByUuid · id) with
        | none => err "AuthRequest doesn't exist"
        | some request =>
          ensure data.authRequestAccessCode.isSome "no auth request access code"
          ensure (request.deviceType = deviceType ∧ request.requestIp = ip ∧
            data.authRequestAccessCode = some request.accessCode) "AuthRequest doesn't exist"
          pure user
      | none, none => err "No password hash has been submitted."

def sendEmailLogin (data : SendEmailLoginData) (deviceType : Int) (ip : String) : Cmd Unit := do
  ensure env.enableEmail2fa "Email 2FA is disabled"
  external "Too many login requests"
  let user ← emailLoginUser env data deviceType ip
  sendToken env user.uuid

/-- Starts the enrolment of an address; the provider the user had is removed first. -/
def sendEmail (email : String) (data : PasswordOrOtpData) (headers : Headers) : Cmd Unit := do
  data.validate env headers.user false
  ensure env.enableEmail2fa "Email 2FA is disabled"
  match ← query (TwoFactor.findByUserAndType · headers.user.uuid TwoFactorType.email.toI32) with
  | some tf => tf.delete
  | none => pure ()
  let token ← getUuid
  let uuid ← getUuid
  TwoFactor.save (.new uuid headers.user.uuid .emailVerificationChallenge
    (.email (.new env email (toString token))))
  external "mail"

/-- Ends the enrolment: the challenge becomes the provider, with no code pending. -/
def verifyEmail (token : String) (data : PasswordOrOtpData) (headers : Headers) : Cmd Unit := do
  data.validate env headers.user true
  match ← query (TwoFactor.findByUserAndType · headers.user.uuid
      TwoFactorType.emailVerificationChallenge.toI32) with
  | none => err "Two factor not found"
  | some tf =>
    let data ← lift (TwoFactor.EmailTokenData.fromJson tf.data)
    ensure data.lastToken.isSome "No token available"
    ensure (data.lastToken = some token) "Token is invalid"
    TwoFactor.save { tf with atype := .email, data := .email data.resetToken }
    generateRecoverCode env headers.user

/-- What is stored after a wrong code: at the limit the pending code is dropped. -/
def TwoFactor.EmailTokenData.afterWrong (d : EmailTokenData) : EmailTokenData :=
  if d.addAttempt.attempts ≥ cfg.emailAttemptsLimit then d.addAttempt.resetToken else d.addAttempt

/-- `data` is the column as the login has read it; the row is read again. The code is used up
before its age is looked at. -/
def validateEmailCodeStr (token : String) (data : TwoFactorData) (ip : String) : Cmd Unit := do
  let data ← lift (TwoFactor.EmailTokenData.fromJson data)
  match ← query (TwoFactor.findByUserAndType · user TwoFactorType.email.toI32) with
  | none => err "Two factor not found"
  | some tf =>
    match data.lastToken with
    | none => err ("No token available! IP: " ++ ip)
    | some issued =>
      if issued = token then do
        TwoFactor.save { tf with data := .email data.resetToken }
        ensure (env.now ≤ data.tokenSent + env.emailExpirationTime) "Token has expired"
      else do
        TwoFactor.save { tf with data := .email (data.afterWrong env.toConfig) }
        err ("Token is invalid! IP: " ++ ip)

/-! ## The authenticator -/

/-- The time steps a code may belong to, in the order they are tried. -/
def totpSteps : List Int := if cfg.authenticatorDisableTimeDrift then [0] else [-1, 0, 1]

/-- The first time step the code fits; it decides, whether or not it was used before. -/
def matchingStep (secret : List UInt8) (code : String) : Option Int :=
  ((totpSteps env.toConfig).find? fun step =>
    env.totpCustom secret (env.now + step * 30) = code).map fun step => env.now.tdiv 30 + step

def invalidTotpMessage (ip : String) : String :=
  "Invalid TOTP code! Server time: " ++ toString env.now ++ " IP: " ++ ip

/-- The stored row, or a new one for the secret. -/
def authenticatorRow (secret : String) : Cmd TwoFactor := do
  match ← (.read (.loadTwofactor user .authenticator) fun w =>
      TwoFactor.findByUserAndType w.db user TwoFactorType.authenticator.toI32 : Cmd _) with
  | some tf => pure tf
  | none => do
    let uuid ← getUuid
    pure (.new uuid user .authenticator (.text secret))

/-- The whole row is written back with the time step that was used. -/
def validateTotpCode (code secret ip : String) : Cmd Unit :=
  match env.base32Decode secret with
  | none => err "Invalid TOTP secret"
  | some bytes => do
    let tf ← authenticatorRow user secret
    match matchingStep env bytes code with
    | none => err (invalidTotpMessage env ip)
    | some timeStep =>
      if timeStep > tf.lastUsed then TwoFactor.save { tf with lastUsed := timeStep }
      else err (invalidTotpMessage env ip)

def validateTotpCodeStr (code : String) (data : TwoFactorData) (ip : String) : Cmd Unit := do
  ensure (code.toList.all env.isNumeric) "TOTP code is not a number"
  match data with
  | .text secret => validateTotpCode env user code secret ip
  | _ => err "Invalid TOTP secret"

structure EnableAuthenticatorData where
  key : String
  token : String
  password : PasswordOrOtpData

def activateAuthenticator (data : EnableAuthenticatorData) (ip : String)
    (headers : Headers) : Cmd Unit := do
  data.password.validate env headers.user true
  match env.base32Decode data.key with
  | none => err "Invalid totp secret"
  | some bytes =>
    ensure (bytes.length = 20) "Invalid key length"
    validateTotpCode env headers.user.uuid data.token (env.toUppercase data.key) ip
    generateRecoverCode env headers.user

structure DisableAuthenticatorData where
  key : String
  masterPasswordHash : String
  type : Int

/-- The type comes from the client, so any provider whose data is the given text can be removed. -/
def disableAuthenticator (data : DisableAuthenticatorData) (headers : Headers) : Cmd Unit := do
  ensure (headers.user.checkValidPassword env data.masterPasswordHash) "Invalid password"
  match ← query (TwoFactor.findByUserAndType · headers.user.uuid data.type) with
  | none => pure ()
  | some tf =>
    ensure (tf.data = .text data.key) ("TOTP key for user " ++ headers.user.email
      ++ " does not match recorded value, cannot deactivate")
    tf.delete
  enforceIfNoneLeft env headers.user.uuid

/-! ## Keys of hardware and services -/

structure EnableYubikeyData where
  /-- `key1` to `key5`. -/
  keys : List (Option String)
  nfc : Bool
  password : PasswordOrOtpData

def verifyYubikeyOtp (message : String) : Cmd Unit := do
  ensure (yubicoConfigured cfg) message
  external message

/-- The stored row, or a new one without keys. -/
def yubikeyRow : Cmd TwoFactor := do
  match ← query (TwoFactor.findByUserAndType · user TwoFactorType.yubiKey.toI32) with
  | some tf => pure tf
  | none => do
    let uuid ← getUuid
    pure (.new uuid user .yubiKey (.text ""))

def activateYubikey (data : EnableYubikeyData) (headers : Headers) : Cmd Unit := do
  data.password.validate env headers.user true
  let tf ← yubikeyRow headers.user.uuid
  let keys := (data.keys.filterMap id).filter fun k => !k.isEmpty
  ensure (!keys.isEmpty) "A key is required."
  each keys fun k =>
    when (k.utf8ByteSize ≠ 12) (verifyYubikeyOtp env.toConfig "Invalid Yubikey OTP provided")
  let ids := (keys.filter fun k => 12 ≤ k.utf8ByteSize).map fun k => String.ofList (k.toList.take 12)
  TwoFactor.save { tf with data := .yubikey ids data.nfc }
  generateRecoverCode env headers.user

def validateYubikeyLogin (response : String) : TwoFactorData → Cmd Unit
  | .yubikey keys _ => do
    ensure (response.utf8ByteSize = 44) "Invalid Yubikey OTP length"
    ensure (keys.contains (String.ofList (response.toList.take 12)))
      "Given Yubikey is not registered"
    verifyYubikeyOtp cfg "Failed to verify Yubikey against OTP server"
  | _ => do
    ensure (response.utf8ByteSize = 44) "Invalid Yubikey OTP length"
    .fail (.panic "Can't parse Yubikey Metadata")

structure EnableDuoData where
  duo : DuoData
  password : PasswordOrOtpData

def duoDefaultMessage : String :=
  "<To use the global Duo keys, please leave these fields untouched>"

def checkDuoFieldsCustom (d : DuoData) : Bool :=
  [d.host, d.sk, d.ik].all fun s => !(trimText s).isEmpty && s ≠ duoDefaultMessage

def activateDuo (data : EnableDuoData) (headers : Headers) : Cmd Unit := do
  data.password.validate env headers.user true
  let stored ← (if checkDuoFieldsCustom data.duo then do
      external "Failed to validate Duo credentials"
      pure (TwoFactorData.duo data.duo)
    else pure (TwoFactorData.text "") : Cmd TwoFactorData)
  let uuid ← getUuid
  TwoFactor.save (.new uuid headers.user.uuid .duo stored)
  generateRecoverCode env headers.user

/-! ## WebAuthn -/

def webauthnData : TwoFactorData → Except Failure (List WebauthnRegistration)
  | .webauthn registrations => .ok registrations
  | _ => .error (.err "Failed to parse JSON")

def getWebauthnRegistrations : Cmd (List WebauthnRegistration) := do
  match ← query (TwoFactor.findByUserAndType · user TwoFactorType.webauthn.toI32) with
  | none => pure []
  | some tf => lift (webauthnData tf.data)

/-- The state of a challenge, kept in a row of its own; `challenge` is drawn. -/
def saveChallenge (atype : TwoFactorType) : Cmd Unit := do
  let challenge ← getUuid
  let uuid ← getUuid
  TwoFactor.save (.new uuid user atype (.text (toString challenge)))

/-- Reads the state of a challenge and removes it. -/
def takeChallenge (atype : TwoFactorType) (missing : String) : Cmd String := do
  match ← query (TwoFactor.findByUserAndType · user atype.toI32) with
  | none => err missing
  | some tf =>
    match tf.data with
    | .text state => do
      tf.delete
      pure state
    | _ => err "Failed to parse JSON"

def generateWebauthnChallenge (data : PasswordOrOtpData) (headers : Headers) : Cmd Unit := do
  data.validate env headers.user false
  let _ ← getWebauthnRegistrations headers.user.uuid
  saveChallenge headers.user.uuid .webauthnRegisterChallenge

structure EnableWebauthnData where
  id : Int
  name : String
  deviceResponse : String
  password : PasswordOrOtpData

def saveRegistrations (registrations : List WebauthnRegistration) : Cmd Unit := do
  let uuid ← getUuid
  TwoFactor.save (.new uuid user .webauthn (.webauthn registrations))

def activateWebauthn (data : EnableWebauthnData) (headers : Headers) : Cmd Unit := do
  data.password.validate env headers.user true
  let state ← takeChallenge headers.user.uuid .webauthnRegisterChallenge "Can't recover challenge"
  match env.finishPasskeyRegistration data.deviceResponse state with
  | none => err "WebauthnError"
  | some credId =>
    let registrations ← getWebauthnRegistrations headers.user.uuid
    saveRegistrations headers.user.uuid (registrations ++ [⟨data.id, data.name, credId⟩])
    generateRecoverCode env headers.user

/-- An entry that was migrated from U2F is removed there too. -/
def deleteU2f (credId : String) : Cmd Unit := do
  match ← query (TwoFactor.findByUserAndType · user TwoFactorType.u2f.toI32) with
  | none => pure ()
  | some tf =>
    match tf.data with
    | .u2f registrations =>
      TwoFactor.save { tf with data := .u2f (registrations.filter fun r => r.keyHandle ≠ credId) }
    | _ => err "Error parsing U2F data"

/-- The row stays, even without an entry. -/
def deleteWebauthn (id : Int) (masterPasswordHash : String) (headers : Headers) : Cmd Unit := do
  ensure (headers.user.checkValidPassword env masterPasswordHash) "Invalid password"
  match ← query (TwoFactor.findByUserAndType · headers.user.uuid TwoFactorType.webauthn.toI32) with
  | none => err "Webauthn data not found!"
  | some tf =>
    let registrations ← lift (webauthnData tf.data)
    match registrations.find? fun r => r.id = id with
    | none => err "Webauthn entry not found"
    | some removed =>
      TwoFactor.save { tf with data := .webauthn (registrations.eraseP fun r => r.id = id) }
      deleteU2f headers.user.uuid removed.credId

def generateWebauthnLogin : Cmd Unit := do
  let registrations ← getWebauthnRegistrations user
  ensure (!registrations.isEmpty) "No Webauthn devices registered"
  saveChallenge user .webauthnLoginChallenge

/-- The challenge is used up by the attempt. -/
def validateWebauthnLogin (response : String) : Cmd Unit := do
  let state ← takeChallenge user .webauthnLoginChallenge "Can't recover login challenge"
  let registrations ← getWebauthnRegistrations user
  match env.finishPasskeyAuthentication response state with
  | none => err "WebauthnError"
  | some credId =>
    ensure (registrations.any fun r => r.credId = credId) "Credential not present"
    match env.updatedRegistrations credId registrations with
    | some updated => saveRegistrations user updated
    | none => pure ()

/-- The service answers for the user. -/
def validateDuoLogin : Cmd Unit := external "Error validating duo authentication"

/-! ## The settings -/

/-- The pages that show a provider, each behind a confirmation. What they answer is not in the
model. -/
inductive SettingsPage where
  | recover
  | authenticator
  | email
  | duo
  | yubikey
  | webauthn

def showSettings (available : Bool) (message : String) (deleteIfValid : Bool)
    (data : PasswordOrOtpData) (headers : Headers) : Cmd Unit := do
  ensure available message
  data.validate env headers.user deleteIfValid

/-- The only page whose code is used up. -/
def getRecover := showSettings env true "" true

def generateAuthenticator := showSettings env true "" false

def getEmail := showSettings env true "" false

def getDuo := showSettings env true "" false

def generateYubikey (data : PasswordOrOtpData) (headers : Headers) : Cmd Unit := do
  ensure env.enableYubico "Yubico support is disabled"
  showSettings env (env.yubicoClientId.isSome && env.yubicoSecretKey.isSome)
    ("`YUBICO_CLIENT_ID` or `YUBICO_SECRET_KEY` environment variable is not set. "
      ++ "Yubikey OTP Disabled") false data headers

def getWebauthn := showSettings env env.isWebauthn2faSupported
  "Configured `DOMAIN` is not compatible with Webauthn" false

def SettingsPage.show : SettingsPage → PasswordOrOtpData → Headers → Cmd Unit
  | recover => getRecover env
  | authenticator => generateAuthenticator env
  | email => getEmail env
  | duo => getDuo env
  | yubikey => generateYubikey env
  | webauthn => getWebauthn env

end VaultServer
