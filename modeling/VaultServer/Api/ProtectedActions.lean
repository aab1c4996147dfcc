import VaultServer.Auth.Guards

/-!
# Confirming an action

`api/core/two_factor/protected_actions.rs` and `PasswordOrOtpData` of `api/mod.rs`. What changes the
security of an account asks for the password once more, or for a code that was sent by mail. There
is one code per account; wrong guesses are counted in its row, and the code goes with its first use
by a request that says so.
-/

namespace VaultServer

open Lib

variable (env : Env)

def User.checkValidPassword (u : User) (password : String) : Bool :=
  env.hashPassword password u.salt u.passwordIterations = u.passwordHash

namespace ProtectedActionData

def new (token : String) : ProtectedActionData := ⟨token, env.now, 0⟩

def fromJson : TwoFactorData → Except Failure ProtectedActionData
  | .protectedAction d => .ok d
  | _ => .error (.err "Could not decode ProtectedActionData from string")

def addAttempt (d : ProtectedActionData) : ProtectedActionData := { d with attempts := d.attempts + 1 }

def timeSinceSent (d : ProtectedActionData) : Time := env.now - d.tokenSent

end ProtectedActionData

def mailDisabledMessage : String :=
  "Email is disabled for this server. Either enable email or login using your master password "
    ++ "instead of login via device."

def protectedAction (db : Db) (user : UserId) : Option TwoFactor :=
  TwoFactor.findByUserAndType db user TwoFactorType.protectedActions.toI32

/-- The code before has to be half a minute old, and makes way. -/
def requestOtp (headers : Headers) : Cmd Unit := do
  ensure env.mailEnabled mailDisabledMessage
  match ← query (protectedAction · headers.user.uuid) with
  | some pa =>
    let paData ← lift (ProtectedActionData.fromJson pa.data)
    let elapsed := paData.timeSinceSent env
    ensure (30 ≤ elapsed)
      ("Please wait " ++ toString (30 - elapsed) ++ " seconds before requesting another code.")
    pa.delete
  | none => pure ()
  let token ← getUuid
  let uuid ← getUuid
  TwoFactor.save (.new uuid headers.user.uuid .protectedActions
    (.protectedAction (.new env (toString token))))
  external "mail"

/-- A guess is counted in memory first, and only a wrong one is stored. -/
def checkProtectedAction (otp : String) (deleteIfValid : Bool) (pa : TwoFactor) : Cmd Unit := do
  let paData ← lift (ProtectedActionData.fromJson pa.data)
  let paData := paData.addAttempt
  ensure (paData.attempts < env.emailAttemptsLimit) "Token has expired"
  if paData.timeSinceSent env > env.emailExpirationTime then do
    pa.delete
    err "Token has expired"
  else if paData.token ≠ otp then do
    TwoFactor.save { pa with data := .protectedAction paData }
    err "Token is invalid"
  else Prog.when deleteIfValid pa.delete

def validateProtectedActionOtp (otp : String) (user : UserId) (deleteIfValid : Bool) :
    Cmd Unit := do
  match ← Prog.read (.checkOtp user otp deleteIfValid) fun w => protectedAction w.db user with
  | none => err "Protected action token not found, try sending the code again or restart the process"
  | some pa => checkProtectedAction env otp deleteIfValid pa

def verifyOtp (otp : String) (headers : Headers) : Cmd Unit := do
  ensure env.mailEnabled mailDisabledMessage
  validateProtectedActionOtp env otp headers.user.uuid true

/-- `PasswordOrOtpData`: the password, or a code sent before. -/
structure PasswordOrOtpData where
  masterPasswordHash : Option String
  otp : Option String

def PasswordOrOtpData.validate (data : PasswordOrOtpData) (user : User)
    (deleteIfValid : Bool) : Cmd Unit :=
  match data.masterPasswordHash, data.otp with
  | some hash, none => ensure (user.checkValidPassword env hash) "Invalid password"
  | none, some otp => validateProtectedActionOtp env otp user.uuid deleteIfValid
  | _, _ => err "No validation provided"

end VaultServer
