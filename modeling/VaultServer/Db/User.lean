import VaultServer.Db.Command
import VaultServer.Lib.Join

/-!
# Accounts: rows and statements

`db/models/user.rs` and the tables that hang off an account.  `User::save` writes every column of
the copy it is given; `update_uuid_revision` writes one column and swallows its errors.
-/

namespace VaultServer

open Lib Prog

variable (env : Env) (s : SsoAuth) (db : Db) (user : UserId) (mail : String)

namespace User

/-- `uuid`, `salt` and `stamp` are freshly drawn. -/
def new (uuid salt stamp : Nat) (email : String) (name : Option String) : User where
  uuid := ⟨uuid⟩
  enabled := true
  createdAt := env.now
  updatedAt := env.now
  verifiedAt := none
  lastVerifyingAt := none
  loginVerifyCount := 0
  email := toLowercase email
  emailNew := none
  emailNewToken := none
  name := name.getD (toLowercase email)
  passwordHash := ""
  salt := salt
  passwordIterations := env.passwordIterations
  passwordHint := none
  akey := ""
  privateKey := none
  publicKey := none
  totpRecover := none
  securityStamp := stamp
  stampException := none
  clientKdfType := 0
  clientKdfIter := 600000
  clientKdfMemory := none
  clientKdfParallelism := none
  apiKey := none
  avatarColor := none

/-- `User::new` with its draws. -/
def fresh (email : String) (name : Option String) : Cmd User := do
  let uuid ← getUuid
  let salt ← getUuid
  let stamp ← getUuid
  pure (new env uuid salt stamp email name)

def findByUuid (uuid : UserId) : Option User := db.users.find? fun u => u.uuid = uuid

def findByMail : Option User := db.users.find? fun u => u.email = toLowercase mail

def saveStmt (u : User) (db : Db) : Option Db :=
  (db.users.upsert? u).map fun t => { db with users := t }

/-- Returns the copy as it was stored. -/
def save (u : User) : Cmd User := do
  ensure (env.isValidEmail u.email) ("User email " ++ u.email ++ " is not a valid email address")
  let u := { u with updatedAt := env.now }
  exec u.saveStmt "Error saving user" (.saveUser u)
  pure u

def touchWhere (p : User → Bool) (db : Db) : Db :=
  { db with
    users := db.users.updateWhere p (fun u => { u with updatedAt := env.now })
      (fun _ => rfl) fun _ => rfl }

def updateRevisionStmt (uuid : UserId) (db : Db) : Db :=
  touchWhere env (fun u => u.uuid = uuid) db

def updateRevision (uuid : UserId) : Cmd Unit :=
  execTotal (updateRevisionStmt env uuid) "Error updating user revision"

def updateUuidRevision (uuid : UserId) : Cmd Unit := do
  let _ ← (updateRevision env uuid).attempt

end User

namespace Invitation

def findByMail : Option Invitation := db.invitations.find? fun i => i.email = toLowercase mail

def save (i : Invitation) : Cmd Unit := do
  ensure (env.isValidEmail i.email)
    ("Invitation email " ++ i.email ++ " is not a valid email address")
  execTotal (fun db => { db with invitations := db.invitations.upsert i }) "Error saving invitation"

def delete (i : Invitation) : Cmd Unit :=
  execTotal (fun db => { db with invitations := db.invitations.deleteWhere fun x => x.email = i.email })
    "Error deleting invitation"

/-- Whether there was an invitation and it could be removed. -/
def take : Cmd Bool := do
  match ← query (findByMail · mail) with
  | some i =>
    match ← i.delete.attempt with
    | .ok () => pure true
    | .error _ => pure false
  | none => pure false

end Invitation

def TwoFactorType.toI32 : TwoFactorType → Int
  | authenticator => 0
  | email => 1
  | duo => 2
  | yubiKey => 3
  | u2f => 4
  | remember => 5
  | organizationDuo => 6
  | webauthn => 7
  | recoveryCode => 8
  | u2fRegisterChallenge => 1000
  | u2fLoginChallenge => 1001
  | emailVerificationChallenge => 1002
  | webauthnRegisterChallenge => 1003
  | webauthnLoginChallenge => 1004
  | protectedActions => 2000

def TwoFactorType.all : List TwoFactorType :=
  [authenticator, email, duo, yubiKey, u2f, remember, organizationDuo, webauthn, recoveryCode,
    u2fRegisterChallenge, u2fLoginChallenge, emailVerificationChallenge, webauthnRegisterChallenge,
    webauthnLoginChallenge, protectedActions]

def TwoFactorType.fromI32 (n : Int) : Option TwoFactorType := all.find? fun t => t.toI32 = n

namespace TwoFactor

/-- `uuid` is the freshly drawn identifier. -/
def new (uuid : Nat) (user : UserId) (atype : TwoFactorType) (data : TwoFactorData) : TwoFactor :=
  ⟨uuid, user, atype, true, data, 0⟩

/-- Types from 1000 on are challenges, not second factors. -/
def findByUser : List TwoFactor :=
  db.twofactor.rows.filter fun t => t.userUuid = user ∧ t.atype.toI32 < 1000

/-- The type is a number that may come from the client. -/
def findByUserAndType (atype : Int) : Option TwoFactor :=
  db.twofactor.find? fun t => t.userUuid = user ∧ t.atype.toI32 = atype

/-- On every backend the row of the same user and type makes way. -/
def saveStmt (t : TwoFactor) (db : Db) : Option Db :=
  Db.guarded (db.hasUser t.userUuid) { db with twofactor := db.twofactor.replace t }

def save (t : TwoFactor) : Cmd Unit := exec t.saveStmt "Error saving twofactor" (.saveTwofactor t)

def delete (t : TwoFactor) : Cmd Unit :=
  execTotal (fun db => { db with twofactor := db.twofactor.deleteWhere fun x => x.uuid = t.uuid })
    "Error deleting twofactor"

def deleteAllByUser : Cmd Unit :=
  execTotal (fun db => { db with twofactor := db.twofactor.deleteWhere fun t => t.userUuid = user })
    "Error deleting twofactors"

/-! ### The data of the e-mail provider -/

namespace EmailTokenData

def new (email token : String) : EmailTokenData := ⟨email, some token, env.now, 0⟩

def setToken (d : EmailTokenData) (token : String) : EmailTokenData :=
  { d with lastToken := some token, tokenSent := env.now }

def resetToken (d : EmailTokenData) : EmailTokenData := { d with lastToken := none, attempts := 0 }

def addAttempt (d : EmailTokenData) : EmailTokenData := { d with attempts := d.attempts + 1 }

def fromJson : TwoFactorData → Except Failure EmailTokenData
  | .email d => .ok d
  | _ => .error (.err "Could not decode EmailTokenData from string")

end EmailTokenData

end TwoFactor

namespace TwoFactorIncomplete

def findByUserAndDevice (device : DeviceId) : Option TwoFactorIncomplete :=
  db.twofactorIncomplete.find? fun t => t.userUuid = user ∧ t.deviceUuid = device

def insertStmt (t : TwoFactorIncomplete) (db : Db) : Option Db :=
  Db.guarded (db.hasUser t.userUuid && (findByUserAndDevice db t.userUuid t.deviceUuid).isNone)
    { db with twofactorIncomplete := db.twofactorIncomplete.upsert t }

/-- Whether unfinished logins are kept at all. -/
def kept : Bool := 0 < env.incomplete2faTimeLimit && env.mailEnabled

/-- An entry that is there keeps its time. -/
def markIncomplete (t : TwoFactorIncomplete) : Cmd Unit :=
  when (kept env) do
    let existing ← query (findByUserAndDevice · t.userUuid t.deviceUuid)
    when existing.isNone (exec t.insertStmt "Error adding twofactor_incomplete record" .write)

def deleteByUserAndDevice (device : DeviceId) : Cmd Unit :=
  execTotal (fun db => { db with
    twofactorIncomplete := db.twofactorIncomplete.deleteWhere fun t =>
      t.userUuid = user ∧ t.deviceUuid = device })
    "Error in twofactor_incomplete::delete_by_user_and_device()"

def markComplete (device : DeviceId) : Cmd Unit :=
  when (kept env) (deleteByUserAndDevice user device)

def deleteAllByUser : Cmd Unit :=
  execTotal (fun db => { db with
    twofactorIncomplete := db.twofactorIncomplete.deleteWhere fun t => t.userUuid = user })
    "Error in twofactor_incomplete::delete_all_by_user()"

end TwoFactorIncomplete

namespace SsoUser

def findByIdentifier (identifier : String) : Option (User × SsoUser) :=
  (innerJoin db.users.rows db.ssoUsers.rows (fun u s => s.userUuid = u.uuid) Prod.mk).find?
    fun (_, s) => s.identifier = identifier

def findByMail : Option (User × Option SsoUser) :=
  (User.findByMail db mail).map fun u => (u, db.ssoUsers.find? fun s => s.userUuid = u.uuid)

/-- On every backend but one the rows of the same account or identifier make way. -/
def saveStmt (s : SsoUser) (db : Db) : Option Db :=
  Db.guarded (db.hasUser s.userUuid) { db with ssoUsers := db.ssoUsers.replace s }

def save (s : SsoUser) : Cmd Unit := exec s.saveStmt "Error saving SSO user" .write

def delete : Cmd Unit :=
  execTotal (fun db => { db with ssoUsers := db.ssoUsers.deleteWhere fun s => s.userUuid = user })
    "Error deleting sso user"

end SsoUser

namespace SsoAuth

/-- A sign-on has to be finished within ten minutes. -/
def current : Bool := env.now - 600 ≤ s.createdAt

def find (state : String) : Option SsoAuth :=
  db.ssoAuth.find? fun s => s.state = state ∧ s.current env

def findByCode (code : String) : Option SsoAuth :=
  db.ssoAuth.find? fun s => s.codeResponse = some code ∧ s.current env

def saveStmt : Option Db := some { db with ssoAuth := db.ssoAuth.upsert s }

def save : Cmd Unit := exec s.saveStmt "Error saving SSO auth" (.saveSsoAuth s)

def deleteStmt (state : String) (db : Db) : Db :=
  { db with ssoAuth := db.ssoAuth.deleteWhere fun s => s.state = state }

/-- How many rows went is not looked at. -/
def delete (label : Call) : Cmd Unit :=
  exec (fun db => some (deleteStmt s.state db)) "Error deleting sso_auth" label

def deleteExpired : Cmd Unit :=
  execTotal (fun db => { db with
    ssoAuth := db.ssoAuth.deleteWhere fun s => s.createdAt < env.now - 600 })
    "Error deleting expired SSO nonce"

end SsoAuth

end VaultServer
