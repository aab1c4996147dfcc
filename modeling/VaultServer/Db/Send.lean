import VaultServer.Db.User

/-!
# Sends: rows and statements

`db/models/send.rs`. Every save writes the whole row and notes the change on its owner; an access
is counted in one statement that also checks the limit.
-/

namespace VaultServer

open Lib Prog

def SendType.text : Int := 0
def SendType.file : Int := 1

variable (env : Env) (s : Send) (db : Db) (user : UserId)

namespace Send

/-- `uuid` is freshly drawn. -/
def new (uuid : Nat) (atype : Int) (name : String) (data : Value) (akey : String)
    (deletionDate : Time) : Send where
  uuid := ⟨uuid⟩
  userUuid := none
  name := name
  notes := none
  atype := atype
  data := data
  akey := akey
  passwordHash := none
  passwordSalt := none
  passwordIter := none
  maxAccessCount := none
  accessCount := 0
  creationDate := env.now
  revisionDate := env.now
  expirationDate := none
  deletionDate := deletionDate
  disabled := false
  hideEmail := none

/-- A salt is only drawn for a password. -/
def setPassword : Option String → Cmd Send
  | some password => do
    let salt ← getUuid
    pure { s with
      passwordIter := some 100000
      passwordSalt := some salt
      passwordHash := some (env.hashPassword password salt 100000) }
  | none => pure { s with passwordIter := none, passwordSalt := none, passwordHash := none }

def checkPassword (password : String) : Bool :=
  match s.passwordHash, s.passwordSalt, s.passwordIter with
  | some hash, some salt, some iter => env.hashPassword password salt iter = hash
  | _, _, _ => false

/-- Neither disabled nor past one of its dates; the limit and the password are looked at
elsewhere. -/
def isAccessible : Bool :=
  !s.disabled && s.expirationDate.all (fun expiration => env.now < expiration) &&
    env.now < s.deletionDate

def findByUuid (uuid : SendId) : Option Send := db.sends.find? fun s => s.uuid = uuid

def findByUuidAndUser (uuid : SendId) (user : UserId) : Option Send :=
  db.sends.find? fun s => s.uuid = uuid ∧ s.userUuid = some user

def findByUser : List Send := db.sends.rows.filter fun s => s.userUuid = some user

def updateUsersRevision : Cmd Unit :=
  match s.userUuid with
  | some user => User.updateUuidRevision env user
  | none => pure ()

def saveStmt : Option Db :=
  Db.guarded (s.userUuid.all db.hasUser) { db with sends := db.sends.upsert s }

/-- Returns the copy as it was stored. -/
def save : Cmd Send := do
  s.updateUsersRevision env
  let s := { s with revisionDate := env.now }
  exec s.saveStmt "Error saving send" (.saveSend s)
  pure s

/-- One more access is within the limit. -/
def hasAccessLeft : Bool := s.maxAccessCount.all fun limit => s.accessCount < limit

def registerStmt (uuid : SendId) (db : Db) : Db :=
  { db with
    sends := db.sends.updateWhere (fun s => s.uuid = uuid ∧ s.hasAccessLeft)
      (fun s => { s with accessCount := s.accessCount + 1, revisionDate := env.now })
      (fun _ => rfl) fun _ => rfl }

/-- The check and the count are one statement; whether a row was updated is the answer. -/
def registerAccess : Cmd Bool := do
  s.updateUsersRevision env
  .call (.registerAccess s.uuid) (World.exec fun db => some (registerStmt env s.uuid db)) fun w =>
    if w.refuses fun db => some (registerStmt env s.uuid db) then err "Error registering access"
    else pure (w.db.sends.rows.any fun x => x.uuid = s.uuid ∧ x.hasAccessLeft)

/-- The files go first, as far as that works. -/
def delete : Cmd Unit := do
  s.updateUsersRevision env
  when (s.atype = SendType.file) do
    let _ ← (external "Error deleting files").attempt
  execTotal (fun db => { db with sends := db.sends.deleteWhere fun x => x.uuid = s.uuid })
    "Error deleting send"

def deleteAllByUser : Cmd Unit := do
  let sends ← query (findByUser · user)
  each sends fun s => s.delete env

/-- The job that removes what is past its date, as far as that works. -/
def purge : Cmd Unit := do
  let sends ← query fun db => db.sends.rows.filter fun s => s.deletionDate < env.now
  each sends fun s => do
    let _ ← (s.delete env).attempt

end Send

end VaultServer
