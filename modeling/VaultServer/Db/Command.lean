import VaultServer.Db.Schema
import VaultServer.Lib.Text
import VaultServer.Lib.Guarantee

/-!
# Commands against the database

A request handler is a program over the `World`: the database, the source of fresh identifiers and
the faults the outside will still show. There are no transactions: a handler that stops with an
error leaves behind everything it wrote.

A write is one statement. The database refuses it when a constraint forbids it (the statement is
`none`) or when the next outcome in `faults` says so; either way nothing is written and the source
turns the refusal into its message. Mails and file operations consume an outcome too. Reads do
not fail.
-/

namespace VaultServer

open Lib

/-- How a handler stops early: an `Err` with the message shown to the user, an `Err` with a message
per invalid field, or a panic. -/
inductive Failure where
  | err (message : String)
  | invalid (validationErrors : List (String × String))
  | panic (message : String)
  deriving DecidableEq

/-- Which access a call is. Only the accesses whose order matters are told apart. -/
inductive Call where
  | fresh
  | external
  | read
  | write
  | loadUser
  | saveUser (row : User)
  | loadDevice
  | loadDevices (user : UserId)
  | saveDevice (row : Device)
  | rotateIfMatches (device : DeviceId) (user : UserId) (expected new : Secret)
  | loadTwofactor (user : UserId) (atype : TwoFactorType)
  | saveTwofactor (row : TwoFactor)
  | checkOtp (user : UserId) (otp : String) (deleteIfValid : Bool)
  | loadSsoAuth (code : String)
  | saveSsoAuth (row : SsoAuth)
  | redeemSsoAuth (state : String)
  | timeoutEmergencyAccess (access : Nat)
  | loadCipher (cipher : CipherId)
  | saveCipher (row : Cipher)
  | saveSend (row : Send)
  | registerAccess (send : SendId)

/-- The settings of `CONFIG` that the modelled functions read. -/
structure Config where
  orgGroupsEnabled : Bool := false
  mailEnabled : Bool := false
  invitationsAllowed : Bool := true
  passwordIterations : Nat := 600000
  maxNoteSize : Nat := 10000
  email2faAutoFallback : Bool := false
  enforceSingleOrgWithResetPwPolicy : Bool := false
  ssoEnabled : Bool := false
  ssoOnly : Bool := false
  ssoAuthOnlyNotSession : Bool := false
  ssoSignupsMatchEmail : Bool := true
  ssoAllowUnknownEmailVerification : Bool := false
  ssoPkce : Bool := true
  domain : String := ""
  sendsAllowed : Bool := true
  userSendLimit : Option Int := none
  userAttachmentLimit : Option Int := none
  orgAttachmentLimit : Option Int := none
  incomplete2faTimeLimit : Int := 3
  pushEnabled : Bool := false
  signupsVerify : Bool := false
  signupsVerifyResendTime : Nat := 3600
  signupsVerifyResendLimit : Nat := 6
  requireDeviceEmail : Bool := false
  disable2faRemember : Bool := false
  passwordHintsAllowed : Bool := true
  emergencyAccessAllowed : Bool := true
  emailChangeAllowed : Bool := true
  enableEmail2fa : Bool := true
  email2faEnforceOnVerifiedInvite : Bool := false
  emailExpirationTime : Nat := 600
  emailAttemptsLimit : Nat := 3
  authenticatorDisableTimeDrift : Bool := false
  isWebauthn2faSupported : Bool := true
  enableYubico : Bool := true
  yubicoClientId : Option String := none
  yubicoSecretKey : Option String := none
  enableDuo : Bool := true
  duoHost : Option String := none
  duoIkey : Option String := none
  duoSkey : Option String := none

/-- The order in which a hash set or map is walked: any, but every element once. -/
structure WalkOrder (α : Type) where
  order : List α → List α
  perm : ∀ xs, (order xs).Perm xs

def WalkOrder.asGiven {α : Type} : WalkOrder α := ⟨id, fun _ => .refl _⟩

/-- The claims of the note that lets a device skip the second factor. -/
structure TwoFactorRememberClaims where
  nbf : Time
  exp : Time
  sub : DeviceId
  userUuid : UserId
  deriving DecidableEq

/-- The times in a token of the provider. -/
structure BasicTokenClaims where
  iat : Option Time
  nbf : Option Time
  exp : Time

/-- What one request reads besides the database: its settings, the clock, and the library
functions the source calls. -/
structure Env extends Config where
  now : Time := 0
  isValidEmail : String → Bool := fun email =>
    (splitOnce '@' email.toList).any fun p => p.1 ≠ [] ∧ p.2 ≠ []
  isOrgCreationAllowed : String → Bool := fun _ => true
  isEmailDomainAllowed : String → Bool := fun _ => true
  isSignupAllowed : String → Bool := fun _ => true
  encode2faRemember : TwoFactorRememberClaims → String := fun _ => "jwt"
  decode2faRemember : String → Option TwoFactorRememberClaims := fun _ => none
  base32Decode : String → Option (List UInt8) := Lib.base32Decode
  toUppercase : String → String := asciiUppercase
  isNumeric : Char → Bool := Char.isDigit
  totpCustom : List UInt8 → Time → String := fun _ time => toString (time.toNat / 30)
  finishPasskeyRegistration : String → String → Option String := fun response _ => some response
  finishPasskeyAuthentication : String → String → Option String := fun response _ => some response
  updatedRegistrations : String → List WebauthnRegistration → Option (List WebauthnRegistration) :=
    fun _ _ => none
  autoEnroll : String → Bool := fun _ => false
  disableHideEmail : String → Bool := fun _ => false
  getDisplaySize : Int → String := fun n => toString n
  decodeTokenClaims : String → Option BasicTokenClaims := fun _ => none
  decodeState : String → Option String := some
  sha256Hex : String → String := id
  codeChallenge : String → String := id
  isUrl : String → Bool := fun _ => true
  asSendId : String → Option SendId := fun text => (parseInt? text).map fun n => ⟨n.toNat⟩
  hashPassword : String → Secret → Nat → String := fun password _ _ => password
  parseDate : String → Option Time := fun _ => none
  walk : WalkOrder CollectionId := .asGiven

/-- An open channel to a client: messages for `user` go out on it. -/
structure Connection where
  user : UserId
  entry : Nat
  deriving DecidableEq

/-- A code that went out by mail. -/
structure TokenMail where
  email : String
  token : String
  sentAt : Time
  deriving DecidableEq

structure World where
  db : Db
  /-- Identifiers from here on have not been drawn yet. -/
  nextUuid : Nat
  /-- The outcome of each coming write or outside call, `true` for a failure; none left means
  success. -/
  faults : List Bool
  /-- `WS_USERS`, kept in memory only. -/
  hub : List Connection
  /-- The codes for the e-mail provider that were mailed so far. -/
  mailed : List TokenMail

/-- An empty database, and the faults that are going to happen. -/
def World.initial (faults : List Bool) : World := ⟨.empty, 0, faults, [], []⟩

abbrev Cmd (α : Type) := Prog World Call Failure α

def err {α : Type} (message : String) : Cmd α := .fail (.err message)

/-- Stops with `message` unless `b`. -/
def ensure (b : Bool) (message : String) : Cmd Unit := if b then pure () else err message

def query {α : Type} (f : Db → α) : Cmd α := .read .read fun w => f w.db

/-- Reads an account row whose copy the handler may write back later. -/
def loadUser {α : Type} (f : Db → α) : Cmd α := .read .loadUser fun w => f w.db

/-- The same for a device row. -/
def loadDevice {α : Type} (f : Db → α) : Cmd α := .read .loadDevice fun w => f w.db

/-- `get_uuid` and the random secrets. -/
def getUuid : Cmd Nat := .call .fresh (fun w => { w with nextUuid := w.nextUuid + 1 })
  fun w => pure w.nextUuid

def World.refuses (stmt : Db → Option Db) (w : World) : Bool :=
  w.faults.headD false || (stmt w.db).isNone

def World.exec (stmt : Db → Option Db) (w : World) : World :=
  match w.refuses stmt, stmt w.db with
  | false, some db => { w with db := db, faults := w.faults.tail }
  | _, _ => { w with faults := w.faults.tail }

/-- One write statement, reported as `message` when it is refused. -/
def exec (stmt : Db → Option Db) (message : String) (label : Call) : Cmd Unit :=
  .call label (World.exec stmt) fun w => if w.refuses stmt then err message else pure ()

/-- A statement no constraint can refuse. -/
def execTotal (stmt : Db → Db) (message : String) : Cmd Unit :=
  exec (fun db => some (stmt db)) message .write

/-- A mail, a file operation or another call to the outside that may fail. -/
def external (message : String) : Cmd Unit :=
  .call .external (fun w => { w with faults := w.faults.tail })
    fun w => if w.faults.headD false then err message else pure ()

/-- `mail::send_token`: the one mail whose content matters later. -/
def mailToken (env : Env) (email token : String) : Cmd Unit :=
  .call .external
    (fun w => { w with
      faults := w.faults.tail
      mailed := if w.faults.headD false then w.mailed else w.mailed ++ [⟨email, token, env.now⟩] })
    fun w => if w.faults.headD false then err "mail" else pure ()

/-- Hands an `Err` to the rest of the program; a panic goes on unwinding. -/
def catchErr {α : Type} (c : Cmd α) : Cmd (Except Failure α) := do
  match ← c.attempt with
  | .error (.panic message) => .fail (.panic message)
  | outcome => pure outcome

/-- A call to `unwrap` on something that is not there. -/
def unwrap {α : Type} : Option α → Cmd α
  | some a => pure a
  | none => .fail (.panic "called `Option::unwrap()` on a `None` value")

/-- A call to `expect` on a result: an `Err` becomes a panic. -/
def expectOk {α : Type} (c : Cmd α) (message : String) : Cmd α := do
  match ← catchErr c with
  | .ok a => pure a
  | .error _ => .fail (.panic message)

/-- A pure step of a handler that may stop it. -/
def lift {α : Type} : Except Failure α → Cmd α
  | .ok a => pure a
  | .error e => .fail e

/-! ## Foreign keys -/

variable (db : Db)

namespace Db

def hasUser (u : UserId) : Bool := db.users.rows.any fun r => r.uuid = u

def hasOrganization (o : OrganizationId) : Bool := db.organizations.rows.any fun r => r.uuid = o

def hasMembership (m : MembershipId) : Bool := db.usersOrganizations.rows.any fun r => r.uuid = m

def hasCollection (k : CollectionId) : Bool := db.collections.rows.any fun r => r.uuid = k

def hasGroup (g : GroupId) : Bool := db.groups.rows.any fun r => r.uuid = g

def hasCipher (c : CipherId) : Bool := db.ciphers.rows.any fun r => r.uuid = c

def hasFolder (f : FolderId) : Bool := db.folders.rows.any fun r => r.uuid = f

/-- The database a statement leaves, refused unless its references resolve. -/
def guarded (ok : Bool) (db : Db) : Option Db := if ok then some db else none

theorem guarded_eq_some {db db' : Db} (h : db.guarded ok = some db') : ok = true ∧ db' = db := by
  cases ok with
  | false => cases h
  | true => exact ⟨rfl, (Option.some.inj h).symm⟩

end Db

/-! ## Rules -/

theorem World.exec_cases (stmt : Db → Option Db) (w : World) :
    (w.refuses stmt = true ∧ w.exec stmt = { w with faults := w.faults.tail }) ∨
    ∃ db, w.refuses stmt = false ∧ stmt w.db = some db ∧
      w.exec stmt = { w with db := db, faults := w.faults.tail } := by
  unfold World.exec
  cases hr : w.refuses stmt with
  | true => exact .inl ⟨rfl, rfl⟩
  | false =>
    cases hs : stmt w.db with
    | none => rw [World.refuses, hs] at hr; simp at hr
    | some db => exact .inr ⟨db, rfl, rfl, rfl⟩

/-! Commands under a guarantee; what a statement does to the data is up to the guarantee. -/

namespace Safe

variable {G : Guarantee World} {α β : Type} {w : World} {R : β → World → Prop}

theorem query {f : Db → α} {k : α → Cmd β} (h : Prog.Safe G w (k (f w.db)) R) :
    Prog.Safe G w (VaultServer.query f >>= k) R := ⟨h.post⟩

theorem ensure (h : b = true → Prog.Safe G w (k ()) R) :
    Prog.Safe G w (VaultServer.ensure b message >>= k) R := by
  cases b with
  | false => exact .fail
  | true => exact h rfl

theorem lift {k : α → Cmd β} (h : ∀ a, r = .ok a → Prog.Safe G w (k a) R) :
    Prog.Safe G w (VaultServer.lift r >>= k) R := by
  cases r with
  | error => exact .fail
  | ok a => exact h a rfl

/-- A refused statement changes no data. -/
theorem exec {stmt message label} (hno : G.inv w → G.inv { w with faults := w.faults.tail } ∧
      G.rel w { w with faults := w.faults.tail }) (h : ∀ db', stmt w.db = some db' → G.inv w →
      G.inv { w with db := db', faults := w.faults.tail } ∧
        G.rel w { w with db := db', faults := w.faults.tail }) :
    Prog.Safe G w (VaultServer.exec stmt message label) fun _ w' => stmt w.db = some w'.db := by
  have hx := w.exec_cases stmt
  refine Prog.Safe.call (fun hw => ?_) ?_
  · obtain ⟨-, hx⟩ | ⟨db', -, hs, hx⟩ := hx
    · rw [hx]; exact hno hw
    · rw [hx]; exact h db' hs hw
  · obtain ⟨hr, -⟩ | ⟨db', hr, hs, hx⟩ := hx
    · rw [hr]; exact .fail
    · rw [hr, hx]; exact .ret hs

end Safe

end VaultServer
