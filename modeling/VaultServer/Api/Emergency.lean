import VaultServer.Api.Security

/-!
# Emergency access

`api/core/emergency_access.rs`: a grantor names a contact, the contact accepts and is confirmed, and
in an emergency asks for the access, which the grantor may approve or reject. A contact with an
approved takeover sets a new password for the grantor.
-/

namespace VaultServer.Emergency

open Lib Prog

variable (env : Env) (emerId : Nat) (headers : Headers) (ea : EmergencyAccess)

def checkEmergencyAccessEnabled : Cmd Unit :=
  ensure env.emergencyAccessAllowed "Emergency access is not enabled."

def notValidMessage : String := "Emergency access not valid."

def EmergencyAccessType.fromStr : String → Option EmergencyAccessType
  | "0" | "View" => some .view
  | "1" | "Takeover" => some .takeover
  | _ => none

structure EmergencyAccessInviteData where
  email : String
  type : String
  waitTimeDays : Int

/-- The account of the contact, and whether it still waits for its registration. -/
def grantee (email : String) : Cmd (User × Bool) := do
  match ← query (User.findByMail · email) with
  | some user => pure (user, user.passwordHash.isEmpty)
  | none =>
    ensure env.invitationsAllowed ("Grantee user does not exist: " ++ email)
    ensure (env.isEmailDomainAllowed email) "Email domain not eligible for invitations"
    when (!env.mailEnabled) (Invitation.save env ⟨toLowercase email⟩)
    let user ← createUser env email
    pure (user, true)

def sendInvite (data : EmergencyAccessInviteData) (headers : Headers) : Cmd Unit := do
  checkEmergencyAccessEnabled env
  let email := toLowercase data.email
  match EmergencyAccessType.fromStr data.type with
  | none => err "Invalid emergency access type."
  | some newType =>
    ensure (email ≠ headers.user.email) "You can not set yourself as an emergency contact."
    let (contact, newUser) ← grantee env email
    let existing ← query (EmergencyAccess.findByGrantorUuidAndGranteeUuidOrEmail ·
      headers.user.uuid contact.uuid contact.email)
    ensure existing.isNone ("Grantee user already invited: " ++ contact.email)
    let uuid ← getUuid
    let ea : EmergencyAccess := ⟨uuid, headers.user.uuid, none, some contact.email, none, newType,
      .invited, data.waitTimeDays, none, none⟩
    ea.save env
    if env.mailEnabled then external "mail"
    else if !newUser then ea.acceptInvite env contact.uuid email

def checkAccount (user : Option UserId) (missing : String) : Cmd Unit := do
  let found ← query fun db => user.bind (User.findByUuid db)
  ensure found.isSome missing

/-- One stage of the way, on the row the caller has a part in: its status is checked, changed and
told to the other side. -/
def advance (found : Option EmergencyAccess) (ok : EmergencyAccessStatus → Bool)
    (checkAccounts : EmergencyAccess → Cmd Unit) (change : EmergencyAccess → EmergencyAccess) :
    Cmd Unit :=
  match found with
  | none => err notValidMessage
  | some ea => do
    ensure (ok ea.status) notValidMessage
    checkAccounts ea
    (change ea).save env
    when env.mailEnabled (external "mail")

def checkGrantor : Cmd Unit := checkAccount (some ea.grantorUuid) "Grantor user not found."

def checkGrantee : Cmd Unit := checkAccount ea.granteeUuid "Grantee user not found."

def resendInvite : Cmd Unit := do
  checkEmergencyAccessEnabled env
  match ← query (EmergencyAccess.findByUuidAndGrantorUuid · emerId headers.user.uuid) with
  | none => err notValidMessage
  | some ea =>
    ensure (ea.status = .invited)
      "The grantee user is already accepted or confirmed to the organization"
    match ea.email with
    | none => err "Email not valid."
    | some email =>
      match ← query (User.findByMail · email) with
      | none => err "Grantee user not found."
      | some contact =>
        let invitation ← query (Invitation.findByMail · email)
        if env.mailEnabled then external "mail"
        else if !contact.passwordHash.isEmpty then ea.acceptInvite env contact.uuid email
        else if env.invitationsAllowed ∧ invitation.isNone then
          Invitation.save env ⟨toLowercase email⟩

def acceptInvite (token : Signed EmergencyAccessInviteJwtClaims)
    (headers : Headers) : Cmd Unit := do
  checkEmergencyAccessEnabled env
  let claims ← decodeJwt env token
  ensure (claims.email = headers.user.email) "Claim email does not match current users email"
  match ← query (User.findByMail · claims.email) with
  | none => err "Invited user not found"
  | some contact =>
    let _ ← Invitation.take claims.email
    match ← query (EmergencyAccess.findByUuidAndGranteeEmail · emerId headers.user.email) with
    | none => err notValidMessage
    | some ea =>
      match ← query (User.findByUuid · ea.grantorUuid) with
      | none => err "Grantor user not found."
      | some grantor =>
        ensure (emerId = claims.emerId ∧ grantor.name = claims.grantorName ∧
          grantor.email = claims.grantorEmail) "Emergency access invitation error."
        ea.acceptInvite env contact.uuid contact.email
        when env.mailEnabled (external "mail")

def confirmEmergencyAccess (key : String) (headers : Headers) : Cmd Unit := do
  checkEmergencyAccessEnabled env
  let found ← query (EmergencyAccess.findByUuidAndGrantorUuid · emerId headers.user.uuid)
  advance env found (fun s => s = .accepted)
    (fun ea => do
      checkGrantor ea
      checkGrantee ea)
    fun ea => { ea with status := .confirmed, keyEncrypted := some key, email := none }

def initiateEmergencyAccess : Cmd Unit := do
  checkEmergencyAccessEnabled env
  let found ← query (EmergencyAccess.findByUuidAndGranteeUuid · emerId headers.user.uuid)
  advance env found (fun s => s = .confirmed) checkGrantor
    fun ea => { ea with
      status := .recoveryInitiated
      recoveryInitiatedAt := some env.now
      lastNotificationAt := some env.now }

def approveEmergencyAccess : Cmd Unit := do
  checkEmergencyAccessEnabled env
  let found ← query (EmergencyAccess.findByUuidAndGrantorUuid · emerId headers.user.uuid)
  advance env found (fun s => s = .recoveryInitiated)
    (fun ea => do
      checkGrantor ea
      checkGrantee ea)
    fun ea => { ea with status := .recoveryApproved }

def rejectEmergencyAccess : Cmd Unit := do
  checkEmergencyAccessEnabled env
  let found ← query (EmergencyAccess.findByUuidAndGrantorUuid · emerId headers.user.uuid)
  advance env found (fun s => s = .recoveryInitiated ∨ s = .recoveryApproved) checkGrantee
    fun ea => { ea with status := .confirmed }

structure EmergencyAccessUpdateData where
  type : String
  waitTimeDays : Int
  keyEncrypted : Option String

def postEmergencyAccess (data : EmergencyAccessUpdateData) (headers : Headers) : Cmd Unit := do
  checkEmergencyAccessEnabled env
  match ← query (EmergencyAccess.findByUuidAndGrantorUuid · emerId headers.user.uuid) with
  | none => err notValidMessage
  | some ea =>
    match EmergencyAccessType.fromStr data.type with
    | none => err "Invalid emergency access type."
    | some newType =>
      EmergencyAccess.save env { ea with
        atype := newType
        waitTimeDays := data.waitTimeDays
        keyEncrypted := data.keyEncrypted.or ea.keyEncrypted }

/-- Either side may end it, but not someone who is both. -/
def deleteEmergencyAccess : Cmd Unit := do
  checkEmergencyAccessEnabled env
  let asGrantor ← query (EmergencyAccess.findByUuidAndGrantorUuid · emerId headers.user.uuid)
  let asGrantee ← query (EmergencyAccess.findByUuidAndGranteeUuid · emerId headers.user.uuid)
  match asGrantor, asGrantee with
  | some ea, none => ea.delete env
  | none, some ea => ea.delete env
  | _, _ => err notValidMessage

def isValidRequest (requesting : UserId) (access : EmergencyAccessType) : Bool :=
  ea.granteeUuid = some requesting ∧ ea.status = .recoveryApproved ∧ ea.atype = access

/-- What the contact gets to see of the vault: the ciphers, and the key to them. -/
def viewEmergencyAccess : Cmd (List Cipher × Option String) := do
  checkEmergencyAccessEnabled env
  match ← query (EmergencyAccess.findByUuidAndGranteeUuid · emerId headers.user.uuid) with
  | none => err notValidMessage
  | some ea =>
    ensure (isValidRequest ea headers.user.uuid .view) notValidMessage
    let ciphers ← query (Cipher.findOwnedByUser · ea.grantorUuid)
    pure (ciphers, ea.keyEncrypted)

/-- The key settings of the grantor, and the key to the vault. -/
def takeoverEmergencyAccess : Cmd (User × Option String) := do
  checkEmergencyAccessEnabled env
  match ← query (EmergencyAccess.findByUuidAndGranteeUuid · emerId headers.user.uuid) with
  | none => err notValidMessage
  | some ea =>
    ensure (isValidRequest ea headers.user.uuid .takeover) notValidMessage
    match ← query (User.findByUuid · ea.grantorUuid) with
    | none => err "Grantor user not found."
    | some grantor => pure (grantor, ea.keyEncrypted)

structure EmergencyAccessPasswordData where
  newMasterPasswordHash : String
  key : String

/-- The grantor's second factors go, and the memberships they do not own. -/
def passwordEmergencyAccess (data : EmergencyAccessPasswordData)
    (headers : Headers) : Cmd Unit := do
  checkEmergencyAccessEnabled env
  match ← query (EmergencyAccess.findByUuidAndGranteeUuid · emerId headers.user.uuid) with
  | none => err notValidMessage
  | some ea =>
    ensure (isValidRequest ea headers.user.uuid .takeover) notValidMessage
    match ← loadUser (User.findByUuid · ea.grantorUuid) with
    | none => err "Grantor user not found."
    | some grantor =>
      let grantor ← grantor.setPassword env data.newMasterPasswordHash (some data.key) true none
      let _ ← grantor.save env
      TwoFactor.deleteAllByUser grantor.uuid
      let members ← query (Membership.findAnyStateByUser · grantor.uuid)
      each members fun m => if m.atype ≠ .owner then m.delete env else pure ()

/-! ## The jobs -/

/-- A date can hold the years −262143 to 262142. -/
abbrev InCalendar (t : Time) : Prop := -8334601228800 ≤ t ∧ t ≤ 8210266876799

def addDays (t : Time) (days : Int) : Except Failure Time :=
  if InCalendar (t + days * 86400) then .ok (t + days * 86400)
  else .error (.panic "`NaiveDateTime + TimeDelta` overflowed")

def findAccount (user : UserId) (missing : String) : Cmd Unit := do
  let found ← query (User.findByUuid · user)
  if found.isNone then .fail (.panic missing)

def findAccounts : Cmd Unit := do
  findAccount ea.grantorUuid "Grantor user not found"
  match ea.granteeUuid with
  | none => .fail (.panic "Grantee user invalid")
  | some grantee => findAccount grantee "Grantee user not found"

/-- Both sides are told. -/
def mailTimedOut : Cmd Unit := do
  when env.mailEnabled do
    findAccounts ea
    expectOk (external "mail") "Error on sending email"
    expectOk (external "mail") "Error on sending email"

def mailReminder : Cmd Unit := do
  when env.mailEnabled do
    findAccounts ea
    expectOk (external "mail") "Error on sending email"

/-- One round of a job: what is due is written and told about. -/
def attend (due : EmergencyAccess → Time → Except Failure Bool)
    (write tell : EmergencyAccess → Cmd Unit) (message : String) (ea : EmergencyAccess) :
    Cmd Unit := do
  let initiatedAt ← unwrap ea.recoveryInitiatedAt
  let isDue ← lift (due ea initiatedAt)
  when isDue do
    expectOk (write ea) message
    tell ea

def eachWaiting (due : EmergencyAccess → Time → Except Failure Bool)
    (write tell : EmergencyAccess → Cmd Unit) (message : String) : Cmd Unit :=
  when env.emergencyAccessAllowed do
    let list ← query EmergencyAccess.findAllRecoveriesInitiated
    each list (attend due write tell message)

def recoveryAllowed (initiatedAt : Time) : Except Failure Bool := do
  let allowedAt ← addDays initiatedAt ea.waitTimeDays
  pure (allowedAt ≤ env.now)

/-- Approves what the grantor has left unanswered for as long as they have said. -/
def emergencyRequestTimeoutJob : Cmd Unit :=
  eachWaiting env (recoveryAllowed env)
    (fun ea => ea.updateAccessStatusAndSave env .recoveryApproved) (mailTimedOut env)
    "Unable to update emergency access status"

/-- On an `i32`: a debug build panics here, a release build wraps and then adds past every date. -/
def dayBefore (days : Int) : Except Failure Int :=
  if -2147483648 ≤ days - 1 then .ok (days - 1)
  else .error (.panic "attempt to subtract with overflow")

/-- The last day before the approval has begun, and nothing was sent for a day. -/
def reminderDue (initiatedAt : Time) : Except Failure Bool := do
  let days ← dayBefore ea.waitTimeDays
  let finalAt ← addDays initiatedAt days
  let nextAt ← ea.lastNotificationAt.elim (.ok env.now) (addDays · 1)
  pure (finalAt ≤ env.now && nextAt ≤ env.now)

def emergencyNotificationReminderJob : Cmd Unit :=
  eachWaiting env (reminderDue env)
    (fun ea => ea.updateLastNotificationDateAndSave env) (mailReminder env)
    "Unable to update emergency access notification date"

end VaultServer.Emergency
