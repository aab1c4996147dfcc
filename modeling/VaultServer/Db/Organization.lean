import VaultServer.Db.Cipher
import VaultServer.Db.Send

/-!
# Organizations, policies and the removal of accounts

The write side of `db/models/organization.rs`, `db/models/org_policy.rs`,
`db/models/emergency_access.rs`, and `User::delete`. Removing a membership, an organization or an
account first removes what refers to it, one statement after the other.
-/

namespace VaultServer

open Lib Prog

/-! ## Memberships -/

variable (env : Env) (ea : EmergencyAccess) (db : Db) (user : UserId) (org : OrganizationId)

namespace Membership

def findConfirmedByOrg : List Membership :=
  db.usersOrganizations.rows.filter fun m => m.orgUuid = org ∧ m.hasStatus .confirmed

def findByUserAndPolicy (policyType : OrgPolicyType) : List Membership :=
  (innerJoin db.usersOrganizations.rows db.orgPolicies.rows
    (fun m p => p.orgUuid = m.orgUuid ∧ m.userUuid = user ∧ p.atype = policyType ∧ p.enabled)
    fun m _ => m).filter fun m => m.hasStatus .confirmed

/-- The user must exist, the organization too, and the user may not be a member already. -/
def saveStmt (m : Membership) (db : Db) : Option Db :=
  (db.usersOrganizations.upsert? m).bind fun t =>
    Db.guarded (db.hasUser m.userUuid && db.hasOrganization m.orgUuid)
      { db with usersOrganizations := t }

def save (m : Membership) : Cmd Unit := do
  User.updateUuidRevision env m.userUuid
  exec m.saveStmt "Error adding user to organization" .write

/-- Refused while the membership is in a group. -/
def deleteStmt (uuid : MembershipId) (db : Db) : Option Db :=
  Db.guarded (db.groupsUsers.rows.all fun gu => gu.usersOrganizationsUuid ≠ uuid)
    { db with usersOrganizations := db.usersOrganizations.deleteWhere fun m => m.uuid = uuid }

def delete (m : Membership) : Cmd Unit := do
  User.updateUuidRevision env m.userUuid
  CollectionUser.deleteAllByUserAndOrg m.userUuid m.orgUuid
  GroupUser.deleteAllByMember env m.uuid
  exec (deleteStmt m.uuid) "Error removing user from organization" .write

def deleteAllByOrganization : Cmd Unit := do
  let members ← query (findByOrg · org)
  each members fun m => m.delete env

def deleteAllByUser : Cmd Unit := do
  let members ← query (findAnyStateByUser · user)
  each members fun m => m.delete env

def acceptUserInvitationsStmt (db : Db) : Db :=
  { db with
    usersOrganizations := db.usersOrganizations.updateWhere
      (fun m => m.userUuid = user ∧ m.hasStatus .invited)
      (fun m => { m with status := MembershipStatus.accepted.toI32 }) (fun _ => rfl) fun _ => rfl }

def acceptUserInvitations : Cmd Unit :=
  execTotal (acceptUserInvitationsStmt user) "Error confirming invitations"

end Membership

/-! ## Policies -/

/-- `two_factor::email::activate_email_2fa`: a row that waits for the empty code. -/
def activateEmail2fa (user : User) : Cmd Unit := do
  ensure user.verifiedAt.isSome
    "Auto-enabling of email 2FA failed because the users email address has not been verified!"
  let uuid ← getUuid
  TwoFactor.save (.new uuid user.uuid .email (.email (.new env user.email "")))

def findAndActivateEmail2fa : Cmd Unit := do
  match ← query (User.findByUuid · user) with
  | some u => activateEmail2fa env u
  | none => err "User not found!"

namespace OrgPolicy

def findByOrgAndType (policyType : OrgPolicyType) : Option OrgPolicy :=
  db.orgPolicies.find? fun p => p.orgUuid = org ∧ p.atype = policyType

def isEnabledForMember (member : MembershipId) (policyType : OrgPolicyType) : Bool :=
  (Membership.findByUuid db member).any fun m =>
    (findByOrgAndType db m.orgUuid policyType).any fun p => p.enabled

/-- On every backend the row of the same organization and type makes way. -/
def saveStmt (p : OrgPolicy) (db : Db) : Option Db :=
  Db.guarded (db.hasOrganization p.orgUuid) { db with orgPolicies := db.orgPolicies.replace p }

def save (p : OrgPolicy) : Cmd Unit := exec p.saveStmt "Error saving org_policy" .write

def deleteAllByOrganization : Cmd Unit :=
  execTotal (fun db => { db with orgPolicies := db.orgPolicies.deleteWhere fun p => p.orgUuid = org })
    "Error deleting org_policy"

def findAcceptedAndConfirmedByUserAndActivePolicy (policyType : OrgPolicyType) : List OrgPolicy :=
  (innerJoin db.orgPolicies.rows db.usersOrganizations.rows
    (fun p m => m.orgUuid = p.orgUuid ∧ m.userUuid = user) fun p m => (p, m)).filter
      (fun (p, m) => (m.hasStatus .accepted ∨ m.hasStatus .confirmed) ∧ p.atype = policyType ∧
        p.enabled) |>.map fun (p, _) => p

/-- Whether an organization of the user enforces the policy on them: they are a confirmed member
below admin. -/
def isApplicableToUser (policyType : OrgPolicyType) (excludeOrg : Option OrganizationId) : Bool :=
  (findAcceptedAndConfirmedByUserAndActivePolicy db user policyType).any fun p =>
    excludeOrg ≠ some p.orgUuid ∧
      (Membership.findConfirmedByUserAndOrg db user p.orgUuid).any fun m =>
        m.atype < MembershipType.admin

def findConfirmedByUserAndActivePolicy (policyType : OrgPolicyType) : List OrgPolicy :=
  innerJoin db.orgPolicies.rows db.usersOrganizations.rows
    (fun p m => m.orgUuid = p.orgUuid ∧ m.userUuid = user ∧ m.hasStatus .confirmed ∧
      p.atype = policyType ∧ p.enabled) fun p _ => p

/-- Options that cannot be read count as not set. -/
def isHideEmailDisabled : Bool :=
  (findConfirmedByUserAndActivePolicy db user .sendOptions).any fun p =>
    (Membership.findConfirmedByUserAndOrg db user p.orgUuid).any fun m =>
      m.atype < MembershipType.admin && env.disableHideEmail p.data

def checkUserAllowed (m : Membership) (action : String) : Cmd Unit :=
  if m.atype < MembershipType.admin ∧ m.status > MembershipStatus.invited.toI32 then do
    let twoFactor ← query (findByOrgAndType · m.orgUuid .twoFactorAuthentication)
    when (twoFactor.any fun p => p.enabled) do
      let factors ← query (TwoFactor.findByUser · m.userUuid)
      when factors.isEmpty
        (if env.email2faAutoFallback then findAndActivateEmail2fa env m.userUuid
        else err ("Cannot " ++ action ++ " because 2FA is required (membership "
          ++ toString m.uuid.val ++ ")"))
    let forbidden ← query (isApplicableToUser · m.userUuid .singleOrg (some m.orgUuid))
    ensure (!forbidden) ("Cannot " ++ action ++ " because another organization policy forbids it "
      ++ "(membership " ++ toString m.uuid.val ++ ")")
    let single ← query (findByOrgAndType · m.orgUuid .singleOrg)
    when (single.any fun p => p.enabled) do
      let others ← query (Membership.countAcceptedAndConfirmedByUser · m.userUuid m.orgUuid)
      ensure (others = 0) ("Cannot " ++ action ++ " because the organization policy forbids being "
        ++ "part of other organization (membership " ++ toString m.uuid.val ++ ")")
  else pure ()

end OrgPolicy

/-! ## Organizations -/

namespace Organization

def findByUuid (uuid : OrganizationId) : Option Organization :=
  db.organizations.find? fun o => o.uuid = uuid

def saveStmt (o : Organization) (db : Db) : Db :=
  { db with organizations := db.organizations.upsert o }

def save (o : Organization) : Cmd Unit := do
  ensure (env.isValidEmail o.billingEmail)
    ("BillingEmail " ++ o.billingEmail ++ " is not a valid email address")
  let members ← query (Membership.findByOrg · o.uuid)
  each members fun m => User.updateUuidRevision env m.userUuid
  execTotal o.saveStmt "Error saving organization"

/-- Refused while another table refers to the organization. -/
def deleteStmt (uuid : OrganizationId) (db : Db) : Option Db :=
  Db.guarded (db.usersOrganizations.rows.all (fun m => m.orgUuid ≠ uuid) &&
      db.collections.rows.all (fun k => k.orgUuid ≠ uuid) &&
      db.groups.rows.all (fun g => g.organizationsUuid ≠ uuid) &&
      db.ciphers.rows.all (fun c => c.organizationUuid ≠ some uuid) &&
      db.orgPolicies.rows.all (fun p => p.orgUuid ≠ uuid) &&
      db.organizationApiKey.rows.all fun k => k.orgUuid ≠ uuid)
    { db with organizations := db.organizations.deleteWhere fun o => o.uuid = uuid }

def delete (o : Organization) : Cmd Unit := do
  Cipher.deleteAllByOrganization env o.uuid
  Collection.deleteAllByOrganization env o.uuid
  Membership.deleteAllByOrganization env o.uuid
  OrgPolicy.deleteAllByOrganization o.uuid
  Group.deleteAllByOrganization env o.uuid
  execTotal (fun db => { db with
    organizationApiKey := db.organizationApiKey.deleteWhere fun k => k.orgUuid = o.uuid })
    "Error removing organization api key from organization"
  exec (deleteStmt o.uuid) "Error saving organization" .write

end Organization

/-! ## Accounts -/

namespace EmergencyAccess

def findAllByGrantorUuid (grantor : UserId) : List EmergencyAccess :=
  db.emergencyAccess.rows.filter fun ea => ea.grantorUuid = grantor

def findAllByGranteeUuid (grantee : UserId) : List EmergencyAccess :=
  db.emergencyAccess.rows.filter fun ea => ea.granteeUuid = some grantee

def findAllConfirmedByGrantorUuid (grantor : UserId) : List EmergencyAccess :=
  db.emergencyAccess.rows.filter fun ea =>
    ea.grantorUuid = grantor ∧ ea.status ≠ .invited ∧ ea.status ≠ .accepted

def findInvitedByGranteeEmail (email : String) : Option EmergencyAccess :=
  db.emergencyAccess.find? fun ea => ea.email = some email ∧ ea.status = .invited

def findByUuidAndGrantorUuid (uuid : Nat) (grantor : UserId) : Option EmergencyAccess :=
  db.emergencyAccess.find? fun ea => ea.uuid = uuid ∧ ea.grantorUuid = grantor

def findByUuidAndGranteeUuid (uuid : Nat) (grantee : UserId) : Option EmergencyAccess :=
  db.emergencyAccess.find? fun ea => ea.uuid = uuid ∧ ea.granteeUuid = some grantee

def findByUuidAndGranteeEmail (uuid : Nat) (email : String) : Option EmergencyAccess :=
  db.emergencyAccess.find? fun ea => ea.uuid = uuid ∧ ea.email = some email

def findByGrantorUuidAndGranteeUuidOrEmail (grantor grantee : UserId) (email : String) :
    Option EmergencyAccess :=
  db.emergencyAccess.find? fun ea =>
    ea.grantorUuid = grantor ∧ (ea.granteeUuid = some grantee ∨ ea.email = some email)

def findAllInvitedByGranteeEmail (email : String) : List EmergencyAccess :=
  db.emergencyAccess.rows.filter fun ea => ea.email = some email ∧ ea.status = .invited

def findAllRecoveriesInitiated : List EmergencyAccess :=
  db.emergencyAccess.rows.filter fun ea =>
    ea.status = .recoveryInitiated ∧ ea.recoveryInitiatedAt.isSome

def saveStmt : Option Db :=
  Db.guarded (db.hasUser ea.grantorUuid && ea.granteeUuid.all db.hasUser)
    { db with emergencyAccess := db.emergencyAccess.upsert ea }

def save : Cmd Unit := do
  User.updateUuidRevision env ea.grantorUuid
  exec ea.saveStmt "Error saving emergency access" .write

/-- Only the status, whatever the row has become meanwhile. -/
def updateStatusStmt (uuid : Nat) (status : EmergencyAccessStatus) (db : Db) : Db :=
  { db with
    emergencyAccess := db.emergencyAccess.updateWhere (fun ea => ea.uuid = uuid)
      (fun ea => { ea with status := status }) (fun _ => rfl) fun _ => rfl }

def updateAccessStatusAndSave (status : EmergencyAccessStatus) : Cmd Unit :=
  match ea.granteeUuid with
  | none => .fail (.panic "Error getting grantee")
  | some grantee => do
    User.updateUuidRevision env grantee
    exec (fun db => some (updateStatusStmt ea.uuid status db))
      "Error updating emergency access status" (.timeoutEmergencyAccess ea.uuid)

/-- Only the date of the last reminder. -/
def updateLastNotificationDateAndSave : Cmd Unit :=
  execTotal (fun db => { db with
    emergencyAccess := db.emergencyAccess.updateWhere (fun x => x.uuid = ea.uuid)
      (fun x => { x with lastNotificationAt := some env.now }) (fun _ => rfl) fun _ => rfl })
    "Error updating emergency access status"

def delete : Cmd Unit := do
  User.updateUuidRevision env ea.grantorUuid
  execTotal (fun db => { db with
    emergencyAccess := db.emergencyAccess.deleteWhere fun x => x.uuid = ea.uuid })
    "Error removing user from emergency access"

def deleteAllByUser : Cmd Unit := do
  let asGrantor ← query (findAllByGrantorUuid · user)
  each asGrantor fun ea => ea.delete env
  let asGrantee ← query (findAllByGranteeUuid · user)
  each asGrantee fun ea => ea.delete env

def deleteAllByGranteeEmail (email : String) : Cmd Unit := do
  let invited ← query (findAllInvitedByGranteeEmail · email)
  each invited fun ea => ea.delete env

end EmergencyAccess

/-- `Device::delete_all_by_user`. -/
def Device.deleteAllByUser : Cmd Unit :=
  execTotal (fun db => { db with devices := db.devices.deleteWhere fun d => d.userUuid = user })
    "Error removing devices for user"

namespace User

/-- Refused while another table refers to the account; the single sign-on link and the archive
marks go with it. -/
def deleteStmt (uuid : UserId) (db : Db) : Option Db :=
  Db.guarded (db.usersOrganizations.rows.all (fun m => m.userUuid ≠ uuid) &&
      db.usersCollections.rows.all (fun cu => cu.userUuid ≠ uuid) &&
      db.ciphers.rows.all (fun c => c.userUuid ≠ some uuid) &&
      db.favorites.rows.all (fun f => f.userUuid ≠ uuid) &&
      db.folders.rows.all (fun f => f.userUuid ≠ uuid) &&
      db.devices.rows.all (fun d => d.userUuid ≠ uuid) &&
      db.twofactor.rows.all (fun t => t.userUuid ≠ uuid) &&
      db.twofactorIncomplete.rows.all (fun t => t.userUuid ≠ uuid) &&
      db.authRequests.rows.all (fun a => a.userUuid ≠ uuid) &&
      db.sends.rows.all (fun s => s.userUuid ≠ some uuid) &&
      db.emergencyAccess.rows.all fun ea => ea.grantorUuid ≠ uuid ∧ ea.granteeUuid ≠ some uuid)
    { db with
      users := db.users.deleteWhere fun u => u.uuid = uuid
      ssoUsers := db.ssoUsers.deleteWhere fun s => s.userUuid = uuid
      archives := db.archives.deleteWhere fun a => a.userUuid = uuid }

/-- Whether the user is the only confirmed owner of one of their organizations. -/
def isLastOwner (uuid : UserId) : Bool :=
  (Membership.findConfirmedByUser db uuid).any fun m =>
    m.atype = .owner ∧ Membership.countConfirmedByOrgAndType db m.orgUuid .owner ≤ 1

/-- What the account owns goes table by table, and the account last. -/
def delete (env : Env) (u : User) : Cmd Unit := do
  let lastOwner ← query (isLastOwner · u.uuid)
  ensure (!lastOwner) "Can't delete last owner"
  Send.deleteAllByUser env u.uuid
  EmergencyAccess.deleteAllByUser env u.uuid
  EmergencyAccess.deleteAllByGranteeEmail env u.email
  Membership.deleteAllByUser env u.uuid
  Cipher.deleteAllByUser env u.uuid
  Favorite.deleteAllByUser u.uuid
  Folder.deleteAllByUser env u.uuid
  Device.deleteAllByUser u.uuid
  TwoFactor.deleteAllByUser u.uuid
  TwoFactorIncomplete.deleteAllByUser u.uuid
  let _ ← Invitation.take u.email
  exec (deleteStmt u.uuid) "Error deleting user" .write

end User

end VaultServer
