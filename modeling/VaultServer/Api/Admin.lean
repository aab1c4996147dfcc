import VaultServer.Api.Identity

/-!
# The admin page

`api/admin.rs`: what the administrator does to accounts, memberships and organizations.
-/

namespace VaultServer.Admin

open Lib

variable (env : Env) (user : UserId)

def getUserOr404 : Cmd User := do
  match ← loadUser (User.findByUuid · user) with
  | some u => pure u
  | none => err "User doesn't exist"

/-- The invitation goes out before the stub is stored. -/
def inviteUser (email : String) : Cmd Unit := do
  let existing ← query (User.findByMail · email)
  ensure existing.isNone "User already exists"
  let user ← User.fresh env email none
  (if env.mailEnabled then external "mail" else Invitation.save env ⟨toLowercase user.email⟩)
  let _ ← user.save env

def deleteUser : Cmd Unit := do
  let u ← getUserOr404 user
  u.delete env

def deleteSsoUser : Cmd Unit := SsoUser.delete user

/-- Push registrations are removed as far as that works. -/
def unregisterPushDevices : Cmd Unit :=
  if env.pushEnabled then do
    let devices ← query (Device.findByUser · user)
    Prog.each (devices.filter fun d => d.pushToken.isSome) fun _ => do
      let _ ← (external "An error occurred during device unregistration").attempt
  else pure ()

def deauthUser : Cmd Unit := do
  let u ← getUserOr404 user
  unregisterPushDevices env user
  Device.deleteAllByUser u.uuid
  let u ← u.resetSecurityStamp env
  let _ ← u.save env

/-- The devices go whatever became of the save, and its error is reported last. -/
def disableUser : Cmd Unit := do
  let u ← getUserOr404 user
  let u ← u.resetSecurityStamp env
  let saved ← catchErr (User.save env { u with enabled := false })
  Device.deleteAllByUser u.uuid
  let _ ← lift saved

def enableUser : Cmd Unit := do
  let u ← getUserOr404 user
  let _ ← User.save env { u with enabled := true }

def remove2fa : Cmd Unit := do
  let u ← getUserOr404 user
  TwoFactor.deleteAllByUser u.uuid
  enforce2faPolicy env u.uuid
  let _ ← User.save env { u with totpRecover := none }

structure MembershipTypeData where
  userType : String
  userUuid : UserId
  orgUuid : OrganizationId

/-- Counts the confirmed owners whatever the state of the edited one. -/
def updateMembershipType (data : MembershipTypeData) : Cmd Unit := do
  match ← query (Membership.findByUserAndOrg · data.userUuid data.orgUuid) with
  | none => err "The specified user isn't member of the organization"
  | some member =>
    match MembershipType.fromStr data.userType with
    | none => err "Invalid type"
    | some newType =>
      let owners ← query (Membership.countConfirmedByOrgAndType · data.orgUuid .owner)
      ensure (member.atype ≠ .owner ∨ newType = .owner ∨ owners > 1)
        "Can't change the type of the last owner"
      let member := { member with atype := newType }
      OrgPolicy.checkUserAllowed env member "modify"
      member.save env

def updateRevisionUsers : Cmd Unit :=
  execTotal (User.touchWhere env fun _ => true) "Error updating revision date for all users"

def deleteOrganization (org : OrganizationId) : Cmd Unit := do
  match ← query (Organization.findByUuid · org) with
  | none => err "Organization doesn't exist"
  | some o => o.delete env

end VaultServer.Admin
