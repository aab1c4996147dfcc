import VaultServer.Api.Members

/-!
# Group, policy and directory requests

The handlers of `api/core/organizations.rs` for groups and policies, and the directory import of
`api/core/public.rs`.
-/

namespace VaultServer

open Lib Prog

/-! ## Groups -/

structure GroupRequest where
  name : String
  accessAll : Bool
  externalId : Option String
  collections : List CollectionRights
  users : List MembershipId

namespace GroupRequest

def updateGroup (r : GroupRequest) (g : Group) : Group :=
  { g with name := r.name, accessAll := r.accessAll }

/-- All collections and members belong to the organization. -/
def validate (r : GroupRequest) (org : OrganizationId) : Cmd Unit := do
  let orgCollections ← query (Collection.findByOrganization · org)
  ensure (r.collections.all fun c => orgCollections.any fun k => k.uuid = c.id) "Invalid collection"
  let members ← query (Membership.findByOrg · org)
  ensure (r.users.all fun id => members.any fun m => m.uuid = id) "Invalid member"

end GroupRequest

def groupsDisabledMessage : String := "Group support is disabled"

def groupNotFoundMessage : String := "Group not found"

variable (env : Env) (org : OrganizationId) (groupId : GroupId)

def addUpdateGroup (group : Group) (collections : List CollectionRights)
    (members : List MembershipId) (org : OrganizationId) : Cmd Unit := do
  group.save
  each collections fun c =>
    CollectionGroup.save env ⟨c.id, group.uuid, c.readOnly, c.hidePasswords, c.manage⟩ org
  each members fun m => GroupUser.save env ⟨group.uuid, m⟩

def postGroups (request : GroupRequest) (headers : OrgHeaders) : Cmd Unit := do
  ensure (org = headers.membership.orgUuid) orgIdMessage
  ensure env.orgGroupsEnabled groupsDisabledMessage
  request.validate org
  let uuid ← getUuid
  addUpdateGroup env (Group.new uuid org request.name request.accessAll request.externalId)
    request.collections request.users org

/-- The old assignments go before the new ones are written. -/
def putGroup (request : GroupRequest) (headers : OrgHeaders) : Cmd Unit := do
  ensure (org = headers.membership.orgUuid) orgIdMessage
  ensure env.orgGroupsEnabled groupsDisabledMessage
  match ← query (Group.findByUuidAndOrg · groupId org) with
  | none => err groupNotFoundMessage
  | some group =>
    request.validate org
    CollectionGroup.deleteAllByGroup env groupId org
    GroupUser.deleteAllByGroup env groupId org
    addUpdateGroup env (request.updateGroup group) request.collections request.users org

def deleteGroupImpl (headers : OrgHeaders) (groupId : GroupId) : Cmd Unit := do
  ensure (org = headers.membership.orgUuid) orgIdMessage
  ensure env.orgGroupsEnabled groupsDisabledMessage
  match ← query (Group.findByUuidAndOrg · groupId org) with
  | none => err groupNotFoundMessage
  | some group => group.delete env org

def bulkDeleteGroups (ids : List GroupId) (headers : OrgHeaders) : Cmd Unit := do
  ensure (org = headers.membership.orgUuid) orgIdMessage
  ensure env.orgGroupsEnabled groupsDisabledMessage
  each ids (deleteGroupImpl env org headers)

def putGroupMembers (assigned : List MembershipId) (headers : OrgHeaders) : Cmd Unit := do
  ensure (org = headers.membership.orgUuid) orgIdMessage
  ensure env.orgGroupsEnabled groupsDisabledMessage
  let group ← query (Group.findByUuidAndOrg · groupId org)
  ensure group.isSome "Group could not be found!"
  let members ← query (Membership.findByOrg · org)
  ensure (assigned.all fun id => members.any fun m => m.uuid = id) "Invalid member"
  GroupUser.deleteAllByGroup env groupId org
  each assigned fun m => GroupUser.save env ⟨groupId, m⟩

def postDeleteGroupMember (memberId : MembershipId) (headers : OrgHeaders) : Cmd Unit := do
  ensure (org = headers.membership.orgUuid) orgIdMessage
  ensure env.orgGroupsEnabled groupsDisabledMessage
  let member ← query (Membership.findByUuidAndOrg · memberId org)
  ensure member.isSome "User could not be found or does not belong to the organization."
  let group ← query (Group.findByUuidAndOrg · groupId org)
  ensure group.isSome "Group could not be found or does not belong to the organization."
  GroupUser.deleteByGroupAndMember env groupId memberId

/-! ## Policies -/

def OrgPolicyType.fromI32 (n : Int) : Option OrgPolicyType :=
  ([(0, twoFactorAuthentication), (1, masterPassword), (2, passwordGenerator), (3, singleOrg),
    (5, personalOwnership), (6, disableSend), (7, sendOptions), (8, resetPassword),
    (14, removeUnlockWithPin), (15, restrictedItemTypes), (16, uriMatchDefaults)].find?
      fun (p : Int × OrgPolicyType) => p.1 = n).map fun p => p.2

/-- Revokes a member, after telling them by mail. -/
def revokeForPolicy (m : Membership) : Cmd Unit := do
  when env.mailEnabled do
    let _ ← unwrap (← query (Organization.findByUuid · m.orgUuid))
    let _ ← unwrap (← query (User.findByUuid · m.userUuid))
    external "mail"
  (m.revoke.getD m).save env

/-- Members below admin without a second factor are revoked. -/
def enforce2faPolicyForOrg : Cmd Unit := do
  let _ ← unwrap (← query (Organization.findByUuid · org))
  let members ← query (Membership.findConfirmedByOrg · org)
  each members fun m => do
    let factors ← query (TwoFactor.findByUser · m.userUuid)
    when (m.atype < MembershipType.admin ∧ factors.isEmpty) (revokeForPolicy env m)

/-- Members below admin that are in other organizations too are revoked. -/
def enforceSingleOrgPolicy : Cmd Unit := do
  let members ← query (Membership.findByOrg · org)
  each members fun m => do
    let others ← query (Membership.countAcceptedAndConfirmedByUser · m.userUuid m.orgUuid)
    when (m.atype < MembershipType.admin ∧ !m.hasStatus .invited ∧ others > 0)
      (revokeForPolicy env m)

def policyEnabled (db : Db) (org : OrganizationId) (policyType : OrgPolicyType) : Bool :=
  (OrgPolicy.findByOrgAndType db org policyType).any fun p => p.enabled

structure PolicyData where
  enabled : Bool
  data : Option Value

/-- The reset policy needs the single-organization policy, where that is configured. -/
def checkPolicyDependency (policyType : OrgPolicyType) (enabled : Bool) : Cmd Unit := do
  let single ← query (policyEnabled · org .singleOrg)
  let reset ← query (policyEnabled · org .resetPassword)
  ensure (!env.enforceSingleOrgWithResetPwPolicy ∨ policyType ≠ .resetPassword ∨ !enabled ∨ single)
    "Single Organization policy is not enabled. It is mandatory for this policy to be enabled."
  ensure (!env.enforceSingleOrgWithResetPwPolicy ∨ policyType ≠ .singleOrg ∨ enabled ∨ !reset)
    "Account recovery policy is enabled. It is not allowed to disable this policy."

def putPolicy (polType : Int) (data : PolicyData) (headers : OrgHeaders) : Cmd Unit := do
  ensure (org = headers.membership.orgUuid) orgIdMessage
  match OrgPolicyType.fromI32 polType with
  | none => err "Invalid or unsupported policy type"
  | some policyType =>
    checkPolicyDependency env org policyType data.enabled
    when (policyType = .twoFactorAuthentication ∧ data.enabled) (enforce2faPolicyForOrg env org)
    when (policyType = .singleOrg ∧ data.enabled) (enforceSingleOrgPolicy env org)
    let text := (data.data.map Value.render).getD "null"
    match ← query (OrgPolicy.findByOrgAndType · org policyType) with
    | some p => OrgPolicy.save { p with enabled := data.enabled, data := text }
    | none =>
      let uuid ← getUuid
      OrgPolicy.save ⟨uuid, org, policyType, data.enabled, text⟩

/-! ## Directory import -/

structure OrgImportGroupData where
  name : String
  externalId : String
  memberExternalIds : List String

structure OrgImportUserData where
  email : String
  externalId : String
  deleted : Bool

structure DirectoryData where
  groups : List OrgImportGroupData
  members : List OrgImportUserData
  overwriteExisting : Bool

/-- Marks a member as removed in the directory; the last confirmed owner keeps their status. -/
def importRevoke (externalId : String) (member : Membership) : Cmd Unit := do
  let owners ← query (Membership.countConfirmedByOrgAndType · org .owner)
  let revoked :=
    if member.atype = .owner ∧ member.hasStatus .confirmed ∧ owners ≤ 1 then none
    else member.revoke
  let member := revoked.getD member
  let renamed := member.setExternalId (some externalId)
  when (revoked.isSome ∨ renamed.isSome) ((renamed.getD member).save env)

/-- A policy that forbids restoring undoes it, but the external id is still stored. -/
def importRestore (externalId : String) (member : Membership) : Cmd Unit := do
  let restored := member.restore
  let changed := restored.getD member
  let renamed := changed.setExternalId (some externalId)
  let changed := renamed.getD changed
  if restored.isSome then do
    match ← catchErr (OrgPolicy.checkUserAllowed env changed "restore") with
    | .ok () => changed.save env
    | .error _ => when renamed.isSome ((changed.revoke.getD changed).save env)
  else when renamed.isSome (changed.save env)

/-- The account of an address in the directory, and whether it was created for it. -/
def importUser (email : String) : Cmd (User × Bool) := do
  match ← query (User.findByMail · email) with
  | some user => pure (user, false)
  | none =>
    let user ← createUser env email
    when (!env.mailEnabled) (Invitation.save env ⟨toLowercase user.email⟩)
    pure (user, true)

def importNewMember (data : OrgImportUserData) : Cmd Unit := do
  let (user, created) ← importUser env data.email
  let status := if env.mailEnabled ∨ user.passwordHash.isEmpty then MembershipStatus.invited
    else .accepted
  match ← query (Organization.findByUuid · org) with
  | none => err "Error looking up organization"
  | some o =>
    let uuid ← getUuid
    let member := Membership.new uuid user.uuid org (some o.billingEmail)
    let member := { (member.setExternalId (some data.externalId)).getD member with
      accessAll := false
      atype := .user
      status := status.toI32 }
    member.save env
    when env.mailEnabled (mailInvite env user member created)

def importMember (data : OrgImportUserData) : Cmd Unit := do
  match ← query (Membership.findByEmailAndOrg · data.email org) with
  | some member =>
    if data.deleted then importRevoke env org data.externalId member
    else importRestore env data.externalId member
  | none => if data.deleted then pure () else importNewMember env org data

def importGroupUuid (data : OrgImportGroupData) : Cmd GroupId := do
  match ← query (Group.findByExternalIdAndOrg · data.externalId org) with
  | some g => pure g.uuid
  | none =>
    let uuid ← getUuid
    let g := Group.new uuid org data.name false (some data.externalId)
    g.save
    pure g.uuid

def importGroupMember (group : GroupId) (externalId : String) : Cmd Unit := do
  match ← query (Membership.findByExternalIdAndOrg · externalId org) with
  | some m => GroupUser.save env ⟨group, m.uuid⟩
  | none => pure ()

def importGroup (data : OrgImportGroupData) : Cmd Unit := do
  let group ← importGroupUuid org data
  GroupUser.deleteAllByGroup env group org
  each data.memberExternalIds (importGroupMember env org group)

/-- Removes a member the directory no longer lists, unless they are the last confirmed owner. -/
def importRemove (listed : List String) (m : Membership) : Cmd Unit := do
  when (m.externalId.any fun id => !listed.contains id) do
    let owners ← query (Membership.countConfirmedByOrgAndType · org .owner)
    if m.atype = .owner ∧ m.hasStatus .confirmed ∧ owners ≤ 1 then pure () else m.delete env

/-- `org` is the organization the API key belongs to. -/
def ldapImport (data : DirectoryData) : Cmd Unit := do
  each data.members (importMember env org)
  when env.orgGroupsEnabled (each data.groups (importGroup env org))
  when data.overwriteExisting do
    let members ← query (Membership.findByOrg · org)
    each members (importRemove env org (data.members.map fun m => m.externalId))

end VaultServer
