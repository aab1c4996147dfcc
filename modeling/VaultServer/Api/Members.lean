import VaultServer.Api.Collections

/-!
# Member requests

The handlers of `api/core/organizations.rs` that invite, confirm, change and remove members, and
the directory import of `api/core/public.rs`.
-/

namespace VaultServer

open Lib Prog

/-- The rights a request hands out for one collection. -/
structure CollectionRights where
  id : CollectionId
  readOnly : Bool
  hidePasswords : Bool
  manage : Bool

/-- The custom role sees everything when its three child boxes are ticked. -/
def grantsAccessAll (rawType : String) (newType : MembershipType)
    (permissions : List (String × Value)) : Bool :=
  MembershipType.admin ≤ newType ∨
    (rawType = "4" ∧ ["editAnyCollection", "deleteAnyCollection", "createNewCollections"].all
      fun p => (permissions.find? fun x => x.1 = p).any fun x => x.2.isTrue)

/-! ## Inviting -/

structure InviteData where
  emails : List String
  groups : List GroupId
  type : String
  collections : Option (List CollectionRights)
  permissions : List (String × Value)

def InviteData.validate (data : InviteData) (org : OrganizationId) : Cmd Unit := do
  let orgCollections ← query (Collection.findByOrganization · org)
  ensure ((data.collections.getD []).all fun c => orgCollections.any fun k => k.uuid = c.id)
    "Invalid collection"
  let orgGroups ← query (Group.findByOrganization · org)
  ensure (data.groups.all fun g => orgGroups.any fun x => x.uuid = g) "Invalid group"

variable (env : Env) (org : OrganizationId) (headers : OrgHeaders) (member : Membership)
  (memberId : MembershipId)

/-- A stub account that waits for its registration. -/
def createUser (email : String) : Cmd User := do
  let user ← User.fresh env email none
  user.save env

/-- The account of an invited address, and the status its membership starts with. -/
def invitedUser (email : String) : Cmd (User × MembershipStatus × Bool) := do
  match ← query (User.findByMail · email) with
  | none =>
    ensure env.invitationsAllowed ("User does not exist: " ++ email)
    ensure (env.isEmailDomainAllowed email) "Email domain not eligible for invitations"
    when (!env.mailEnabled) (Invitation.save env ⟨toLowercase email⟩)
    let user ← createUser env email
    pure (user, .invited, true)
  | some user =>
    let member ← query (Membership.findByUserAndOrg · user.uuid org)
    ensure member.isNone ("User already in organization: " ++ email)
    if env.mailEnabled then pure (user, .invited, false)
    else if user.passwordHash.isEmpty then do
      Invitation.save env ⟨toLowercase email⟩
      pure (user, .invited, false)
    else pure (user, .accepted, false)

/-- Assigns one collection of the organization to the user. -/
def grantCollection (user : UserId) (col : CollectionRights) : Cmd Unit := do
  match ← query (Collection.findByUuidAndOrg · col.id org) with
  | none => err "Collection not found in Organization"
  | some k => CollectionUser.save env user k.uuid col.readOnly col.hidePasswords col.manage

def joinGroup (member : MembershipId) (group : GroupId) : Cmd Unit := do
  let found ← query (Group.findByUuidAndOrg · group org)
  ensure found.isSome "Group not found in Organization"
  GroupUser.save env ⟨group, member⟩

/-- The mail that invites; when it cannot be sent, the membership goes again, and the account too if
this request has created one. -/
def mailInvite (user : User) (member : Membership) (userCreated : Bool) : Cmd Unit := do
  match ← catchErr (external "mail") with
  | .ok () => pure ()
  | .error _ => do
    (if userCreated then user.delete env else member.delete env)
    err "Error sending invite"

/-- What follows once the membership is stored: the mail, the collections, the groups. -/
def welcomeMember (data : InviteData) (user : User)
    (member : Membership) (userCreated : Bool) : Cmd Unit := do
  when env.mailEnabled do
    let found ← query (Organization.findByUuid · org)
    ensure found.isSome "Error looking up organization"
    mailInvite env user member userCreated
  when (!member.accessAll) (each (data.collections.getD []) (grantCollection env org user.uuid))
  each data.groups (joinGroup env org member.uuid)

/-- One invited address. The flag says whether an account was created so far in this request; it
is never reset between addresses. -/
def inviteOne (data : InviteData) (newType : MembershipType)
    (accessAll : Bool) (invitedBy : String) (userCreated : Bool) (email : String) : Cmd Bool := do
  let (user, status, created) ← invitedUser env org email
  let userCreated := userCreated || created
  let uuid ← getUuid
  let member := { Membership.new uuid user.uuid org (some invitedBy) with
    accessAll := accessAll
    atype := newType
    status := status.toI32 }
  member.save env
  welcomeMember env org data user member userCreated
  pure userCreated

def sendInvite (data : InviteData) (headers : OrgHeaders) : Cmd Unit := do
  ensure (org = headers.membership.orgUuid) orgIdMessage
  data.validate org
  match MembershipType.fromStr data.type with
  | none => err "Invalid type"
  | some newType =>
    ensure (newType = .user ∨ headers.membershipType = .owner)
      "Only Owners can invite Managers, Admins or Owners"
    let _ ← Prog.foldl data.emails false (inviteOne env org data newType
      (grantsAccessAll data.type newType data.permissions) headers.user.email)

def reinviteMemberImpl : Cmd Unit := do
  match ← query (Membership.findByUuidAndOrg · memberId org) with
  | none => err "The user hasn't been invited to the organization."
  | some member =>
    ensure (member.hasStatus .invited) "The user is already accepted or confirmed to the organization"
    match ← query (User.findByUuid · member.userUuid) with
    | none => err "User not found."
    | some user =>
      ensure (env.invitationsAllowed || !user.passwordHash.isEmpty) "Invitations are not allowed."
      let found ← query (Organization.findByUuid · org)
      ensure found.isSome "Error looking up organization."
      if env.mailEnabled then external "mail"
      else if user.passwordHash.isEmpty then Invitation.save env ⟨toLowercase user.email⟩
      else do
        let _ ← Invitation.take user.email
        Membership.save env { member with status := MembershipStatus.accepted.toI32 }

/-- The bulk variants collect the errors and go on. -/
def forAll {α : Type} (ids : List α) (f : α → Cmd Unit) : Cmd Unit :=
  each ids fun id => do
    let _ ← catchErr (f id)

def reinviteMember (headers : OrgHeaders) : Cmd Unit := do
  ensure (org = headers.membership.orgUuid) orgIdMessage
  reinviteMemberImpl env org memberId

def bulkReinviteMembers (ids : List MembershipId) (headers : OrgHeaders) : Cmd Unit := do
  ensure (org = headers.membership.orgUuid) orgIdMessage
  forAll ids (reinviteMemberImpl env org)

/-! ## Accepting and confirming -/

/-- The claims of an invitation; `none` for the member stands for the fixed id of the admin page. -/
structure InviteJwtClaims where
  email : String
  orgId : OrganizationId
  memberId : Option MembershipId
  invitedByEmail : Option String

/-- `org_is_reset_password_auto_enroll`; `autoEnroll` reads the flag in the policy's text. -/
def orgIsResetPasswordAutoEnroll (db : Db) (org : OrganizationId) : Bool :=
  (OrgPolicy.findByOrgAndType db org .resetPassword).any fun p =>
    p.enabled && env.autoEnroll p.data

/-- `accept_org_invite` of `api/core/mod.rs`. -/
def acceptOrgInvite (resetPasswordKey : Option String) : Cmd Unit := do
  ensure (member.hasStatus .invited) "User already accepted the invitation"
  let member := { member with
    status := MembershipStatus.accepted.toI32
    resetPasswordKey := resetPasswordKey }
  OrgPolicy.checkUserAllowed env member "join"
  member.save env
  when env.mailEnabled do
    let found ← query (Organization.findByUuid · member.orgUuid)
    ensure found.isSome "Organization not found."
    external "mail"

def acceptInvite (memberId : Option MembershipId)
    (token : Signed InviteJwtClaims) (resetPasswordKey : Option String) (user : User) :
    Cmd Unit := do
  let claims ← decodeJwt env token
  ensure (claims.email = user.email) "Invitation was issued to a different account"
  ensure (claims.orgId = org) "Error accepting the invitation"
  ensure (claims.memberId = memberId) "Error accepting the invitation"
  let _ ← Invitation.take claims.email
  match claims.memberId with
  | none => when env.mailEnabled (external "mail")
  | some id =>
    match ← query (Membership.findByUuidAndOrg · id claims.orgId) with
    | none => err "Error accepting the invitation"
    | some member =>
      let autoEnroll ← query (orgIsResetPasswordAutoEnroll env · member.orgUuid)
      ensure (!autoEnroll || resetPasswordKey.isSome)
        "Reset password key is required, but not provided."
      acceptOrgInvite env
        { member with invitedByEmail := member.invitedByEmail.or claims.invitedByEmail }
        (if autoEnroll then resetPasswordKey else none)

def confirmInviteImpl (memberId : MembershipId) (key : String) : Cmd Unit := do
  ensure (org = headers.membership.orgUuid) orgIdMessage
  ensure (!key.isEmpty) "Key or UserId is not set, unable to process request"
  match ← query (Membership.findByUuidAndOrg · memberId org) with
  | none => err "The specified user isn't a member of the organization"
  | some member =>
    ensure (member.atype = .user ∨ headers.membershipType = .owner)
      "Only Owners can confirm Managers, Admins or Owners"
    ensure (member.hasStatus .accepted) "User in invalid state"
    let member := { member with status := MembershipStatus.confirmed.toI32, akey := key }
    OrgPolicy.checkUserAllowed env member "confirm"
    when env.mailEnabled do
      let found ← query (Organization.findByUuid · org)
      ensure found.isSome "Error looking up organization."
      let user ← query (User.findByUuid · member.userUuid)
      ensure user.isSome "Error looking up user."
      external "mail"
    member.save env

structure ConfirmData where
  id : Option MembershipId
  key : Option String

/-- An entry without an id is a panic, which ends the whole request. -/
def bulkConfirmInvite (keys : List ConfirmData) (headers : OrgHeaders) : Cmd Unit := do
  ensure (org = headers.membership.orgUuid) orgIdMessage
  forAll keys fun k =>
    match k.id with
    | none => .fail (.panic "called `Option::unwrap()` on a `None` value")
    | some id => confirmInviteImpl env org headers id (k.key.getD "")

/-! ## Changing and removing -/

structure EditUserData where
  type : String
  collections : Option (List CollectionRights)
  groups : Option (List GroupId)
  permissions : List (String × Value)

/-- Who may change whose role. -/
def checkEdit (newType : MembershipType) (owners : Nat) : Cmd Unit := do
  ensure (newType = member.atype ∨
      (member.atype < MembershipType.admin ∧ newType < MembershipType.admin) ∨
      headers.membershipType = .owner)
    "Only Owners can grant and remove Admin or Owner privileges"
  ensure (member.atype ≠ .owner ∨ headers.membershipType = .owner)
    "Only Owners can edit Owner users"
  ensure (member.atype ≠ .owner ∨ newType = .owner ∨ !member.hasStatus .confirmed ∨ owners > 1)
    "Can't delete the last owner"

/-- The collections and groups are replaced before the membership itself is saved. -/
def editMember (data : EditUserData) (headers : OrgHeaders) : Cmd Unit := do
  ensure (org = headers.membership.orgUuid) orgIdMessage
  match MembershipType.fromStr data.type with
  | none => err "Invalid type"
  | some newType =>
    let accessAll := grantsAccessAll data.type newType data.permissions
    match ← query (Membership.findByUuidAndOrg · memberId org) with
    | none => err "The specified user isn't member of the organization"
    | some member =>
      let owners ← query (Membership.countConfirmedByOrgAndType · org .owner)
      checkEdit headers member newType owners
      let member := { member with accessAll := accessAll, atype := newType }
      OrgPolicy.checkUserAllowed env member "modify"
      let assigned ← query (CollectionUser.findByOrganizationAndUserUuid · org member.userUuid)
      each assigned fun cu => cu.delete env
      when (!accessAll) (each (data.collections.getD []) (grantCollection env org member.userUuid))
      GroupUser.deleteAllByMember env member.uuid
      each (data.groups.getD []) (joinGroup env org member.uuid)
      member.save env

/-- Without mail the pending invitation goes with the user's last invited membership. -/
def forgetInvitation : Cmd Unit := do
  match ← query (User.findByUuid · member.userUuid) with
  | none => pure ()
  | some user =>
    let invited ← query (Membership.findAnyStateByUser · user.uuid)
    if !env.mailEnabled ∧ !invited.any (fun m => m.hasStatus .invited ∧ m.uuid ≠ member.uuid) then
      let _ ← Invitation.take user.email

def deleteMemberImpl (memberId : MembershipId) : Cmd Unit := do
  ensure (org = headers.membership.orgUuid) orgIdMessage
  match ← query (Membership.findByUuidAndOrg · memberId org) with
  | none => err "User to delete isn't member of the organization"
  | some member =>
    ensure (member.atype = .user ∨ headers.membershipType = .owner)
      "Only Owners can delete Admins or Owners"
    let owners ← query (Membership.countConfirmedByOrgAndType · org .owner)
    ensure (member.atype ≠ .owner ∨ !member.hasStatus .confirmed ∨ owners > 1)
      "Can't delete the last owner"
    forgetInvitation env member
    member.delete env

def bulkDeleteMember (ids : List MembershipId) (headers : OrgHeaders) : Cmd Unit := do
  ensure (org = headers.membership.orgUuid) orgIdMessage
  forAll ids (deleteMemberImpl env org headers)

/-! ## Revoking and restoring -/

def revokeMemberImpl (memberId : MembershipId) : Cmd Unit := do
  ensure (org = headers.membership.orgUuid) orgIdMessage
  match ← query (Membership.findByUuidAndOrg · memberId org) with
  | none => err "User not found in organization"
  | some member =>
    match member.revoke with
    | none => err "User is already revoked"
    | some revoked =>
      ensure (member.userUuid ≠ headers.user.uuid) "You cannot revoke yourself"
      ensure (member.atype ≠ .owner ∨ headers.membershipType = .owner)
        "Only owners can revoke other owners"
      let owners ← query (Membership.countConfirmedByOrgAndType · org .owner)
      ensure (member.atype ≠ .owner ∨ owners > 1)
        "Organization must have at least one confirmed owner"
      revoked.save env

/-- A member below accepted counts as not active, so an invited one is saved as it is. -/
def restoreMemberImpl (memberId : MembershipId) : Cmd Unit := do
  ensure (org = headers.membership.orgUuid) orgIdMessage
  match ← query (Membership.findByUuidAndOrg · memberId org) with
  | none => err "User not found in organization"
  | some member =>
    ensure (member.status < MembershipStatus.accepted.toI32) "User is already active"
    ensure (member.userUuid ≠ headers.user.uuid) "You cannot restore yourself"
    ensure (member.atype ≠ .owner ∨ headers.membershipType = .owner)
      "Only owners can restore other owners"
    let member := member.restore.getD member
    OrgPolicy.checkUserAllowed env member "restore"
    member.save env

def bulkRevokeMembers (ids : List MembershipId) (headers : OrgHeaders) : Cmd Unit := do
  ensure (org = headers.membership.orgUuid) orgIdMessage
  forAll ids (revokeMemberImpl env org headers)

def bulkRestoreMembers (ids : List MembershipId) (headers : OrgHeaders) : Cmd Unit := do
  ensure (org = headers.membership.orgUuid) orgIdMessage
  forAll ids (restoreMemberImpl env org headers)

/-! ## Password recovery -/

def checkResetPasswordApplicable : Cmd Unit := do
  ensure env.mailEnabled "Password reset is not supported on an email-disabled instance."
  match ← query (OrgPolicy.findByOrgAndType · org .resetPassword) with
  | none => err "Policy not found"
  | some p => ensure p.enabled "Reset password policy not enabled"

structure EnrollmentRequest where
  resetPasswordKey : Option String
  password : PasswordOrOtpData

def putResetPasswordEnrollment (userId : UserId)
    (request : EnrollmentRequest) (headers : OrgHeaders) : Cmd Unit := do
  ensure (userId = headers.user.uuid) "User to enroll isn't member of required organization"
  checkResetPasswordApplicable env org
  let key := request.resetPasswordKey.filter fun k => !k.isEmpty
  (if key.isNone then do
    let autoEnroll ← query (orgIsResetPasswordAutoEnroll env · org)
    ensure (!autoEnroll) "Reset password can't be withdrawn due to an enterprise policy"
  else request.password.validate env headers.user true)
  Membership.save env { headers.membership with resetPasswordKey := key }

end VaultServer
