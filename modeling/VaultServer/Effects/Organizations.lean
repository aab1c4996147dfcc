import VaultServer.Effects.Vault

/-!
# What the organization requests write

The requests on collections and groups leave the memberships alone, and no request of a member
touches another account, unless an invitation is taken back.
-/

namespace VaultServer

open Lib

variable {u : User} {data : FullCollectionData} {k : CollectionId} {ks : List CollectionId}
  {m : Membership} {g : GroupId} {email : String}

variable {env : Env} {S : List Part} {org : OrganizationId} {headers : OrgHeaders}

/-! ## Removing what belongs to an organization or an account -/

theorem Collection.deleteAllByOrganization_writes :
    Writes collectionParts (Collection.deleteAllByOrganization env org) :=
  .seq .query <| .each fun _ => Collection.delete_writes

theorem Group.deleteAllByOrganization_writes :
    Writes groupParts (Group.deleteAllByOrganization env org) :=
  .seq .query <| .each fun _ => Group.delete_writes

theorem Membership.deleteAllByOrganization_writes :
    Writes memberParts (Membership.deleteAllByOrganization env org) :=
  .seq .query <| .each fun _ => Membership.delete_writes

theorem Membership.deleteAllByUser_writes {u} :
    Writes memberParts (Membership.deleteAllByUser env u) :=
  .seq .query <| .each fun _ => Membership.delete_writes

/-- The tables an organization's removal writes. -/
def organizationParts : List Part :=
  [.organizations, .organizationApiKey, .orgPolicies] ++ memberParts ++ groupParts ++
    collectionParts ++ cipherParts

theorem Organization.delete_writes {o : Organization} :
    Writes organizationParts (o.delete env) := by
  refine .past Cipher.deleteAllByOrganization_writes rfl ?_
  refine .past Collection.deleteAllByOrganization_writes rfl ?_
  refine .past Membership.deleteAllByOrganization_writes rfl ?_
  refine .past OrgPolicy.deleteAllByOrganization_writes rfl ?_
  refine .past Group.deleteAllByOrganization_writes rfl ?_
  exact .seq (.total fun _ => rfl) <| .guarded fun _ => rfl

/-- The tables an account's removal writes. -/
def accountParts : List Part :=
  [.users, .userIds, .devices, .invitations, .twofactor, .twofactorIncomplete, .ssoUsers,
    .emergencyAccess, .sends, .folders] ++ memberParts ++ cipherParts

/-- The parts that are purged before an account is deleted. -/
def purgeParts : List Part :=
  [.devices, .invitations, .twofactor, .twofactorIncomplete, .emergencyAccess, .sends, .folders] ++
    memberParts ++ cipherParts

/-- A deletion up to its last statement. -/
def User.purge (env : Env) (u : User) : Cmd Unit := do
  let lastOwner ← query (isLastOwner · u.uuid)
  ensure (!lastOwner) "Can't delete last owner"
  Send.deleteAllByUser env u.uuid
  EmergencyAccess.deleteAllByUser env u.uuid
  EmergencyAccess.deleteAllByGranteeEmail env u.email
  Membership.deleteAllByUser env u.uuid
  Cipher.deleteAllByUser env u.uuid
  Favorite.deleteAllByUser u.uuid
  Folder.deleteAllByUser env u.uuid
  Device.deleteAllByUser u.uuid
  TwoFactor.deleteAllByUser u.uuid
  TwoFactorIncomplete.deleteAllByUser u.uuid
  let _ ← Invitation.take u.email

theorem User.delete_eq : u.delete env = (do
    u.purge env
    exec (deleteStmt u.uuid) "Error deleting user" .write) := by
  simp only [User.delete, User.purge, bind_assoc, pure_bind]

theorem User.purge_writes : Writes purgeParts (u.purge env) := by
  refine .seq .query <| .check ?_
  refine .past Send.deleteAllByUser_writes rfl ?_
  refine .past EmergencyAccess.deleteAllByUser_writes rfl ?_
  refine .past EmergencyAccess.deleteAllByGranteeEmail_writes rfl ?_
  refine .past Membership.deleteAllByUser_writes rfl ?_
  refine .past Cipher.deleteAllByUser_writes rfl ?_
  refine .past Favorite.deleteWhere_writes rfl ?_
  refine .past Folder.deleteAllByUser_writes rfl ?_
  refine .past Device.deleteAllByUser_writes rfl ?_
  refine .past TwoFactor.deleteAllByUser_writes rfl ?_
  refine .past TwoFactorIncomplete.deleteAllByUser_writes rfl ?_
  exact .past Invitation.take_writes rfl .ret

theorem User.delete_writes : Writes accountParts (u.delete env) := by
  rw [User.delete_eq]
  exact .past User.purge_writes rfl <| .guarded fun _ => rfl

/-! ## Organizations and collections -/

theorem createOrganization_writes {data} :
    Writes [.organizations, .usersOrganizations, .collections] (createOrganization env data u) := by
  refine .check <| .seq .query <| .check ?_
  refine .seq .getUuid <| .seq .getUuid <| .seq .getUuid ?_
  refine .past Organization.save_writes rfl <| .past Membership.save_writes rfl ?_
  exact Collection.save_writes.mono rfl

theorem deleteOrganization_writes {data} :
    Writes (.twofactor :: organizationParts) (deleteOrganization env org data headers) := by
  refine .check <| .past PasswordOrOtpData.validate_writes rfl ?_
  refine .maybe .query .err ?_
  exact Organization.delete_writes.cons

theorem leaveOrganization_writes : Writes memberParts (leaveOrganization env org headers) :=
  .check <| .seq .query <| .check Membership.delete_writes

theorem postOrganization_writes :
    Writes [.organizations] (postOrganization env org name billingEmail headers) := by
  refine .check <| .maybe .query .err ?_
  exact Organization.save_writes

theorem FullCollectionData.validate_writes : Writes S (data.validate org) :=
  .seq (.seq .query .ensure) <| .seq .query .ensure

theorem assignGroups_writes : Writes [.collectionsGroups] (assignGroups env org k groups) :=
  .each fun _ => CollectionGroup.save_writes

theorem assignMembers_writes : Writes [.usersCollections] (assignMembers env org k users) := by
  refine .each fun u => .maybe .query .err ?_
  exact .ite .ret CollectionUser.save_writes

/-- The tables with the assignments of a collection. -/
def assignmentParts : List Part := [.collections, .usersCollections, .collectionsGroups]

theorem reassign_writes : Writes assignmentParts (reassign env org k groups users) := by
  refine .past CollectionGroup.deleteAllByCollection_writes rfl ?_
  refine .past assignGroups_writes rfl ?_
  exact .past CollectionUser.deleteAllByCollection_writes rfl <| assignMembers_writes.mono rfl

theorem postOrganizationCollections_writes :
    Writes assignmentParts (postOrganizationCollections env org data headers) := by
  refine .check <| .seq FullCollectionData.validate_writes ?_
  refine .check <| .seq .getUuid <| .past Collection.save_writes rfl ?_
  exact .past assignGroups_writes rfl <| assignMembers_writes.mono rfl

theorem postBulkAccessCollections_writes {data} :
    Writes assignmentParts (postBulkAccessCollections env org data headers) := by
  refine .check <| .seq .query <| .check ?_
  refine .seq (.seq .query .ensure) <| .each fun k => .maybe .query .err ?_
  exact .seq .query <| .check <| .past Collection.save_writes rfl reassign_writes

theorem postOrganizationCollectionUpdate_writes :
    Writes assignmentParts (postOrganizationCollectionUpdate env org k data headers) := by
  refine .check <| .seq FullCollectionData.validate_writes ?_
  refine .seq .query <| .check <| .maybe .query .err ?_
  exact .past Collection.save_writes rfl reassign_writes

theorem deleteOrganizationCollectionImpl_writes :
    Writes collectionParts (deleteOrganizationCollectionImpl env org headers k) := by
  refine .check <| .maybe .query .err ?_
  exact Collection.delete_writes

theorem bulkDeleteOrganizationCollections_writes :
    Writes collectionParts (bulkDeleteOrganizationCollections env org ks headers) :=
  .check <| .seq (.each fun _ => .seq .query .ensure) <|
    .each fun _ => deleteOrganizationCollectionImpl_writes

theorem importCollection_writes :
    Writes [.collections] (importCollection env org m existing ks data) := by
  unfold importCollection
  split
  · exact .seq .query <| .check .ret
  · exact .check <| .seq .getUuid <| .seq Collection.save_writes .ret

theorem importLink_writes : Writes [.ciphersCollections] (importLink env cs ks r) := by
  unfold importLink
  split
  · exact CollectionCipher.save_writes
  · exact .err

theorem postOrgImport_writes {data} :
    Writes (.collections :: cipherParts) (postOrgImport env org data headers) := by
  refine .check <| .seq validateCipherData_writes <| .seq .query ?_
  refine .seq (.foldl fun _ _ => importCollection_writes.mono rfl) ?_
  refine .seq (.foldl fun cs c => .seq .getUuid ?_) ?_
  · exact .seq (.catchErr (updateCipherFromData_writes.mono rfl)) .ret
  · exact .seq (.each fun _ => importLink_writes.mono rfl) <| User.updateRevision_writes.mono rfl

/-! ## Groups -/

theorem GroupRequest.validate_writes {r : GroupRequest} : Writes S (r.validate org) :=
  .seq .query <| .check <| .seq .query .ensure

theorem addUpdateGroup_writes {g ks ms} : Writes groupParts (addUpdateGroup env g ks ms org) :=
  .past Group.save_writes rfl <|
    .seq (.each fun _ => (CollectionGroup.save_writes.mono rfl)) <|
      .each fun _ => GroupUser.save_writes.mono rfl

theorem postGroups_writes {r} : Writes groupParts (postGroups env org r headers) :=
  .check <| .check <| .seq GroupRequest.validate_writes <| .seq .getUuid addUpdateGroup_writes

theorem putGroup_writes {r} : Writes groupParts (putGroup env org g r headers) := by
  refine .check <| .check <| .maybe .query .err ?_
  refine .seq GroupRequest.validate_writes ?_
  refine .past CollectionGroup.deleteAllByGroup_writes rfl ?_
  exact .past GroupUser.deleteAllByGroup_writes rfl addUpdateGroup_writes

theorem deleteGroupImpl_writes : Writes groupParts (deleteGroupImpl env org headers g) := by
  refine .check <| .check <| .maybe .query .err ?_
  exact Group.delete_writes

theorem bulkDeleteGroups_writes : Writes groupParts (bulkDeleteGroups env org gs headers) :=
  .check <| .check <| .each fun _ => deleteGroupImpl_writes

theorem putGroupMembers_writes : Writes [.groupsUsers] (putGroupMembers env org g ms headers) := by
  refine .check <| .check <| .seq .query <| .check ?_
  refine .seq .query <| .check ?_
  exact .seq GroupUser.deleteAllByGroup_writes <| .each fun _ => GroupUser.save_writes

theorem postDeleteGroupMember_writes {m} :
    Writes [.groupsUsers] (postDeleteGroupMember env org g m headers) :=
  .check <| .check <| .seq .query <| .check <|
    .seq .query <| .check GroupUser.deleteByGroupAndMember_writes

/-! ## Members -/

theorem createUser_writes : Writes [.users] (createUser env email) :=
  .past User.fresh_writes rfl User.save_writes

theorem invitedUser_writes : Writes [.users, .invitations] (invitedUser env org email) := by
  refine .bind .query fun found => ?_
  split
  · refine .check <| .check ?_
    exact .seq (.when (Invitation.save_writes.mono rfl)) <| .past createUser_writes rfl .ret
  · refine .seq .query <| .check <| .ite .ret (.ite ?_ .ret)
    exact .past Invitation.save_writes rfl .ret

theorem grantCollection_writes {u c} :
    Writes [.usersCollections] (grantCollection env org u c) := by
  refine .maybe .query .err ?_
  exact CollectionUser.save_writes

theorem joinGroup_writes {m} : Writes [.groupsUsers] (joinGroup env org m g) :=
  .seq .query <| .check GroupUser.save_writes

theorem mailInvite_writes : Writes accountParts (mailInvite env u m created) := by
  refine .bind (.catchErr .external) fun r => ?_
  split
  · exact .ret
  · exact .seq (.ite User.delete_writes (Membership.delete_writes.mono rfl)) .err

theorem welcomeMember_writes {data created} :
    Writes accountParts (welcomeMember env org data u m created) := by
  refine .seq (.when (.seq .query <| .check mailInvite_writes)) ?_
  refine .seq (.when (.each fun _ => (grantCollection_writes.mono rfl))) ?_
  exact .each fun _ => joinGroup_writes.mono rfl

theorem inviteOne_writes {data newType accessAll invitedBy created} :
    Writes accountParts (inviteOne env org data newType accessAll invitedBy created email) := by
  refine .past invitedUser_writes rfl <| .seq .getUuid ?_
  exact .past Membership.save_writes rfl <| .seq welcomeMember_writes .ret

theorem sendInvite_writes {data} : Writes accountParts (sendInvite env org data headers) := by
  refine .check <| .seq ?_ ?_
  · exact .seq .query <| .check <| .seq .query .ensure
  · split
    · exact .err
    · exact .check <| .seq (.foldl fun _ _ => inviteOne_writes) .ret

theorem reinviteMemberImpl_writes {m} :
    Writes [.usersOrganizations, .invitations] (reinviteMemberImpl env org m) := by
  refine .maybe .query .err ?_
  refine .check <| .maybe .query .err ?_
  refine .check <| .seq .query <| .check ?_
  refine .ite .external (.ite (Invitation.save_writes.mono rfl) ?_)
  exact .past Invitation.take_writes rfl <| Membership.save_writes.mono rfl

theorem forAll_writes {ids} {f : α → Cmd Unit} (h : ∀ x, Writes S (f x)) :
    Writes S (forAll ids f) :=
  .each fun x => .seq (.catchErr (h x)) .ret

/-- The tables joining an organization writes. -/
def joinParts : List Part := [.usersOrganizations, .invitations, .twofactor]

theorem acceptOrgInvite_writes : Writes joinParts (acceptOrgInvite env m key) := by
  refine .check <| .past OrgPolicy.checkUserAllowed_writes rfl ?_
  refine .past Membership.save_writes rfl <| .when ?_
  exact .seq .query <| .check .external

theorem decodeJwt_writes {token : Signed α} : Writes S (decodeJwt env token) :=
  .ite .err (.ite .err (.ite .err .ret))

theorem acceptInvite_writes {m : Option MembershipId} {token : Signed InviteJwtClaims} :
    Writes joinParts (acceptInvite env org m token key u) := by
  refine .seq decodeJwt_writes <| .check <| .check ?_
  refine .check <| .bind (Invitation.take_writes.mono rfl) fun _ => ?_
  split
  · exact .when .external
  · refine .maybe .query .err ?_
    exact .seq .query <| .check acceptOrgInvite_writes

theorem confirmInviteImpl_writes {m key} :
    Writes joinParts (confirmInviteImpl env org headers m key) := by
  refine .check <| .check <| .maybe .query .err ?_
  refine .check <| .check ?_
  refine .past OrgPolicy.checkUserAllowed_writes rfl <| .seq (.when ?_) <|
    Membership.save_writes.mono rfl
  exact .seq .query <| .check <| .seq .query <| .check .external

theorem bulkConfirmInvite_writes {keys} :
    Writes joinParts (bulkConfirmInvite env org keys headers) := by
  refine .check <| forAll_writes fun k => ?_
  split
  · exact .fail
  · exact confirmInviteImpl_writes

theorem editMember_writes {m data} :
    Writes (.twofactor :: memberParts) (editMember env org m data headers) := by
  refine .check ?_
  split
  · exact .err
  · refine .maybe .query .err ?_
    refine .seq .query <| .seq ?_ ?_
    · exact .check <| .check .ensure
    refine .past OrgPolicy.checkUserAllowed_writes rfl <| .seq .query ?_
    refine .seq (.each fun _ => (CollectionUser.delete_writes.mono rfl)) ?_
    refine .seq (.when (.each fun _ => (grantCollection_writes.mono rfl))) ?_
    refine .past GroupUser.deleteAllByMember_writes rfl ?_
    exact .seq (.each fun _ => (joinGroup_writes.mono rfl)) <| Membership.save_writes.mono rfl

theorem deleteMemberImpl_writes {m} :
    Writes (.invitations :: memberParts) (deleteMemberImpl env org headers m) := by
  refine .check <| .maybe .query .err ?_
  refine .check <| .seq .query <| .check ?_
  refine .seq (.bind .query fun found => ?_) <| Membership.delete_writes.mono rfl
  split
  · exact .ret
  · exact .seq .query <| .ite (.past Invitation.take_writes rfl .ret) .ret

theorem revokeMemberImpl_writes {m} :
    Writes [.usersOrganizations] (revokeMemberImpl env org headers m) := by
  refine .check <| .maybe .query .err fun {_} => ?_
  dsimp only
  split
  · exact .err
  · exact .check <| .check <| .seq .query <| .check Membership.save_writes

theorem restoreMemberImpl_writes {m} :
    Writes [.usersOrganizations, .twofactor] (restoreMemberImpl env org headers m) := by
  refine .check <| .maybe .query .err ?_
  refine .check <| .check <| .check ?_
  exact .past OrgPolicy.checkUserAllowed_writes rfl <| Membership.save_writes.mono rfl

theorem checkResetPasswordApplicable_writes : Writes S (checkResetPasswordApplicable env org) := by
  refine .check <| .maybe .query .err ?_
  exact .ensure

theorem putResetPasswordEnrollment_writes {u r} :
    Writes [.usersOrganizations, .twofactor] (putResetPasswordEnrollment env org u r headers) := by
  refine .check <| .seq checkResetPasswordApplicable_writes ?_
  refine .seq (.ite (.seq .query .ensure) (PasswordOrOtpData.validate_writes.mono rfl)) ?_
  exact Membership.save_writes.mono rfl

/-! ## Policies and the directory -/

theorem revokeForPolicy_writes : Writes [.usersOrganizations] (revokeForPolicy env m) := by
  refine .seq (.when ?_) Membership.save_writes
  exact .seq .query <| .seq .unwrap <| .seq .query <| .seq .unwrap .external

theorem putPolicy_writes {polType data} :
    Writes [.usersOrganizations, .orgPolicies] (putPolicy env org polType data headers) := by
  refine .check ?_
  split
  · exact .err
  · refine .seq ?_ <| .seq (.when ?_) <| .seq (.when ?_) ?_
    · exact .seq .query <| .seq .query <| .check .ensure
    · refine .seq .query <| .seq .unwrap <| .seq .query <| .each fun _ => ?_
      exact .seq .query <| .when (revokeForPolicy_writes.mono rfl)
    · refine .seq .query <| .each fun _ => ?_
      exact .seq .query <| .when (revokeForPolicy_writes.mono rfl)
    · refine .bind .query fun found => ?_
      split
      · exact OrgPolicy.save_writes.mono rfl
      · exact .seq .getUuid <| OrgPolicy.save_writes.mono rfl

theorem importRevoke_writes : Writes [.usersOrganizations] (importRevoke env org externalId m) :=
  .seq .query <| .when Membership.save_writes

theorem importRestore_writes :
    Writes [.usersOrganizations, .twofactor] (importRestore env externalId m) := by
  refine .ite ?_ (.when (Membership.save_writes.mono rfl))
  refine .bind (.catchErr (OrgPolicy.checkUserAllowed_writes.mono rfl)) fun r => ?_
  split
  · exact Membership.save_writes.mono rfl
  · exact .when (Membership.save_writes.mono rfl)

theorem importUser_writes : Writes [.users, .invitations] (importUser env email) := by
  refine .bind .query fun found => ?_
  split
  · exact .ret
  · exact .past createUser_writes rfl <| .seq (.when (Invitation.save_writes.mono rfl)) .ret

theorem importMember_writes {data} : Writes accountParts (importMember env org data) := by
  refine .bind .query fun found => ?_
  split
  · exact .ite (importRevoke_writes.mono rfl) (importRestore_writes.mono rfl)
  · refine .ite .ret (.past importUser_writes rfl <| .bind .query fun found => ?_)
    split
    · exact .err
    · exact .seq .getUuid <| .past Membership.save_writes rfl <| .when mailInvite_writes

theorem importGroup_writes {data} : Writes groupParts (importGroup env org data) := by
  refine .seq (.bind .query fun found => ?_) ?_
  · split
    · exact .ret
    · exact .seq .getUuid <| .past Group.save_writes rfl .ret
  · refine .past GroupUser.deleteAllByGroup_writes rfl <| .each fun _ =>
      .bind .query fun found => ?_
    split
    · exact GroupUser.save_writes.mono rfl
    · exact .ret

theorem importRemove_writes : Writes memberParts (importRemove env org listed m) :=
  .when (.seq .query <| .ite .ret Membership.delete_writes)

theorem ldapImport_writes {data} :
    Writes (accountParts ++ groupParts) (ldapImport env org data) := by
  refine .seq (.each fun _ => (importMember_writes.mono rfl)) ?_
  refine .seq (.when (.each fun _ => (importGroup_writes.mono rfl))) <| .when ?_
  exact .seq .query <| .each fun _ => importRemove_writes.mono rfl

end VaultServer
