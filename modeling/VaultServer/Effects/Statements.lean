import VaultServer.Effects.Parts

/-!
# What the statements write

One lemma for each function of `db/models` that writes: the tables its statements touch.
-/

namespace VaultServer

open Lib List Table

variable {u : UserId} {S : List Part} {ea : EmergencyAccess} {message : String} {c : CipherId}
  {o : OrganizationId} {k : CollectionId}

variable {env : Env}

/-! ## Accounts -/

/-- Bumping a revision date changes no part. -/
theorem Db.accounts_updateWhere {db : Db} :
    ({ db with users := db.users.updateWhere p (fun u => { u with updatedAt := now }) h1 h2 }
      : Db).accounts = db.accounts := by
  unfold Db.accounts Table.updateWhere
  rw [map_map]
  refine map_congr_left fun u _ => ?_
  by_cases hp : p u = true <;> simp [Function.comp, hp]

theorem Db.userIds_updateWhere {db : Db} : db.userIds ⊆ ({ db with
      users := db.users.updateWhere p (fun u => { u with updatedAt := now }) h1 h2 } : Db).userIds := by
  unfold Db.userIds Table.updateWhere
  intro id hid
  obtain ⟨u, hu, rfl⟩ := mem_map.1 hid
  refine mem_map.2 ⟨_, mem_map_of_mem hu, ?_⟩
  by_cases hp : p u = true <;> simp [hp]

theorem User.updateRevision_writes : Writes [] (User.updateRevision env u) := by
  refine .execTotal fun w t _ => ?_
  cases t with
  | users => exact Db.accounts_updateWhere
  | userIds => exact Db.userIds_updateWhere
  | sessions => exact List.Subset.refl _
  | _ => rfl

theorem User.updateUuidRevision_writes : Writes S (User.updateUuidRevision env u) :=
  (Writes.bind (.attempt User.updateRevision_writes) fun _ => .ret).mono rfl

theorem User.save_writes {u : User} : Writes [.users] (u.save env) := by
  refine .check <| .seq (.execAs rfl rfl fun w db' hs t ht => ?_) .ret
  obtain ⟨table, htable, rfl⟩ := Option.map_eq_some_iff.1 hs
  cases t with
  | userIds =>
    intro id hid
    obtain ⟨_, rfl⟩ := upsert?_eq_some htable
    obtain ⟨v, hv, rfl⟩ := mem_map.1 hid
    -- the stored row takes the place of the one with its identifier
    by_cases hu : v.uuid = u.uuid
    · exact mem_map.2 ⟨_, mem_putRows.2 (.inl rfl), hu.symm⟩
    · exact mem_map.2 ⟨v, mem_putRows.2 (.inr ⟨hv, hu⟩), rfl⟩
  | _ => first | rfl | cases ht (by decide) | exact fun _ h => h

theorem User.fresh_writes {email name} : Writes [] (User.fresh env email name) :=
  .seq .getUuid <| .seq .getUuid <| .seq .getUuid .ret

theorem Invitation.save_writes {i : Invitation} : Writes [.invitations] (i.save env) :=
  .check <| .total fun _ => rfl

theorem Invitation.take_writes : Writes [.invitations] (Invitation.take mail) := by
  refine .bind .query fun found => ?_
  split
  · refine .bind (.attempt (.total fun _ => rfl)) fun r => ?_
    split
    · exact .ret
    · exact .ret
  · exact .ret

theorem TwoFactor.save_writes {tf : TwoFactor} : Writes [.twofactor] tf.save :=
  .guardedAs rfl rfl fun _ => rfl

theorem TwoFactor.delete_writes {tf : TwoFactor} : Writes [.twofactor] tf.delete :=
  .total fun _ => rfl

theorem TwoFactor.deleteAllByUser_writes :
    Writes [.twofactor] (TwoFactor.deleteAllByUser u) := .total fun _ => rfl

theorem TwoFactorIncomplete.markIncomplete_writes :
    Writes [.twofactorIncomplete] (TwoFactorIncomplete.markIncomplete env t) :=
  .when (.seq .query <| .when (.guarded fun _ => rfl))

theorem TwoFactorIncomplete.markComplete_writes :
    Writes [.twofactorIncomplete] (TwoFactorIncomplete.markComplete env u d) :=
  .when (.total fun _ => rfl)

theorem TwoFactorIncomplete.deleteAllByUser_writes :
    Writes [.twofactorIncomplete] (TwoFactorIncomplete.deleteAllByUser u) := .total fun _ => rfl

theorem SsoAuth.save_writes {s : SsoAuth} : Writes [.ssoAuth] s.save :=
  .totalAs rfl rfl fun _ => rfl

theorem SsoAuth.delete_writes {s : SsoAuth} {label : Call}
    (hl : (label.part.all fun t => [Part.ssoAuth].contains t) = true) (hd : label.draws = 0) :
    Writes [.ssoAuth] (s.delete label) :=
  .totalAs hl hd fun _ => rfl

theorem SsoAuth.deleteExpired_writes : Writes [.ssoAuth] (SsoAuth.deleteExpired env) :=
  .total fun _ => rfl

theorem Send.updateUsersRevision_writes {s : Send} : Writes S (s.updateUsersRevision env) := by
  unfold Send.updateUsersRevision
  split
  · exact User.updateUuidRevision_writes
  · exact .ret

theorem Send.save_writes {s : Send} : Writes [.sends] (s.save env) :=
  .seq Send.updateUsersRevision_writes <| .seq (.guardedAs rfl rfl fun _ => rfl) .ret

theorem Send.registerAccess_writes {s : Send} : Writes [.sends] (s.registerAccess env) := by
  refine .seq Send.updateUsersRevision_writes <| ⟨.exec (fun w db' hs t ht => ?_) rfl rfl, ?_⟩
  · obtain rfl := Option.some.inj hs
    exact .of_without (by rfl) ht
  · exact fun _ => Writes.ite .err .ret

theorem Send.delete_writes {s : Send} : Writes [.sends] (s.delete env) :=
  .seq Send.updateUsersRevision_writes <|
    .seq (.when (.seq (.attempt .external) .ret)) <| .total fun _ => rfl

theorem Send.deleteAllByUser_writes : Writes [.sends] (Send.deleteAllByUser env u) :=
  .seq .query <| .each fun _ => Send.delete_writes

theorem Send.purge_writes : Writes [.sends] (Send.purge env) :=
  .seq .query <| .each fun _ => .seq (.attempt Send.delete_writes) .ret

theorem Send.setPassword_writes {s : Send} : Writes S (s.setPassword env password) := by
  cases password with
  | none => exact .ret
  | some => exact .seq .getUuid .ret

theorem SsoUser.save_writes {s : SsoUser} : Writes [.ssoUsers] s.save := .guarded fun _ => rfl

theorem SsoUser.delete_writes : Writes [.ssoUsers] (SsoUser.delete u) := .total fun _ => rfl

/-- What a device's row and its secret are parts of. -/
def deviceParts : List Part := [.devices, .sessions]

theorem Device.save_writes {d : Device} : Writes deviceParts (d.save env b) :=
  .seq (.guardedAs rfl rfl fun _ => rfl) .ret

theorem Device.deleteAllByUser_writes : Writes [.devices] (Device.deleteAllByUser u) := by
  refine .execTotal fun w t ht => ?_
  cases t with
  | devices => exact (ht (by decide)).elim
  | userIds => exact List.Subset.refl _
  | sessions => exact (filter_sublist.map _).subset
  | _ => rfl

theorem EmergencyAccess.save_writes : Writes [.emergencyAccess] (ea.save env) :=
  .seq User.updateUuidRevision_writes <| .guarded fun _ => rfl

theorem EmergencyAccess.updateLastNotificationDateAndSave_writes :
    Writes [.emergencyAccess] (ea.updateLastNotificationDateAndSave env) :=
  .total fun _ => rfl

theorem EmergencyAccess.updateAccessStatusAndSave_writes {status} :
    Writes [.emergencyAccess] (ea.updateAccessStatusAndSave env status) := by
  unfold EmergencyAccess.updateAccessStatusAndSave
  split
  · exact .fail
  · exact .seq User.updateUuidRevision_writes <| .totalAs rfl rfl fun _ => rfl

theorem EmergencyAccess.delete_writes : Writes [.emergencyAccess] (ea.delete env) :=
  .seq User.updateUuidRevision_writes <| .total fun _ => rfl

theorem EmergencyAccess.deleteAllByUser_writes :
    Writes [.emergencyAccess] (EmergencyAccess.deleteAllByUser env u) :=
  .seq .query <| .seq (.each fun _ => EmergencyAccess.delete_writes) <|
    .seq .query <| .each fun _ => EmergencyAccess.delete_writes

theorem EmergencyAccess.deleteAllByGranteeEmail_writes {email} :
    Writes [.emergencyAccess] (EmergencyAccess.deleteAllByGranteeEmail env email) :=
  .seq .query <| .each fun _ => EmergencyAccess.delete_writes

/-! ## Vault items -/

theorem FolderCipher.save_writes {fc : FolderCipher} : Writes [.foldersCiphers] fc.save :=
  .guarded fun _ => rfl

theorem FolderCipher.deleteWhere_writes :
    Writes [.foldersCiphers] (execTotal (FolderCipher.deleteWhere p) message) := .total fun _ => rfl

theorem Folder.save_writes {f : Folder} : Writes [.folders] (f.save env) :=
  .seq User.updateUuidRevision_writes <| .guarded fun _ => rfl

theorem Folder.delete_writes {f : Folder} : Writes [.folders, .foldersCiphers] (f.delete env) :=
  .seq User.updateUuidRevision_writes <|
    .past FolderCipher.deleteWhere_writes rfl <| .guarded fun _ => rfl

theorem Folder.deleteAllByUser_writes :
    Writes [.folders, .foldersCiphers] (Folder.deleteAllByUser env u) :=
  .seq .query <| .each fun _ => Folder.delete_writes

theorem Favorite.deleteWhere_writes :
    Writes [.favorites] (execTotal (Favorite.deleteWhere p) message) := .total fun _ => rfl

theorem Favorite.setFavorite_writes : Writes [.favorites] (Favorite.setFavorite env b c u) := by
  refine .bind .query fun found => ?_
  split
  · exact .seq User.updateUuidRevision_writes <| .guarded fun _ => rfl
  · exact .seq User.updateUuidRevision_writes Favorite.deleteWhere_writes
  · exact .ret

theorem Archive.save_writes : Writes [.archives] (Archive.save env u c at') :=
  .seq User.updateUuidRevision_writes <| .guarded fun _ => rfl

theorem Archive.deleteByCipher_writes : Writes [.archives] (Archive.deleteByCipher env u c) :=
  .seq User.updateUuidRevision_writes <| .total fun _ => rfl

theorem Attachment.save_writes {a : Attachment} : Writes [.attachments] a.save :=
  .guarded fun _ => rfl

theorem Attachment.delete_writes {a : Attachment} : Writes [.attachments] a.delete :=
  .seq (.total fun _ => rfl) .external

theorem Attachment.deleteAllByCipher_writes :
    Writes [.attachments] (Attachment.deleteAllByCipher c) :=
  .seq .query <| .each fun _ => Attachment.delete_writes

theorem Cipher.updateUsersRevision_writes {c : Cipher} : Writes S (c.updateUsersRevision env) :=
  .seq .query <| .each fun _ => User.updateUuidRevision_writes

theorem Cipher.save_writes {c : Cipher} : Writes [.ciphers] (c.save env) :=
  .seq Cipher.updateUsersRevision_writes <| .seq (.guardedAs rfl rfl fun _ => rfl) .ret

theorem CollectionCipher.deleteWhere_writes :
    Writes [.ciphersCollections] (execTotal (CollectionCipher.deleteWhere p) message) :=
  .total fun _ => rfl

/-- The tables a cipher's removal writes. -/
def cipherParts : List Part :=
  [.ciphers, .ciphersCollections, .foldersCiphers, .favorites, .archives, .attachments]

theorem Cipher.delete_writes {c : Cipher} : Writes cipherParts (c.delete env) := by
  refine .seq Cipher.updateUsersRevision_writes ?_
  refine .past FolderCipher.deleteWhere_writes rfl ?_
  refine .past CollectionCipher.deleteWhere_writes rfl ?_
  refine .past Attachment.deleteAllByCipher_writes rfl ?_
  exact .past Favorite.deleteWhere_writes rfl <| .guarded fun _ => rfl

theorem Cipher.deleteAllByOrganization_writes :
    Writes cipherParts (Cipher.deleteAllByOrganization env o) :=
  .seq .query <| .each fun _ => Cipher.delete_writes

theorem Cipher.deleteAllByUser_writes : Writes cipherParts (Cipher.deleteAllByUser env u) :=
  .seq .query <| .each fun _ => Cipher.delete_writes

theorem Cipher.removeFromFolder_writes :
    Writes [.foldersCiphers] (Cipher.removeFromFolder f c) := by
  refine .bind .query fun found => ?_
  split
  · exact FolderCipher.deleteWhere_writes
  · exact .ret

theorem Cipher.moveToFolder_writes {c : Cipher} {f} :
    Writes [.foldersCiphers] (c.moveToFolder env f u) := by
  refine .seq User.updateUuidRevision_writes <| .bind .query fun old => ?_
  split
  · exact .ret
  · exact FolderCipher.save_writes
  · refine .bind .query fun found => ?_
    split
    · exact FolderCipher.deleteWhere_writes
    · exact .err
  · exact .ite .ret (.seq Cipher.removeFromFolder_writes FolderCipher.save_writes)

theorem Cipher.setFavorite_writes {c : Cipher} : Writes [.favorites] (c.setFavorite env b u) := by
  cases b with
  | none => exact .ret
  | some => exact Favorite.setFavorite_writes

/-! ## Collections and groups -/

theorem CollectionUser.save_writes :
    Writes [.usersCollections] (CollectionUser.save env u k r h m) :=
  .seq User.updateUuidRevision_writes <| .guarded fun _ => rfl

theorem CollectionUser.deleteWhere_writes :
    Writes [.usersCollections] (execTotal (CollectionUser.deleteWhere p) message) :=
  .total fun _ => rfl

theorem CollectionUser.delete_writes {cu : CollectionUser} :
    Writes [.usersCollections] (cu.delete env) :=
  .seq User.updateUuidRevision_writes CollectionUser.deleteWhere_writes

theorem CollectionUser.deleteAllByCollection_writes :
    Writes [.usersCollections] (CollectionUser.deleteAllByCollection env k) :=
  .seq .query <| .seq (.each fun _ => User.updateUuidRevision_writes) <|
    CollectionUser.deleteWhere_writes

theorem CollectionUser.deleteAllByUserAndOrg_writes :
    Writes [.usersCollections] (CollectionUser.deleteAllByUserAndOrg u o) :=
  .seq .query <| .each fun _ => CollectionUser.deleteWhere_writes

theorem Collection.updateUsersRevision_writes {k : Collection} :
    Writes S (k.updateUsersRevision env) :=
  .seq .query <| .each fun _ => User.updateUuidRevision_writes

theorem CollectionCipher.updateUsersRevision_writes :
    Writes S (CollectionCipher.updateUsersRevision env k) := by
  refine .bind .query fun found => ?_
  split
  · exact Collection.updateUsersRevision_writes
  · exact .ret

theorem CollectionCipher.save_writes :
    Writes [.ciphersCollections] (CollectionCipher.save env c k) :=
  .seq CollectionCipher.updateUsersRevision_writes <| .guarded fun _ => rfl

theorem CollectionCipher.delete_writes :
    Writes [.ciphersCollections] (CollectionCipher.delete env c k) :=
  .seq CollectionCipher.updateUsersRevision_writes CollectionCipher.deleteWhere_writes

theorem Collection.save_writes {k : Collection} : Writes [.collections] (k.save env) :=
  .seq Collection.updateUsersRevision_writes <| .guarded fun _ => rfl

theorem GroupUser.updateMemberRevision_writes :
    Writes S (GroupUser.updateMemberRevision env m) := by
  refine .bind .query fun found => ?_
  split
  · exact User.updateUuidRevision_writes
  · exact .ret

theorem GroupUser.save_writes {gu : GroupUser} : Writes [.groupsUsers] (gu.save env) :=
  .seq GroupUser.updateMemberRevision_writes <| .guarded fun _ => rfl

theorem GroupUser.deleteWhere_writes :
    Writes [.groupsUsers] (execTotal (GroupUser.deleteWhere p) message) := .total fun _ => rfl

theorem GroupUser.deleteByGroupAndMember_writes :
    Writes [.groupsUsers] (GroupUser.deleteByGroupAndMember env g m) :=
  .seq GroupUser.updateMemberRevision_writes GroupUser.deleteWhere_writes

theorem GroupUser.deleteAllByGroup_writes :
    Writes [.groupsUsers] (GroupUser.deleteAllByGroup env g o) :=
  .seq .query <| .seq (.each fun _ => GroupUser.updateMemberRevision_writes) <|
    GroupUser.deleteWhere_writes

theorem GroupUser.deleteAllByMember_writes :
    Writes [.groupsUsers] (GroupUser.deleteAllByMember env m) :=
  .seq GroupUser.updateMemberRevision_writes GroupUser.deleteWhere_writes

theorem CollectionGroup.updateGroupRevision_writes :
    Writes S (CollectionGroup.updateGroupRevision env g o) :=
  .seq .query <| .each fun _ => GroupUser.updateMemberRevision_writes

theorem CollectionGroup.save_writes {cg : CollectionGroup} :
    Writes [.collectionsGroups] (cg.save env o) :=
  .seq CollectionGroup.updateGroupRevision_writes <| .guarded fun _ => rfl

theorem CollectionGroup.deleteWhere_writes :
    Writes [.collectionsGroups] (execTotal (CollectionGroup.deleteWhere p) message) :=
  .total fun _ => rfl

theorem CollectionGroup.deleteAllByGroup_writes :
    Writes [.collectionsGroups] (CollectionGroup.deleteAllByGroup env g o) :=
  .seq CollectionGroup.updateGroupRevision_writes CollectionGroup.deleteWhere_writes

theorem CollectionGroup.deleteAllByCollection_writes :
    Writes [.collectionsGroups] (CollectionGroup.deleteAllByCollection env k o) :=
  .seq .query <| .seq (.each fun _ => CollectionGroup.updateGroupRevision_writes) <|
    CollectionGroup.deleteWhere_writes

/-- The tables a collection's removal writes. -/
def collectionParts : List Part :=
  [.collections, .ciphersCollections, .usersCollections, .collectionsGroups]

theorem Collection.delete_writes {k : Collection} : Writes collectionParts (k.delete env) := by
  refine .seq Collection.updateUsersRevision_writes ?_
  refine .past CollectionCipher.deleteWhere_writes rfl ?_
  refine .past CollectionUser.deleteAllByCollection_writes rfl ?_
  exact .past CollectionGroup.deleteAllByCollection_writes rfl <| .guarded fun _ => rfl

theorem Group.save_writes {g : Group} : Writes [.groups] g.save := .guarded fun _ => rfl

/-- The tables a group's removal writes. -/
def groupParts : List Part := [.groups, .collectionsGroups, .groupsUsers]

theorem Group.delete_writes {g : Group} : Writes groupParts (g.delete env o) := by
  refine .past CollectionGroup.deleteAllByGroup_writes rfl ?_
  exact .past GroupUser.deleteAllByGroup_writes rfl <| .guarded fun _ => rfl

/-! ## Memberships, policies, organizations -/

theorem Membership.save_writes {m : Membership} : Writes [.usersOrganizations] (m.save env) := by
  refine .seq User.updateUuidRevision_writes <| .execAs rfl rfl fun w db' hs t ht => ?_
  obtain ⟨_, -, hg⟩ := Option.bind_eq_some_iff.1 hs
  obtain ⟨-, rfl⟩ := Db.guarded_eq_some hg
  exact .of_without (by rfl) ht

/-- The tables a membership's removal writes. -/
def memberParts : List Part := [.usersOrganizations, .usersCollections, .groupsUsers]

theorem Membership.delete_writes {m : Membership} : Writes memberParts (m.delete env) := by
  refine .seq User.updateUuidRevision_writes ?_
  refine .past CollectionUser.deleteAllByUserAndOrg_writes rfl ?_
  exact .past GroupUser.deleteAllByMember_writes rfl <| .guarded fun _ => rfl

theorem Membership.acceptUserInvitations_writes :
    Writes [.usersOrganizations] (Membership.acceptUserInvitations u) := .total fun _ => rfl

theorem activateEmail2fa_writes {u} : Writes [.twofactor] (activateEmail2fa env u) :=
  .check <| .seq .getUuid TwoFactor.save_writes

theorem findAndActivateEmail2fa_writes : Writes [.twofactor] (findAndActivateEmail2fa env u) := by
  refine .bind .query fun found => ?_
  split
  · exact activateEmail2fa_writes
  · exact .err

theorem OrgPolicy.save_writes {p : OrgPolicy} : Writes [.orgPolicies] p.save :=
  .guarded fun _ => rfl

theorem OrgPolicy.deleteAllByOrganization_writes :
    Writes [.orgPolicies] (OrgPolicy.deleteAllByOrganization o) := .total fun _ => rfl

theorem OrgPolicy.checkUserAllowed_writes :
    Writes [.twofactor] (OrgPolicy.checkUserAllowed env m action) := by
  refine .ite (.seq .query <| .seq (.when (.seq .query <| .when ?_)) ?_) .ret
  · exact .ite findAndActivateEmail2fa_writes .err
  · exact .seq .query <| .check <| .seq .query <| .when (.seq .query .ensure)

theorem Organization.save_writes {o : Organization} : Writes [.organizations] (o.save env) :=
  .check <| .seq .query <|
    .seq (.each fun _ => User.updateUuidRevision_writes) <| .total fun _ => rfl

end VaultServer
