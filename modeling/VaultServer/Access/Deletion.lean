import VaultServer.Access.SelfGrant

/-!
# Who is told that an item is deleted for good

`delete_cipher_by_uuid` asks for the members to notify after the item and its collection links are
gone. Who saw the item through a collection is not among them any more.
-/

namespace VaultServer

open Lib Access List

variable {env : Env} {cfg : Config} {db : Db} {w : World} {c : Cipher} {u me : UserId}

/-- `delete_cipher_by_uuid` for a single permanent deletion, up to the notification: the accounts
that `send_cipher_update` is given. -/
def hardDeleteTold (env : Env) (me : UserId) (cipherId : CipherId) : Cmd (List UserId) := do
  match ← query (Cipher.findByUuid · cipherId) with
  | none => err "Cipher doesn't exist"
  | some c =>
    let writable ← query (Cipher.isWriteAccessibleToUser env.toConfig · c me)
    ensure writable "Cipher can't be deleted by user"
    c.delete env
    query (Cipher.affectedUsers env.toConfig · c)

/-- The request is this part and the revision of the accounts it found. -/
theorem deleteCipherByUuid_hardSingle {id} : deleteCipherByUuid env me .hardSingle id =
    hardDeleteTold env me id >>= fun users => Prog.each users (User.updateUuidRevision env) := by
  unfold deleteCipherByUuid hardDeleteTold
  rw [bind_assoc]
  refine bind_congr fun o => ?_
  cases o with
  | none => rfl
  | some => simp only [bind_assoc]; rfl

/-- The account sees all items of the item's organization, by the membership or by a group. -/
def WholeAccess (cfg : Config) (db : Db) (c : Cipher) (u : UserId) : Prop :=
  ∃ m, MemberOf db u m ∧ c.organizationUuid = some m.orgUuid ∧
    (m.accessAll = true ∨ cfg.orgGroupsEnabled = true ∧ ∃ g, GroupOf db m g ∧ g.accessAll = true)

def Unlinked (db : Db) (c : Cipher) : Prop :=
  ∀ cc ∈ db.ciphersCollections.rows, cc.cipherUuid ≠ c.uuid

/-! ## The two queries without a collection link -/

theorem mem_findByCipherAndOrg_unlinked (h : Unlinked db c) :
    m ∈ Membership.findByCipherAndOrg db c.uuid org ↔
      m ∈ db.usersOrganizations.rows ∧ m.orgUuid = org ∧ m.accessAll = true := by
  unfold Membership.findByCipherAndOrg
  simp only [mem_selectDistinct, mem_leftJoin, mem_filter, decide_eq_true_eq]
  constructor
  · rintro ⟨_, ⟨_, ⟨m, hm, o, -, rfl⟩, occ, hocc, rfl⟩, hp | hp, rfl⟩
    · exact ⟨hm.1, hm.2, hp⟩
    · obtain ⟨cc, rfl, hcc⟩ := any_iff.1 hp
      exact absurd (of_decide_eq_true hcc) (h cc (some_mem_padded.1 hocc).1)
  · rintro ⟨hm, ho, ha⟩
    obtain ⟨o, hcu⟩ := exists_mem_padded db.usersCollections.rows fun cu => cu.userUuid = m.userUuid
    obtain ⟨occ, hocc⟩ := exists_mem_padded db.ciphersCollections.rows fun cc =>
      (o.any fun cu => cc.collectionUuid = cu.collectionUuid) ∧ cc.cipherUuid = c.uuid
    exact ⟨(m, occ), ⟨(m, o), ⟨m, ⟨hm, ho⟩, o, hcu, rfl⟩, occ, hocc, rfl⟩, .inl ha, rfl⟩

theorem mem_findByCipherAndOrgWithGroup_unlinked (h : Unlinked db c) :
    m ∈ Membership.findByCipherAndOrgWithGroup db c.uuid org ↔
      m ∈ db.usersOrganizations.rows ∧ m.orgUuid = org ∧ ∃ g, GroupOf db m g ∧ g.accessAll = true := by
  unfold Membership.findByCipherAndOrgWithGroup
  simp only [mem_selectDistinct, mem_leftJoin, mem_innerJoin, mem_filter, decide_eq_true_eq]
  constructor
  · rintro ⟨_, ⟨_, ⟨_, ⟨_, ⟨m, hm, gu, hgu, hon, rfl⟩, ocg, -, rfl⟩, og, hog, rfl⟩, occ, hocc, rfl⟩,
      hp | hp, rfl⟩
    · obtain ⟨g, rfl, ha⟩ := any_iff.1 hp
      obtain ⟨hg, hgon⟩ := some_mem_padded.1 hog
      obtain ⟨hid, horg⟩ := of_decide_eq_true hgon
      exact ⟨hm.1, hm.2, g, ⟨hg, horg, gu, hgu, hid.symm, hon⟩, ha⟩
    · obtain ⟨cc, rfl, hcc⟩ := any_iff.1 hp
      exact absurd (of_decide_eq_true hcc) (h cc (some_mem_padded.1 hocc).1)
  · rintro ⟨hm, ho, g, ⟨hg, horg, gu, hgu, hid, hon⟩, ha⟩
    obtain ⟨ocg, hcg⟩ := exists_mem_padded db.collectionsGroups.rows fun cg =>
      cg.groupsUuid = gu.groupsUuid
    obtain ⟨occ, hocc⟩ := exists_mem_padded db.ciphersCollections.rows fun cc =>
      (ocg.any fun cg => cc.collectionUuid = cg.collectionsUuid) ∧ cc.cipherUuid = c.uuid
    have hgroup : some g ∈ padded db.groups.rows fun g =>
        g.uuid = gu.groupsUuid ∧ g.organizationsUuid = m.orgUuid :=
      some_mem_padded.2 ⟨hg, decide_eq_true ⟨hid.symm, horg⟩⟩
    exact ⟨(m, some g, occ), ⟨(m, ocg, some g), ⟨(m, gu, ocg), ⟨(m, gu),
      ⟨m, ⟨hm, ho⟩, gu, hgu, hon, rfl⟩, ocg, hcg, rfl⟩, some g, hgroup, rfl⟩, occ, hocc, rfl⟩,
      .inl ha, rfl⟩

/-- Without a link only full access is left to find a member by. -/
theorem mem_affectedUsers_unlinked (h : Unlinked db c) : u ∈ Cipher.affectedUsers cfg db c ↔
    c.userUuid = some u ∨ c.userUuid = none ∧ WholeAccess cfg db c u := by
  unfold Cipher.affectedUsers WholeAccess MemberOf
  cases hu : c.userUuid with
  | some => simp only [mem_singleton, Option.some.injEq, reduceCtorEq, false_and, or_false, eq_comm]
  | none =>
    cases ho : c.organizationUuid with
    | none => simp
    | some =>
      by_cases hg : cfg.orgGroupsEnabled = true
      · simp only [if_pos hg, map_append, mem_append, mem_map,
          mem_findByCipherAndOrg_unlinked h, mem_findByCipherAndOrgWithGroup_unlinked h]
        grind
      · simp only [if_neg hg, mem_map, mem_findByCipherAndOrg_unlinked h]
        grind

/-! ## The request -/

/-- The last statement of a deletion is refused while a link is there. -/
theorem delete_unlinks : Yields w (c.delete env) fun _ w' => Unlinked w'.db c := by
  unfold Cipher.delete
  refine .pass (S := []) Cipher.updateUsersRevision_writes fun _ w1 _ => ?_
  refine .pass FolderCipher.deleteWhere_writes fun _ w2 _ => ?_
  refine .pass CollectionCipher.deleteWhere_writes fun _ w3 _ => ?_
  refine .pass Attachment.deleteAllByCipher_writes fun _ w4 _ => ?_
  refine .pass Favorite.deleteWhere_writes fun _ w5 _ => Yields.exec.mono fun _ w' hs cc hcc => ?_
  obtain ⟨hall, hdb⟩ := Db.guarded_eq_some hs
  rw [hdb] at hcc
  simp only [Bool.and_eq_true] at hall
  exact of_decide_eq_true (all_eq_true.1 hall.1.1.2 cc hcc)

theorem WholeAccess.congr (hm : db.usersOrganizations = db'.usersOrganizations)
    (hg : db.groups = db'.groups) (hgu : db.groupsUsers = db'.groupsUsers) :
    WholeAccess cfg db c u ↔ WholeAccess cfg db' c u := by
  simp only [WholeAccess, MemberOf, GroupOf, hm, hg, hgu]

theorem hardDeleteTold_yields (hc : c ∈ w.db.ciphers.rows) :
    Yields w (hardDeleteTold env me c.uuid) fun users _ => ∀ u, u ∈ users ↔
      c.userUuid = some u ∨ c.userUuid = none ∧ WholeAccess env.toConfig w.db c u := by
  have hfind : Cipher.findByUuid w.db c.uuid = some c := Table.find?_key hc
  unfold hardDeleteTold
  refine .query ?_
  rw [hfind]
  refine Yields.query <| .ensure fun _ => .andThen Cipher.delete_writes delete_unlinks ?_
  intro _ w' hun hsame
  refine fun users husers u => ?_
  obtain rfl : Cipher.affectedUsers env.toConfig w'.db c = users := Except.ok.inj husers
  rw [mem_affectedUsers_unlinked hun, WholeAccess.congr (hsame .usersOrganizations (by decide))
    (hsame .groups (by decide)) (hsame .groupsUsers (by decide))]

/-- **Everyone who saw the item is told exactly where full access was what showed it to them.**  Of
the confirmed members who see the item just before it is deleted for good, each must have full
access to the organization, by the membership or by a group. -/
theorem deletion_tells_iff {users : List UserId} (hc : c ∈ w.db.ciphers.rows)
    (hrun : ((hardDeleteTold env me c.uuid).run w).1 = .ok users) :
    (∀ u m, ConfirmedIn w.db u c m → c ∈ Cipher.findByUserVisible env.toConfig w.db u → u ∈ users) ↔
      ∀ u m, ConfirmedIn w.db u c m → c ∈ Cipher.findByUserVisible env.toConfig w.db u →
        c.userUuid = some u ∨ c.userUuid = none ∧ WholeAccess env.toConfig w.db c u := by
  simp only [hardDeleteTold_yields hc users hrun]

/-! ## A member with an assigned collection -/

namespace Deletion

/-- User 1 sees item 5 by the assignment of its collection. -/
def world : World := ⟨SelfGrant.db false, 9, [], [], []⟩

theorem told_run : ((hardDeleteTold {} ⟨1⟩ SelfGrant.cipher.uuid).run world).1 = .ok [] := by rfl

end Deletion

open Deletion SelfGrant in
theorem deletion_tells_iff_assigned :
    ((hardDeleteTold {} ⟨1⟩ cipher.uuid).run world).1 = .ok [] ∧
    ((∀ u m, ConfirmedIn world.db u cipher m → cipher ∈ Cipher.findByUserVisible {} world.db u →
        u ∈ []) ↔
      ∀ u m, ConfirmedIn world.db u cipher m → cipher ∈ Cipher.findByUserVisible {} world.db u →
        cipher.userUuid = some u ∨ cipher.userUuid = none ∧ WholeAccess {} world.db cipher u) :=
  ⟨told_run, deletion_tells_iff (mem_singleton.2 rfl) told_run⟩

open Deletion SelfGrant in
/-- **A confirmed member who saw the item is not told.** -/
theorem deletion_overlooks_assigned :
    ((deleteCipherByUuid {} ⟨1⟩ .hardSingle ⟨5⟩).run world).1.toBool = true ∧
    ((hardDeleteTold {} ⟨1⟩ ⟨5⟩).run world).1 = .ok [] ∧
    (∃ m, ConfirmedIn world.db ⟨1⟩ cipher m) ∧ cipher ∈ Cipher.findByUserVisible {} world.db ⟨1⟩ :=
  ⟨by decide, told_run, ⟨_, ⟨mem_singleton.2 rfl, rfl⟩, rfl, by decide⟩, by decide⟩

end VaultServer
