import VaultServer.Access.Boundary

/-!
# Access during a full sync

A full sync computes the same restrictions as a single request from maps it loads once. Both let
a direct assignment overrule groups, but at different scope: the single request drops every group
right as soon as one collection of the cipher is assigned directly, the sync drops only the group
rights on that collection. They agree exactly when the group rights the sync keeps permit nothing
beyond the direct assignments.
-/

namespace VaultServer

open Lib List Table

variable {cg : CollectionGroup} {cc : CollectionCipher}

/-! ## Permissions instead of restrictions -/

/-- What a flag triple permits; combining rows is a disjunction for each of them. -/
inductive Permission where
  | write
  | seePasswords
  | manage

namespace Permission

def granted : Permission → Flags → Bool
  | write, f => !f.1
  | seePasswords, f => !f.2.1
  | manage, f => f.2.2

theorem flags_ext (h : ∀ p : Permission, p.granted f = p.granted g) : f = g := by
  obtain ⟨ro, hp, mn⟩ := f
  obtain ⟨ro', hp', mn'⟩ := g
  have h1 := h write
  have h2 := h seePasswords
  have h3 := h manage
  simp only [granted, Bool.not_inj_iff] at h1 h2 h3
  rw [h1, h2, h3]

theorem granted_combineFlags (p : Permission) (rows : List Flags) :
    p.granted (Cipher.combineFlags rows) = rows.any fun r => p.granted r := by
  have hfold : ∀ (rows : List Flags) (f : Flags),
      p.granted (rows.foldl (fun f r => (f.1 && r.1, f.2.1 && r.2.1, f.2.2 || r.2.2)) f) =
        (p.granted f || rows.any fun r => p.granted r) := by
    intro rows
    induction rows with
    | nil => simp
    | cons r rows ih =>
      intro f
      rw [foldl_cons, ih, any_cons, ← Bool.or_assoc]
      cases p <;> simp [granted, Bool.not_and]
  rw [Cipher.combineFlags, hfold]
  cases p <;> simp [granted]

theorem granted_combine (p : Permission) (e cg : CollectionGroup) :
    p.granted (CollectionGroup.combine (some e) cg).flags =
      (p.granted e.flags || p.granted cg.flags) := by
  cases p <;> simp [granted, CollectionGroup.combine, CollectionGroup.flags, Bool.not_and]

/-- The combined entry of several group rows permits what one of them permits. -/
theorem granted_foldl_combine {p : Permission} {rows : List CollectionGroup} {e : CollectionGroup}
    (h : rows.foldl (fun o cg => some (CollectionGroup.combine o cg)) none = some e) :
    p.granted e.flags = rows.any fun cg => p.granted cg.flags := by
  have hfold : ∀ (rows : List CollectionGroup) (x : CollectionGroup),
      rows.foldl (fun o cg => some (CollectionGroup.combine o cg)) (some x) = some e →
      p.granted e.flags = (p.granted x.flags || rows.any fun cg => p.granted cg.flags) := by
    intro rows
    induction rows with
    | nil => intro x h; cases h; simp
    | cons r rows ih =>
      intro x h
      rw [ih _ h, granted_combine, any_cons, Bool.or_assoc]
  cases rows with
  | nil => cases h
  | cons r rows => rw [hfold rows r h, any_cons]

end Permission

namespace Access

/-! ## The preloaded maps -/

section
variable {cfg : Config} {db : Db} {c : Cipher} {u : UserId} {k : CollectionId}

theorem sync_members (org : OrganizationId) :
    (CipherSyncData.new cfg db u).members org = Membership.findConfirmedByUserAndOrg db u org := by
  have hmem : ∀ m, m ∈ Membership.findConfirmedByUser db u ↔
      MemberOf db u m ∧ m.hasStatus .confirmed = true := by
    intro m
    simp [Membership.findConfirmedByUser, MemberOf, and_assoc]
  have hone : ∀ m ∈ Membership.findConfirmedByUser db u, ∀ n ∈ Membership.findConfirmedByUser db u,
      m.orgUuid = n.orgUuid → m = n := by
    intro m hm n hn ho
    exact ((hmem m).1 hm).1.unique ((hmem n).1 hn).1 ho
  refine Option.ext fun m => ?_
  rw [Membership.findConfirmedByUserAndOrg_eq_some]
  refine (collectMap_eq_some_iff hone).trans ?_
  rw [hmem, MemberOf]
  constructor
  · rintro ⟨⟨⟨hm, hu⟩, hs⟩, ho⟩; exact ⟨hm, hu, ho, hs⟩
  · rintro ⟨hm, hu, ho, hs⟩; exact ⟨⟨⟨hm, hu⟩, hs⟩, ho⟩

theorem sync_userCollections :
    (CipherSyncData.new cfg db u).userCollections k = some cu ↔ Direct db u k cu := by
  have hone : ∀ x ∈ CollectionUser.findByUser db u, ∀ y ∈ CollectionUser.findByUser db u,
      x.collectionUuid = y.collectionUuid → x = y := by
    intro x hx y hy hk
    have hx : x ∈ db.usersCollections.rows ∧ x.userUuid = u := by
      simpa [CollectionUser.findByUser] using hx
    have hy : y ∈ db.usersCollections.rows ∧ y.userUuid = u := by
      simpa [CollectionUser.findByUser] using hy
    refine eq_of_key hx.1 hy.1 ?_
    rw [CollectionUser.key, CollectionUser.key, hx.2, hy.2, hk]
  refine (collectMap_eq_some_iff hone).trans ?_
  simp [CollectionUser.findByUser, Direct, and_assoc]

theorem mem_collectionGroup_findByUser (hb : OrgBoundary db) :
    cg ∈ CollectionGroup.findByUser db u ↔
      ∃ m, MemberOf db u m ∧ ByGroup db m cg.collectionsUuid cg := by
  unfold CollectionGroup.findByUser
  constructor
  · intro h
    obtain ⟨⟨cg, m⟩, h5, rfl⟩ := mem_map.1 h
    obtain ⟨h4, hu⟩ := mem_filter.1 h5
    obtain ⟨⟨cg, m, g⟩, h3, _, _, _, heq⟩ := mem_innerJoin.1 h4
    cases heq
    obtain ⟨⟨cg, m⟩, h2, g, hg, hgon, heq⟩ := mem_innerJoin.1 h3
    cases heq
    obtain ⟨⟨_, gu⟩, h1, m, hm, hmon, heq⟩ := mem_innerJoin.1 h2
    cases heq
    obtain ⟨cg, hcg, _, hgu, hguon, heq⟩ := mem_innerJoin.1 h1
    cases heq
    simp only [decide_eq_true_eq] at hu hgon hmon hguon
    exact ⟨m, ⟨hm, hu⟩, g, ⟨hg, hgon.2, gu, hgu, by rw [hguon, hgon.1], hmon.symm⟩, hcg, rfl,
      hgon.1.symm⟩
  · rintro ⟨m, ⟨hm, hu⟩, g, ⟨hg, horg, gu, hgu, hgg, hgm⟩, hcg, -, hcgg⟩
    -- the boundary provides the collection that the last join asks for
    obtain ⟨K, hK, hKu, g', hg', hgu', hgo⟩ := hb.collectionsGroups cg hcg
    obtain rfl : g' = g := eq_of_key hg' hg (by rw [hgu', hcgg])
    refine mem_map.2 ⟨(cg, m), mem_filter.2 ⟨?_, by simpa using hu⟩, rfl⟩
    refine mem_innerJoin.2 ⟨(cg, m, g'), ?_, K, hK, by simp [hKu, hgo], rfl⟩
    refine mem_innerJoin.2 ⟨(cg, m), ?_, g', hg, by simp [hcgg, horg], rfl⟩
    refine mem_innerJoin.2 ⟨(cg, gu), ?_, m, hm, by simp [hgm], rfl⟩
    exact mem_innerJoin.2 ⟨cg, hcg, gu, hgu, by simp [hgg, hcgg], rfl⟩

/-- The group rights of `u` on the collection `k`, through any membership. -/
def GroupRight (cfg : Config) (db : Db) (u : UserId) (k : CollectionId) (cg : CollectionGroup) :
    Prop :=
  cfg.orgGroupsEnabled = true ∧ ∃ m, MemberOf db u m ∧ ByGroup db m k cg

theorem GroupRight.collection (h : GroupRight cfg db u k cg) : cg.collectionsUuid = k := by
  obtain ⟨-, m, -, g, -, -, hk, -⟩ := h
  exact hk

theorem sync_userCollectionsGroups_eq_none (hb : OrgBoundary db) :
    (CipherSyncData.new cfg db u).userCollectionsGroups k = none ↔
      ∀ cg, ¬ GroupRight cfg db u k cg := by
  simp only [CipherSyncData.new]
  split
  · next he =>
    rw [collectMap_eq_none]
    constructor
    · rintro h cg hr
      obtain ⟨-, m, hm, hg⟩ := id hr
      rw [← hr.collection] at hg
      exact h cg ((mem_collectionGroup_findByUser hb).2 ⟨m, hm, hg⟩) hr.collection
    · rintro h cg hcg rfl
      obtain ⟨m, hm, hg⟩ := (mem_collectionGroup_findByUser hb).1 hcg
      exact h cg ⟨he, m, hm, hg⟩
  · next he => simp [GroupRight, he]

theorem sync_userCollectionsGroups_granted {e : CollectionGroup} {p : Permission}
    (hb : OrgBoundary db) (h : (CipherSyncData.new cfg db u).userCollectionsGroups k = some e) :
    p.granted e.flags = true ↔ ∃ cg, GroupRight cfg db u k cg ∧ p.granted cg.flags = true := by
  simp only [CipherSyncData.new] at h
  split at h
  · next he =>
    rw [collectMap_apply] at h
    rw [Permission.granted_foldl_combine h, any_eq_true]
    constructor
    · rintro ⟨cg, hcg, hp⟩
      have hcg : cg ∈ CollectionGroup.findByUser db u ∧ cg.collectionsUuid = k := by
        simpa using hcg
      obtain ⟨m, hm, hg⟩ := (mem_collectionGroup_findByUser hb).1 hcg.1
      exact ⟨cg, ⟨he, m, hm, hcg.2 ▸ hg⟩, hp⟩
    · rintro ⟨cg, hr, hp⟩
      obtain ⟨-, m, hm, hg⟩ := id hr
      rw [← hr.collection] at hg
      have := (mem_collectionGroup_findByUser hb).2 ⟨m, hm, hg⟩
      exact ⟨cg, by simpa using ⟨this, hr.collection⟩, hp⟩
  · cases h

theorem sync_fullAccessOrgs (he : cfg.orgGroupsEnabled = true) (org : OrganizationId) :
    (CipherSyncData.new cfg db u).userGroupFullAccessForOrganizations.contains org =
      Group.isInFullAccessGroup db u org := by
  rw [Bool.eq_iff_iff, contains_iff_mem, isInFullAccessGroup_iff]
  simp only [CipherSyncData.new, he, if_true, Group.getOrgsByUserWithFullAccess]
  rw [mem_selectDistinct]
  constructor
  · rintro ⟨⟨m, g⟩, h2, hp, rfl⟩
    obtain ⟨⟨gu, m⟩, h1, g, hg, hgon, heq⟩ := mem_innerJoin.1 h2
    cases heq
    obtain ⟨gu, hgu, m, hm, hmon, heq⟩ := mem_innerJoin.1 h1
    cases heq
    simp only [decide_eq_true_eq] at hp hgon hmon
    exact ⟨m, g, ⟨hm, hp.1⟩, hgon.2.symm, ⟨hg, hgon.2, gu, hgu, hgon.1.symm, hmon.symm⟩, hp.2⟩
  · rintro ⟨m, g, ⟨hm, hu⟩, rfl, ⟨hg, horg, gu, hgu, hgg, hgm⟩, ha⟩
    refine ⟨(m, g), ?_, by simp [hu, ha], horg⟩
    refine mem_innerJoin.2 ⟨(gu, m), ?_, g, hg, by simp [hgg, horg], rfl⟩
    exact mem_innerJoin.2 ⟨gu, hgu, m, hm, by simp [hgm], rfl⟩

/-- Full access does not depend on where it is read from. -/
theorem hasFullAccess_sync : Cipher.hasFullAccess cfg db c u (some (CipherSyncData.new cfg db u)) =
      Cipher.hasFullAccess cfg db c u none := by
  have horg : Cipher.isInFullAccessOrg db c u (some (CipherSyncData.new cfg db u)) =
      Cipher.isInFullAccessOrg db c u none := by
    unfold Cipher.isInFullAccessOrg
    cases c.organizationUuid with
    | none => rfl
    | some => simp only [sync_members]
  have hgroup : Cipher.isInFullAccessGroup cfg db c u (some (CipherSyncData.new cfg db u)) =
      Cipher.isInFullAccessGroup cfg db c u none := by
    unfold Cipher.isInFullAccessGroup
    split
    · next he =>
      cases c.organizationUuid with
      | none => rfl
      | some org => exact sync_fullAccessOrgs he org
    · rfl
  rw [Cipher.hasFullAccess, Cipher.hasFullAccess, horg, hgroup]

theorem mem_sync_cipherCollections :
    k ∈ ((CipherSyncData.new cfg db u).cipherCollections c.uuid).getD [] ↔
      ∃ cc ∈ Cipher.getCollectionsWithCipherByUser db u,
        cc.cipherUuid = c.uuid ∧ cc.collectionUuid = k := by
  have hfold : ∀ (xs : List CollectionCipher) (o : Option (List CollectionId)),
      (xs.foldl (fun o cc => some (o.getD [] ++ [cc.collectionUuid])) o).getD [] =
        o.getD [] ++ xs.map fun cc => cc.collectionUuid := by
    intro xs
    induction xs with
    | nil => simp
    | cons x xs ih => intro o; rw [foldl_cons, ih]; simp
  simp only [CipherSyncData.new, collectMap_apply, hfold]
  simp [and_assoc]

/-- The rows the query starts from: a link, its collection, a membership of its organization and
the assignments of the user. -/
theorem exists_syncRow (hcc : cc ∈ db.ciphersCollections.rows)
    (hK : K ∈ db.collections.rows) (hk : K.uuid = cc.collectionUuid) (hm : MemberOf db u m)
    (hmo : m.orgUuid = K.orgUuid) (ho : o ∈ padded db.usersCollections.rows fun cu =>
      cu.collectionUuid = cc.collectionUuid ∧ cu.userUuid = u) :
    ∃ r ∈ JoinRow.withUsersCollections db u (Cipher.memberLinkRows db u),
      r.ciphersCollections = some cc ∧ r.usersOrganizations = some m ∧ r.usersCollections = o := by
  refine ⟨_, mem_leftJoin.2 ⟨_, mem_innerJoin.2 ⟨_, mem_innerJoin.2 ⟨_,
    mem_map.2 ⟨cc, hcc, rfl⟩, K, hK, ?_, rfl⟩, m, hm.1, ?_, rfl⟩, o, ?_, rfl⟩, rfl, rfl, rfl⟩
  · simp [hk]
  · simp [hmo, hm.2]
  · simpa using ho

/-- A link that the user's own assignment covers is loaded. -/
theorem mem_getCollectionsWithCipher_of_direct
    (hb : OrgBoundary db) (hcc : cc ∈ db.ciphersCollections.rows)
    (hd : Direct db u cc.collectionUuid cu) : cc ∈ Cipher.getCollectionsWithCipherByUser db u := by
  obtain ⟨K, hK, hKu, m, hm, hmu, hmo⟩ := hb.usersCollections cu hd.1
  have hcu : some cu ∈ padded db.usersCollections.rows fun cu =>
      cu.collectionUuid = cc.collectionUuid ∧ cu.userUuid = u :=
    some_mem_padded.2 ⟨hd.1, by simp [hd.2.1, hd.2.2]⟩
  obtain ⟨r, hr, hrcc, -, hrcu⟩ :=
    exists_syncRow hcc hK (hKu.trans hd.2.2) ⟨hm, hmu.trans hd.2.1⟩ hmo hcu
  obtain ⟨_, hr', gu, g, cg, rfl⟩ := exists_joinGroups db _ hr
  refine mem_dedup.2 (mem_filterMap.2 ⟨_, mem_filter.2 ⟨hr', ?_⟩, hrcc⟩)
  simp [hrcu, hd.2.1]

theorem mem_getCollectionsWithCipher_of_group
    (hb : OrgBoundary db) (hcc : cc ∈ db.ciphersCollections.rows)
    (hg : GroupRight cfg db u cc.collectionUuid cg) :
    cc ∈ Cipher.getCollectionsWithCipherByUser db u := by
  obtain ⟨-, m, hm, g, hgo, hcg, hk, hcgg⟩ := hg
  obtain ⟨K, hK, hKu, g', hg', hgu', hgo'⟩ := hb.collectionsGroups cg hcg
  obtain rfl : g' = g := eq_of_key hg' hgo.1 (by rw [hgu', hcgg])
  obtain ⟨o, ho⟩ := exists_mem_padded db.usersCollections.rows fun cu =>
    cu.collectionUuid = cc.collectionUuid ∧ cu.userUuid = u
  obtain ⟨r, hr, hrcc, hrm, -⟩ :=
    exists_syncRow hcc hK (hKu.trans hk) hm (hgo.2.1.symm.trans hgo') ho
  obtain ⟨r', hr', -, hcc', hcg'⟩ := exists_withCollectionGroup hr hrm hrcc ⟨g', hgo, hcg, hk, hcgg⟩
  refine mem_dedup.2 (mem_filterMap.2 ⟨r', mem_filter.2 ⟨hr', ?_⟩, hcc'.trans hrcc⟩)
  simp [hcg']

theorem link_of_mem_getCollectionsWithCipher
    (h : cc ∈ Cipher.getCollectionsWithCipherByUser db u) : cc ∈ db.ciphersCollections.rows := by
  obtain ⟨r, hr, hcc⟩ := mem_filterMap.1 (mem_dedup.1 h)
  obtain ⟨r0, h0, ⟨gu, hr0⟩, -⟩ := of_mem_withGroupRights (mem_filter.1 hr).1
  rw [hr0] at hcc
  obtain ⟨r1, h1, o, -, rfl⟩ := mem_leftJoin.1 h0
  obtain ⟨r2, h2, m, -, -, rfl⟩ := mem_innerJoin.1 h1
  obtain ⟨r3, h3, K, -, -, rfl⟩ := mem_innerJoin.1 h2
  obtain ⟨x, hx, rfl⟩ := mem_map.1 h3
  exact Option.some.inj hcc ▸ hx

end

/-! ## The rows both sides combine -/

section
variable {cfg : Config} {db : Db} {c : Cipher} {u : UserId}

/-- `cu` assigns a collection of `c` to `u`. -/
def DirectOn (db : Db) (c : Cipher) (u : UserId) (cu : CollectionUser) : Prop :=
  ∃ k, Linked db c k ∧ Direct db u k cu

/-- A group right on a collection of `c` that is not assigned to `u` directly. -/
def KeptGroupRight (cfg : Config) (db : Db) (c : Cipher) (u : UserId) (cg : CollectionGroup) :
    Prop :=
  ∃ k, Linked db c k ∧ (∀ cu, ¬ Direct db u k cu) ∧ GroupRight cfg db u k cg

/-- The group rights the sync keeps permit nothing beyond the direct assignments. -/
def GroupsAddNothing (cfg : Config) (db : Db) (c : Cipher) (u : UserId) : Prop :=
  ∀ (p : Permission) (cg : CollectionGroup), KeptGroupRight cfg db c u cg →
    p.granted cg.flags = true → ∃ cu, DirectOn db c u cu ∧ p.granted cu.flags = true

theorem mem_syncCollections (hb : OrgBoundary db) {k}
    (hl : Linked db c k) (h : (∃ cu, Direct db u k cu) ∨ ∃ cg, GroupRight cfg db u k cg) :
    k ∈ ((CipherSyncData.new cfg db u).cipherCollections c.uuid).getD [] := by
  obtain ⟨cc, hcc, hcl, rfl⟩ := hl
  refine mem_sync_cipherCollections.2 ⟨cc, ?_, hcl, rfl⟩
  rcases h with ⟨cu, hd⟩ | ⟨cg, hg⟩
  · exact mem_getCollectionsWithCipher_of_direct hb hcc hd
  · exact mem_getCollectionsWithCipher_of_group hb hcc hg

theorem linked_of_mem_syncCollections {k}
    (h : k ∈ ((CipherSyncData.new cfg db u).cipherCollections c.uuid).getD []) : Linked db c k := by
  obtain ⟨cc, hcc, hcl, rfl⟩ := mem_sync_cipherCollections.1 h
  exact ⟨cc, link_of_mem_getCollectionsWithCipher hcc, hcl, rfl⟩

/-- A row of the sync is a direct assignment or the combined entry of kept group rights. -/
theorem mem_syncFlags (hb : OrgBoundary db) : f ∈ Cipher.syncFlags (CipherSyncData.new cfg db u) c ↔
      (∃ cu, DirectOn db c u cu ∧ f = cu.flags) ∨
      ∃ k e, Linked db c k ∧ (∀ cu, ¬ Direct db u k cu) ∧
        (CipherSyncData.new cfg db u).userCollectionsGroups k = some e ∧ f = e.flags := by
  unfold Cipher.syncFlags
  rw [mem_filterMap]
  constructor
  · rintro ⟨k, hk, h⟩
    have hl := linked_of_mem_syncCollections hk
    cases hu : (CipherSyncData.new cfg db u).userCollections k with
    | some cu =>
      rw [hu] at h
      exact .inl ⟨cu, ⟨k, hl, sync_userCollections.1 hu⟩, (Option.some.inj h).symm⟩
    | none =>
      rw [hu] at h
      obtain ⟨e, he, rfl⟩ := Option.map_eq_some_iff.1 h
      refine .inr ⟨k, e, hl, ?_, he, rfl⟩
      intro cu hd
      rw [sync_userCollections.2 hd] at hu; cases hu
  · rintro (⟨cu, ⟨k, hl, hd⟩, rfl⟩ | ⟨k, e, hl, hno, he, rfl⟩)
    · exact ⟨k, mem_syncCollections hb hl (.inl ⟨cu, hd⟩), by rw [sync_userCollections.2 hd]⟩
    · have hg : ∃ cg, GroupRight cfg db u k cg := by
        by_contra hno
        rw [(sync_userCollectionsGroups_eq_none hb).2 (not_exists.1 hno)] at he
        cases he
      have hu : (CipherSyncData.new cfg db u).userCollections k = none := by
        cases hu : (CipherSyncData.new cfg db u).userCollections k with
        | none => rfl
        | some cu => exact absurd (sync_userCollections.1 hu) (hno cu)
      exact ⟨k, mem_syncCollections hb hl (.inr hg), by rw [hu, he]; rfl⟩

theorem syncFlags_ne_nil (hb : OrgBoundary db) :
    Cipher.syncFlags (CipherSyncData.new cfg db u) c ≠ [] ↔
      (∃ cu, DirectOn db c u cu) ∨ ∃ cg, KeptGroupRight cfg db c u cg := by
  constructor
  · intro h
    obtain ⟨f, hf⟩ := exists_mem_of_ne_nil _ h
    rcases (mem_syncFlags hb).1 hf with ⟨cu, hcu, -⟩ | ⟨k, e, hl, hno, he, -⟩
    · exact .inl ⟨cu, hcu⟩
    · refine .inr (by_contra fun hne => ?_)
      have hnone : ∀ cg, ¬ GroupRight cfg db u k cg := fun cg hg => hne ⟨cg, k, hl, hno, hg⟩
      rw [(sync_userCollectionsGroups_eq_none hb).2 hnone] at he; cases he
  · rintro (⟨cu, hcu⟩ | ⟨cg, k, hl, hno, hg⟩)
    · exact ne_nil_of_mem ((mem_syncFlags hb).2 (.inl ⟨cu, hcu, rfl⟩))
    · cases he : (CipherSyncData.new cfg db u).userCollectionsGroups k with
      | none => exact absurd hg ((sync_userCollectionsGroups_eq_none hb).1 he cg)
      | some e => exact ne_nil_of_mem ((mem_syncFlags hb).2 (.inr ⟨k, e, hl, hno, he, rfl⟩))

theorem granted_syncFlags (hb : OrgBoundary db) (p : Permission) :
    p.granted (Cipher.combineFlags (Cipher.syncFlags (CipherSyncData.new cfg db u) c)) = true ↔
      (∃ cu, DirectOn db c u cu ∧ p.granted cu.flags = true) ∨
      ∃ cg, KeptGroupRight cfg db c u cg ∧ p.granted cg.flags = true := by
  rw [Permission.granted_combineFlags, any_eq_true]
  constructor
  · rintro ⟨f, hf, hp⟩
    rcases (mem_syncFlags hb).1 hf with ⟨cu, hcu, rfl⟩ | ⟨k, e, hl, hno, he, rfl⟩
    · exact .inl ⟨cu, hcu, hp⟩
    · obtain ⟨cg, hg, hp⟩ := (sync_userCollectionsGroups_granted hb he).1 hp
      exact .inr ⟨cg, ⟨k, hl, hno, hg⟩, hp⟩
  · rintro (⟨cu, hcu, hp⟩ | ⟨cg, ⟨k, hl, hno, hg⟩, hp⟩)
    · exact ⟨cu.flags, (mem_syncFlags hb).2 (.inl ⟨cu, hcu, rfl⟩), hp⟩
    · cases he : (CipherSyncData.new cfg db u).userCollectionsGroups k with
      | none => exact absurd hg ((sync_userCollectionsGroups_eq_none hb).1 he cg)
      | some e =>
        exact ⟨e.flags, (mem_syncFlags hb).2 (.inr ⟨k, e, hl, hno, he, rfl⟩),
          (sync_userCollectionsGroups_granted hb he).2 ⟨cg, hg, hp⟩⟩

/-- With one direct assignment the single request combines the direct assignments alone. -/
theorem granted_liveFlags_of_direct (hc : c ∈ db.ciphers.rows) (hd : ∃ cu, DirectOn db c u cu)
    (p : Permission) : p.granted (Cipher.combineFlags (Cipher.liveFlags cfg db c u)) = true ↔
      ∃ cu, DirectOn db c u cu ∧ p.granted cu.flags = true := by
  obtain ⟨cu0, k0, hl0, hd0⟩ := hd
  have hne : Cipher.getUserCollectionsAccessFlags db c u ≠ [] :=
    ne_nil_of_mem ((mem_getUserCollectionsAccessFlags hc).2 ⟨k0, cu0, hl0, hd0, rfl⟩)
  have hlive : Cipher.liveFlags cfg db c u = Cipher.getUserCollectionsAccessFlags db c u := by
    simp [Cipher.liveFlags, hne]
  rw [hlive, Permission.granted_combineFlags, any_eq_true]
  constructor
  · rintro ⟨f, hf, hp⟩
    obtain ⟨k, cu, hl, hd, rfl⟩ := (mem_getUserCollectionsAccessFlags hc).1 hf
    exact ⟨cu, ⟨k, hl, hd⟩, hp⟩
  · rintro ⟨cu, ⟨k, hl, hd⟩, hp⟩
    exact ⟨cu.flags, (mem_getUserCollectionsAccessFlags hc).2 ⟨k, cu, hl, hd, rfl⟩, hp⟩

/-- Without one it combines the group rights, and the sync keeps all of them. -/
theorem granted_liveFlags_of_no_direct (hc : c ∈ db.ciphers.rows)
    (hd : ¬ ∃ cu, DirectOn db c u cu) (p : Permission) :
    p.granted (Cipher.combineFlags (Cipher.liveFlags cfg db c u)) = true ↔
      ∃ cg, KeptGroupRight cfg db c u cg ∧ p.granted cg.flags = true := by
  have hnil : Cipher.getUserCollectionsAccessFlags db c u = [] := by
    by_contra hne
    obtain ⟨f, hf⟩ := exists_mem_of_ne_nil _ hne
    obtain ⟨k, cu, hl, hd', -⟩ := (mem_getUserCollectionsAccessFlags hc).1 hf
    exact hd ⟨cu, k, hl, hd'⟩
  have hlive : Cipher.liveFlags cfg db c u = Cipher.getGroupCollectionsAccessFlags cfg db c u := by
    simp [Cipher.liveFlags, hnil]
  rw [hlive, Permission.granted_combineFlags, any_eq_true]
  constructor
  · rintro ⟨f, hf, hp⟩
    obtain ⟨he, m, k, cg, hm, hl, hb, rfl⟩ := (mem_getGroupCollectionsAccessFlags hc).1 hf
    exact ⟨cg, ⟨k, hl, fun cu h => hd ⟨cu, k, hl, h⟩, he, m, hm, hb⟩, hp⟩
  · rintro ⟨cg, ⟨k, hl, -, he, m, hm, hb⟩, hp⟩
    exact ⟨cg.flags, (mem_getGroupCollectionsAccessFlags hc).2 ⟨he, m, k, cg, hm, hl, hb, rfl⟩, hp⟩

theorem liveFlags_ne_nil_iff (hc : c ∈ db.ciphers.rows) : Cipher.liveFlags cfg db c u ≠ [] ↔
      (∃ cu, DirectOn db c u cu) ∨ ∃ cg, KeptGroupRight cfg db c u cg := by
  rw [liveFlags_ne_nil hc]
  constructor
  · rintro (⟨k, cu, hl, hd⟩ | ⟨he, m, k, cg, hm, hl, hb⟩)
    · exact .inl ⟨cu, k, hl, hd⟩
    · by_cases hd : ∃ cu, Direct db u k cu
      · obtain ⟨cu, hd⟩ := hd
        exact .inl ⟨cu, k, hl, hd⟩
      · exact .inr ⟨cg, k, hl, not_exists.1 hd, he, m, hm, hb⟩
  · rintro (⟨cu, k, hl, hd⟩ | ⟨cg, k, hl, -, he, m, hm, hb⟩)
    · exact .inl ⟨k, cu, hl, hd⟩
    · exact .inr ⟨he, m, k, cg, hm, hl, hb⟩

/-- **When a full sync and a single request compute the same restrictions.**  With every assignment
inside one organization they agree for a user with full access, for one without a direct
assignment on the cipher's collections, and otherwise exactly when the group rights on the
remaining collections permit nothing beyond the direct assignments. -/
theorem getAccessRestrictions_sync_eq_iff (hb : OrgBoundary db)
    (hvis : c ∈ Cipher.findByUserVisible cfg db u) :
    Cipher.getAccessRestrictions cfg db c u (some (CipherSyncData.new cfg db u)) =
        Cipher.getAccessRestrictions cfg db c u none ↔
      Cipher.hasFullAccess cfg db c u none = true ∨ (¬ ∃ cu, DirectOn db c u cu) ∨
        GroupsAddNothing cfg db c u := by
  have hc : c ∈ db.ciphers.rows := (mem_findByUser.1 hvis).1
  unfold Cipher.getAccessRestrictions
  rw [hasFullAccess_sync]
  by_cases hfull : Cipher.hasFullAccess cfg db c u none = true
  · simp [hfull]
  -- both sides have rows or neither has
  have hempty : Cipher.syncFlags (CipherSyncData.new cfg db u) c = [] ↔
      Cipher.liveFlags cfg db c u = [] := by
    rw [← not_iff_not, ← ne_eq, ← ne_eq, syncFlags_ne_nil hb, liveFlags_ne_nil_iff hc]
  by_cases hd : ∃ cu, DirectOn db c u cu
  · have hsync : Cipher.syncFlags (CipherSyncData.new cfg db u) c ≠ [] :=
      (syncFlags_ne_nil hb).2 (.inl hd)
    have hlive : Cipher.liveFlags cfg db c u ≠ [] := (liveFlags_ne_nil_iff hc).2 (.inl hd)
    simp only [hfull, Bool.false_eq_true, if_false, List.isEmpty_iff, hsync, hlive,
      Option.some.injEq, hd, not_true_eq_false, false_or]
    constructor
    · intro heq p cg hg hp
      have := (granted_syncFlags hb p).2 (.inr ⟨cg, hg, hp⟩)
      rw [heq] at this
      exact (granted_liveFlags_of_direct hc hd p).1 this
    · intro hadd
      refine Permission.flags_ext fun p => ?_
      rw [Bool.eq_iff_iff, granted_syncFlags hb, granted_liveFlags_of_direct hc hd]
      refine ⟨fun h => ?_, .inl⟩
      rcases h with h | ⟨cg, hg, hp⟩
      · exact h
      · exact hadd p cg hg hp
  · simp only [hfull, Bool.false_eq_true, if_false, List.isEmpty_iff, hd, not_false_eq_true, true_or,
      or_true, iff_true, hempty]
    split
    · rfl
    · refine congrArg some (Permission.flags_ext fun p => ?_)
      rw [Bool.eq_iff_iff, granted_syncFlags hb, granted_liveFlags_of_no_direct hc hd]
      refine ⟨fun h => ?_, .inr⟩
      rcases h with ⟨cu, hcu, -⟩ | h
      · exact absurd ⟨cu, hcu⟩ hd
      · exact h

end

/-! ## A direct assignment next to a group right -/

def groupConfig : Config := { orgGroupsEnabled := true }

def mixedCipher : Cipher := { Cipher.new 5 0 1 "login" with organizationUuid := some ⟨2⟩ }

/-- Cipher 5 is in collection 4, which user 1 may only read, and in collection 8, which a group of
user 1 may write. -/
def mixedDb : Db :=
  { Db.empty with
    users := .ofRows [User.new {} 1 6 7 "member@example.com" none]
    organizations := .ofRows [⟨⟨2⟩, "org", "owner@example.com", none, none⟩]
    usersOrganizations := .ofRows [{ Membership.new 3 ⟨1⟩ ⟨2⟩ none with
      status := MembershipStatus.confirmed.toI32 }]
    collections := .ofRows [⟨⟨4⟩, ⟨2⟩, "read only", none⟩, ⟨⟨8⟩, ⟨2⟩, "team", none⟩]
    usersCollections := .ofRows [⟨⟨1⟩, ⟨4⟩, true, true, false⟩]
    groups := .ofRows [⟨⟨9⟩, ⟨2⟩, "team", false, none⟩]
    groupsUsers := .ofRows [⟨⟨9⟩, ⟨3⟩⟩]
    collectionsGroups := .ofRows [⟨⟨8⟩, ⟨9⟩, false, false, false⟩]
    ciphers := .ofRows [mixedCipher]
    ciphersCollections := .ofRows [⟨⟨5⟩, ⟨4⟩⟩, ⟨⟨5⟩, ⟨8⟩⟩] }

theorem mixedDb_orgBoundary : OrgBoundary mixedDb := by
  constructor <;> decide

/-- The sync offers write access and the passwords; the single request refuses both. -/
theorem getAccessRestrictions_sync_ne :
    OrgBoundary mixedDb ∧ mixedCipher ∈ Cipher.findByUserVisible groupConfig mixedDb ⟨1⟩ ∧
    Cipher.getAccessRestrictions groupConfig mixedDb mixedCipher ⟨1⟩
      (some (CipherSyncData.new groupConfig mixedDb ⟨1⟩)) = some (false, false, false) ∧
    Cipher.getAccessRestrictions groupConfig mixedDb mixedCipher ⟨1⟩ none =
      some (true, true, false) :=
  ⟨mixedDb_orgBoundary, by decide⟩

theorem getAccessRestrictions_sync_eq_iff_mixedDb :
    mixedCipher ∈ Cipher.findByUserVisible groupConfig mixedDb ⟨1⟩ ∧
    (Cipher.getAccessRestrictions groupConfig mixedDb mixedCipher ⟨1⟩
        (some (CipherSyncData.new groupConfig mixedDb ⟨1⟩)) =
        Cipher.getAccessRestrictions groupConfig mixedDb mixedCipher ⟨1⟩ none ↔
      Cipher.hasFullAccess groupConfig mixedDb mixedCipher ⟨1⟩ none = true ∨
        (¬ ∃ cu, DirectOn mixedDb mixedCipher ⟨1⟩ cu) ∨
        GroupsAddNothing groupConfig mixedDb mixedCipher ⟨1⟩) :=
  ⟨by decide, getAccessRestrictions_sync_eq_iff mixedDb_orgBoundary (by decide)⟩

end Access

end VaultServer
