import VaultServer.Db.CipherAccess

/-!
# The paths from a user to a cipher

What the access queries compute, said without joins. A user reaches a cipher as its owner, through
full access to its organization, through a group with full access, or through a collection the
cipher is linked to: assigned to the user directly or to a group the user is in. The lemmas below
say which of these paths each query finds, and under which condition on the membership.
-/

namespace VaultServer

open Lib List

variable {m : Membership} {cc : CollectionCipher}

namespace Access

/-- The membership `m` is in the group `g`, and `g` is a group of its organization. -/
def GroupOf (db : Db) (m : Membership) (g : Group) : Prop :=
  g ∈ db.groups.rows ∧ g.organizationsUuid = m.orgUuid ∧
    ∃ gu ∈ db.groupsUsers.rows, gu.groupsUuid = g.uuid ∧ gu.usersOrganizationsUuid = m.uuid

def Linked (db : Db) (c : Cipher) (k : CollectionId) : Prop :=
  ∃ cc ∈ db.ciphersCollections.rows, cc.cipherUuid = c.uuid ∧ cc.collectionUuid = k

/-- `cu` assigns the collection `k` to the user. -/
def Direct (db : Db) (u : UserId) (k : CollectionId) (cu : CollectionUser) : Prop :=
  cu ∈ db.usersCollections.rows ∧ cu.userUuid = u ∧ cu.collectionUuid = k

/-- `cg` assigns the collection `k` to a group of the membership. -/
def ByGroup (db : Db) (m : Membership) (k : CollectionId) (cg : CollectionGroup) : Prop :=
  ∃ g, GroupOf db m g ∧ cg ∈ db.collectionsGroups.rows ∧ cg.collectionsUuid = k ∧
    cg.groupsUuid = g.uuid

/-- A membership of `u`, in whatever state. -/
def MemberOf (db : Db) (u : UserId) (m : Membership) : Prop :=
  m ∈ db.usersOrganizations.rows ∧ m.userUuid = u

def ConfirmedIn (db : Db) (u : UserId) (c : Cipher) (m : Membership) : Prop :=
  MemberOf db u m ∧ c.organizationUuid = some m.orgUuid ∧ m.hasStatus .confirmed = true

/-- One membership per user and organization. -/
theorem MemberOf.unique {db u n} (hm : MemberOf db u m)
    (hn : MemberOf db u n) (h : m.orgUuid = n.orgUuid) : m = n := by
  refine Table.eq_of_uniq hm.1 hn.1 ?_
  rw [Membership.userOrg, Membership.userOrg, hm.2, hn.2, h]

/-! ## The joins with the group tables -/

section
variable {db : Db} {rows : List JoinRow} {r : JoinRow}

theorem mem_joinGroups : r' ∈ leftJoin (JoinRow.withGroups db (JoinRow.withGroupsUsers db rows))
        db.collectionsGroups.rows on (fun r o => { r with collectionsGroups := o }) ↔ ∃ r ∈ rows,
      ∃ gu ∈ padded db.groupsUsers.rows fun gu =>
        r.usersOrganizations.any fun m => gu.usersOrganizationsUuid = m.uuid,
      ∃ g ∈ padded db.groups.rows fun g =>
        (gu.any fun gu => g.uuid = gu.groupsUuid) ∧
          r.usersOrganizations.any fun m => g.organizationsUuid = m.orgUuid,
      ∃ cg ∈ padded db.collectionsGroups.rows (on { r with groupsUsers := gu, groups := g }),
      r' = { r with groupsUsers := gu, groups := g, collectionsGroups := cg } := by
  unfold JoinRow.withGroups JoinRow.withGroupsUsers
  constructor
  · intro h
    obtain ⟨r2, h2, cg, hcg, rfl⟩ := mem_leftJoin.1 h
    obtain ⟨r1, h1, g, hg, rfl⟩ := mem_leftJoin.1 h2
    obtain ⟨r, hr, gu, hgu, rfl⟩ := mem_leftJoin.1 h1
    exact ⟨r, hr, gu, hgu, g, hg, cg, hcg, rfl⟩
  · rintro ⟨r, hr, gu, hgu, g, hg, cg, hcg, rfl⟩
    exact mem_leftJoin.2 ⟨_, mem_leftJoin.2 ⟨_, mem_leftJoin.2 ⟨r, hr, gu, hgu, rfl⟩, g, hg, rfl⟩,
      cg, hcg, rfl⟩

/-- A group column of a joined row is a group of the row's membership. -/
theorem groupOf_of_padded (hgu : gu ∈ padded db.groupsUsers.rows fun gu =>
      om.any fun m => gu.usersOrganizationsUuid = m.uuid)
    (hg : some g ∈ padded db.groups.rows fun g =>
      (gu.any fun gu => g.uuid = gu.groupsUuid) ∧ om.any fun m => g.organizationsUuid = m.orgUuid) :
    ∃ m, om = some m ∧ GroupOf db m g := by
  obtain ⟨hmem, hon⟩ := some_mem_padded.1 hg
  have hon : (gu.any fun gu => g.uuid = gu.groupsUuid) = true ∧
      (om.any fun m => g.organizationsUuid = m.orgUuid) = true := by simpa using hon
  obtain ⟨m, rfl, horg⟩ := any_iff.1 hon.2
  obtain ⟨x, rfl, hx⟩ := any_iff.1 hon.1
  obtain ⟨hxmem, hxon⟩ := some_mem_padded.1 hgu
  refine ⟨m, rfl, hmem, by simpa using horg, x, hxmem, ?_, by simpa using hxon⟩
  have : g.uuid = x.groupsUuid := by simpa using hx
  exact this.symm

/-- Every group of the row's membership shows up in some joined row. -/
theorem exists_withGroup (hr : r ∈ rows)
    (hm : r.usersOrganizations = some m) (hg : GroupOf db m g) :
    ∃ r' ∈ JoinRow.withGroupRights db rows, r'.ciphers = r.ciphers ∧
      r'.ciphersCollections = r.ciphersCollections ∧ r'.groups = some g := by
  obtain ⟨hgm, horg, gu, hgu, hgg, hgum⟩ := hg
  obtain ⟨cg, hcg⟩ := exists_mem_padded db.collectionsGroups.rows fun cg =>
    (r.ciphersCollections.any fun cc => cg.collectionsUuid = cc.collectionUuid) ∧
      (some g).any fun g => cg.groupsUuid = g.uuid
  refine ⟨_, mem_joinGroups.2 ⟨r, hr, some gu, ?_, some g, ?_, cg, hcg, rfl⟩, rfl, rfl, rfl⟩
  · exact some_mem_padded.2 ⟨hgu, by simp [hm, hgum]⟩
  · exact some_mem_padded.2 ⟨hgm, by simp [hm, hgg, horg]⟩

theorem exists_withCollectionGroup
    (hr : r ∈ rows) (hm : r.usersOrganizations = some m) (hcc : r.ciphersCollections = some cc)
    (hcg : ByGroup db m cc.collectionUuid cg) :
    ∃ r' ∈ JoinRow.withGroupRights db rows, r'.ciphers = r.ciphers ∧
      r'.ciphersCollections = r.ciphersCollections ∧ r'.collectionsGroups = some cg := by
  obtain ⟨g, ⟨hgm, horg, gu, hgu, hgg, hgum⟩, hcgm, hk, hcgg⟩ := hcg
  refine ⟨_, mem_joinGroups.2 ⟨r, hr, some gu, ?_, some g, ?_, some cg, ?_, rfl⟩, rfl, rfl, rfl⟩
  · exact some_mem_padded.2 ⟨hgu, by simp [hm, hgum]⟩
  · exact some_mem_padded.2 ⟨hgm, by simp [hm, hgg, horg]⟩
  · exact some_mem_padded.2 ⟨hcgm, by simp [hcc, hk, hcgg]⟩

variable (db) in
/-- The group joins lose no row. -/
theorem exists_joinGroups (on : JoinRow → CollectionGroup → Bool) (hr : r ∈ rows) :
    ∃ r' ∈ leftJoin (JoinRow.withGroups db (JoinRow.withGroupsUsers db rows))
        db.collectionsGroups.rows on (fun r o => { r with collectionsGroups := o }),
      ∃ gu g cg, r' = { r with groupsUsers := gu, groups := g, collectionsGroups := cg } := by
  obtain ⟨gu, hgu⟩ := exists_mem_padded db.groupsUsers.rows _
  obtain ⟨g, hg⟩ := exists_mem_padded db.groups.rows _
  obtain ⟨cg, hcg⟩ := exists_mem_padded db.collectionsGroups.rows _
  exact ⟨_, mem_joinGroups.2 ⟨r, hr, gu, hgu, g, hg, cg, hcg, rfl⟩, gu, g, cg, rfl⟩

/-- What the group columns of a joined row say about its membership. -/
theorem of_mem_withGroupRights (h : r' ∈ JoinRow.withGroupRights db rows) :
    ∃ r ∈ rows, (∃ gu, r' = { r with
        groupsUsers := gu, groups := r'.groups, collectionsGroups := r'.collectionsGroups }) ∧
      (∀ g, r'.groups = some g → ∃ m, r.usersOrganizations = some m ∧ GroupOf db m g) ∧
      ∀ cg, r'.collectionsGroups = some cg → ∃ m cc, r.usersOrganizations = some m ∧
        r.ciphersCollections = some cc ∧ ByGroup db m cc.collectionUuid cg := by
  obtain ⟨r, hr, gu, hgu, og, hg, ocg, hcg, rfl⟩ := mem_joinGroups.1 h
  refine ⟨r, hr, ⟨gu, rfl⟩, ?_, ?_⟩
  · rintro g rfl
    exact groupOf_of_padded hgu hg
  · rintro cg rfl
    obtain ⟨hmem, hon⟩ := some_mem_padded.1 hcg
    have hon : (r.ciphersCollections.any fun cc => cg.collectionsUuid = cc.collectionUuid) = true ∧
        (og.any fun g => cg.groupsUuid = g.uuid) = true := by simpa using hon
    obtain ⟨cc, hcc, hk⟩ := any_iff.1 hon.1
    obtain ⟨g, rfl, hgg⟩ := any_iff.1 hon.2
    obtain ⟨m, hm, hgo⟩ := groupOf_of_padded hgu hg
    exact ⟨m, cc, hm, hcc, g, hgo, hmem, by simpa using hk, by simpa using hgg⟩

end

/-! ## The vault listing -/

/-- The paths that a membership of the cipher's organization opens. -/
inductive Path (cfg : Config) (db : Db) (c : Cipher) (u : UserId) (m : Membership) : Prop where
  | accessAll (h : m.accessAll = true)
  | direct {k : CollectionId} {cu : CollectionUser} (hl : Linked db c k) (hd : Direct db u k cu)
  | fullGroup {g : Group} (he : cfg.orgGroupsEnabled = true) (hg : GroupOf db m g)
      (ha : g.accessAll = true)
  | group {k : CollectionId} {cg : CollectionGroup} (he : cfg.orgGroupsEnabled = true)
      (hl : Linked db c k) (hg : ByGroup db m k cg)

section
variable {cfg : Config} {db : Db} {c : Cipher} {u : UserId} {r : JoinRow}

theorem mem_vaultRows : r ∈ Cipher.vaultRows db u ↔ ∃ c ∈ db.ciphers.rows,
    ∃ occ ∈ padded db.ciphersCollections.rows fun cc => c.uuid = cc.cipherUuid,
    ∃ om ∈ padded db.usersOrganizations.rows fun m =>
      c.organizationUuid = some m.orgUuid ∧ m.userUuid = u ∧ m.hasStatus .confirmed,
    ∃ ocu ∈ padded db.usersCollections.rows fun cu =>
      (occ.any fun cc => cc.collectionUuid = cu.collectionUuid) ∧
        om.any fun m => m.userUuid = cu.userUuid,
    r = { ciphers := some c, ciphersCollections := occ, usersOrganizations := om,
          usersCollections := ocu } := by
  unfold Cipher.vaultRows
  constructor
  · intro h
    obtain ⟨r2, h2, ocu, hcu, rfl⟩ := mem_leftJoin.1 h
    obtain ⟨r1, h1, om, hm, rfl⟩ := mem_leftJoin.1 h2
    obtain ⟨r0, h0, occ, hcc, rfl⟩ := mem_leftJoin.1 h1
    obtain ⟨c, hc, rfl⟩ := mem_map.1 h0
    exact ⟨c, hc, occ, by simpa using hcc, om, by simpa using hm, ocu, by simpa using hcu, rfl⟩
  · rintro ⟨c, hc, occ, hcc, om, hm, ocu, hcu, rfl⟩
    refine mem_leftJoin.2 ⟨_, mem_leftJoin.2 ⟨_, mem_leftJoin.2 ⟨_, mem_map.2 ⟨c, hc, rfl⟩,
      occ, by simpa using hcc, rfl⟩, om, by simpa using hm, rfl⟩, ocu, by simpa using hcu, rfl⟩

/-- What the columns of a row of the listing say. -/
theorem of_mem_vaultRows (h : r ∈ Cipher.vaultRows db u) (hc : r.ciphers = some c) :
    c ∈ db.ciphers.rows ∧
    (∀ cc, r.ciphersCollections = some cc → Linked db c cc.collectionUuid) ∧
    (∀ m, r.usersOrganizations = some m → ConfirmedIn db u c m) ∧
    (∀ cu, r.usersCollections = some cu → ∃ m cc, r.usersOrganizations = some m ∧
      r.ciphersCollections = some cc ∧ Direct db u cc.collectionUuid cu) ∧
    r.groups = none ∧ r.collectionsGroups = none := by
  obtain ⟨x, hx, occ, hcc, om, hm, ocu, hcu, rfl⟩ := mem_vaultRows.1 h
  obtain rfl : x = c := Option.some.inj hc
  have hconf : ∀ m, om = some m → ConfirmedIn db u x m := by
    rintro m rfl
    obtain ⟨hmem, hon⟩ := some_mem_padded.1 hm
    have hon : x.organizationUuid = some m.orgUuid ∧ m.userUuid = u ∧
        m.hasStatus .confirmed = true := by simpa using hon
    exact ⟨⟨hmem, hon.2.1⟩, hon.1, hon.2.2⟩
  refine ⟨hx, ?_, hconf, ?_, rfl, rfl⟩
  · rintro cc rfl
    obtain ⟨hmem, hon⟩ := some_mem_padded.1 hcc
    have hon : x.uuid = cc.cipherUuid := by simpa using hon
    exact ⟨cc, hmem, hon.symm, rfl⟩
  · rintro cu rfl
    obtain ⟨hmem, hon⟩ := some_mem_padded.1 hcu
    have hon : (occ.any fun cc => cc.collectionUuid = cu.collectionUuid) = true ∧
        (om.any fun m => m.userUuid = cu.userUuid) = true := by simpa using hon
    obtain ⟨cc, rfl, hk⟩ := any_iff.1 hon.1
    obtain ⟨m, rfl, hu⟩ := any_iff.1 hon.2
    have hk : cc.collectionUuid = cu.collectionUuid := by simpa using hk
    have hu : m.userUuid = cu.userUuid := by simpa using hu
    exact ⟨m, cc, rfl, rfl, hmem, hu ▸ (hconf m rfl).1.2, hk.symm⟩

variable (u) in
/-- A row of the listing for every combination of link, confirmed membership and assignment. -/
theorem exists_vaultRow (hc : c ∈ db.ciphers.rows) : ∃ r ∈ Cipher.vaultRows db u,
    r.ciphers = some c := by
  obtain ⟨occ, hcc⟩ := exists_mem_padded db.ciphersCollections.rows fun cc => c.uuid = cc.cipherUuid
  obtain ⟨om, hm⟩ := exists_mem_padded db.usersOrganizations.rows fun m =>
    c.organizationUuid = some m.orgUuid ∧ m.userUuid = u ∧ m.hasStatus .confirmed
  obtain ⟨ocu, hcu⟩ := exists_mem_padded db.usersCollections.rows fun cu =>
    (occ.any fun cc => cc.collectionUuid = cu.collectionUuid) ∧
      om.any fun m => m.userUuid = cu.userUuid
  exact ⟨_, mem_vaultRows.2 ⟨c, hc, occ, hcc, om, hm, ocu, hcu, rfl⟩, rfl⟩

theorem exists_vaultRow_member (hc : c ∈ db.ciphers.rows)
    (hm : ConfirmedIn db u c m) : ∃ r ∈ Cipher.vaultRows db u, r.ciphers = some c ∧
      r.usersOrganizations = some m := by
  obtain ⟨occ, hcc⟩ := exists_mem_padded db.ciphersCollections.rows fun cc => c.uuid = cc.cipherUuid
  obtain ⟨ocu, hcu⟩ := exists_mem_padded db.usersCollections.rows fun cu =>
    (occ.any fun cc => cc.collectionUuid = cu.collectionUuid) ∧
      (some m).any fun m => m.userUuid = cu.userUuid
  refine ⟨_, mem_vaultRows.2 ⟨c, hc, occ, hcc, some m, ?_, ocu, hcu, rfl⟩, rfl, rfl⟩
  exact some_mem_padded.2 ⟨hm.1.1, by simp [hm.2.1, hm.1.2, hm.2.2]⟩

theorem exists_vaultRow_link (hc : c ∈ db.ciphers.rows)
    (hm : ConfirmedIn db u c m) (hcc : cc ∈ db.ciphersCollections.rows)
    (hl : cc.cipherUuid = c.uuid) : ∃ r ∈ Cipher.vaultRows db u, r.ciphers = some c ∧
      r.usersOrganizations = some m ∧ r.ciphersCollections = some cc ∧
      ∀ cu, Direct db u cc.collectionUuid cu → ∃ r ∈ Cipher.vaultRows db u, r.ciphers = some c ∧
        r.usersCollections = some cu := by
  have hm' : some m ∈ padded db.usersOrganizations.rows fun m =>
      c.organizationUuid = some m.orgUuid ∧ m.userUuid = u ∧ m.hasStatus .confirmed :=
    some_mem_padded.2 ⟨hm.1.1, by simp [hm.2.1, hm.1.2, hm.2.2]⟩
  have hcc' : some cc ∈ padded db.ciphersCollections.rows fun cc => c.uuid = cc.cipherUuid :=
    some_mem_padded.2 ⟨hcc, by simp [hl]⟩
  obtain ⟨ocu, hcu⟩ := exists_mem_padded db.usersCollections.rows fun cu =>
    ((some cc).any fun cc => cc.collectionUuid = cu.collectionUuid) ∧
      (some m).any fun m => m.userUuid = cu.userUuid
  refine ⟨_, mem_vaultRows.2 ⟨c, hc, some cc, hcc', some m, hm', ocu, hcu, rfl⟩, rfl, rfl, rfl, ?_⟩
  intro cu hd
  refine ⟨_, mem_vaultRows.2 ⟨c, hc, some cc, hcc', some m, hm', some cu, ?_, rfl⟩, rfl, rfl⟩
  exact some_mem_padded.2 ⟨hd.1, by simp [hd.2.1, hd.2.2, hm.1.2]⟩

/-- The rows `find_by_user` filters. -/
def listingRows (cfg : Config) (db : Db) (u : UserId) : List JoinRow :=
  if cfg.orgGroupsEnabled then JoinRow.withGroupRights db (Cipher.vaultRows db u)
  else Cipher.vaultRows db u

theorem mem_findByUser_iff_row : c ∈ Cipher.findByUser cfg db u vis [] ↔
    ∃ r ∈ listingRows cfg db u, Cipher.vaultFilter u vis r = true ∧ r.ciphers = some c := by
  simp only [Cipher.findByUser, listingRows, mem_dedup, mem_filterMap, mem_filter,
    isEmpty_nil, Bool.true_or, Bool.and_true, and_assoc]

/-- What the columns of a filtered row say, with or without the group joins. -/
theorem of_mem_listingRows (h : r ∈ listingRows cfg db u) (hc : r.ciphers = some c) :
    c ∈ db.ciphers.rows ∧
    (∀ m, r.usersOrganizations = some m → ConfirmedIn db u c m) ∧
    (∀ cu, r.usersCollections = some cu → ∃ m k, r.usersOrganizations = some m ∧
      Linked db c k ∧ Direct db u k cu) ∧
    (∀ g, r.groups = some g → cfg.orgGroupsEnabled = true ∧
      ∃ m, r.usersOrganizations = some m ∧ GroupOf db m g) ∧
    ∀ cg, r.collectionsGroups = some cg → cfg.orgGroupsEnabled = true ∧
      ∃ m k, r.usersOrganizations = some m ∧ Linked db c k ∧ ByGroup db m k cg := by
  unfold listingRows at h
  split at h
  · next he =>
    obtain ⟨r0, hr0, ⟨gu, hr⟩, hg, hcg⟩ := of_mem_withGroupRights h
    rw [hr] at hc ⊢
    obtain ⟨hmem, hlink, hconf, hdirect, -⟩ := of_mem_vaultRows hr0 hc
    refine ⟨hmem, hconf, ?_, fun g h => ⟨he, hg g h⟩, ?_⟩
    · intro cu h
      obtain ⟨m, cc, hm, hcc, hd⟩ := hdirect cu h
      exact ⟨m, cc.collectionUuid, hm, hlink cc hcc, hd⟩
    · intro cg h
      obtain ⟨m, cc, hm, hcc, hb⟩ := hcg cg h
      exact ⟨he, m, cc.collectionUuid, hm, hlink cc hcc, hb⟩
  · obtain ⟨hmem, hlink, hconf, hdirect, hg, hcg⟩ := of_mem_vaultRows h hc
    refine ⟨hmem, hconf, ?_, by simp [hg], by simp [hcg]⟩
    intro cu h
    obtain ⟨m, cc, hm, hcc, hd⟩ := hdirect cu h
    exact ⟨m, cc.collectionUuid, hm, hlink cc hcc, hd⟩

variable (cfg) in
/-- The group joins extend every row of the listing. -/
theorem exists_listingRow (hr : r ∈ Cipher.vaultRows db u) : ∃ r' ∈ listingRows cfg db u,
    r'.ciphers = r.ciphers ∧ r'.usersOrganizations = r.usersOrganizations ∧
    r'.usersCollections = r.usersCollections := by
  unfold listingRows
  split
  · obtain ⟨r', hr', gu, g, cg, rfl⟩ := exists_joinGroups db _ hr
    exact ⟨_, hr', rfl, rfl, rfl⟩
  · exact ⟨r, hr, rfl, rfl, rfl⟩

/-- **The listing shows a member's paths only while the membership is confirmed.** -/
theorem mem_findByUser : c ∈ Cipher.findByUser cfg db u vis [] ↔
    c ∈ db.ciphers.rows ∧ (c.userUuid = some u ∨ ∃ m, ConfirmedIn db u c m ∧
      (Path cfg db c u m ∨ (vis = false ∧ MembershipType.admin ≤ m.atype))) := by
  rw [mem_findByUser_iff_row]
  constructor
  · rintro ⟨r, hr, hf, hc⟩
    obtain ⟨hmem, hconf, hdirect, hgroup, hcg⟩ := of_mem_listingRows hr hc
    refine ⟨hmem, ?_⟩
    simp only [Cipher.vaultFilter, Bool.or_eq_true, Bool.and_eq_true] at hf
    rcases hf with ((((hf | hf) | hf) | hf) | hf) | ⟨hvis, hf⟩
    · rw [hc] at hf; exact .inl (by simpa using hf)
    · obtain ⟨m, hm, ha⟩ := any_iff.1 hf
      exact .inr ⟨m, hconf m hm, .inl (.accessAll ha)⟩
    · obtain ⟨cu, hcu, -⟩ := any_iff.1 hf
      obtain ⟨m, k, hm, hl, hd⟩ := hdirect cu hcu
      exact .inr ⟨m, hconf m hm, .inl (.direct hl hd)⟩
    · obtain ⟨g, hg, ha⟩ := any_iff.1 hf
      obtain ⟨he, m, hm, hgo⟩ := hgroup g hg
      exact .inr ⟨m, hconf m hm, .inl (.fullGroup he hgo ha)⟩
    · obtain ⟨cg, h⟩ := Option.isSome_iff_exists.1 hf
      obtain ⟨he, m, k, hm, hl, hb⟩ := hcg cg h
      exact .inr ⟨m, hconf m hm, .inl (.group he hl hb)⟩
    · obtain ⟨m, hm, ha⟩ := any_iff.1 hf
      exact .inr ⟨m, hconf m hm, .inr ⟨by simpa using hvis,
        MembershipType.toI32_le_admin.1 (by simpa using ha)⟩⟩
  · rintro ⟨hmem, howned | ⟨m, hm, hp | ⟨hvis, hadmin⟩⟩⟩
    · obtain ⟨r, hr, hc⟩ := exists_vaultRow u hmem
      obtain ⟨r', hr', hc', -⟩ := exists_listingRow cfg hr
      exact ⟨r', hr', by simp [Cipher.vaultFilter, hc', hc, howned], hc'.trans hc⟩
    · cases hp with
      | accessAll ha =>
        obtain ⟨r, hr, hc, hrm⟩ := exists_vaultRow_member hmem hm
        obtain ⟨r', hr', hc', hm', -⟩ := exists_listingRow cfg hr
        exact ⟨r', hr', by simp [Cipher.vaultFilter, hm', hrm, ha], hc'.trans hc⟩
      | direct hl hd =>
        obtain ⟨cc, hcc, hcl, rfl⟩ := hl
        obtain ⟨-, -, -, -, -, hall⟩ := exists_vaultRow_link hmem hm hcc hcl
        obtain ⟨r, hr, hc, hcu⟩ := hall _ hd
        obtain ⟨r', hr', hc', -, hcu'⟩ := exists_listingRow cfg hr
        exact ⟨r', hr', by simp [Cipher.vaultFilter, hcu', hcu, hd.2.1], hc'.trans hc⟩
      | fullGroup he hg ha =>
        obtain ⟨r, hr, hc, hrm⟩ := exists_vaultRow_member hmem hm
        obtain ⟨r', hr', hc', -, hg'⟩ := exists_withGroup hr hrm hg
        exact ⟨r', by simpa [listingRows, he] using hr', by simp [Cipher.vaultFilter, hg', ha],
          hc'.trans hc⟩
      | group he hl hb =>
        obtain ⟨cc, hcc, hcl, rfl⟩ := hl
        obtain ⟨r, hr, hc, hrm, hrcc, -⟩ := exists_vaultRow_link hmem hm hcc hcl
        obtain ⟨r', hr', hc', -, hcg'⟩ := exists_withCollectionGroup hr hrm hrcc hb
        exact ⟨r', by simpa [listingRows, he] using hr', by simp [Cipher.vaultFilter, hcg'],
          hc'.trans hc⟩
    · obtain ⟨r, hr, hc, hrm⟩ := exists_vaultRow_member hmem hm
      obtain ⟨r', hr', hc', hm', -⟩ := exists_listingRow cfg hr
      have hle := MembershipType.toI32_le_admin.2 hadmin
      exact ⟨r', hr', by simp [Cipher.vaultFilter, hm', hrm, hvis, hle], hc'.trans hc⟩

end

/-! ## The check for one cipher -/

section
variable {cfg : Config} {db : Db} {c : Cipher} {u : UserId}

/-- A cipher that is stored is the only row with its identifier. -/
theorem mem_linkRows (hc : c ∈ db.ciphers.rows) :
    cc ∈ innerJoin (db.ciphers.rows.filter fun x => x.uuid = c.uuid) db.ciphersCollections.rows
      (fun x cc => x.uuid = cc.cipherUuid) (fun _ cc => cc) ↔
    cc ∈ db.ciphersCollections.rows ∧ cc.cipherUuid = c.uuid := by
  rw [mem_innerJoin]
  constructor
  · rintro ⟨x, hx, cc', hcc, hon, rfl⟩
    have hx : x ∈ db.ciphers.rows ∧ x.uuid = c.uuid := by simpa using hx
    have hon : x.uuid = cc.cipherUuid := by simpa using hon
    exact ⟨hcc, by rw [← hon, hx.2]⟩
  · rintro ⟨hcc, hl⟩
    exact ⟨c, by simpa using hc, cc, hcc, by simp [hl], rfl⟩

theorem mem_getUserCollectionsAccessFlags (hc : c ∈ db.ciphers.rows) :
    f ∈ Cipher.getUserCollectionsAccessFlags db c u ↔
      ∃ k cu, Linked db c k ∧ Direct db u k cu ∧ f = cu.flags := by
  unfold Cipher.getUserCollectionsAccessFlags
  rw [mem_innerJoin]
  constructor
  · rintro ⟨cc, hcc, cu, hcu, hon, rfl⟩
    obtain ⟨hcc, hl⟩ := (mem_linkRows hc).1 hcc
    have hon : cc.collectionUuid = cu.collectionUuid ∧ cu.userUuid = u := by simpa using hon
    exact ⟨cc.collectionUuid, cu, ⟨cc, hcc, hl, rfl⟩, ⟨hcu, hon.2, hon.1.symm⟩, rfl⟩
  · rintro ⟨k, cu, ⟨cc, hcc, hl, rfl⟩, ⟨hcu, hu, hk⟩, rfl⟩
    exact ⟨cc, (mem_linkRows hc).2 ⟨hcc, hl⟩, cu, hcu, by simp [hk, hu], rfl⟩

theorem mem_getGroupCollectionsAccessFlags (hc : c ∈ db.ciphers.rows) :
    f ∈ Cipher.getGroupCollectionsAccessFlags cfg db c u ↔ cfg.orgGroupsEnabled = true ∧
      ∃ m k cg, MemberOf db u m ∧ Linked db c k ∧ ByGroup db m k cg ∧ f = cg.flags := by
  unfold Cipher.getGroupCollectionsAccessFlags
  split
  · next he =>
    refine ⟨fun h => ⟨he, ?_⟩, fun h => ?_⟩
    · obtain ⟨⟨cg, m⟩, h5, rfl⟩ := mem_map.1 h
      obtain ⟨h4, hu⟩ := mem_filter.1 h5
      obtain ⟨_, h3, g, hg, hgon, rfl⟩ := mem_innerJoin.1 h4
      obtain ⟨⟨cg, gu⟩, h2, _, hm, hmon, heq⟩ := mem_innerJoin.1 h3
      cases heq
      obtain ⟨_, h1, _, hgu, hguon, heq⟩ := mem_innerJoin.1 h2
      cases heq
      obtain ⟨cc, h0, _, hcg, hcgon, rfl⟩ := mem_innerJoin.1 h1
      obtain ⟨hcc, hl⟩ := (mem_linkRows hc).1 h0
      simp only [decide_eq_true_eq] at hu hgon hmon hguon hcgon
      refine ⟨m, cc.collectionUuid, cg, ⟨hm, hu⟩, ⟨cc, hcc, hl, rfl⟩, ⟨g, ⟨hg, hgon.2, gu, hgu, ?_, ?_⟩,
        hcg, hcgon, hgon.1.symm⟩, rfl⟩
      · rw [hguon, hgon.1]
      · exact hmon.symm
    · obtain ⟨-, m, k, cg, ⟨hm, hu⟩, ⟨cc, hcc, hl, rfl⟩, ⟨g, ⟨hg, horg, gu, hgu, hgg, hgm⟩, hcg, hk,
        hcgg⟩, rfl⟩ := h
      refine mem_map.2 ⟨(cg, m), mem_filter.2 ⟨?_, by simpa using hu⟩, rfl⟩
      refine mem_innerJoin.2 ⟨(cg, m), ?_, g, hg, by simp [hcgg, horg], rfl⟩
      refine mem_innerJoin.2 ⟨(cg, gu), ?_, m, hm, by simp [hgm], rfl⟩
      refine mem_innerJoin.2 ⟨cg, ?_, gu, hgu, by simp [hgg, hcgg], rfl⟩
      exact mem_innerJoin.2 ⟨cc, (mem_linkRows hc).2 ⟨hcc, hl⟩, cg, hcg, by simp [hk], rfl⟩
  · next he => simp [he]

theorem isInFullAccessGroup_iff : Group.isInFullAccessGroup db u org = true ↔
      ∃ m g, MemberOf db u m ∧ m.orgUuid = org ∧ GroupOf db m g ∧ g.accessAll = true := by
  unfold Group.isInFullAccessGroup Group.memberRows
  rw [any_eq_true]
  constructor
  · rintro ⟨⟨g, gu, m⟩, h2, hp⟩
    obtain ⟨_, h1, _, hm, hmon, heq⟩ := mem_innerJoin.1 h2
    cases heq
    obtain ⟨g, hg, gu, hgu, hguon, rfl⟩ := mem_innerJoin.1 h1
    simp only [decide_eq_true_eq] at hp hmon hguon
    exact ⟨m, g, ⟨hm, hp.1⟩, hmon.2.trans hp.2.1, ⟨hg, hmon.2.symm, gu, hgu, hguon, hmon.1.symm⟩, hp.2.2⟩
  · rintro ⟨m, g, ⟨hm, hu⟩, ho, ⟨hg, horg, gu, hgu, hgg, hgm⟩, ha⟩
    refine ⟨(g, gu, m), ?_, by simp [hu, horg, ho, ha]⟩
    refine mem_innerJoin.2 ⟨(g, gu), ?_, m, hm, by simp [hgm, horg], rfl⟩
    exact mem_innerJoin.2 ⟨g, hg, gu, hgu, by simp [hgg], rfl⟩

/-- The rows the check looks at: assignments and group rights, whatever the membership's state. -/
def RowPath (cfg : Config) (db : Db) (c : Cipher) (u : UserId) : Prop :=
  (∃ k cu, Linked db c k ∧ Direct db u k cu) ∨
    cfg.orgGroupsEnabled = true ∧ ∃ m k cg, MemberOf db u m ∧ Linked db c k ∧ ByGroup db m k cg

theorem liveFlags_ne_nil (hc : c ∈ db.ciphers.rows) :
    Cipher.liveFlags cfg db c u ≠ [] ↔ RowPath cfg db c u := by
  have huser : Cipher.getUserCollectionsAccessFlags db c u ≠ [] ↔
      ∃ k cu, Linked db c k ∧ Direct db u k cu := by
    constructor
    · intro h
      obtain ⟨f, hf⟩ := exists_mem_of_ne_nil _ h
      obtain ⟨k, cu, hl, hd, -⟩ := (mem_getUserCollectionsAccessFlags hc).1 hf
      exact ⟨k, cu, hl, hd⟩
    · rintro ⟨k, cu, hl, hd⟩
      exact ne_nil_of_mem ((mem_getUserCollectionsAccessFlags hc).2 ⟨k, cu, hl, hd, rfl⟩)
  have hgroup : Cipher.getGroupCollectionsAccessFlags cfg db c u ≠ [] ↔ cfg.orgGroupsEnabled = true ∧
      ∃ m k cg, MemberOf db u m ∧ Linked db c k ∧ ByGroup db m k cg := by
    constructor
    · intro h
      obtain ⟨f, hf⟩ := exists_mem_of_ne_nil _ h
      obtain ⟨he, m, k, cg, hm, hl, hb, -⟩ := (mem_getGroupCollectionsAccessFlags hc).1 hf
      exact ⟨he, m, k, cg, hm, hl, hb⟩
    · rintro ⟨he, m, k, cg, hm, hl, hb⟩
      exact ne_nil_of_mem
        ((mem_getGroupCollectionsAccessFlags hc).2 ⟨he, m, k, cg, hm, hl, hb, rfl⟩)
  unfold Cipher.liveFlags RowPath
  rw [← huser, ← hgroup]
  by_cases h : Cipher.getUserCollectionsAccessFlags db c u = [] <;> simp [h]

/-- What `get_access_restrictions` treats as access without restrictions. -/
theorem hasFullAccess_iff : Cipher.hasFullAccess cfg db c u none = true ↔
    c.userUuid = some u ∨
    (∃ m, ConfirmedIn db u c m ∧ (m.accessAll = true ∨ MembershipType.admin ≤ m.atype)) ∨
    cfg.orgGroupsEnabled = true ∧ ∃ m g, MemberOf db u m ∧ c.organizationUuid = some m.orgUuid ∧
      GroupOf db m g ∧ g.accessAll = true := by
  have horg : Cipher.isInFullAccessOrg db c u none = true ↔
      ∃ m, ConfirmedIn db u c m ∧ (m.accessAll = true ∨ MembershipType.admin ≤ m.atype) := by
    unfold Cipher.isInFullAccessOrg
    cases ho : c.organizationUuid with
    | none => simp [ConfirmedIn, ho]
    | some =>
      simp only [any_iff, Membership.findConfirmedByUserAndOrg_eq_some]
      constructor
      · rintro ⟨m, ⟨hm, hu, rfl, hs⟩, hf⟩
        refine ⟨m, ⟨⟨hm, hu⟩, ho, hs⟩, ?_⟩
        simpa [Membership.hasFullAccess, hs] using hf
      · rintro ⟨m, ⟨⟨hm, hu⟩, ho', hs⟩, hf⟩
        rw [ho] at ho'
        refine ⟨m, ⟨hm, hu, (Option.some.inj ho').symm, hs⟩, ?_⟩
        simpa [Membership.hasFullAccess, hs] using hf
  have hgroup : Cipher.isInFullAccessGroup cfg db c u none = true ↔
      cfg.orgGroupsEnabled = true ∧ ∃ m g, MemberOf db u m ∧ c.organizationUuid = some m.orgUuid ∧
        GroupOf db m g ∧ g.accessAll = true := by
    unfold Cipher.isInFullAccessGroup
    split
    · next he =>
      cases ho : c.organizationUuid with
      | none => simp
      | some org =>
        simp only [isInFullAccessGroup_iff, he, true_and, Option.some.injEq, eq_comm (a := org)]
    · next he => simp [he]
  rw [Cipher.hasFullAccess, Bool.or_eq_true, Bool.or_eq_true, horg, hgroup, or_assoc]
  simp [Cipher.isOwnedByUser]

/-- **The single-cipher check looks at rows, not at the state of the membership.** -/
theorem isSome_getAccessRestrictions (hc : c ∈ db.ciphers.rows) :
    (Cipher.getAccessRestrictions cfg db c u none).isSome = true ↔
      Cipher.hasFullAccess cfg db c u none = true ∨ RowPath cfg db c u := by
  rw [← liveFlags_ne_nil hc]
  unfold Cipher.getAccessRestrictions
  by_cases hf : Cipher.hasFullAccess cfg db c u none = true
  · simp [hf]
  · by_cases hr : Cipher.liveFlags cfg db c u = [] <;> simp [hf, hr]

end

end Access

end VaultServer
