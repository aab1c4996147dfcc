import VaultServer.Access.View
import VaultServer.Effects.Faults
import VaultServer.Effects.Organizations

/-!
# Who is told about a change of links

A client asks for its account's revision and downloads the vault only when it has moved, so a change
of collection, group or membership links has to bump the revision of everybody who sees it. The
operations on assignments and groups tell whoever they concern. A link between a cipher and a
collection tells the members with full access and those the collection is assigned to, and nobody
who reaches the collection through a group only.
-/

namespace VaultServer

open Lib List Table

variable {cg : CollectionGroup} {stmt : Db → Option Db}

/-! ## Bumping revisions -/

/-- The accounts in `us` carry the revision `t`. -/
def Db.revised (db : Db) (t : Time) (us : List UserId) : Db :=
  { db with
    users := db.users.updateWhere (fun r => us.contains r.uuid) (fun r => { r with updatedAt := t })
      (fun _ => rfl) fun _ => rfl }

theorem Db.revised_revised (db : Db) (t : Time) (us vs : List UserId) :
    (db.revised t us).revised t vs = db.revised t (us ++ vs) := by
  have hrows : ((db.revised t us).revised t vs).users = (db.revised t (us ++ vs)).users := by
    refine ext_rows ?_
    simp only [Db.revised, Table.updateWhere, map_map]
    refine map_congr_left fun r _ => ?_
    by_cases hu : us.contains r.uuid = true <;> by_cases hv : vs.contains r.uuid = true <;> simp_all
  exact congrArg (fun users => { db with users := users }) hrows

theorem Db.revised_nil (db : Db) (t : Time) : db.revised t [] = db := by
  have hrows : (db.revised t []).users = db.users := by
    refine ext_rows ?_
    simp [Db.revised, Table.updateWhere]
  exact congrArg (fun users => { db with users := users }) hrows

/-- Whoever is named carries the new revision. -/
theorem Db.revised_told {db : Db} {t us}
    (hr : r ∈ (db.revised t us).users.rows) (hu : r.uuid ∈ us) : r.updatedAt = t := by
  obtain ⟨r0, -, rfl⟩ := mem_map.1 hr
  by_cases h : us.contains r0.uuid = true
  · simp only [h, if_true]
  · rw [if_neg h] at hu
    exact absurd (contains_iff_mem.2 hu) h

theorem Db.revised_uuid {db : Db} {t us} (hr : r ∈ (db.revised t us).users.rows) :
    ∃ r0 ∈ db.users.rows, r0.uuid = r.uuid := by
  obtain ⟨r0, hr0, rfl⟩ := mem_map.1 hr
  refine ⟨r0, hr0, ?_⟩
  split <;> rfl

/-- Whoever is not named keeps their row. -/
theorem Db.mem_revised {db : Db} {t us} (hr : r ∈ db.users.rows) (hu : r.uuid ∉ us) :
    r ∈ (db.revised t us).users.rows := by
  refine mem_map.2 ⟨r, hr, if_neg ?_⟩
  rwa [contains_iff_mem]

/-- The program returns and bumps the revision of exactly the accounts `us`. -/
abbrev Revises (env : Env) (w : World) (c : Cmd Unit) (us : List UserId) : Prop :=
  Returns w c fun _ w' => w'.db = w.db.revised env.now us

namespace Revises

variable {env : Env} {w : World} {c d : Cmd Unit} {us vs : List UserId}

theorem ret : Revises env w (pure ()) [] :=
  Prog.Returns.ret (a := ()) (Db.revised_nil w.db env.now).symm

theorem updateUuidRevision {u} : Revises env w (User.updateUuidRevision env u) [u] := by
  have hstmt : ∀ db, User.updateRevisionStmt env u db = db.revised env.now [u] := by
    intro db
    have hp : (fun r : User => decide (r.uuid = u)) = fun r => [u].contains r.uuid := by
      funext r
      simp
    simp only [User.updateRevisionStmt, User.touchWhere, Db.revised, hp]
  have hrev : Returns w (User.updateRevision env u) fun _ w' => w'.db = w.db.revised env.now [u] := by
    rw [← hstmt]
    exact .execTotal
  intro hs
  obtain ⟨a, ha, hdb⟩ := hrev (Prog.spared_attempt ▸ (Prog.spared_bind hs).1)
  have hrun : (User.updateUuidRevision env u).run w =
      (.ok (), (User.updateRevision env u).after w) := by
    have hbind : (User.updateUuidRevision env u).run w = _ :=
      Prog.run_bind (User.updateRevision env u).attempt _ w
    rw [hbind, Prog.run_attempt, ha]
    rfl
  refine ⟨(), by rw [hrun], ?_⟩
  rw [Prog.after, hrun]
  exact hdb

theorem each {α : Type} {xs : List α} {f us}
    (h : ∀ x ∈ xs, ∀ w' : World, (∃ vs, w'.db = w.db.revised env.now vs) →
      Revises env w' (f x) (us x)) : Revises env w (Prog.each xs f) (xs.flatMap us) := by
  have hloop : ∀ (xs' : List α) (vs : List UserId) (w' : World), (∀ x ∈ xs', x ∈ xs) →
      w'.db = w.db.revised env.now vs → Returns w' (Prog.each xs' f) fun _ w'' =>
        w''.db = w.db.revised env.now (vs ++ xs'.flatMap us) := by
    intro xs'
    induction xs' with
    | nil =>
      intro vs w' _ hw
      exact .ret (by rw [hw, flatMap_nil, append_nil])
    | cons x xs' ih =>
      intro vs w' hsub hw
      refine .bind (h x (hsub x mem_cons_self) w' ⟨vs, hw⟩) fun _ hx => ?_
      rw [hw, Db.revised_revised] at hx
      have hrest := ih (vs ++ us x) _ (fun y hy => hsub y (mem_cons_of_mem _ hy)) hx
      rwa [append_assoc, ← flatMap_cons] at hrest
  exact hloop xs [] w (fun _ hx => hx) (Db.revised_nil _ _).symm

end Revises

/-- The account behind a membership. -/
def memberTold (db : Db) (m : MembershipId) : List UserId :=
  (Membership.findByUuid db m).toList.map fun m => m.userUuid

/-- Everybody in the group, as a group of `org`. -/
def groupTold (db : Db) (g : GroupId) (org : OrganizationId) : List UserId :=
  (GroupUser.findByGroup db g org).flatMap fun gu => memberTold db gu.usersOrganizationsUuid

def collectionTold (db : Db) (k : CollectionId) (org : OrganizationId) : List UserId :=
  (Membership.findByCollectionAndOrg db k org).flatMap fun m => [m.userUuid]

namespace Revises

variable {env : Env} {w : World}

theorem updateMemberRevision {m} :
    Revises env w (GroupUser.updateMemberRevision env m) (memberTold w.db m) := by
  refine .query ?_
  unfold memberTold
  cases Membership.findByUuid w.db m with
  | none => exact ret
  | some => exact updateUuidRevision

theorem groupUsers {g org} :
    Revises env w (Prog.each (GroupUser.findByGroup w.db g org) fun gu => gu.updateUserRevision env)
      (groupTold w.db g org) := by
  refine each fun gu _ w' hw => ?_
  obtain ⟨vs, hw⟩ := hw
  have htold : memberTold w.db gu.usersOrganizationsUuid =
      memberTold w'.db gu.usersOrganizationsUuid := by rw [hw]; rfl
  rw [htold]
  exact updateMemberRevision

theorem updateGroupRevision {g org} :
    Revises env w (CollectionGroup.updateGroupRevision env g org) (groupTold w.db g org) :=
  Returns.query groupUsers

theorem updateUsersRevision {K : Collection} :
    Revises env w (K.updateUsersRevision env) (collectionTold w.db K.uuid K.orgUuid) :=
  Returns.query (each fun _ _ _ _ => updateUuidRevision)

end Revises

namespace Access

variable {db : Db} {u : UserId} {m : Membership} {k : CollectionId} {g : GroupId}
  {org : OrganizationId}

theorem mem_memberTold {id} : u ∈ memberTold db id ↔ ∃ m, MemberOf db u m ∧ m.uuid = id := by
  unfold memberTold
  rw [mem_map]
  constructor
  · rintro ⟨m, hm, rfl⟩
    obtain ⟨hmem, hp⟩ := mem_of_find? (Option.mem_toList.1 hm)
    exact ⟨m, ⟨hmem, rfl⟩, of_decide_eq_true hp⟩
  · rintro ⟨m, ⟨hm, rfl⟩, rfl⟩
    have hfind : Membership.findByUuid db m.uuid = some m := find?_key hm
    exact ⟨m, Option.mem_toList.2 hfind, rfl⟩

theorem mem_groupTold : u ∈ groupTold db g org ↔
    ∃ m G, MemberOf db u m ∧ GroupOf db m G ∧ G.uuid = g ∧ G.organizationsUuid = org := by
  unfold groupTold GroupUser.findByGroup Group.memberRows
  simp only [mem_flatMap, mem_memberTold, mem_map, mem_filter, mem_innerJoin]
  constructor
  · rintro ⟨gu, ⟨⟨G', gu', n'⟩, ⟨⟨r, ⟨G, hG, gu, hgu, hon, rfl⟩, n, hm', hmon, heq⟩, hp⟩, rfl⟩, m, hm,
      hid⟩
    cases heq
    simp only [decide_eq_true_eq] at hon hmon hp
    -- the joined membership is the one the revision is bumped for
    obtain rfl : n' = m := eq_of_key hm' hm.1 (hmon.1.trans hid.symm)
    exact ⟨n', G, hm, ⟨hG, hmon.2.symm, gu, hgu, hon, hid.symm⟩, hp.1, hp.2⟩
  · rintro ⟨m, G, hm, ⟨hG, horg, gu, hgu, hgg, hgm⟩, hid, ho⟩
    refine ⟨gu, ⟨(G, gu, m), ⟨⟨(G, gu), ⟨G, hG, gu, hgu, by simp [hgg], rfl⟩, m, hm.1, ?_, rfl⟩, ?_⟩,
      rfl⟩, m, hm, hgm.symm⟩
    · simp [hgm, horg]
    · simp [hid, ho]

theorem mem_collectionTold : u ∈ collectionTold db k org ↔ ∃ m, MemberOf db u m ∧ m.orgUuid = org ∧
    (m.accessAll = true ∨ ∃ cu, Direct db u k cu) := by
  unfold collectionTold Membership.findByCollectionAndOrg
  simp only [mem_flatMap, mem_singleton, mem_map, mem_filter]
  constructor
  · rintro ⟨m, ⟨⟨m', ocu⟩, ⟨hr, hp⟩, rfl⟩, rfl⟩
    obtain ⟨n, hn, o, ho, heq⟩ := mem_leftJoin.1 hr
    cases heq
    obtain ⟨hm, horg⟩ := mem_filter.1 hn
    refine ⟨m', ⟨hm, rfl⟩, of_decide_eq_true horg, ?_⟩
    simp only [Bool.decide_or, Bool.or_eq_true, decide_eq_true_eq] at hp
    refine hp.imp_right fun h => ?_
    obtain ⟨cu, rfl, hk⟩ := any_iff.1 h
    obtain ⟨hcu, hu⟩ := some_mem_padded.1 ho
    exact ⟨cu, hcu, of_decide_eq_true hu, of_decide_eq_true hk⟩
  · rintro ⟨m, ⟨hm, rfl⟩, rfl, h⟩
    have hmem : m ∈ db.usersOrganizations.rows.filter fun n => n.orgUuid = m.orgUuid := by
      simpa using hm
    rcases h with ha | ⟨cu, hcu, hu, hk⟩
    · obtain ⟨o, ho⟩ := exists_mem_padded db.usersCollections.rows fun cu => cu.userUuid = m.userUuid
      exact ⟨m, ⟨(m, o), ⟨mem_leftJoin.2 ⟨m, hmem, o, ho, rfl⟩, by simp [ha]⟩, rfl⟩, rfl⟩
    · have ho : some cu ∈ padded db.usersCollections.rows fun cu => cu.userUuid = m.userUuid :=
        some_mem_padded.2 ⟨hcu, by simpa using hu⟩
      exact ⟨m, ⟨(m, some cu), ⟨mem_leftJoin.2 ⟨m, hmem, some cu, ho, rfl⟩, by simp [hk]⟩, rfl⟩, rfl⟩

end Access

/-! ## The rows the rights of a user rest on -/

namespace Access

/-- The rights of `u` rest on the same rows in both databases. -/
structure SameRows (u : UserId) (db db' : Db) : Prop where
  ciphers : db'.ciphers = db.ciphers
  links : db'.ciphersCollections = db.ciphersCollections
  member : ∀ m, MemberOf db' u m ↔ MemberOf db u m
  group : ∀ m, MemberOf db u m → ∀ g, GroupOf db' m g ↔ GroupOf db m g
  direct : ∀ k cu, Direct db' u k cu ↔ Direct db u k cu
  byGroup : ∀ m, MemberOf db u m → ∀ k cg, ByGroup db' m k cg ↔ ByGroup db m k cg

namespace SameRows

variable {u : UserId} {db db' db'' : Db}

theorem trans (h : SameRows u db db') (h' : SameRows u db' db'') : SameRows u db db'' where
  ciphers := h'.ciphers.trans h.ciphers
  links := h'.links.trans h.links
  member m := (h'.member m).trans (h.member m)
  group m hm g := (h'.group m ((h.member m).2 hm) g).trans (h.group m hm g)
  direct k cu := (h'.direct k cu).trans (h.direct k cu)
  byGroup m hm k cg := (h'.byGroup m ((h.member m).2 hm) k cg).trans (h.byGroup m hm k cg)

theorem sameView (h : SameRows u db db') : SameView cfg db db' u := by
  intro c
  have hlink : ∀ k, Linked db' c k ↔ Linked db c k := fun k => by unfold Linked; rw [h.links]
  refine Shows.sameOn ⟨by rw [h.ciphers], h.member, h.group, fun cu => ?_, fun m hm cg => ?_⟩
  · unfold DirectOn
    simp only [hlink, h.direct]
  · unfold GroupOn
    simp only [hlink, h.byGroup m hm]

theorem revised {t us} : SameRows u db (db.revised t us) :=
  ⟨rfl, rfl, fun _ => .rfl, fun _ _ _ => .rfl, fun _ _ => .rfl, fun _ _ _ _ => .rfl⟩

/-! ### One statement -/

theorem of_direct (hc : db'.ciphers = db.ciphers)
    (hl : db'.ciphersCollections = db.ciphersCollections)
    (hm : db'.usersOrganizations = db.usersOrganizations) (hg : db'.groups = db.groups)
    (hgu : db'.groupsUsers = db.groupsUsers) (hcg : db'.collectionsGroups = db.collectionsGroups)
    (h : ∀ cu, cu.userUuid = u → (cu ∈ db'.usersCollections.rows ↔ cu ∈ db.usersCollections.rows)) :
    SameRows u db db' := by
  refine ⟨hc, hl, fun m => ?_, fun m _ g => ?_, fun k cu => ?_, fun m _ k cg => ?_⟩
  · rw [MemberOf, MemberOf, hm]
  · rw [GroupOf, GroupOf, hg, hgu]
  · constructor
    · rintro ⟨hcu, hu, hk⟩
      exact ⟨(h cu hu).1 hcu, hu, hk⟩
    · rintro ⟨hcu, hu, hk⟩
      exact ⟨(h cu hu).2 hcu, hu, hk⟩
  · simp only [ByGroup, GroupOf, hg, hgu, hcg]

theorem of_group (hc : db'.ciphers = db.ciphers)
    (hl : db'.ciphersCollections = db.ciphersCollections)
    (hm : db'.usersOrganizations = db.usersOrganizations)
    (hcu : db'.usersCollections = db.usersCollections)
    (hgroup : ∀ m, MemberOf db u m → ∀ g, GroupOf db' m g ↔ GroupOf db m g)
    (hcg : ∀ m g, MemberOf db u m → GroupOf db m g → ∀ cg : CollectionGroup, cg.groupsUuid = g.uuid →
      (cg ∈ db'.collectionsGroups.rows ↔ cg ∈ db.collectionsGroups.rows)) : SameRows u db db' := by
  refine ⟨hc, hl, fun m => ?_, hgroup, fun k cu => ?_, fun m hmu k cg => ?_⟩
  · rw [MemberOf, MemberOf, hm]
  · rw [Direct, Direct, hcu]
  · constructor
    · rintro ⟨g, hg, hmem, hk, hid⟩
      have hg := (hgroup m hmu g).1 hg
      exact ⟨g, hg, (hcg m g hmu hg cg hid).1 hmem, hk, hid⟩
    · rintro ⟨g, hg, hmem, hk, hid⟩
      exact ⟨g, (hgroup m hmu g).2 hg, (hcg m g hmu hg cg hid).2 hmem, hk, hid⟩

theorem collectionUser_save {cu : CollectionUser} (h : cu.saveStmt db = some db')
    (hu : u ≠ cu.userUuid) : SameRows u db db' := by
  obtain ⟨-, rfl⟩ := Db.guarded_eq_some h
  refine of_direct rfl rfl rfl rfl rfl rfl fun x hx => ?_
  have hkey : x ≠ cu ∧ x.key ≠ cu.key := by
    refine ⟨fun h => hu (h ▸ hx.symm), fun h => hu ?_⟩
    exact hx.symm.trans (congrArg Prod.fst h)
  simp [hkey.1, hkey.2]

theorem collectionUser_deleteWhere (hp : ∀ cu, cu.userUuid = u → p cu = false) :
    SameRows u db (CollectionUser.deleteWhere p db) :=
  of_direct rfl rfl rfl rfl rfl rfl fun cu hu => by simp [CollectionUser.deleteWhere, hp cu hu]

theorem collectionGroup_save (h : cg.saveStmt db = some db')
    (hu : ∀ m g, MemberOf db u m → GroupOf db m g → g.uuid ≠ cg.groupsUuid) : SameRows u db db' := by
  obtain ⟨-, rfl⟩ := Db.guarded_eq_some h
  refine of_group rfl rfl rfl rfl (fun _ _ _ => .rfl) fun m g hm hg x hx => ?_
  have hid : x.groupsUuid ≠ cg.groupsUuid := hx ▸ hu m g hm hg
  have hkey : x ≠ cg ∧ x.key ≠ cg.key :=
    ⟨fun h => hid (h ▸ rfl), fun h => hid (congrArg Prod.snd h)⟩
  simp [hkey.1, hkey.2]

theorem collectionGroup_deleteWhere
    (hp : ∀ m g, MemberOf db u m → GroupOf db m g → ∀ cg : CollectionGroup,
      cg.groupsUuid = g.uuid → p cg = false) : SameRows u db (CollectionGroup.deleteWhere p db) :=
  of_group rfl rfl rfl rfl (fun _ _ _ => .rfl) fun m g hm hg cg hid => by
    simp [CollectionGroup.deleteWhere, hp m g hm hg cg hid]

theorem groupUser_save {gu : GroupUser} (h : gu.saveStmt db = some db')
    (hu : ∀ m, MemberOf db u m → m.uuid ≠ gu.usersOrganizationsUuid) : SameRows u db db' := by
  obtain ⟨-, rfl⟩ := Db.guarded_eq_some h
  refine of_group rfl rfl rfl rfl (fun m hm g => ?_) fun _ _ _ _ _ _ => .rfl
  refine and_congr_right fun _ => and_congr_right fun _ => ?_
  constructor
  · rintro ⟨x, hx, hxg, hxm⟩
    rcases mem_upsert.1 hx with rfl | ⟨hx, -⟩
    · exact absurd hxm.symm (hu m hm)
    · exact ⟨x, hx, hxg, hxm⟩
  · rintro ⟨x, hx, hxg, hxm⟩
    refine ⟨x, mem_upsert.2 (.inr ⟨hx, fun h => hu m hm ?_⟩), hxg, hxm⟩
    exact hxm.symm.trans (congrArg Prod.snd h)

theorem groupUser_deleteWhere
    (hp : ∀ m g, MemberOf db u m → GroupOf db m g → ∀ gu : GroupUser, gu.groupsUuid = g.uuid →
      gu.usersOrganizationsUuid = m.uuid → p gu = false) :
    SameRows u db (GroupUser.deleteWhere p db) := by
  refine of_group rfl rfl rfl rfl (fun m hm g => ?_) fun _ _ _ _ _ _ => .rfl
  constructor
  · rintro ⟨hg, ho, x, hx, hxg, hxm⟩
    exact ⟨hg, ho, x, (mem_deleteWhere.1 hx).1, hxg, hxm⟩
  · rintro ⟨hg, ho, x, hx, hxg, hxm⟩
    have hno := hp m g hm ⟨hg, ho, x, hx, hxg, hxm⟩ x hxg hxm
    exact ⟨hg, ho, x, mem_deleteWhere.2 ⟨hx, hno⟩, hxg, hxm⟩

/-- A group nobody is in goes unnoticed. -/
theorem group_delete {g} (h : Group.deleteStmt g db = some db') : SameRows u db db' := by
  obtain ⟨hguard, rfl⟩ := Db.guarded_eq_some h
  have hnone : ∀ gu ∈ db.groupsUsers.rows, gu.groupsUuid ≠ g := by
    intro gu hgu
    have hall := all_eq_true.1 (Bool.and_eq_true_iff.1 hguard).2 gu hgu
    exact of_decide_eq_true hall
  refine of_group rfl rfl rfl rfl (fun m _ G => ?_) fun _ _ _ _ _ _ => .rfl
  constructor
  · rintro ⟨hG, ho, gu, hgu, hgg, hgm⟩
    exact ⟨(mem_deleteWhere.1 hG).1, ho, gu, hgu, hgg, hgm⟩
  · rintro ⟨hG, ho, gu, hgu, hgg, hgm⟩
    refine ⟨mem_deleteWhere.2 ⟨hG, decide_eq_false fun hid => ?_⟩, ho, gu, hgu, hgg, hgm⟩
    exact hnone gu hgu (hgg.trans hid)

theorem membership_delete {id} (h : Membership.deleteStmt id db = some db')
    (hu : ∀ m, MemberOf db u m → m.uuid ≠ id) : SameRows u db db' := by
  obtain ⟨-, rfl⟩ := Db.guarded_eq_some h
  refine ⟨rfl, rfl, fun m => ?_, fun _ _ _ => .rfl, fun _ _ => .rfl, fun _ _ _ _ => .rfl⟩
  constructor
  · rintro ⟨hm, hmu⟩
    exact ⟨(mem_deleteWhere.1 hm).1, hmu⟩
  · intro hm
    exact ⟨mem_deleteWhere.2 ⟨hm.1, decide_eq_false (hu m hm)⟩, hm.2⟩

end SameRows

end Access

/-! ## The operations -/

/-- The operations that change collection, group or membership links. -/
inductive LinkChange where
  | saveCollectionCipher (cipher : CipherId) (collection : CollectionId)
  | deleteCollectionCipher (cipher : CipherId) (collection : CollectionId)
  | saveCollectionUser (user : UserId) (collection : CollectionId)
      (readOnly hidePasswords manage : Bool)
  | deleteCollectionUser (cu : CollectionUser)
  | saveCollectionGroup (cg : CollectionGroup)
  | deleteCollectionGroup (cg : CollectionGroup)
  | saveGroupUser (gu : GroupUser)
  | deleteGroupUser (group : GroupId) (member : MembershipId)
  | deleteCollection (collection : Collection)
  | deleteGroup (group : Group)
  | deleteMembership (member : Membership)

namespace LinkChange

def run (env : Env) (org : OrganizationId) : LinkChange → Cmd Unit
  | saveCollectionCipher cipher collection => CollectionCipher.save env cipher collection
  | deleteCollectionCipher cipher collection => CollectionCipher.delete env cipher collection
  | saveCollectionUser user collection readOnly hidePasswords manage =>
    CollectionUser.save env user collection readOnly hidePasswords manage
  | deleteCollectionUser cu => cu.delete env
  | saveCollectionGroup cg => cg.save env org
  | deleteCollectionGroup cg => cg.delete env org
  | saveGroupUser gu => gu.save env
  | deleteGroupUser group member => GroupUser.deleteByGroupAndMember env group member
  | deleteCollection collection => collection.delete env
  | deleteGroup group => group.delete env org
  | deleteMembership member => member.delete env

/-- What the operation links belongs to the organization. -/
def InOrg (db : Db) (org : OrganizationId) : LinkChange → Prop
  | saveCollectionCipher _ k | deleteCollectionCipher _ k | saveCollectionUser _ k _ _ _ =>
    ∃ K ∈ db.collections.rows, K.uuid = k ∧ K.orgUuid = org
  | deleteCollectionUser cu => ∃ K ∈ db.collections.rows, K.uuid = cu.collectionUuid ∧ K.orgUuid = org
  | saveCollectionGroup cg | deleteCollectionGroup cg =>
    ∃ g ∈ db.groups.rows, g.uuid = cg.groupsUuid ∧ g.organizationsUuid = org
  | saveGroupUser gu => ∃ g ∈ db.groups.rows, g.uuid = gu.groupsUuid ∧ g.organizationsUuid = org
  | deleteGroupUser g _ => ∃ G ∈ db.groups.rows, G.uuid = g ∧ G.organizationsUuid = org
  | deleteCollection K => K ∈ db.collections.rows ∧ K.orgUuid = org
  | deleteGroup g => g ∈ db.groups.rows ∧ g.organizationsUuid = org
  | deleteMembership m => m ∈ db.usersOrganizations.rows ∧ m.orgUuid = org

/-- **No missed sync.**  Whenever every statement of the operation is carried out, each confirmed
member of the organization whose view differs afterwards carries the new revision. -/
def NoMissedSync (cfg : Config) (db : Db) (org : OrganizationId) (op : LinkChange) : Prop :=
  ∀ (env : Env) (w : World), env.toConfig = cfg → w.db = db →
    undisturbed (op.run env org) w = true → ((op.run env org).run w).1 = .ok () →
    ∀ m ∈ db.usersOrganizations.rows, m.orgUuid = org → m.hasStatus .confirmed = true →
      ¬ Access.SameView cfg db ((op.run env org).after w).db m.userUuid →
      ∀ r ∈ ((op.run env org).after w).db.users.rows, r.uuid = m.userUuid → r.updatedAt = env.now

end LinkChange

/-! ### Bumping, then writing -/

section
variable {env : Env} {w : World} {bump : Cmd Unit} {us : List UserId} {message : String}

theorem Revises.exec (h : Revises env w bump us) :
    Concludes w (bump >>= fun _ => exec stmt message .write) fun r w' =>
      r = .ok () → stmt (w.db.revised env.now us) = some w'.db := by
  refine Prog.Concludes.bind h fun _ hdb => Concludes.exec rfl nofun ?_
  intro db' hs w' hw _
  rw [← hdb, hs, hw]

theorem Revises.execTotal {stmt} (h : Revises env w bump us) :
    Returns w (bump >>= fun _ => execTotal stmt message) fun _ w' =>
      w'.db = stmt (w.db.revised env.now us) := by
  refine Prog.Returns.bind h fun _ hdb => ?_
  rw [← hdb]
  exact Returns.execTotal

end

namespace Access

/-- The accounts `us` are told, and nobody else has different rights. -/
structure Tells (t : Time) (us : List UserId) (db db' : Db) : Prop where
  users : db'.users = (db.revised t us).users
  others : ∀ u, u ∉ us → SameRows u db db'

/-- The operation tells whoever has different rights after it. -/
def TellsAll (env : Env) (c : Cmd Unit) (w : World) : Prop :=
  Concludes w c fun r w' => r = .ok () → ∃ us, Tells env.now us w.db w'.db

theorem TellsAll.noMissedSync {cfg db org} {op : LinkChange}
    (h : ∀ (env : Env) (w : World), w.db = db → TellsAll env (op.run env org) w) :
    op.NoMissedSync cfg db org := by
  intro env w _ hw hs hok m _ _ _ hview r hr hid
  obtain ⟨us, htold⟩ := h env w hw hs hok
  rw [hw] at htold
  by_cases hu : m.userUuid ∈ us
  · rw [htold.users] at hr
    exact Db.revised_told hr (hid ▸ hu)
  · exact absurd (htold.others _ hu).sameView hview

section
variable {env : Env} {w : World} {us : List UserId} {bump : Cmd Unit} {message : String}

theorem TellsAll.exec (h : Revises env w bump us)
    (hsame : ∀ db', stmt (w.db.revised env.now us) = some db' →
      db'.users = (w.db.revised env.now us).users ∧
        ∀ u, u ∉ us → SameRows u (w.db.revised env.now us) db') :
    TellsAll env (bump >>= fun _ => exec stmt message .write) w := by
  intro hs hok
  obtain ⟨husers, hothers⟩ := hsame _ (h.exec hs hok)
  exact ⟨us, husers, fun u hu => SameRows.revised.trans (hothers u hu)⟩

theorem TellsAll.execTotal {stmt} (h : Revises env w bump us)
    (hsame : (stmt (w.db.revised env.now us)).users = (w.db.revised env.now us).users ∧
      ∀ u, u ∉ us → SameRows u (w.db.revised env.now us) (stmt (w.db.revised env.now us))) :
    TellsAll env (bump >>= fun _ => VaultServer.execTotal stmt message) w :=
  TellsAll.exec h fun _ hdb => Option.some.inj hdb ▸ hsame

namespace Tells

variable {t : Time} {us vs : List UserId} {db db' db'' : Db}

theorem revise (h : Tells t us db db') : Tells t (us ++ vs) db (db'.revised t vs) where
  users := by
    have hchain : (db'.revised t vs).users = ((db.revised t us).revised t vs).users := by
      simp only [Db.revised, h.users]
    rw [hchain, Db.revised_revised]
  others u hu := (h.others u fun hin => hu (mem_append_left _ hin)).trans SameRows.revised

theorem start : Tells t us db (db.revised t us) := ⟨rfl, fun _ _ => SameRows.revised⟩

/-- A statement that leaves the accounts alone. -/
theorem step (h : Tells t us db db') (hu : db''.users = db'.users)
    (hs : ∀ u, u ∉ us → SameRows u db' db'') : Tells t us db db'' :=
  ⟨hu.trans h.users, fun u hn => (h.others u hn).trans (hs u hn)⟩

theorem exec {db0} (h : Tells env.now us db0 w.db) (hstmt : ∀ db', stmt w.db = some db' →
      db'.users = w.db.users ∧ ∀ u, u ∉ us → SameRows u w.db db') :
    Concludes w (VaultServer.exec stmt message .write) fun r w' =>
      r = .ok () → ∃ us, Tells env.now us db0 w'.db := by
  refine .exec rfl nofun fun db' hs w' hw _ => ⟨us, ?_⟩
  obtain ⟨husers, hsame⟩ := hstmt db' hs
  rw [hw]
  exact h.step husers hsame

end Tells

theorem not_mem_groupTold {db u g org}
    (hin : ∃ G ∈ db.groups.rows, G.uuid = g ∧ G.organizationsUuid = org)
    (hu : u ∉ groupTold db g org) {m G} (hm : MemberOf db u m) (hg : GroupOf db m G) :
    G.uuid ≠ g := by
  rintro rfl
  obtain ⟨G', hG', hid, ho⟩ := hin
  obtain rfl : G' = G := eq_of_key hG' hg.1 hid
  exact hu (mem_groupTold.2 ⟨m, G', hm, hg, rfl, ho⟩)

theorem saveCollectionUser_tells {user k ro hp mg} :
    TellsAll env (CollectionUser.save env user k ro hp mg) w := by
  refine TellsAll.exec Revises.updateUuidRevision fun db' hs => ⟨?_, fun u hu => ?_⟩
  · obtain ⟨-, rfl⟩ := Db.guarded_eq_some hs
    rfl
  · exact SameRows.collectionUser_save hs fun h => hu (mem_singleton.2 h)

theorem deleteCollectionUser_tells {cu : CollectionUser} : TellsAll env (cu.delete env) w := by
  refine TellsAll.execTotal Revises.updateUuidRevision ⟨rfl, fun u hu => ?_⟩
  refine SameRows.collectionUser_deleteWhere fun x hx => decide_eq_false ?_
  rintro ⟨h, -⟩
  exact hu (mem_singleton.2 (hx.symm.trans h))

theorem saveCollectionGroup_tells {org}
    (hin : ∃ g ∈ w.db.groups.rows, g.uuid = cg.groupsUuid ∧ g.organizationsUuid = org) :
    TellsAll env (cg.save env org) w := by
  refine TellsAll.exec Revises.updateGroupRevision fun db' hs => ⟨?_, fun u hu => ?_⟩
  · obtain ⟨-, rfl⟩ := Db.guarded_eq_some hs
    rfl
  · exact SameRows.collectionGroup_save hs fun m g hm hg => not_mem_groupTold hin hu hm hg

theorem deleteCollectionGroup_tells {org}
    (hin : ∃ g ∈ w.db.groups.rows, g.uuid = cg.groupsUuid ∧ g.organizationsUuid = org) :
    TellsAll env (cg.delete env org) w := by
  refine TellsAll.execTotal Revises.updateGroupRevision ⟨rfl, fun u hu => ?_⟩
  refine SameRows.collectionGroup_deleteWhere fun m g hm hg x hx => decide_eq_false ?_
  rintro ⟨-, h⟩
  exact not_mem_groupTold hin hu hm hg (hx.symm.trans h)

theorem saveGroupUser_tells {gu : GroupUser} : TellsAll env (gu.save env) w := by
  refine TellsAll.exec Revises.updateMemberRevision fun db' hs => ⟨?_, fun u hu => ?_⟩
  · obtain ⟨-, rfl⟩ := Db.guarded_eq_some hs
    rfl
  · exact SameRows.groupUser_save hs fun m hm h => hu (mem_memberTold.2 ⟨m, hm, h⟩)

theorem deleteGroupUser_tells {g id} :
    TellsAll env (GroupUser.deleteByGroupAndMember env g id) w := by
  refine TellsAll.execTotal Revises.updateMemberRevision ⟨rfl, fun u hu => ?_⟩
  refine SameRows.groupUser_deleteWhere fun m _ hm _ gu _ hgm => decide_eq_false ?_
  rintro ⟨-, h⟩
  exact hu (mem_memberTold.2 ⟨m, hm, hgm.symm.trans h⟩)

theorem collectionGroup_deleteAllByGroup {g org} :
    Returns w (CollectionGroup.deleteAllByGroup env g org) fun _ w' =>
      w'.db = CollectionGroup.deleteWhere (fun cg => cg.groupsUuid = g)
        (w.db.revised env.now (groupTold w.db g org)) :=
  Revises.updateGroupRevision.execTotal

theorem groupUser_deleteAllByGroup {g org} :
    Returns w (GroupUser.deleteAllByGroup env g org) fun _ w' =>
      w'.db = GroupUser.deleteWhere (fun gu => gu.groupsUuid = g)
        (w.db.revised env.now (groupTold w.db g org)) :=
  Returns.query Revises.groupUsers.execTotal

theorem deleteGroup_tells {g org} (hin : g ∈ w.db.groups.rows ∧ g.organizationsUuid = org) :
    TellsAll env (g.delete env org) w := by
  have hin : ∃ G ∈ w.db.groups.rows, G.uuid = g.uuid ∧ G.organizationsUuid = org :=
    ⟨g, hin.1, rfl, hin.2⟩
  unfold TellsAll Group.delete
  refine .bind collectionGroup_deleteAllByGroup fun _ h1 => ?_
  generalize (CollectionGroup.deleteAllByGroup env g.uuid org).after w = w1 at h1
  have ht1 : Tells env.now (groupTold w.db g.uuid org) w.db w1.db := by
    rw [h1]
    refine Tells.start.step rfl fun u hu =>
      SameRows.collectionGroup_deleteWhere fun m G hm hG x hx => decide_eq_false ?_
    exact fun h => not_mem_groupTold hin hu hm hG (hx.symm.trans h)
  have htold : groupTold w1.db g.uuid org = groupTold w.db g.uuid org := by rw [h1]; rfl
  refine .bind groupUser_deleteAllByGroup fun _ h2 => ?_
  rw [htold] at h2
  generalize (GroupUser.deleteAllByGroup env g.uuid org).after w1 = w2 at h2
  have ht2 : Tells env.now (groupTold w.db g.uuid org ++ groupTold w.db g.uuid org) w.db w2.db := by
    rw [h2]
    refine ht1.revise.step rfl fun u hu =>
      SameRows.groupUser_deleteWhere fun m G hm hG x hx _ => decide_eq_false fun h => ?_
    rw [h1] at hm hG
    exact not_mem_groupTold hin (fun hn => hu (mem_append_left _ hn)) hm hG (hx.symm.trans h)
  refine ht2.exec fun db' hs => ⟨?_, ?_⟩
  · obtain ⟨-, rfl⟩ := Db.guarded_eq_some hs
    rfl
  · exact fun _ _ => SameRows.group_delete hs

/-- Everything that is deleted with the membership is the member's own. -/
theorem deleteMembership_tells {m} (hin : m ∈ w.db.usersOrganizations.rows) :
    TellsAll env (m.delete env) w := by
  have hown : ∀ u, u ∉ [m.userUuid] → ∀ n, MemberOf w.db u n → n.uuid ≠ m.uuid := by
    intro u hu n hn hid
    obtain rfl : n = m := eq_of_key hn.1 hin hid
    exact hu (mem_singleton.2 hn.2.symm)
  unfold TellsAll Membership.delete
  refine .bind Revises.updateUuidRevision fun _ h1 => ?_
  generalize (User.updateUuidRevision env m.userUuid).after w = w1 at h1
  have hloop : Returns w1 (CollectionUser.deleteAllByUserAndOrg m.userUuid m.orgUuid) fun _ w' =>
      Tells env.now [m.userUuid] w.db w'.db ∧
        w'.db.usersOrganizations = w.db.usersOrganizations := by
    have hstart : Tells env.now [m.userUuid] w.db w1.db := h1 ▸ Tells.start
    refine Returns.query (Prog.Returns.each ⟨hstart, by rw [h1]; rfl⟩ fun cu _ w' hw => ?_)
    refine Returns.execTotal.mono fun _ w'' hw' => ?_
    rw [hw']
    refine ⟨hw.1.step rfl fun u hu => SameRows.collectionUser_deleteWhere fun x hx => ?_, hw.2⟩
    exact decide_eq_false fun h => hu (mem_singleton.2 (hx.symm.trans h.1))
  refine .bind hloop fun _ h2 => ?_
  generalize (CollectionUser.deleteAllByUserAndOrg m.userUuid m.orgUuid).after w1 = w2 at h2
  obtain ⟨ht2, hm2⟩ := h2
  have hmember : ∀ u n, MemberOf w2.db u n → MemberOf w.db u n := fun u n hn =>
    ⟨hm2 ▸ hn.1, hn.2⟩
  have hgroups : Returns w2 (GroupUser.deleteAllByMember env m.uuid) fun _ w' =>
      w'.db = GroupUser.deleteWhere (fun gu => gu.usersOrganizationsUuid = m.uuid)
        (w2.db.revised env.now (memberTold w2.db m.uuid)) :=
    Revises.updateMemberRevision.execTotal
  refine .bind hgroups fun _ h3 => ?_
  generalize (GroupUser.deleteAllByMember env m.uuid).after w2 = w3 at h3
  have ht3 : Tells env.now ([m.userUuid] ++ memberTold w2.db m.uuid) w.db w3.db := by
    rw [h3]
    refine ht2.revise.step rfl fun u hu =>
      SameRows.groupUser_deleteWhere fun n _ hn _ gu _ hgm => decide_eq_false fun h => ?_
    exact hown u (fun hin => hu (mem_append_left _ hin)) n (hmember u n hn) (hgm.symm.trans h)
  refine ht3.exec fun db' hs => ⟨?_, ?_⟩
  · obtain ⟨-, rfl⟩ := Db.guarded_eq_some hs
    rfl
  · intro u hu
    refine SameRows.membership_delete hs fun n hn => ?_
    rw [h3] at hn
    exact hown u (fun hin => hu (mem_append_left _ hin)) n (hmember u n hn)

end

end Access

end VaultServer
