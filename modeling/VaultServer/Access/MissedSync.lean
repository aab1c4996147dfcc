import VaultServer.Access.Revisions

/-!
# Missed syncs

Which of the operations on links tell everybody who sees them. All that change an assignment, a
group or a membership do. A link between a cipher and a collection bumps the members with full
access and those the collection is assigned to; a member who reaches the collection through a group
alone is overlooked, and misses the change unless their other rights cover it.
-/

namespace VaultServer

open Lib List Table

namespace Access

/-! ## Links between ciphers and a collection -/

/-- A group right on a collection of the cipher other than `k`. -/
def GroupBut (db : Db) (c : Cipher) (k : CollectionId) (m : Membership) (cg : CollectionGroup) :
    Prop :=
  ∃ k', k' ≠ k ∧ Linked db c k' ∧ ByGroup db m k' cg

/-- The databases differ in the collection `k` only, and where the second links a cipher to it the
rights on it are as in the first. -/
structure Relinked (k : CollectionId) (db db' : Db) : Prop where
  ciphers : db'.ciphers = db.ciphers
  members : db'.usersOrganizations = db.usersOrganizations
  groups : db'.groups = db.groups
  groupUsers : db'.groupsUsers = db.groupsUsers
  links : ∀ c k', k' ≠ k → (Linked db' c k' ↔ Linked db c k')
  direct : ∀ u k' cu, k' ≠ k → (Direct db' u k' cu ↔ Direct db u k' cu)
  byGroup : ∀ m k' cg, k' ≠ k → (ByGroup db' m k' cg ↔ ByGroup db m k' cg)
  onDirect : ∀ c, Linked db' c k → ∀ u cu, Direct db' u k cu ↔ Direct db u k cu
  onByGroup : ∀ c, Linked db' c k → ∀ m cg, ByGroup db' m k cg ↔ ByGroup db m k cg

namespace Relinked

variable {cfg : Config} {k : CollectionId} {db db' : Db} {u : UserId} {c : Cipher}

theorem refl (k : CollectionId) (db : Db) : Relinked k db db :=
  ⟨rfl, rfl, rfl, rfl, fun _ _ _ => .rfl, fun _ _ _ _ => .rfl, fun _ _ _ _ => .rfl,
    fun _ _ _ _ => .rfl, fun _ _ _ _ => .rfl⟩

variable (h : Relinked k db db')
include h

theorem member (m : Membership) : MemberOf db' u m ↔ MemberOf db u m := by
  rw [MemberOf, MemberOf, h.members]

theorem group (m : Membership) (g : Group) : GroupOf db' m g ↔ GroupOf db m g := by
  rw [GroupOf, GroupOf, h.groups, h.groupUsers]

theorem directOn : DirectOn db' c u cu ↔
    (∃ k', k' ≠ k ∧ Linked db c k' ∧ Direct db u k' cu) ∨ Linked db' c k ∧ Direct db u k cu := by
  constructor
  · rintro ⟨k', hl, hd⟩
    by_cases hk : k' = k
    · subst hk
      exact .inr ⟨hl, (h.onDirect c hl u cu).1 hd⟩
    · exact .inl ⟨k', hk, (h.links c k' hk).1 hl, (h.direct u k' cu hk).1 hd⟩
  · rintro (⟨k', hk, hl, hd⟩ | ⟨hl, hd⟩)
    · exact ⟨k', (h.links c k' hk).2 hl, (h.direct u k' cu hk).2 hd⟩
    · exact ⟨k, hl, (h.onDirect c hl u cu).2 hd⟩

theorem groupOn :
    GroupOn db' c m cg ↔ GroupBut db c k m cg ∨ Linked db' c k ∧ ByGroup db m k cg := by
  constructor
  · rintro ⟨k', hl, hg⟩
    by_cases hk : k' = k
    · subst hk
      exact .inr ⟨hl, (h.onByGroup c hl m cg).1 hg⟩
    · exact .inl ⟨k', hk, (h.links c k' hk).1 hl, (h.byGroup m k' cg hk).1 hg⟩
  · rintro (⟨k', hk, hl, hg⟩ | ⟨hl, hg⟩)
    · exact ⟨k', (h.links c k' hk).2 hl, (h.byGroup m k' cg hk).2 hg⟩
    · exact ⟨k, hl, (h.onByGroup c hl m cg).2 hg⟩

theorem revised : Relinked k db (db'.revised t us) :=
  ⟨h.ciphers, h.members, h.groups, h.groupUsers, h.links, h.direct, h.byGroup, h.onDirect,
    h.onByGroup⟩

/-- What the second database shows of a cipher that it links to `k` or not. -/
theorem shows (hd : ∀ cu, DirectOn db' c u cu ↔ DirectOn db c u cu)
    (hg : ∀ m cg, GroupBut db c k m cg ∨ Linked db' c k ∧ ByGroup db m k cg ↔ G m cg) :
    Shows db u c G db' :=
  ⟨by rw [h.ciphers], h.member, fun m _ => h.group m, hd, fun m _ cg => h.groupOn.trans (hg m cg)⟩

/-- A cipher whose link stays is shown as before. -/
theorem apart (hl : Linked db' c k ↔ Linked db c k) : SameOn cfg db db' u c := by
  refine Shows.sameOn (h.shows (fun cu => ?_) fun m cg => ?_)
  · rw [h.directOn, (refl k db).directOn, hl]
  · rw [hl, (refl k db).groupOn]

/-- Without a direct assignment of `k` only the group rights on it come or go. -/
theorem sameOn_iff (hc : c ∈ db.ciphers.rows)
    (hl : ¬ (Linked db' c k ↔ Linked db c k)) (hd : ∀ cu, ¬ Direct db u k cu) :
    SameOn cfg db db' u c ↔ Covers cfg db u c (GroupBut db c k) fun m cg => ByGroup db m k cg := by
  have hdirect : ∀ cu, DirectOn db' c u cu ↔ DirectOn db c u cu := by
    intro cu
    rw [h.directOn, (refl k db).directOn]
    simp only [hd cu, and_false]
  by_cases hlink : Linked db c k
  · -- the link goes
    have hgone : ¬ Linked db' c k := fun h' => hl (iff_of_true h' hlink)
    have hlo : Shows db u c (GroupBut db c k) db' :=
      h.shows hdirect fun _ _ => or_iff_left fun h' => hgone h'.1
    have hhi : Shows db u c (fun m cg => GroupBut db c k m cg ∨ ByGroup db m k cg) db :=
      (refl k db).shows (fun _ => .rfl) fun _ _ => or_congr_right (and_iff_right hlink)
    rw [← sameOn_iff_covers hlo hhi hc]
    exact ⟨SameOn.symm, SameOn.symm⟩
  · -- the link comes
    have hnew : Linked db' c k := by
      by_contra h'
      exact hl (iff_of_false h' hlink)
    have hlo : Shows db u c (GroupBut db c k) db :=
      (refl k db).shows (fun _ => .rfl) fun _ _ => or_iff_left fun h' => hlink h'.1
    have hhi : Shows db u c (fun m cg => GroupBut db c k m cg ∨ ByGroup db m k cg) db' :=
      h.shows hdirect fun _ _ => or_congr_right (and_iff_right hnew)
    exact sameOn_iff_covers hlo hhi hc

theorem sameView_iff (hd : ∀ cu, ¬ Direct db u k cu) :
    SameView cfg db db' u ↔ ∀ c ∈ db.ciphers.rows, ¬ (Linked db' c k ↔ Linked db c k) →
      Covers cfg db u c (GroupBut db c k) fun m cg => ByGroup db m k cg := by
  constructor
  · exact fun hview c hc hl => (h.sameOn_iff hc hl hd).1 (hview c)
  · intro hall c
    by_cases hl : Linked db' c k ↔ Linked db c k
    · exact h.apart hl
    by_cases hc : c ∈ db.ciphers.rows
    · exact (h.sameOn_iff hc hl hd).2 (hall c hc hl)
    · refine ⟨iff_of_false ?_ ?_, fun hlist => absurd (mem_findByUserVisible.1 hlist).1 hc⟩
      · exact fun hlist => hc (h.ciphers ▸ (mem_findByUserVisible.1 hlist).1)
      · exact fun hlist => hc (mem_findByUserVisible.1 hlist).1

end Relinked

/-! ## The operations on links -/

/-- A confirmed member with an account whom a change of the collection's links does not reach: no
full access, and no direct assignment of the collection. -/
structure Overlooked (db : Db) (org : OrganizationId) (k : CollectionId) (m : Membership) : Prop where
  member : m ∈ db.usersOrganizations.rows
  inOrg : m.orgUuid = org
  confirmed : m.hasStatus .confirmed = true
  restricted : m.accessAll = false
  unassigned : ∀ cu, ¬ Direct db m.userUuid k cu
  account : ∃ r ∈ db.users.rows, r.uuid = m.userUuid

/-- What the operation does where it succeeds: it tells `told`, and changes the collection `k` such
that the links of the ciphers in `touched` to it come or go. -/
structure Relinks (org : OrganizationId) (op : LinkChange) (db : Db) (k : CollectionId)
    (told : List UserId) (touched : Cipher → Prop) : Prop where
  effect : ∀ (env : Env) (w : World), w.db = db → Concludes w (op.run env org) fun r w' =>
    r = .ok () → w'.db.users = (db.revised env.now told).users ∧ Relinked k db w'.db ∧
      ∀ c ∈ db.ciphers.rows, ¬ (Linked w'.db c k ↔ Linked db c k) ↔ touched c
  succeeds : ∀ c ∈ db.ciphers.rows, touched c → ∀ (env : Env) (w : World), w.db = db →
    Returns w (op.run env org) fun _ _ => True
  writes : ∃ S, ∀ env, Writes S (op.run env org)
  assigned : ∀ m ∈ db.usersOrganizations.rows, m.orgUuid = org →
    ∀ cu, Direct db m.userUuid k cu → m.userUuid ∈ told

/-- Nobody misses the change exactly when it is covered for everybody who is not told. -/
theorem Relinks.noMissedSync_iff {cfg org op db k told touched}
    (h : Relinks org op db k told touched) :
    op.NoMissedSync cfg db org ↔ ∀ c ∈ db.ciphers.rows, touched c →
      ∀ m ∈ db.usersOrganizations.rows, m.orgUuid = org → m.hasStatus .confirmed = true →
        m.userUuid ∉ told → (∃ r ∈ db.users.rows, r.uuid = m.userUuid) →
        Covers cfg db m.userUuid c (GroupBut db c k) fun m cg => ByGroup db m k cg := by
  have hunassigned : ∀ m ∈ db.usersOrganizations.rows, m.orgUuid = org → m.userUuid ∉ told →
      ∀ cu, ¬ Direct db m.userUuid k cu :=
    fun m hm ho hu cu hd => hu (h.assigned m hm ho cu hd)
  constructor
  · intro hsync c hc htouched m hm ho hconf hu ⟨r, hr, hid⟩
    -- run the operation at a time other than that of the last revision
    let env : Env := { toConfig := cfg, now := r.updatedAt + 1 }
    let w : World := { World.initial [] with db := db }
    obtain ⟨S, hwrites⟩ := h.writes
    have hs : undisturbed (op.run env org) w = true := (hwrites env).undisturbed rfl
    obtain ⟨⟨⟩, hok, -⟩ := h.succeeds c hc htouched env w rfl hs
    obtain ⟨husers, hrel, htouch⟩ := h.effect env w rfl hs hok
    by_contra hno
    have hview : ¬ SameView cfg db ((op.run env org).after w).db m.userUuid := fun hview =>
      hno ((hrel.sameView_iff (hunassigned m hm ho hu)).1 hview c hc ((htouch c hc).2 htouched))
    have hkept : r ∈ ((op.run env org).after w).db.users.rows :=
      husers ▸ Db.mem_revised hr (hid ▸ hu)
    have hnow : r.updatedAt = r.updatedAt + 1 :=
      hsync env w rfl rfl hs hok m hm ho hconf hview r hkept hid
    exact Int.ne_of_lt (Int.lt_add_one_of_le (Int.le_refl _)) hnow
  · intro hcov env w _ hw hs hok m hm ho hconf hview r hr hid
    obtain ⟨husers, hrel, htouch⟩ := h.effect env w hw hs hok
    rw [husers] at hr
    by_cases hu : m.userUuid ∈ told
    · exact Db.revised_told hr (hid ▸ hu)
    · obtain ⟨r0, hr0, hid0⟩ := Db.revised_uuid hr
      refine absurd ((hrel.sameView_iff (hunassigned m hm ho hu)).2 fun c hc hl => ?_) hview
      exact hcov c hc ((htouch c hc).1 hl) m hm ho hconf hu ⟨r0, hr0, hid0.trans hid⟩

/-! ### A link is saved or deleted -/

section
variable {db : Db} {org : OrganizationId} {k : CollectionId} {id : CipherId}

section
variable {env : Env} {w : World} (hin : ∃ K ∈ w.db.collections.rows, K.uuid = k ∧ K.orgUuid = org)
include hin

theorem Revises.updateLinkRevision :
    Revises env w (CollectionCipher.updateUsersRevision env k) (collectionTold w.db k org) := by
  obtain ⟨K, hK, rfl, rfl⟩ := hin
  have hfind : Collection.findByUuid w.db K.uuid = some K := find?_key hK
  refine Returns.query ?_
  rw [hfind]
  exact Revises.updateUsersRevision

theorem collectionCipher_save :
    Concludes w (CollectionCipher.save env id k) fun r w' => r = .ok () →
      CollectionCipher.saveStmt ⟨id, k⟩ (w.db.revised env.now (collectionTold w.db k org)) =
        some w'.db :=
  (Revises.updateLinkRevision hin).exec

theorem collectionCipher_delete : Returns w (CollectionCipher.delete env id k) fun _ w' =>
      w'.db = CollectionCipher.deleteWhere (fun cc => cc.cipherUuid = id ∧ cc.collectionUuid = k)
        (w.db.revised env.now (collectionTold w.db k org)) :=
  (Revises.updateLinkRevision hin).execTotal

end

theorem linked_upsert {c k'} :
    Linked { db with ciphersCollections := db.ciphersCollections.upsert ⟨id, k⟩ } c k' ↔
      Linked db c k' ∨ c.uuid = id ∧ k' = k := by
  constructor
  · rintro ⟨cc, hcc, hc, hk⟩
    rcases mem_upsert.1 hcc with rfl | ⟨hcc, -⟩
    · exact .inr ⟨hc.symm, hk.symm⟩
    · exact .inl ⟨cc, hcc, hc, hk⟩
  · rintro (⟨cc, hcc, hc, hk⟩ | ⟨rfl, rfl⟩)
    · by_cases hkey : cc.key = CollectionCipher.key ⟨id, k⟩
      · refine ⟨⟨id, k⟩, mem_upsert.2 (.inl rfl), ?_, ?_⟩
        · exact (congrArg Prod.fst hkey).symm.trans hc
        · exact (congrArg Prod.snd hkey).symm.trans hk
      · exact ⟨cc, mem_upsert.2 (.inr ⟨hcc, hkey⟩), hc, hk⟩
    · exact ⟨⟨c.uuid, k'⟩, mem_upsert.2 (.inl rfl), rfl, rfl⟩

theorem linked_deleteWhere {p c k'} :
    Linked (CollectionCipher.deleteWhere p db) c k' ↔ Linked db c k' ∧ p ⟨c.uuid, k'⟩ = false := by
  constructor
  · rintro ⟨⟨id, k⟩, hcc, rfl, rfl⟩
    obtain ⟨hcc, hp⟩ := mem_deleteWhere.1 hcc
    exact ⟨⟨_, hcc, rfl, rfl⟩, hp⟩
  · rintro ⟨⟨⟨id, k⟩, hcc, rfl, rfl⟩, hp⟩
    exact ⟨_, mem_deleteWhere.2 ⟨hcc, hp⟩, rfl, rfl⟩

theorem told_of_direct (hm : m ∈ db.usersOrganizations.rows) (ho : m.orgUuid = org)
    (hd : Direct db m.userUuid k cu) : m.userUuid ∈ collectionTold db k org :=
  mem_collectionTold.2 ⟨m, ⟨hm, rfl⟩, ho, .inr ⟨cu, hd⟩⟩

theorem saveCollectionCipher_relinks
    (hin : ∃ K ∈ db.collections.rows, K.uuid = k ∧ K.orgUuid = org) :
    Relinks org (.saveCollectionCipher id k) db k (collectionTold db k org)
      fun c => c.uuid = id ∧ ¬ Linked db c k where
  effect := by
    rintro env w rfl hs hok
    obtain ⟨-, hdb⟩ := Db.guarded_eq_some (collectionCipher_save hin hs hok)
    rw [LinkChange.run, hdb]
    refine ⟨rfl, ⟨rfl, rfl, rfl, rfl, fun c k' hk => linked_upsert.trans ?_, fun _ _ _ _ => .rfl,
      fun _ _ _ _ => .rfl, fun _ _ _ _ => .rfl, fun _ _ _ _ => .rfl⟩, fun c _ => ?_⟩
    · exact or_iff_left fun h => hk h.2
    · rw [linked_upsert]
      show ¬ (Linked w.db c k ∨ c.uuid = id ∧ k = k ↔ Linked w.db c k) ↔ _
      tauto
  succeeds := by
    rintro c hc ⟨rfl, -⟩ env w rfl
    refine Prog.Returns.bind (Revises.updateLinkRevision hin) fun _ hdb => ?_
    obtain ⟨K, hK, hid, -⟩ := hin
    refine (Returns.execGuarded rfl ?_).mono fun _ _ _ => trivial
    rw [hdb, Bool.and_eq_true]
    exact ⟨any_eq_true.2 ⟨c, hc, by simp⟩, any_eq_true.2 ⟨K, hK, by simpa using hid⟩⟩
  writes := ⟨_, fun _ => CollectionCipher.save_writes⟩
  assigned _ hm ho _ hd := told_of_direct hm ho hd

theorem deleteCollectionCipher_relinks
    (hin : ∃ K ∈ db.collections.rows, K.uuid = k ∧ K.orgUuid = org) :
    Relinks org (.deleteCollectionCipher id k) db k (collectionTold db k org)
      fun c => c.uuid = id ∧ Linked db c k where
  effect := by
    rintro env w rfl hs -
    obtain ⟨-, -, hdb⟩ := collectionCipher_delete hin hs
    rw [LinkChange.run, hdb]
    refine ⟨rfl, ⟨rfl, rfl, rfl, rfl, fun c k' hk => linked_deleteWhere.trans ?_, fun _ _ _ _ => .rfl,
      fun _ _ _ _ => .rfl, fun _ _ _ _ => .rfl, fun _ _ _ _ => .rfl⟩, fun c _ => ?_⟩
    · exact and_iff_left (decide_eq_false fun h => hk h.2)
    · rw [linked_deleteWhere]
      show ¬ (Linked w.db c k ∧ decide (c.uuid = id ∧ k = k) = false ↔ Linked w.db c k) ↔ _
      simp only [and_true, decide_eq_false_iff_not]
      tauto
  succeeds := by
    rintro c hc - env w rfl
    exact (collectionCipher_delete hin).mono fun _ _ _ => trivial
  writes := ⟨_, fun _ => CollectionCipher.delete_writes⟩
  assigned _ hm ho _ hd := told_of_direct hm ho hd

end

/-! ### A collection is deleted -/

/-- The members with full access, the users with an assignment and everybody in a group of the
collection's organization with a right on it. -/
def deleteTold (db : Db) (K : Collection) : List UserId :=
  collectionTold db K.uuid K.orgUuid ++
    (CollectionUser.findByCollection db K.uuid).flatMap (fun cu => [cu.userUuid]) ++
    (CollectionGroup.findByCollection db K.uuid).flatMap fun cg => groupTold db cg.groupsUuid K.orgUuid

section
variable {env : Env} {w : World} {K : Collection}

theorem collectionUser_deleteAllByCollection {k} :
    Returns w (CollectionUser.deleteAllByCollection env k) fun _ w' =>
      w'.db = CollectionUser.deleteWhere (fun cu => cu.collectionUuid = k) (w.db.revised env.now
        ((CollectionUser.findByCollection w.db k).flatMap fun cu => [cu.userUuid])) :=
  Returns.query (Revises.each fun _ _ _ _ => Revises.updateUuidRevision).execTotal

theorem collectionGroup_deleteAllByCollection {k org} :
    Returns w (CollectionGroup.deleteAllByCollection env k org) fun _ w' =>
      w'.db = CollectionGroup.deleteWhere (fun cg => cg.collectionsUuid = k) (w.db.revised env.now
        ((CollectionGroup.findByCollection w.db k).flatMap fun cg =>
          groupTold w.db cg.groupsUuid org)) := by
  refine Returns.query (Revises.each fun cg _ w' hw => ?_).execTotal
  obtain ⟨vs, hw⟩ := hw
  have htold : groupTold w.db cg.groupsUuid org = groupTold w'.db cg.groupsUuid org := by
    rw [hw]
    rfl
  rw [htold]
  exact Revises.updateGroupRevision

/-- The database without the collection, its links and the rights on it. -/
def withoutCollection (db : Db) (k : CollectionId) : Db :=
  { db with
    ciphersCollections := db.ciphersCollections.deleteWhere fun cc => cc.collectionUuid = k
    usersCollections := db.usersCollections.deleteWhere fun cu => cu.collectionUuid = k
    collectionsGroups := db.collectionsGroups.deleteWhere fun cg => cg.collectionsUuid = k
    collections := db.collections.deleteWhere fun K => K.uuid = k }

theorem not_linked_withoutCollection {db k c} : ¬ Linked (withoutCollection db k) c k := by
  rintro ⟨cc, hcc, -, hk⟩
  exact of_decide_eq_false (mem_deleteWhere.1 hcc).2 hk

theorem withoutCollection_relinked {db k} : Relinked k db (withoutCollection db k) := by
  refine ⟨rfl, rfl, rfl, rfl, fun c k' hk => ?_, fun u k' cu hk => ?_, fun m k' cg hk => ?_,
    fun c hl => absurd hl not_linked_withoutCollection,
    fun c hl => absurd hl not_linked_withoutCollection⟩
  · constructor
    · rintro ⟨cc, hcc, hc, hid⟩
      exact ⟨cc, (mem_deleteWhere.1 hcc).1, hc, hid⟩
    · rintro ⟨cc, hcc, hc, rfl⟩
      exact ⟨cc, mem_deleteWhere.2 ⟨hcc, decide_eq_false hk⟩, hc, rfl⟩
  · constructor
    · rintro ⟨hcu, hu, hid⟩
      exact ⟨(mem_deleteWhere.1 hcu).1, hu, hid⟩
    · rintro ⟨hcu, hu, rfl⟩
      exact ⟨mem_deleteWhere.2 ⟨hcu, decide_eq_false hk⟩, hu, rfl⟩
  · constructor
    · rintro ⟨g, hg, hcg, hid, hgg⟩
      exact ⟨g, hg, (mem_deleteWhere.1 hcg).1, hid, hgg⟩
    · rintro ⟨g, hg, hcg, rfl, hgg⟩
      exact ⟨g, hg, mem_deleteWhere.2 ⟨hcg, decide_eq_false hk⟩, rfl, hgg⟩

theorem collection_delete : Returns w (K.delete env) fun _ w' =>
    w'.db = (withoutCollection w.db K.uuid).revised env.now (deleteTold w.db K) := by
  refine Prog.Returns.bind Revises.updateUsersRevision fun _ h1 => ?_
  generalize (K.updateUsersRevision env).after w = w1 at h1 ⊢
  refine Prog.Returns.bind Returns.execTotal fun _ h2 => ?_
  generalize (CollectionCipher.deleteAllByCollection K.uuid).after w1 = w2 at h2 ⊢
  refine Prog.Returns.bind collectionUser_deleteAllByCollection fun _ h3 => ?_
  generalize (CollectionUser.deleteAllByCollection env K.uuid).after w2 = w3 at h3 ⊢
  refine Prog.Returns.bind collectionGroup_deleteAllByCollection fun _ h4 => ?_
  generalize (CollectionGroup.deleteAllByCollection env K.uuid K.orgUuid).after w3 = w4 at h4 ⊢
  have hdb : w4.db = { (withoutCollection w.db K.uuid).revised env.now (deleteTold w.db K) with
      collections := w.db.collections } := by
    rw [h4, h3, h2, h1, deleteTold, ← Db.revised_revised, ← Db.revised_revised]
    rfl
  refine (Returns.execGuarded rfl ?_).mono fun _ w' hw => ?_
  · rw [hdb]
    simp [Db.revised, withoutCollection]
  · rw [hw, hdb]
    rfl

theorem mem_deleteTold {db u} (hK : K ∈ db.collections.rows) :
    u ∈ deleteTold db K ↔ (∃ m, MemberOf db u m ∧ m.orgUuid = K.orgUuid ∧
      (m.accessAll = true ∨ ∃ cg, ByGroup db m K.uuid cg)) ∨ ∃ cu, Direct db u K.uuid cu := by
  unfold deleteTold CollectionUser.findByCollection CollectionGroup.findByCollection
  simp only [mem_append, mem_collectionTold, mem_flatMap, mem_groupTold,
    mem_filter, mem_singleton, mem_innerJoin, decide_eq_true_eq]
  constructor
  · rintro ((⟨m, hm, ho, ha | hd⟩ | ⟨cu, ⟨hcu, hk⟩, rfl⟩) | ⟨cg, hcg, m, G, hm, hG, hid, ho⟩)
    · exact .inl ⟨m, hm, ho, .inl ha⟩
    · exact .inr hd
    · exact .inr ⟨cu, hcu, rfl, hk⟩
    · obtain ⟨-, ⟨cg, ⟨hcg, hk⟩, -, -, -, rfl⟩, -, -, -, rfl⟩ := hcg
      exact .inl ⟨m, hm, hG.2.1.symm.trans ho, .inr ⟨cg, G, hG, hcg, hk, hid.symm⟩⟩
  · rintro (⟨m, hm, ho, ha | ⟨cg, G, hG, hcg, hk, hid⟩⟩ | ⟨cu, hcu, rfl, hk⟩)
    · exact .inl (.inl ⟨m, hm, ho, .inl ha⟩)
    · refine .inr ⟨cg, ⟨(cg, K), ⟨cg, ⟨hcg, hk⟩, K, hK, hk.symm, rfl⟩, G, hG.1, ?_, rfl⟩, ?_⟩
      · exact ⟨hid.symm, hG.2.1.trans ho⟩
      · exact ⟨m, G, hm, hG, hid.symm, hG.2.1.trans ho⟩
    · exact .inl (.inr ⟨cu, ⟨hcu, hk⟩, rfl⟩)

theorem deleteCollection_relinks {db} (hK : K ∈ db.collections.rows) :
    Relinks K.orgUuid (.deleteCollection K) db K.uuid (deleteTold db K)
      fun c => Linked db c K.uuid where
  effect := by
    rintro env w rfl hs -
    obtain ⟨-, -, hdb⟩ := collection_delete hs
    rw [LinkChange.run, hdb]
    refine ⟨rfl, withoutCollection_relinked.revised, fun c _ => ?_⟩
    show ¬ (Linked (withoutCollection w.db K.uuid) c K.uuid ↔ Linked w.db c K.uuid) ↔ _
    simp only [not_linked_withoutCollection, false_iff, not_not]
  succeeds := by
    rintro - - - env w rfl
    exact collection_delete.mono fun _ _ _ => trivial
  writes := ⟨_, fun _ => Collection.delete_writes⟩
  assigned _ _ _ cu hd := (mem_deleteTold hK).2 (.inr ⟨cu, hd⟩)

end

end Access

/-! ## Which operations are covered -/

open Access

/-- For a link that comes or goes, what an overlooked member may do through the collection has to be
covered by what they may do without it. With a collection the members of its groups are told too. -/
def LinkChange.Covered (cfg : Config) (db : Db) (org : OrganizationId) : LinkChange → Prop
  | .saveCollectionCipher id k => ∀ c ∈ db.ciphers.rows, c.uuid = id → ¬ Linked db c k →
    ∀ m, Overlooked db org k m →
      Covers cfg db m.userUuid c (GroupBut db c k) fun m cg => ByGroup db m k cg
  | .deleteCollectionCipher id k => ∀ c ∈ db.ciphers.rows, c.uuid = id → Linked db c k →
    ∀ m, Overlooked db org k m →
      Covers cfg db m.userUuid c (GroupBut db c k) fun m cg => ByGroup db m k cg
  | .deleteCollection K => ∀ c ∈ db.ciphers.rows, Linked db c K.uuid →
    ∀ m, Overlooked db org K.uuid m → (∀ cg, ¬ ByGroup db m K.uuid cg) →
      Covers cfg db m.userUuid c (GroupBut db c K.uuid) fun m cg => ByGroup db m K.uuid cg
  | _ => True

/-- A member of the organization is not told about a link exactly when overlooked. -/
theorem not_mem_collectionTold_iff {db org k m} (hm : m ∈ db.usersOrganizations.rows)
    (ho : m.orgUuid = org) :
    m.userUuid ∉ collectionTold db k org ↔
      m.accessAll = false ∧ ∀ cu, ¬ Direct db m.userUuid k cu := by
  rw [mem_collectionTold, ← Bool.not_eq_true, ← not_exists, ← not_or]
  refine not_congr ⟨?_, fun h => ⟨m, ⟨hm, rfl⟩, ho, h⟩⟩
  rintro ⟨n, hn, hno, h⟩
  obtain rfl : n = m := hn.unique ⟨hm, rfl⟩ (hno.trans ho.symm)
  exact h

theorem not_mem_deleteTold_iff {db K} (hK : K ∈ db.collections.rows)
    (hm : m ∈ db.usersOrganizations.rows) (ho : m.orgUuid = K.orgUuid) :
    m.userUuid ∉ deleteTold db K ↔ m.accessAll = false ∧ (∀ cu, ¬ Direct db m.userUuid K.uuid cu) ∧
      ∀ cg, ¬ ByGroup db m K.uuid cg := by
  rw [mem_deleteTold hK, not_or, not_exists, not_exists]
  constructor
  · rintro ⟨hno, hd⟩
    have hm' := hno m
    simp only [MemberOf, hm, ho, true_and, not_or, not_exists, Bool.not_eq_true] at hm'
    exact ⟨hm'.1, hd, hm'.2⟩
  · rintro ⟨ha, hd, hg⟩
    refine ⟨?_, hd⟩
    rintro n ⟨hn, hno, h | ⟨cg, h⟩⟩ <;> obtain rfl : n = m := hn.unique ⟨hm, rfl⟩ (hno.trans ho.symm)
    · exact Bool.false_ne_true (ha.symm.trans h)
    · exact hg cg h

theorem Access.Relinks.noMissedSync_iff_overlooked {cfg org op db k touched}
    (h : Relinks org op db k (collectionTold db k org) touched) :
    op.NoMissedSync cfg db org ↔ ∀ c ∈ db.ciphers.rows, touched c → ∀ m, Overlooked db org k m →
      Covers cfg db m.userUuid c (GroupBut db c k) fun m cg => ByGroup db m k cg := by
  rw [h.noMissedSync_iff]
  constructor
  · intro hall c hc ht m hm
    refine hall c hc ht m hm.member hm.inOrg hm.confirmed ?_ hm.account
    exact (not_mem_collectionTold_iff hm.member hm.inOrg).2 ⟨hm.restricted, hm.unassigned⟩
  · intro hall c hc ht m hm ho hconf hu hacc
    obtain ⟨ha, hd⟩ := (not_mem_collectionTold_iff hm ho).1 hu
    exact hall c hc ht m ⟨hm, ho, hconf, ha, hd, hacc⟩

/-- **Which changes of links nobody misses.**  Every operation on an assignment, a group or a
membership bumps the revision of each confirmed member whose view it changes. Saving or deleting a
link between a cipher and a collection, or deleting the collection, does so exactly when for every
member it overlooks the rights through the collection are covered. -/
theorem noMissedSync_iff_covered (cfg : Config) (db : Db) (org : OrganizationId) (op : LinkChange)
    (hin : op.InOrg db org) : op.NoMissedSync cfg db org ↔ op.Covered cfg db org := by
  cases op with
  | saveCollectionCipher id k =>
    rw [(saveCollectionCipher_relinks hin).noMissedSync_iff_overlooked]
    simp only [and_imp, LinkChange.Covered]
  | deleteCollectionCipher id k =>
    rw [(deleteCollectionCipher_relinks hin).noMissedSync_iff_overlooked]
    simp only [and_imp, LinkChange.Covered]
  | deleteCollection K =>
    obtain ⟨hK, rfl⟩ := hin
    rw [(deleteCollection_relinks hK).noMissedSync_iff]
    constructor
    · intro h c hc hl m hm hg
      refine h c hc hl m hm.member hm.inOrg hm.confirmed ?_ hm.account
      exact (not_mem_deleteTold_iff hK hm.member hm.inOrg).2 ⟨hm.restricted, hm.unassigned, hg⟩
    · intro h c hc hl m hm ho hconf hu hacc
      obtain ⟨ha, hd, hg⟩ := (not_mem_deleteTold_iff hK hm ho).1 hu
      exact h c hc hl m ⟨hm, ho, hconf, ha, hd, hacc⟩ hg
  | saveCollectionUser user k ro hp mg =>
    exact iff_of_true (TellsAll.noMissedSync fun _ _ _ => saveCollectionUser_tells) trivial
  | deleteCollectionUser cu =>
    exact iff_of_true (TellsAll.noMissedSync fun _ _ _ => deleteCollectionUser_tells) trivial
  | saveCollectionGroup cg =>
    refine iff_of_true (TellsAll.noMissedSync ?_) trivial
    rintro env w rfl
    exact saveCollectionGroup_tells hin
  | deleteCollectionGroup cg =>
    refine iff_of_true (TellsAll.noMissedSync ?_) trivial
    rintro env w rfl
    exact deleteCollectionGroup_tells hin
  | saveGroupUser gu =>
    exact iff_of_true (TellsAll.noMissedSync fun _ _ _ => saveGroupUser_tells) trivial
  | deleteGroupUser g id =>
    exact iff_of_true (TellsAll.noMissedSync fun _ _ _ => deleteGroupUser_tells) trivial
  | deleteGroup g =>
    refine iff_of_true (TellsAll.noMissedSync ?_) trivial
    rintro env w rfl
    exact deleteGroup_tells hin
  | deleteMembership m =>
    refine iff_of_true (TellsAll.noMissedSync ?_) trivial
    rintro env w rfl
    exact deleteMembership_tells hin.1

/-! ## A member of a group only -/

/-- User 1 reaches collection 8 through a group, and cipher 5 is in no collection yet. -/
def teamDb : Db :=
  { mixedDb with usersCollections := Table.empty, ciphersCollections := Table.empty }

theorem noMissedSync_iff_covered_teamDb :
    (LinkChange.saveCollectionCipher ⟨5⟩ ⟨8⟩).InOrg teamDb ⟨2⟩ ∧
    ((LinkChange.saveCollectionCipher ⟨5⟩ ⟨8⟩).NoMissedSync groupConfig teamDb ⟨2⟩ ↔
      (LinkChange.saveCollectionCipher ⟨5⟩ ⟨8⟩).Covered groupConfig teamDb ⟨2⟩) :=
  ⟨⟨_, mem_cons_of_mem _ mem_cons_self, rfl, rfl⟩,
    noMissedSync_iff_covered groupConfig teamDb ⟨2⟩ _
      ⟨_, mem_cons_of_mem _ mem_cons_self, rfl, rfl⟩⟩

def teamEnv : Env := { toConfig := groupConfig, now := 1 }

/-- Cipher 5 is linked to collection 8 at time 1. -/
def teamLinked : World :=
  (CollectionCipher.save teamEnv ⟨5⟩ ⟨8⟩).after { World.initial [] with db := teamDb }

/-- The link lists the cipher for user 1, whose revision stays at 0. -/
theorem groupMember_missesSync :
    (Cipher.findByUserVisible groupConfig teamDb ⟨1⟩ = [] ∧
      Cipher.findByUserVisible groupConfig teamLinked.db ⟨1⟩ = [mixedCipher] ∧
      teamLinked.db.users.rows.map (fun u => (u.uuid, u.updatedAt)) = [(⟨1⟩, 0)]) ∧
    ¬ (LinkChange.saveCollectionCipher ⟨5⟩ ⟨8⟩).NoMissedSync groupConfig teamDb ⟨2⟩ := by
  have hrun : Cipher.findByUserVisible groupConfig teamDb ⟨1⟩ = [] ∧
      Cipher.findByUserVisible groupConfig teamLinked.db ⟨1⟩ = [mixedCipher] ∧
      teamLinked.db.users.rows.map (fun u => (u.uuid, u.updatedAt)) = [(⟨1⟩, 0)] := by
    decide +kernel
  refine ⟨hrun, fun hsync => ?_⟩
  obtain ⟨hbefore, hafter, hrows⟩ := hrun
  have hview : ¬ SameView groupConfig teamDb teamLinked.db ⟨1⟩ := by
    intro hview
    have hlist := (hview mixedCipher).1
    rw [hbefore, hafter] at hlist
    exact not_mem_nil (hlist.1 mem_cons_self)
  obtain ⟨r, hr, hid⟩ := mem_map.1 (hrows ▸ mem_cons_self)
  have hnow := hsync teamEnv { World.initial [] with db := teamDb } rfl rfl (by decide) (by rfl) _
    mem_cons_self rfl (by decide) hview r hr (congrArg Prod.fst hid)
  exact absurd ((congrArg Prod.snd hid).symm.trans hnow) (by decide)

end VaultServer
