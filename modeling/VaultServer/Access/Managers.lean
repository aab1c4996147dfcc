import VaultServer.Access.Confirmed

/-!
# What a manager administers

A manager without full access should change only the collections they manage. The guard of the
requests on one collection checks the collection of the path; the bulk requests check the list of
the body before or inside their loop; and collections are created only with full access or as an
admin. `Confined` is what every call of these requests keeps: the rows on the collections that the
user does not manage, and with them the answer of `is_coll_manageable_by_user`, so that a check made
at any point of a request is a check on the state before it.
-/

namespace VaultServer

open Lib Access List

variable {data : FullCollectionData} {headers : OrgHeaders}

/-! ## What decides who manages a collection -/

section
variable {db db' : Db} {k : CollectionId} {u : UserId} {rows rows' : List JoinRow}

/-- Every row under construction is one for the collection. -/
def OnCollection (k : CollectionId) (rows : List JoinRow) : Prop :=
  ∀ r ∈ rows, ∀ x, r.collections = some x → x.uuid = k

theorem OnCollection.leftJoin {β : Type} {ys} {on : JoinRow → β → Bool}
    {add : JoinRow → Option β → JoinRow} (hadd : ∀ r o, (add r o).collections = r.collections)
    (h : OnCollection k rows) : OnCollection k (Lib.leftJoin rows ys on add) :=
  forall_mem_leftJoin (fun r o hr x hx => hr x (by rwa [hadd] at hx)) h

theorem mem_withAssignment_congr (hrows : ∀ r, r ∈ rows' ↔ r ∈ rows) (hon : OnCollection k rows)
    (hu : ∀ cu : CollectionUser, cu.collectionUuid = k →
      (cu ∈ db'.usersCollections.rows ↔ cu ∈ db.usersCollections.rows)) (r : JoinRow) :
    r ∈ JoinRow.withAssignment db' u rows' ↔ r ∈ JoinRow.withAssignment db u rows := by
  refine mem_leftJoin_congr hrows (fun x hx cu hcu => hu cu ?_) r
  obtain ⟨y, hy, hid⟩ := any_iff.1 (of_decide_eq_true hcu).1
  exact (of_decide_eq_true hid).trans (hon x hx y hy)

theorem mem_withCollectionRights_congr (hrows : ∀ r, r ∈ rows' ↔ r ∈ rows)
    (hon : OnCollection k rows) (hg : ∀ cg : CollectionGroup, cg.collectionsUuid = k →
      (cg ∈ db'.collectionsGroups.rows ↔ cg ∈ db.collectionsGroups.rows)) (r : JoinRow) :
    r ∈ JoinRow.withCollectionRights db' rows' ↔ r ∈ JoinRow.withCollectionRights db rows := by
  refine mem_leftJoin_congr hrows (fun x hx cg hcg => hg cg ?_) r
  obtain ⟨y, hy, hid⟩ := any_iff.1 (of_decide_eq_true hcg).2
  exact (of_decide_eq_true hid).trans (hon x hx y hy)

/-- The joins of `is_coll_manageable_by_user` up to the last one. -/
def manageRows (db : Db) (k : CollectionId) (u : UserId) : List JoinRow :=
  JoinRow.withGroups db (JoinRow.withGroupsUsers db (JoinRow.withMember db u
    (JoinRow.withAssignment db u
      (JoinRow.ofCollections (db.collections.rows.filter fun x => x.uuid = k)))))

theorem ofCollections_on :
    OnCollection k (JoinRow.ofCollections (db.collections.rows.filter fun x => x.uuid = k)) := by
  intro r hr x hx
  obtain ⟨y, hy, rfl⟩ := mem_map.1 hr
  obtain rfl := Option.some.inj hx
  exact of_decide_eq_true (mem_filter.1 hy).2

theorem manageRows_on : OnCollection k (manageRows db k u) :=
  .leftJoin (fun _ _ => rfl) (.leftJoin (fun _ _ => rfl)
    (.leftJoin (fun _ _ => rfl) (.leftJoin (fun _ _ => rfl) ofCollections_on)))

/-- **Who manages a collection** is decided by the rows on it, and the memberships and groups. -/
theorem isCollManageableByUser_congr
    (hk : ∀ r : Collection, r.uuid = k → (r ∈ db'.collections.rows ↔ r ∈ db.collections.rows))
    (hu : ∀ cu : CollectionUser, cu.collectionUuid = k →
      (cu ∈ db'.usersCollections.rows ↔ cu ∈ db.usersCollections.rows))
    (hg : ∀ cg : CollectionGroup, cg.collectionsUuid = k →
      (cg ∈ db'.collectionsGroups.rows ↔ cg ∈ db.collectionsGroups.rows))
    (hm : db'.usersOrganizations = db.usersOrganizations) (hgroups : db'.groups = db.groups)
    (hgu : db'.groupsUsers = db.groupsUsers) :
    Collection.isCollManageableByUser db' k u = Collection.isCollManageableByUser db k u := by
  have hstart : ∀ r, r ∈ JoinRow.ofCollections (db'.collections.rows.filter fun x => x.uuid = k) ↔
      r ∈ JoinRow.ofCollections (db.collections.rows.filter fun x => x.uuid = k) := by
    intro r
    simp only [JoinRow.ofCollections, mem_map, mem_filter, decide_eq_true_eq]
    exact exists_congr fun x => and_congr_left fun _ => and_congr_left fun hid => hk x hid
  have hrows : ∀ r, r ∈ manageRows db' k u ↔ r ∈ manageRows db k u := by
    simp only [manageRows, JoinRow.withGroups, JoinRow.withGroupsUsers, JoinRow.withMember, hm,
      hgroups, hgu]
    exact mem_leftJoin_congr (mem_leftJoin_congr (mem_leftJoin_congr
      (mem_withAssignment_congr hstart ofCollections_on hu)
      fun _ _ _ _ => .rfl) fun _ _ _ _ => .rfl) fun _ _ _ _ => .rfl
  rw [Bool.eq_iff_iff]
  simp only [Collection.isCollManageableByUser, any_eq_true]
  exact exists_congr fun r => and_congr_left fun _ =>
    mem_withCollectionRights_congr hrows manageRows_on hg r

end

/-! ## The invariant -/

/-- A collection that the user does not manage. -/
def Db.Unmanaged (db : Db) (u : UserId) (k : CollectionId) : Prop :=
  db.hasCollection k = true ∧ Collection.isCollManageableByUser db k u = false

/-- The rows on these collections are the ones from before, and no collection has come to the
organization. -/
structure Confined (w0 : World) (org : OrganizationId) (u : UserId) (w : World) : Prop where
  rows : Table.KeptOn (fun k => w0.db.Unmanaged u k.uuid) w0.db.collections w.db.collections
  members : Table.KeptOn (fun cu => w0.db.Unmanaged u cu.collectionUuid) w0.db.usersCollections
    w.db.usersCollections
  groups : Table.KeptOn (fun cg => w0.db.Unmanaged u cg.collectionsUuid) w0.db.collectionsGroups
    w.db.collectionsGroups
  made : ∀ k ∈ w.db.collections.rows, k.orgUuid = org → w0.db.CollectionIn k.uuid org
  rights : ∀ t ∈ [Part.usersOrganizations, .groups, .groupsUsers], w0.Same w t
  later : w0.nextUuid ≤ w.nextUuid

section
variable {w0 w : World} {org o : OrganizationId} {u : UserId} {env : Env}

theorem Confined.refl : Confined w org u w where
  rows := .refl
  members := .refl
  groups := .refl
  made k hk ho := ⟨k, hk, rfl, ho⟩
  rights t _ := .refl w t
  later := Nat.le_refl _

def confined (w0 : World) (org : OrganizationId) (u : UserId) : PartInvariant where
  parts := [.collections, .usersCollections, .collectionsGroups, .usersOrganizations, .groups,
    .groupsUsers]
  holds := Confined w0 org u
  of_same {w w'} h hle hw := by
    have hk : w'.db.collections = w.db.collections := h .collections (by decide)
    have hu : w'.db.usersCollections = w.db.usersCollections := h .usersCollections (by decide)
    have hg : w'.db.collectionsGroups = w.db.collectionsGroups := h .collectionsGroups (by decide)
    refine ⟨?_, ?_, ?_, ?_, fun t ht => (hw.rights t ht).trans (h t ?_), Nat.le_trans hw.later hle⟩
    · rw [hk]; exact hw.rows
    · rw [hu]; exact hw.members
    · rw [hg]; exact hw.groups
    · rw [hk]; exact hw.made
    · revert t; decide

/-- A statement on the confined tables leaves the rights alone. -/
theorem Confined.sameRights (h : Confined w0 org u w) :
    ∀ t ∈ [Part.usersOrganizations, .groups, .groupsUsers], w0.Same { w with db := { w.db with
      collections := ks
      usersCollections := us
      collectionsGroups := gs } } t := by
  intro t ht
  refine (h.rights t ht).trans ?_
  cases t <;> first | rfl | exact absurd ht (by decide)

/-- A check at any point of the request is a check on the state before it. -/
theorem Confined.not_unmanaged {k} (h : Confined w0 org u w)
    (hm : Collection.isCollManageableByUser w.db k u = true) : ¬ w0.db.Unmanaged u k := by
  intro hk
  have hsame : Collection.isCollManageableByUser w.db k u =
      Collection.isCollManageableByUser w0.db k u :=
    isCollManageableByUser_congr
      (fun r hr => h.rows r (show w0.db.Unmanaged u r.uuid from hr ▸ hk))
      (fun cu hcu => h.members cu (show w0.db.Unmanaged u cu.collectionUuid from hcu ▸ hk))
      (fun cg hcg => h.groups cg (show w0.db.Unmanaged u cg.collectionsUuid from hcg ▸ hk))
      (h.rights .usersOrganizations (by decide)) (h.rights .groups (by decide))
      (h.rights .groupsUsers (by decide))
  rw [hsame, hk.2] at hm
  cases hm

/-! ## Statements -/

theorem Collection.save_confined {k : Collection} (hk : ¬ w0.db.Unmanaged u k.uuid)
    (ho : k.orgUuid = org → w0.db.CollectionIn k.uuid org) :
    (confined w0 org u).Keeps (k.save env) ⊤ := by
  refine .skip Collection.updateUsersRevision_writes <| .exec fun w db' hw hs => ?_
  obtain ⟨-, rfl⟩ := Db.guarded_eq_some hs
  exact { hw with
    rows := hw.rows.upsert hk fun x _ hx hid => hk (hid ▸ hx)
    made := Table.forall_putRows hw.made ho
    rights := hw.sameRights }

theorem CollectionUser.save_confined {v k r h m} (hk : ¬ w0.db.Unmanaged u k) :
    (confined w0 org u).Keeps (CollectionUser.save env v k r h m) ⊤ := by
  refine .skip User.updateUuidRevision_writes <| .exec fun w db' hw hs => ?_
  obtain ⟨-, rfl⟩ := Db.guarded_eq_some hs
  refine { hw with members := hw.members.upsert hk fun x _ hx hkey => ?_, rights := hw.sameRights }
  have hid : x.collectionUuid = k := congrArg Prod.snd hkey
  exact hk (hid ▸ hx)

theorem CollectionUser.deleteAllByCollection_confined {k} (hk : ¬ w0.db.Unmanaged u k) :
    (confined w0 org u).Keeps (CollectionUser.deleteAllByCollection env k) ⊤ := by
  refine .still .query fun _ => .still (.each fun _ => User.updateUuidRevision_writes) fun _ => ?_
  exact .execTotal fun w hw => { hw with
    members := hw.members.deleteWhere fun x _ hx => decide_eq_false fun hid => hk (hid ▸ hx)
    rights := hw.sameRights }

theorem CollectionGroup.save_confined {cg : CollectionGroup}
    (hk : ¬ w0.db.Unmanaged u cg.collectionsUuid) :
    (confined w0 org u).Keeps (cg.save env o) ⊤ := by
  refine .skip CollectionGroup.updateGroupRevision_writes <| .exec fun w db' hw hs => ?_
  obtain ⟨-, rfl⟩ := Db.guarded_eq_some hs
  refine { hw with groups := hw.groups.upsert hk fun x _ hx hkey => ?_, rights := hw.sameRights }
  have hid : x.collectionsUuid = cg.collectionsUuid := congrArg Prod.fst hkey
  exact hk (hid ▸ hx)

theorem CollectionGroup.deleteAllByCollection_confined {k} (hk : ¬ w0.db.Unmanaged u k) :
    (confined w0 org u).Keeps (CollectionGroup.deleteAllByCollection env k o) ⊤ := by
  refine .still .query fun _ =>
    .still (.each fun _ => CollectionGroup.updateGroupRevision_writes) fun _ => ?_
  exact .execTotal fun w hw => { hw with
    groups := hw.groups.deleteWhere fun x _ hx => decide_eq_false fun hid => hk (hid ▸ hx)
    rights := hw.sameRights }

theorem Collection.delete_confined {k : Collection} (hk : ¬ w0.db.Unmanaged u k.uuid) :
    (confined w0 org u).Keeps (k.delete env) ⊤ := by
  refine .skip Collection.updateUsersRevision_writes ?_
  refine .past CollectionCipher.deleteWhere_writes rfl ?_
  refine (CollectionUser.deleteAllByCollection_confined hk).bind fun _ _ => ?_
  refine (CollectionGroup.deleteAllByCollection_confined hk).bind fun _ _ => ?_
  refine .exec fun w db' hw hs => ?_
  obtain ⟨-, rfl⟩ := Db.guarded_eq_some hs
  exact { hw with
    rows := hw.rows.deleteWhere fun x _ hx => decide_eq_false fun hid => hk (hid ▸ hx)
    made := fun x hx => hw.made x (Table.mem_deleteWhere.1 hx).1
    rights := hw.sameRights }

/-! ## Handlers -/

theorem assignGroups_confined {k groups} (hk : ¬ w0.db.Unmanaged u k) :
    (confined w0 org u).Keeps (assignGroups env o k groups) ⊤ :=
  .each fun _ _ => CollectionGroup.save_confined hk

theorem assignMembers_confined {k users} (hk : ¬ w0.db.Unmanaged u k) :
    (confined w0 org u).Keeps (assignMembers env o k users) ⊤ := by
  refine .each fun x _ => .still .query fun found => ?_
  split
  · exact .err
  · exact .ite (.ret trivial) (CollectionUser.save_confined hk)

theorem reassign_confined {k groups users} (hk : ¬ w0.db.Unmanaged u k) :
    (confined w0 org u).Keeps (reassign env o k groups users) ⊤ := by
  refine (CollectionGroup.deleteAllByCollection_confined hk).bind fun _ _ => ?_
  refine (assignGroups_confined hk).bind fun _ _ => ?_
  exact (CollectionUser.deleteAllByCollection_confined hk).bind fun _ _ => assignMembers_confined hk

/-- A collection that was found is one of the organization's from before, or another's. -/
theorem Confined.found {id k} (h : Confined w0 org u w)
    (hk : Collection.findByUuidAndOrg w.db id o = some k) :
    k.uuid = id ∧ (k.orgUuid = org → w0.db.CollectionIn k.uuid org) := by
  obtain ⟨hmem, hid, -⟩ := Collection.findByUuidAndOrg_eq_some hk
  exact ⟨hid, h.made k hmem⟩

theorem bulkAccess_confined {data id} :
    (confined w0 org u).Keeps (bulkAccess env o data u id) ⊤ := by
  refine .found .err fun w k hw hk => ?_
  obtain ⟨rfl, ho⟩ := hw.found hk
  refine .query fun w' hw' => .ensure fun hm => ?_
  have hmanaged := hw'.not_unmanaged hm
  exact (Collection.save_confined hmanaged ho).bind fun _ _ => reassign_confined hmanaged

theorem postBulkAccessCollections_confined {data} (hu : headers.membership.userUuid = u) :
    (confined w0 org u).Keeps (postBulkAccessCollections env o data headers) ⊤ := by
  refine .check <| .skip .query <| .check ?_
  refine .skip (.bind .query fun _ => .ensure) ?_
  rw [hu]
  exact .each fun _ _ => bulkAccess_confined

theorem postOrganizationCollectionUpdate_confined {id} (hk : ¬ w0.db.Unmanaged u id) :
    (confined w0 org u).Keeps (postOrganizationCollectionUpdate env o id data headers) ⊤ := by
  refine .check <| .skip FullCollectionData.validate_writes ?_
  refine .skip .query <| .check <| .found .err fun w k hw hfound => ?_
  obtain ⟨rfl, ho⟩ := hw.found hfound
  have hsave : (confined w0 org u).Keeps (Collection.save env { k with
      name := data.name
      externalId := data.externalId.filter fun s => !(trimText s).isEmpty }) ⊤ :=
    Collection.save_confined hk ho
  exact hsave.bind fun _ _ => reassign_confined hk

theorem deleteOrganizationCollectionImpl_confined {id} (hk : ¬ w0.db.Unmanaged u id) :
    (confined w0 org u).Keeps (deleteOrganizationCollectionImpl env o headers id) ⊤ := by
  refine .check <| .found .err fun w k hw hfound => ?_
  obtain ⟨rfl, -⟩ := hw.found hfound
  exact Collection.delete_confined hk

/-- The whole list is checked before the first deletion. -/
theorem bulkDeleteOrganizationCollections_confined (hu : headers.membership.userUuid = u) :
    (confined w0 org u).Keeps (bulkDeleteOrganizationCollections env o ids headers) ⊤ := by
  have hcheck : (confined w0 org u).Keeps (ManagerHeaders.fromLoose headers ids) fun _ =>
      ∀ k ∈ ids, ¬ w0.db.Unmanaged u k := by
    refine .eachAll fun k _ => .query fun w hw => PartInvariant.Keeps.ensured.mono fun _ hm => ?_
    rw [hu] at hm
    exact hw.not_unmanaged hm
  exact .check <| hcheck.bind fun _ hids => .each fun k hk =>
    deleteOrganizationCollectionImpl_confined (hids k hk)

/-! ## Creating -/

variable (hnew : ∀ k ∈ w0.db.collections.rows, k.uuid.val < w0.nextUuid)
include hnew

/-- A collection that is made has a new identifier. -/
theorem not_unmanaged_of_drawn (hn : w0.nextUuid ≤ n) : ¬ w0.db.Unmanaged u ⟨n⟩ := by
  rintro ⟨hthere, -⟩
  obtain ⟨k, hk, hid⟩ := any_eq_true.1 hthere
  have hlt := hnew k hk
  rw [of_decide_eq_true hid] at hlt
  exact absurd hlt (Nat.not_lt.2 hn)

theorem postOrganizationCollections_confined
    (hmay : o = org → headers.membership.atype = .manager ∧ headers.membership.accessAll = false) :
    (confined w0 org u).Keeps (postOrganizationCollections env o data headers) ⊤ := by
  refine .check <| .skip FullCollectionData.validate_writes <| .ensure fun hallowed => ?_
  refine .getUuid fun w hw => ?_
  have hdrawn : ¬ w0.db.Unmanaged u ⟨w.nextUuid⟩ := not_unmanaged_of_drawn hnew hw.later
  refine (Collection.save_confined hdrawn fun ho => ?_).bind fun _ _ =>
    (assignGroups_confined hdrawn).bind fun _ _ => assignMembers_confined hdrawn
  obtain ⟨hrole, hall⟩ := hmay ho
  simp [hrole, hall] at hallowed

theorem importCollection_confined {m : Membership}
    (hmay : o = org → ¬ MembershipType.manager < m.atype ∧ m.hasFullAccess = false) :
    (confined w0 org u).Keeps (importCollection env o m existing ks data) ⊤ := by
  unfold importCollection
  split
  · exact .skip .query <| .check <| .ret trivial
  · refine .ensure fun hallowed => .getUuid fun w hw => ?_
    have hdrawn : ¬ w0.db.Unmanaged u ⟨w.nextUuid⟩ := not_unmanaged_of_drawn hnew hw.later
    refine (Collection.save_confined hdrawn fun ho => ?_).bind fun _ _ => .ret trivial
    obtain ⟨hrole, hfull⟩ := hmay ho
    simp [hrole, hfull] at hallowed

theorem postOrgImport_confined {data}
    (hmay : o = org → ¬ MembershipType.manager < headers.membership.atype ∧
      headers.membership.hasFullAccess = false) :
    (confined w0 org u).Keeps (postOrgImport env o data headers) ⊤ := by
  refine .check <| .skip validateCipherData_writes <| .still .query fun existing => ?_
  refine .bind (.foldl (R := ⊤) trivial fun ks d _ _ =>
    importCollection_confined hnew hmay) fun ks _ => ?_
  refine .pass (.foldl fun cs d => .bind .getUuid fun _ =>
    .bind (.catchErr updateCipherFromData_writes) fun _ => .ret) rfl fun cs => ?_
  refine .past (.each fun _ => importLink_writes) rfl ?_
  exact .of_writes User.updateRevision_writes rfl

/-! ## The requests together -/

/-- The requests on collections, and the import. -/
def OrgRequest.onCollections : OrgRequest → Bool
  | postOrganizationCollections _ | postBulkAccessCollections _ | postOrganizationCollectionUpdate ..
  | deleteOrganizationCollection .. | bulkDeleteOrganizationCollections _ | postOrgImport _ => true
  | _ => false

omit hnew in
/-- The guard has found the membership of the user in the organization of the path. -/
theorem Confined.membership {m} (h : Confined w0 org u w)
    (hm : Membership.findByUserAndOrg w0.db u org = some m) (hid : headers.user.uuid = u)
    (hfound : Membership.findByUserAndOrg w.db headers.user.uuid o = some headers.membership) :
    headers.membership.userUuid = u ∧ (o = org → headers.membership = m) := by
  rw [hid] at hfound
  refine ⟨(Membership.findByUserAndOrg_eq_some hfound).2.1, ?_⟩
  rintro rfl
  rw [Membership.findByUserAndOrg, show w.db.usersOrganizations = _ from
    h.rights .usersOrganizations (by decide), ← Membership.findByUserAndOrg, hm] at hfound
  exact (Option.some.inj hfound).symm

end

section
variable {env : Env} {w : World} {org path : OrganizationId} {caller : Caller} {m : Membership}
  {request : OrgRequest}

/-- The guard of a request on one collection checks the collection that the handler acts on. -/
theorem ManagerHeaders.keeps {k v}
    (hm : Membership.findByUserAndOrg w.db caller.token.claims.sub org = some m) :
    (confined w org caller.token.claims.sub).Keeps
      (ManagerHeaders.fromRequest env caller path (some k) v) fun _ =>
        ¬ w.db.Unmanaged caller.token.claims.sub k := by
  refine (PartInvariant.Keeps.orgHeaders rfl).bind fun headers ⟨hid, ⟨w1, hw1, hfound⟩, _⟩ => ?_
  refine .query fun w2 hw2 => .ensure fun hmanages => .ret ?_
  rw [(hw1.membership hm hid hfound).1] at hmanages
  exact hw2.not_unmanaged hmanages

/-- Without full access a member is no admin, and does not see everything. -/
theorem Membership.limited (hc : m.hasStatus .confirmed = true) (hfull : m.hasFullAccess = false) :
    m.accessAll = false ∧ ¬ MembershipType.admin ≤ m.atype := by
  rw [Membership.hasFullAccess, hc, Bool.and_true, Bool.or_eq_false_iff] at hfull
  exact ⟨hfull.1, of_decide_eq_false hfull.2⟩

theorem OrgRequest.serve_confined (hnew : ∀ k ∈ w.db.collections.rows, k.uuid.val < w.nextUuid)
    (hm : Membership.findByUserAndOrg w.db caller.token.claims.sub org = some m)
    (hc : m.hasStatus .confirmed = true) (hfull : m.hasFullAccess = false)
    (hr : request.onCollections = true) : (confined w org caller.token.claims.sub).Keeps
      ((Request.organization caller path request).serve env) ⊤ := by
  obtain ⟨hall, hadmin⟩ := Membership.limited hc hfull
  cases request with
  | postOrganizationCollections =>
    refine (PartInvariant.Keeps.orgHeaders rfl).bind
      fun headers ⟨hid, ⟨w1, hw1, hfound⟩, htype, _, hok⟩ => ?_
    refine (postOrganizationCollections_confined hnew fun ho => ?_).bind fun _ _ => .ret trivial
    have hrole : MembershipType.manager ≤ headers.membershipType := (of_decide_eq_true hok).2
    rw [htype] at hrole
    rw [(hw1.membership hm hid hfound).2 ho] at hrole ⊢
    exact ⟨MembershipType.eq_manager hrole hadmin, hall⟩
  | postBulkAccessCollections =>
    refine (PartInvariant.Keeps.orgHeaders rfl).bind fun headers ⟨hid, ⟨w1, hw1, hfound⟩, _⟩ => ?_
    exact (postBulkAccessCollections_confined (hw1.membership hm hid hfound).1).bind fun _ _ =>
      .ret trivial
  | postOrganizationCollectionUpdate k v =>
    exact (ManagerHeaders.keeps (v := v) hm).bind fun _ hk =>
      (postOrganizationCollectionUpdate_confined hk).bind fun _ _ => .ret trivial
  | deleteOrganizationCollection k v =>
    exact (ManagerHeaders.keeps (v := v) hm).bind fun _ hk =>
      (deleteOrganizationCollectionImpl_confined hk).bind fun _ _ => .ret trivial
  | bulkDeleteOrganizationCollections =>
    refine (PartInvariant.Keeps.orgHeaders rfl).bind fun headers ⟨hid, ⟨w1, hw1, hfound⟩, _⟩ => ?_
    exact (bulkDeleteOrganizationCollections_confined (hw1.membership hm hid hfound).1).bind
      fun _ _ => .ret trivial
  | postOrgImport =>
    refine (PartInvariant.Keeps.orgHeaders rfl).bind fun headers ⟨hid, ⟨w1, hw1, hfound⟩, _⟩ => ?_
    refine (postOrgImport_confined hnew fun ho => ?_).bind fun _ _ => .ret trivial
    rw [(hw1.membership hm hid hfound).2 ho]
    exact ⟨fun hlt => hadmin (MembershipType.admin_le_of_manager_lt hlt), hfull⟩
  | _ => cases hr

end

/-- **Managers only administer what they manage.**  Whatever a collection request of a member
without full access names, and however it ends, the row and the assignments of every collection that
they do not manage are as before, and the organization has no new collection. -/
theorem unmanaged_kept (env : Env) (w : World) (org path : OrganizationId) (caller : Caller)
    (m : Membership) (request : OrgRequest)
    (hnew : ∀ k ∈ w.db.collections.rows, k.uuid.val < w.nextUuid)
    (hm : Membership.findByUserAndOrg w.db caller.token.claims.sub org = some m)
    (hc : m.hasStatus .confirmed = true) (hfull : m.hasFullAccess = false)
    (hr : request.onCollections = true) :
    let db' := (((Request.organization caller path request).serve env).after w).db
    (∀ k ∈ w.db.collections.rows,
      Collection.isCollManageableByUser w.db k.uuid caller.token.claims.sub = false →
      k ∈ db'.collections.rows ∧
      (∀ cu : CollectionUser, cu.collectionUuid = k.uuid →
        (cu ∈ db'.usersCollections.rows ↔ cu ∈ w.db.usersCollections.rows)) ∧
      ∀ cg : CollectionGroup, cg.collectionsUuid = k.uuid →
        (cg ∈ db'.collectionsGroups.rows ↔ cg ∈ w.db.collectionsGroups.rows)) ∧
    ∀ k ∈ db'.collections.rows, k.orgUuid = org → w.db.CollectionIn k.uuid org := by
  have hkeeps : (confined w org caller.token.claims.sub).Keeps
      ((Request.organization caller path request).serve env) ⊤ :=
    OrgRequest.serve_confined hnew hm hc hfull hr
  have hkept := hkeeps.after Confined.refl
  refine ⟨fun k hk hno => ?_, hkept.made⟩
  have hunmanaged : w.db.Unmanaged caller.token.claims.sub k.uuid :=
    ⟨any_eq_true.2 ⟨k, hk, decide_eq_true rfl⟩, hno⟩
  refine ⟨(hkept.rows k hunmanaged).2 hk, fun cu hcu => hkept.members cu ?_,
    fun cg hcg => hkept.groups cg ?_⟩
  · exact show w.db.Unmanaged _ cu.collectionUuid from hcu ▸ hunmanaged
  · exact show w.db.Unmanaged _ cg.collectionsUuid from hcg ▸ hunmanaged

namespace Managing

open Leftover (user device caller)

def manager : Membership :=
  { Membership.new 3 ⟨1⟩ ⟨2⟩ none with
    atype := .manager, status := MembershipStatus.confirmed.toI32 }

def other : Collection := ⟨⟨4⟩, ⟨2⟩, "other", none⟩

/-- User 1 manages collection 5 of organization 2, and not its collection 4. -/
def db : Db :=
  { Db.empty with
    users := .ofRows [user]
    devices := .ofRows [device]
    organizations := .ofRows [⟨⟨2⟩, "org", "owner@example.com", none, none⟩]
    usersOrganizations := .ofRows [manager]
    collections := .ofRows [other, ⟨⟨5⟩, ⟨2⟩, "managed", none⟩]
    usersCollections := .ofRows [⟨⟨1⟩, ⟨5⟩, false, false, true⟩] }

def delete (path : CollectionId) (queryValue : Option CollectionId) : Request :=
  .organization caller ⟨2⟩ (.deleteOrganizationCollection path queryValue)

example : (((delete ⟨5⟩ none).serve {}).after ⟨db, 20, [], [], []⟩).db.collections.rows = [other] := by
  decide

end Managing

open Managing in
/-- Naming a managed collection in the query does not help. -/
theorem unmanaged_kept_queryValue :
    other ∈ (((delete ⟨4⟩ (some ⟨5⟩)).serve {}).after ⟨db, 20, [], [], []⟩).db.collections.rows :=
  ((unmanaged_kept {} ⟨db, 20, [], [], []⟩ ⟨2⟩ ⟨2⟩ Leftover.caller manager
    (.deleteOrganizationCollection ⟨4⟩ (some ⟨5⟩)) (by decide) (by rfl) (by decide) (by decide)
    rfl).1 other (by decide) (by decide)).1

end VaultServer
