import VaultServer.Invariants.Quiet

/-!
# The statements that move rows

One lemma for each statement that writes a table of the invariants, with what the writer has to
know: the row a copy was loaded from is still there and in the same organization, and an assignment
connects rows of one organization.
-/

namespace VaultServer

open Lib List Table Bool Pledge Prog

variable {k : Collection} {g : Group} {c : Cipher}

variable {env : Env} {p : Pledge} {w w' : World} {n : Nat} {db db' : Db}

/-! ## Memberships -/

/-- The row with this identifier is this user's membership in this organization. -/
def Db.MembershipOf (db : Db) (m : MembershipId) (u : UserId) (o : OrganizationId) : Prop :=
  ∃ r ∈ db.usersOrganizations.rows, r.uuid = m ∧ r.userUuid = u ∧ r.orgUuid = o

section
variable {m : MembershipId} {u : UserId} {o : OrganizationId} (h : db.MembershipOf m u o)
include h

theorem Db.MembershipOf.mono (he : Extends db db') : db'.MembershipOf m u o := by
  obtain ⟨r, hr, hm, hu, ho⟩ := h
  obtain ⟨r', hr', hm', hu', ho'⟩ := he.members r hr
  exact ⟨r', hr', hm'.trans hm, hu'.trans hu, ho'.trans ho⟩

theorem Db.MembershipOf.isMember : db.IsMember u o := by
  obtain ⟨r, hr, -, hu, ho⟩ := h
  exact ⟨r, hr, hu, ho⟩

theorem Db.MembershipOf.membershipIn : db.MembershipIn m o := by
  obtain ⟨r, hr, hm, -, ho⟩ := h
  exact ⟨r, hr, hm, ho⟩

end

theorem Db.MembershipOf.of_mem {m} (hm : m ∈ db.usersOrganizations.rows) :
    db.MembershipOf m.uuid m.userUuid m.orgUuid :=
  ⟨m, hm, rfl, rfl, rfl⟩

namespace Membership

variable {m : Membership}

theorem saveStmt_eq_some {m} (hs : m.saveStmt db = some db') :
    ∃ hc, db' = { db with usersOrganizations := db.usersOrganizations.put m hc } := by
  obtain ⟨t, ht, hs⟩ := Option.bind_eq_some_iff.1 hs
  obtain ⟨hc, rfl⟩ := upsert?_eq_some ht
  exact ⟨hc, (Db.guarded_eq_some hs).2⟩

/-- Other rows stay; a row under the same identifier has the same user and organization, and when
nothing new may be stored there is one. -/
theorem saveStmt_step (hsame : ∀ r ∈ db.usersOrganizations.rows, r.uuid = m.uuid →
      r.userUuid = m.userUuid ∧ r.orgUuid = m.orgUuid) (hn : Fresh n db → m.uuid.val < n)
    (hst : p.inserts = false → db.MembershipOf m.uuid m.userUuid m.orgUuid)
    (hs : m.saveStmt db = some db') : p.Step n db db' := by
  obtain ⟨hc, rfl⟩ := saveStmt_eq_some hs
  refine .of_rows ⟨rfl, rfl⟩ (.of_same rfl rfl rfl rfl) { Extends.refl db with members := ?_ }
    (fun hf => { hf with members := forall_putRows hf.members (hn hf) })
    (fun hi => { Stable.refl db with
      members := forall_putRows (Stable.refl db).members (hst hi) }) fun _ h => .inl h
  exact putRows_keeps (fun _ => ⟨rfl, rfl, rfl⟩) fun r hr hu =>
    ⟨hu.symm, (hsame r hr hu).1.symm, (hsame r hr hu).2.symm⟩

theorem save_safe (hm : w.db.MembershipOf m.uuid m.userUuid m.orgUuid) :
    p.Safe w (m.save env) ⊤ := by
  refine .bind User.updateUuidRevision_writes.silent.calm fun _ w1 _ _ hc => ?_
  have hm1 := hm.mono (hc.2.keeps rfl)
  obtain ⟨r0, hr0, hu0, h0⟩ := hm1
  refine (Pledge.Safe.exec fun _ _ hs => saveStmt_step (fun r hr hu => ?_)
    (fun hf => hu0 ▸ hf.members r0 hr0) (fun _ => ⟨r0, hr0, hu0, h0⟩) hs).forget
  rw [eq_of_key hr hr0 (hu.trans hu0.symm)]
  exact h0

/-- After a new membership has been stored it is there, and the collections are as before. -/
theorem save_safe_new (hp : p.inserts = true) (hm : m.uuid.val < w.nextUuid)
    (hno : ∀ r ∈ w.db.usersOrganizations.rows, r.uuid.val < m.uuid.val) :
    p.Safe w (m.save env) fun _ w' => m ∈ w'.db.usersOrganizations.rows ∧
      ∀ k ∈ w'.db.collections.rows, ∃ k0 ∈ w.db.collections.rows, k0.uuid = k.uuid := by
  refine .bind User.updateUuidRevision_writes.silent.calm fun _ w1 _ _ hc => ?_
  refine (Pledge.Safe.exec fun _ _ hs => saveStmt_step (fun r hr hu => ?_)
    (fun _ => Nat.lt_of_lt_of_le hm hc.1) (fun hi => absurd (hp.symm.trans hi) nofun) hs).mono
    fun _ w2 h => ?_
  · obtain ⟨r0, hr0, hu0, -⟩ := (hc.2.stable rfl).members r hr
    exact absurd (hno r0 hr0) (by rw [hu0, hu]; exact Nat.lt_irrefl _)
  obtain ⟨_, h⟩ := saveStmt_eq_some h.1
  rw [h]
  refine ⟨mem_putRows.2 (.inl rfl), fun k hk => ?_⟩
  obtain ⟨k0, hk0, hu, -⟩ := (hc.2.stable rfl).collections k hk
  exact ⟨k0, hk0, hu⟩

theorem acceptUserInvitations_quiet {u} : Quiet (acceptUserInvitations u) := by
  -- every row keeps its identifier, its user and its organization
  have hid : ∀ (m : Membership) (b : Bool),
      (if b then { m with status := MembershipStatus.accepted.toI32 } else m).uuid = m.uuid ∧
      (if b then { m with status := MembershipStatus.accepted.toI32 } else m).userUuid = m.userUuid ∧
      (if b then { m with status := MembershipStatus.accepted.toI32 } else m).orgUuid = m.orgUuid := by
    intro m b
    cases b <;> exact ⟨rfl, rfl, rfl⟩
  refine .execTotal fun p n db => .of_rows ⟨rfl, rfl⟩ (.of_same rfl rfl rfl rfl)
    { Extends.refl db with members := fun r hr => ⟨_, mem_map_of_mem hr, hid r _⟩ }
    (fun hf => { hf with members := fun r hr => ?_ })
    (fun _ => { Stable.refl db with members := fun r hr => ?_ }) fun _ h => .inl h
  · obtain ⟨r0, hr0, rfl⟩ := mem_map.1 hr
    rw [(hid r0 _).1]
    exact hf.members r0 hr0
  · obtain ⟨r0, hr0, rfl⟩ := mem_map.1 hr
    obtain ⟨h1, h2, h3⟩ := hid r0 _
    exact ⟨r0, hr0, h1.symm, h2.symm, h3.symm⟩

end Membership

/-! ## Removing a membership -/

/-- The user is assigned to no collection of the organization. -/
def Db.Unassigned (db : Db) (u : UserId) (o : OrganizationId) : Prop :=
  ∀ cu ∈ db.usersCollections.rows, cu.userUuid = u → ¬ db.CollectionIn cu.collectionUuid o

theorem Db.CollectionIn.before {k o} (h : db'.CollectionIn k o) (hst : Stable db db') :
    db.CollectionIn k o := by
  obtain ⟨r', hr', hu', ho'⟩ := h
  obtain ⟨r, hr, hu, ho⟩ := hst.collections r' hr'
  exact ⟨r, hr, hu.trans hu', ho.trans ho'⟩

theorem Db.Unassigned.later {u o} (h : db.Unassigned u o) (hm : p.calm.Moves db db') :
    db'.Unassigned u o := fun cu hcu hu hk =>
  h cu ((hm.shrinks rfl).usersCollections cu hcu) hu (hk.before (hm.stable rfl))

theorem CollectionUser.mem_findByOrganizationAndUserUuid {cu u o} :
    cu ∈ findByOrganizationAndUserUuid db o u ↔
      cu ∈ db.usersCollections.rows ∧ cu.userUuid = u ∧ db.CollectionIn cu.collectionUuid o := by
  simp only [findByOrganizationAndUserUuid, mem_map, mem_filter, mem_innerJoin, decide_eq_true_eq]
  constructor
  · rintro ⟨r, ⟨⟨cu', ⟨hcu, hu⟩, k, hk, hku, rfl⟩, ho⟩, rfl⟩
    exact ⟨hcu, hu, k, hk, hku, ho⟩
  · rintro ⟨hcu, hu, k, hk, hku, ho⟩
    exact ⟨(cu, k), ⟨⟨cu, ⟨hcu, hu⟩, k, hk, hku, rfl⟩, ho⟩, rfl⟩

theorem CollectionUser.deleteAllByUserAndOrg_safe {u o} :
    p.Safe w (deleteAllByUserAndOrg u o) fun _ w' =>
      p.calm.Rel w w' ∧ w'.db.Unassigned u o := by
  -- after the round for one row nothing is left of it
  let gone (cu : CollectionUser) (w' : World) : Prop :=
    ∀ r ∈ w'.db.usersCollections.rows, ¬ (r.userUuid = u ∧ r.collectionUuid = cu.collectionUuid)
  have hloop : p.calm.Safe w
      (each (findByOrganizationAndUserUuid w.db o u) fun cu =>
        execTotal (deleteWhere fun x => x.userUuid = u ∧ x.collectionUuid = cu.collectionUuid)
          "Error removing user from collections")
      fun _ w' => ∀ cu ∈ findByOrganizationAndUserUuid w.db o u, gone cu w' := by
    refine Prog.Safe.each_all (A := gone) ?_ fun cu _ w1 _ _ => ?_
    · intro cu w1 w2 hr h r hmem
      exact h r ((hr.2.shrinks rfl).usersCollections r hmem)
    · refine (Safe.execTotal fun _ => deleteWhere_step).mono fun _ w2 h r hr => ?_
      rw [h.1] at hr
      simpa using (mem_deleteWhere.1 hr).2
  refine .query ((hloop.weaken p.calm_le).mono fun _ w' h => ⟨h.2, ?_⟩)
  intro cu hcu hu hk
  have hmem : cu ∈ findByOrganizationAndUserUuid w.db o u :=
    mem_findByOrganizationAndUserUuid.2
      ⟨(h.2.2.shrinks rfl).usersCollections cu hcu, hu, hk.before (h.2.2.stable rfl)⟩
  exact h.1 cu hmem cu hcu ⟨hu, rfl⟩

namespace Membership

/-- The stored row with the copy's identifier, if there is one, belongs to the same user and
organization. -/
def Placed (db : Db) (m : Membership) : Prop :=
  ∀ r ∈ db.usersOrganizations.rows, r.uuid = m.uuid →
    r.userUuid = m.userUuid ∧ r.orgUuid = m.orgUuid

theorem Placed.of_mem {m} (hm : m ∈ db.usersOrganizations.rows) : Placed db m := by
  intro r hr hu
  rw [eq_of_key hr hm hu]
  exact ⟨rfl, rfl⟩

theorem Placed.later {m} (h : Placed db m) (hst : Stable db db') : Placed db' m := by
  intro r' hr' hu'
  obtain ⟨r, hr, h1, h2, h3⟩ := hst.members r' hr'
  obtain ⟨h4, h5⟩ := h r hr (h1.trans hu')
  exact ⟨h2.symm.trans h4, h3.symm.trans h5⟩

variable (hp : p.deletes = true)
include hp

theorem deleteStmt_step {m} (hm : Placed db m)
    (hua : db.Unassigned m.userUuid m.orgUuid) (hs : deleteStmt m.uuid db = some db') :
    p.Step n db db' := by
  obtain ⟨hg, rfl⟩ := Db.guarded_eq_some hs
  have hfree : ∀ gu ∈ db.groupsUsers.rows, gu.usersOrganizationsUuid ≠ m.uuid := by simpa using hg
  refine .of_delete hp ⟨rfl, rfl⟩ (.of_same rfl rfl rfl rfl) ?_ (fun _ h => h) ?_ fun hl => hl
  · exact { Stable.refl db with
      members := fun r hr => ⟨r, (mem_deleteWhere.1 hr).1, rfl, rfl, rfl⟩ }
  · intro hb
    obtain ⟨h1, h2, h3⟩ := orgBoundary_iff.1 hb
    refine orgBoundary_iff.2 ⟨?_, h2, ?_⟩
    · intro cu hcu
      obtain ⟨o, hk, r, hr, hu, ho⟩ := h1 cu hcu
      refine ⟨o, hk, r, mem_deleteWhere.2 ⟨hr, decide_eq_false fun hru => ?_⟩, hu, ho⟩
      obtain ⟨hmu, hmo⟩ := hm r hr hru
      exact hua cu hcu (hu.symm.trans hmu) (by rw [← hmo, ho]; exact hk)
    · intro gu hgu
      obtain ⟨o, hgr, r, hr, hu, ho⟩ := h3 gu hgu
      refine ⟨o, hgr, r, mem_deleteWhere.2 ⟨hr, decide_eq_false fun hru => ?_⟩, hu, ho⟩
      exact hfree gu hgu (hu.symm.trans hru)

theorem delete_safe {m} (hm : Placed w.db m) : p.Safe w (m.delete env) ⊤ := by
  refine .bind User.updateUuidRevision_writes.silent.calm fun _ w1 _ _ h₁ => ?_
  refine .bind CollectionUser.deleteAllByUserAndOrg_safe fun _ w2 _ _ h₂ => ?_
  refine .bind GroupUser.deleteAllByMember_quiet.calm fun _ w3 _ _ h₃ => ?_
  have hplaced : Placed w3.db m :=
    ((hm.later (h₁.2.stable rfl)).later (h₂.1.2.stable rfl)).later (h₃.2.stable rfl)
  exact (Pledge.Safe.exec fun _ _ hs => deleteStmt_step hp hplaced (h₂.2.later h₃.2) hs).forget

/-- A loop that may delete the memberships of a list that was loaded at once. -/
theorem deleteEach_safe (hm : ∀ m ∈ ms, Placed w.db m)
    (hf : ∀ (q : Pledge) w' m, q.deletes = true → Placed w'.db m → q.Safe w' (f m) ⊤) :
    p.Safe w (each ms f) ⊤ := by
  -- in the loop nothing is stored under a new identifier
  have h : ({ p.calm with deletes := true } : Pledge).Safe w (each ms f) ⊤ :=
    Prog.Safe.each fun m hmem w' _ hr => hf _ w' m rfl ((hm m hmem).later (hr.2.stable rfl))
  exact (h.weaken { p.calm_le with deletes := fun _ => hp }).forget

theorem deleteAllByOrganization_safe {o} : p.Safe w (deleteAllByOrganization env o) ⊤ :=
  Safe.query <| deleteEach_safe hp
    (fun _ hm => .of_mem (mem_filter.1 hm).1) fun _ _ _ hq hm => delete_safe hq hm

theorem deleteAllByUser_safe {u} : p.Safe w (deleteAllByUser env u) ⊤ :=
  Safe.query <| deleteEach_safe hp
    (fun _ hm => .of_mem (mem_filter.1 hm).1) fun _ _ _ hq hm => delete_safe hq hm

end Membership

/-! ## Collections and groups -/

namespace Collection

theorem saveStmt_step (hsame : ∀ r ∈ db.collections.rows, r.uuid = k.uuid → r.orgUuid = k.orgUuid)
    (hn : Fresh n db → k.uuid.val < n) (hst : p.inserts = false → db.CollectionIn k.uuid k.orgUuid)
    (hs : k.saveStmt db = some db') : p.Step n db db' := by
  obtain ⟨-, rfl⟩ := Db.guarded_eq_some hs
  refine .of_rows ⟨rfl, rfl⟩ (.of_same rfl rfl rfl rfl) { Extends.refl db with collections := ?_ }
    (fun hf => { hf with collections := forall_putRows hf.collections (hn hf) })
    (fun hi => { Stable.refl db with
      collections := forall_putRows (Stable.refl db).collections (hst hi) }) fun _ h => .inl h
  exact putRows_keeps (fun _ => ⟨rfl, rfl⟩) fun r hr hu => ⟨hu.symm, (hsame r hr hu).symm⟩

theorem saveStmt_collectionIn (hs : k.saveStmt db = some db') :
    db'.CollectionIn k.uuid k.orgUuid := by
  obtain ⟨-, rfl⟩ := Db.guarded_eq_some hs
  exact ⟨k, mem_upsert.2 (.inl rfl), rfl, rfl⟩

theorem save_safe (hk : w.db.CollectionIn k.uuid k.orgUuid) :
    p.Safe w (k.save env) fun _ w' => w'.db.CollectionIn k.uuid k.orgUuid := by
  refine .bind updateUsersRevision_writes.silent.calm fun _ w1 _ _ hc => ?_
  have hk1 := hk.mono (hc.2.keeps rfl)
  obtain ⟨r0, hr0, hu0, ho0⟩ := hk1
  refine (Pledge.Safe.exec fun _ _ hs => saveStmt_step (fun r hr hu => ?_)
    (fun hf => hu0 ▸ hf.collections r0 hr0) (fun _ => ⟨r0, hr0, hu0, ho0⟩) hs).mono
    fun _ _ h => saveStmt_collectionIn h.1
  rw [eq_of_key hr hr0 (hu.trans hu0.symm)]
  exact ho0

theorem save_safe_new (hp : p.inserts = true) (hk : k.uuid.val < w.nextUuid)
    (hno : ∀ r ∈ w.db.collections.rows, r.uuid.val < k.uuid.val) :
    p.Safe w (k.save env) fun _ w' => w'.db.CollectionIn k.uuid k.orgUuid := by
  refine .bind updateUsersRevision_writes.silent.calm fun _ w1 _ _ hc => ?_
  refine (Pledge.Safe.exec fun _ _ hs => saveStmt_step (fun r hr hu => ?_)
    (fun _ => Nat.lt_of_lt_of_le hk hc.1) (fun hi => absurd (hp.symm.trans hi) nofun) hs).mono
    fun _ _ h => saveStmt_collectionIn h.1
  obtain ⟨r0, hr0, hu0, -⟩ := (hc.2.stable rfl).collections r hr
  exact absurd (hno r0 hr0) (by rw [hu0, hu]; exact Nat.lt_irrefl _)

variable (hp : p.deletes = true)
include hp

theorem deleteStmt_step {k} (hs : deleteStmt k db = some db') : p.Step n db db' := by
  obtain ⟨hg, rfl⟩ := Db.guarded_eq_some hs
  simp only [and_eq_true, all_eq_true, decide_eq_true_eq] at hg
  obtain ⟨⟨hcc, hcu⟩, hcg⟩ := hg
  -- what the remaining rows refer to is another collection
  have hstay : ∀ {x o}, db.CollectionIn x o → x ≠ k →
      Db.CollectionIn { db with collections := db.collections.deleteWhere fun r => r.uuid = k } x o := by
    rintro x o ⟨r, hr, hu, ho⟩ hne
    exact ⟨r, mem_deleteWhere.2 ⟨hr, decide_eq_false (hu ▸ hne)⟩, hu, ho⟩
  refine .of_delete hp ⟨rfl, rfl⟩ (.of_same rfl rfl rfl rfl) ?_ (fun _ h => h) ?_ ?_
  · exact { Stable.refl db with
      collections := fun r hr => ⟨r, (mem_deleteWhere.1 hr).1, rfl, rfl⟩ }
  · intro hb
    obtain ⟨h1, h2, h3⟩ := orgBoundary_iff.1 hb
    refine orgBoundary_iff.2 ⟨?_, ?_, h3⟩
    · intro cu h
      obtain ⟨o, hk, hm⟩ := h1 cu h
      exact ⟨o, hstay hk (hcu cu h), hm⟩
    · intro cg h
      obtain ⟨o, hk, hg⟩ := h2 cg h
      exact ⟨o, hstay hk (hcg cg h), hg⟩
  · intro hl cc h
    obtain ⟨o, hk, hc⟩ := hl cc h
    exact ⟨o, hstay hk (hcc cc h), hc⟩

theorem delete_safe : p.Safe w (k.delete env) ⊤ := by
  refine updateUsersRevision_writes.silent.safe.seq ?_
  refine CollectionCipher.deleteAllByCollection_quiet.safe.seq ?_
  refine CollectionUser.deleteAllByCollection_quiet.safe.seq ?_
  refine CollectionGroup.deleteAllByCollection_quiet.safe.seq ?_
  exact (Pledge.Safe.exec fun _ _ hs => deleteStmt_step hp hs).forget

theorem deleteAllByOrganization_safe {o} : p.Safe w (deleteAllByOrganization env o) ⊤ :=
  Safe.query <| .each fun _ _ _ _ _ => delete_safe hp

end Collection

namespace Group

theorem saveStmt_step (hsame : ∀ r ∈ db.groups.rows, r.uuid = g.uuid →
      r.organizationsUuid = g.organizationsUuid) (hn : Fresh n db → g.uuid.val < n)
    (hst : p.inserts = false → db.GroupIn g.uuid g.organizationsUuid)
    (hs : g.saveStmt db = some db') : p.Step n db db' := by
  obtain ⟨-, rfl⟩ := Db.guarded_eq_some hs
  refine .of_rows ⟨rfl, rfl⟩ (.of_same rfl rfl rfl rfl) { Extends.refl db with groups := ?_ }
    (fun hf => { hf with groups := forall_putRows hf.groups (hn hf) })
    (fun hi => { Stable.refl db with
      groups := forall_putRows (Stable.refl db).groups (hst hi) }) fun _ h => .inl h
  exact putRows_keeps (fun _ => ⟨rfl, rfl⟩) fun r hr hu => ⟨hu.symm, (hsame r hr hu).symm⟩

theorem saveStmt_groupIn (hs : g.saveStmt db = some db') :
    db'.GroupIn g.uuid g.organizationsUuid := by
  obtain ⟨-, rfl⟩ := Db.guarded_eq_some hs
  exact ⟨g, mem_upsert.2 (.inl rfl), rfl, rfl⟩

theorem save_safe (hg : w.db.GroupIn g.uuid g.organizationsUuid) :
    p.Safe w g.save fun _ w' => w'.db.GroupIn g.uuid g.organizationsUuid := by
  have hin := hg
  obtain ⟨r0, hr0, hu0, ho0⟩ := hg
  refine (Pledge.Safe.exec fun _ _ hs => saveStmt_step (fun r hr hu => ?_)
    (fun hf => hu0 ▸ hf.groups r0 hr0) (fun _ => hin) hs).mono fun _ _ h => saveStmt_groupIn h.1
  rw [eq_of_key hr hr0 (hu.trans hu0.symm)]
  exact ho0

theorem save_safe_new (hp : p.inserts = true) (hg : g.uuid.val < w.nextUuid)
    (hno : ∀ r ∈ w.db.groups.rows, r.uuid.val < g.uuid.val) :
    p.Safe w g.save fun _ w' => w'.db.GroupIn g.uuid g.organizationsUuid :=
  (Pledge.Safe.exec fun _ _ hs => saveStmt_step
    (fun r hr hu => absurd (hno r hr) (by rw [hu]; exact Nat.lt_irrefl _)) (fun _ => hg)
    (fun hi => absurd (hp.symm.trans hi) nofun) hs).mono fun _ _ h => saveStmt_groupIn h.1

variable (hp : p.deletes = true)
include hp

theorem deleteStmt_step {g} (hs : deleteStmt g db = some db') : p.Step n db db' := by
  obtain ⟨hfree, rfl⟩ := Db.guarded_eq_some hs
  simp only [and_eq_true, all_eq_true, decide_eq_true_eq] at hfree
  obtain ⟨hcg, hgu⟩ := hfree
  have hstay : ∀ {x o}, db.GroupIn x o → x ≠ g →
      Db.GroupIn { db with groups := db.groups.deleteWhere fun r => r.uuid = g } x o := by
    rintro x o ⟨r, hr, hu, ho⟩ hne
    exact ⟨r, mem_deleteWhere.2 ⟨hr, decide_eq_false (hu ▸ hne)⟩, hu, ho⟩
  refine .of_delete hp ⟨rfl, rfl⟩ (.of_same rfl rfl rfl rfl) ?_ (fun _ h => h) ?_ fun hl => hl
  · exact { Stable.refl db with
      groups := fun r hr => ⟨r, (mem_deleteWhere.1 hr).1, rfl, rfl⟩ }
  · intro hb
    obtain ⟨h1, h2, h3⟩ := orgBoundary_iff.1 hb
    refine orgBoundary_iff.2 ⟨h1, ?_, ?_⟩
    · intro cg h
      obtain ⟨o, hk, hg⟩ := h2 cg h
      exact ⟨o, hk, hstay hg (hcg cg h)⟩
    · intro gu h
      obtain ⟨o, hg, hm⟩ := h3 gu h
      exact ⟨o, hstay hg (hgu gu h), hm⟩

theorem delete_safe {o} : p.Safe w (g.delete env o) ⊤ := by
  refine CollectionGroup.deleteAllByGroup_quiet.safe.seq ?_
  refine GroupUser.deleteAllByGroup_quiet.safe.seq ?_
  exact (Pledge.Safe.exec fun _ _ hs => deleteStmt_step hp hs).forget

theorem deleteAllByOrganization_safe {o} : p.Safe w (deleteAllByOrganization env o) ⊤ :=
  Safe.query <| .each fun _ _ _ _ _ => delete_safe hp

end Group

/-! ## Ciphers -/

namespace Cipher

/-- A stored cipher of an organization stays in it. -/
def Placed (db : Db) (c : Cipher) : Prop :=
  ∀ r ∈ db.ciphers.rows, r.uuid = c.uuid →
    r.organizationUuid = none ∨ r.organizationUuid = c.organizationUuid

theorem Placed.of_mem (hc : c ∈ db.ciphers.rows) : Placed db c := by
  intro r hr hu
  rw [eq_of_key hr hc hu]
  exact .inr rfl

theorem Placed.later (h : Placed db c) (hm : p.calm.Moves db db') : Placed db' c := by
  intro r hr hu
  obtain hr | hr := hm.ciphers r hr
  · exact h r hr hu
  · exact hr.elim

/-- Nothing is stored yet under the identifier. -/
theorem Placed.of_fresh (h : Fresh c.uuid.val db) : Placed db c :=
  fun r hr hu => absurd (hu ▸ (h.ciphers r hr).1) (Nat.lt_irrefl _)

theorem saveStmt_step (hp : p.stores c) (hn : c.uuid.val < n ∧ c.OneOwner) (hc : Placed db c)
    (hs : c.saveStmt db = some db') : p.Step n db db' := by
  obtain ⟨-, rfl⟩ := Db.guarded_eq_some hs
  refine .of_rows ⟨rfl, rfl⟩ (.of_same rfl rfl rfl rfl) { Extends.refl db with ciphers := ?_ }
    (fun hf => { hf with ciphers := forall_putRows hf.ciphers hn })
    (fun _ => { Stable.refl db with }) (forall_putRows (fun _ hr => .inl hr) (.inr hp))
  · rintro x o ⟨r, hr, hu, ho⟩
    by_cases hx : r.uuid = c.uuid
    · obtain hnone | hsame := hc r hr hx
      · rw [hnone] at ho; cases ho
      · exact ⟨c, mem_upsert.2 (.inl rfl), hx.symm.trans hu, hsame.symm.trans ho⟩
    · exact ⟨r, mem_upsert.2 (.inr ⟨hr, hx⟩), hu, ho⟩

/-- The copy that is returned is the stored one; only its time differs from the given one. -/
theorem save_safe (hp : p.stores { c with updatedAt := env.now })
    (hn : c.uuid.val < w.nextUuid ∧ c.OneOwner) (hc : Placed w.db c) :
    p.Safe w (c.save env) fun c' w' =>
      c' = { c with updatedAt := env.now } ∧ c' ∈ w'.db.ciphers.rows := by
  refine .bind updateUsersRevision_writes.silent.calm fun _ w1 _ _ hm => ?_
  refine .bind (Pledge.Safe.exec fun _ _ hs =>
    saveStmt_step (c := { c with updatedAt := env.now }) hp
      (hn.imp_left (Nat.lt_of_lt_of_le · hm.1)) (hc.later hm.2) hs) fun _ w2 _ _ h => ?_
  refine .ret ⟨rfl, ?_⟩
  obtain ⟨-, h⟩ := Db.guarded_eq_some h.1
  rw [h]
  exact mem_upsert.2 (.inl rfl)

variable (hp : p.deletes = true)
include hp

theorem deleteStmt_step {c} (hs : deleteStmt c db = some db') : p.Step n db db' := by
  obtain ⟨hfree, rfl⟩ := Db.guarded_eq_some hs
  simp only [and_eq_true, all_eq_true, decide_eq_true_eq] at hfree
  refine .of_delete hp ⟨rfl, rfl⟩ (.of_same rfl rfl rfl rfl) { Stable.refl db with } ?_
    (fun hb => ⟨hb.1, hb.2, hb.3⟩) ?_
  · exact fun r hr => (mem_deleteWhere.1 hr).1
  · intro hl cc h
    obtain ⟨o, hk, ⟨r, hr, hu, ho⟩ | hx⟩ := hl cc h
    · have hne : r.uuid ≠ c := hu ▸ hfree.1.1.2 cc h
      exact ⟨o, hk, .inl ⟨r, mem_deleteWhere.2 ⟨hr, decide_eq_false hne⟩, hu, ho⟩⟩
    · exact ⟨o, hk, .inr hx⟩

theorem delete_safe : p.Safe w (c.delete env) ⊤ := by
  refine updateUsersRevision_writes.silent.safe.seq ?_
  refine FolderCipher.deleteAllByCipher_quiet.safe.seq ?_
  refine CollectionCipher.deleteAllByCipher_quiet.safe.seq ?_
  refine (Attachment.deleteAllByCipher_writes.quiet rfl).safe.seq ?_
  refine Favorite.deleteAllByCipher_quiet.safe.seq ?_
  exact (Pledge.Safe.exec fun _ _ hs => deleteStmt_step hp hs).forget

theorem deleteAllByOrganization_safe {o} : p.Safe w (deleteAllByOrganization env o) ⊤ :=
  Safe.query <| .each fun _ _ _ _ _ => delete_safe hp

theorem deleteAllByUser_safe {u} : p.Safe w (deleteAllByUser env u) ⊤ :=
  Safe.query <| .each fun _ _ _ _ _ => delete_safe hp

end Cipher

/-! ## Assignments and links -/

theorem CollectionUser.save_safe {u k o readOnly hidePasswords manage} (hp : p.grants = true)
    (hk : w.db.CollectionIn k o) (hm : w.db.IsMember u o) :
    p.Safe w (CollectionUser.save env u k readOnly hidePasswords manage) ⊤ := by
  refine .bind User.updateUuidRevision_writes.silent.calm fun _ w1 _ _ hc => ?_
  refine (Pledge.Safe.exec fun _ db' hs => ?_).forget
  obtain ⟨-, rfl⟩ := Db.guarded_eq_some hs
  have he := hc.2.keeps rfl
  refine .of_grant hp ⟨rfl, rfl, rfl, rfl⟩ ⟨rfl, rfl⟩ (fun hx hb => hb.extend hx ?_
    (fun _ h => .inl h) fun _ h => .inl h) fun _ hl => hl
  exact forall_putRows (fun _ h => .inl h) (.inr ⟨o, hk.mono he, hm.mono he⟩)

theorem CollectionGroup.save_safe {cg : CollectionGroup} {org o}
    (hp : p.grants = true) (hk : w.db.CollectionIn cg.collectionsUuid o)
    (hg : w.db.GroupIn cg.groupsUuid o) : p.Safe w (cg.save env org) ⊤ := by
  refine .bind CollectionGroup.updateGroupRevision_writes.silent.calm fun _ w1 _ _ hc => ?_
  refine (Pledge.Safe.exec fun _ db' hs => ?_).forget
  obtain ⟨-, rfl⟩ := Db.guarded_eq_some hs
  have he := hc.2.keeps rfl
  refine .of_grant hp ⟨rfl, rfl, rfl, rfl⟩ ⟨rfl, rfl⟩ (fun hx hb => hb.extend hx
    (fun _ h => .inl h) ?_ fun _ h => .inl h) fun _ hl => hl
  exact forall_putRows (fun _ h => .inl h) (.inr ⟨o, hk.mono he, hg.mono he⟩)

theorem GroupUser.save_safe {gu : GroupUser} {o} (hp : p.grants = true)
    (hg : w.db.GroupIn gu.groupsUuid o) (hm : w.db.MembershipIn gu.usersOrganizationsUuid o) :
    p.Safe w (gu.save env) ⊤ := by
  refine .bind GroupUser.updateMemberRevision_writes.silent.calm fun _ w1 _ _ hc => ?_
  refine (Pledge.Safe.exec fun _ db' hs => ?_).forget
  obtain ⟨-, rfl⟩ := Db.guarded_eq_some hs
  have he := hc.2.keeps rfl
  refine .of_grant hp ⟨rfl, rfl, rfl, rfl⟩ ⟨rfl, rfl⟩ (fun hx hb => hb.extend hx
    (fun _ h => .inl h) (fun _ h => .inl h) ?_) fun _ hl => hl
  exact forall_putRows (fun _ h => .inl h) (.inr ⟨o, hg.mono he, hm.mono he⟩)

/-- Only a stored cipher can be linked, so it is enough to know about the stored one. -/
theorem CollectionCipher.save_safe {c k o} (hp : p.grants = true) (hk : w.db.CollectionIn k o)
    (hc : (∀ r ∈ w.db.ciphers.rows, r.uuid = c → r.organizationUuid = some o) ∨ p.exempt c o) :
    p.Safe w (CollectionCipher.save env c k) ⊤ := by
  refine .bind CollectionCipher.updateUsersRevision_writes.silent.calm fun _ w1 _ _ hm => ?_
  refine (Pledge.Safe.exec fun _ db' hs => ?_).forget
  obtain ⟨hfk, rfl⟩ := Db.guarded_eq_some hs
  have hcipher : w1.db.CipherIn c o ∨ p.exempt c o := by
    refine hc.imp_left fun hc => ?_
    simp only [Db.hasCipher, and_eq_true, any_eq_true, decide_eq_true_eq] at hfk
    obtain ⟨r, hr, hu⟩ := hfk.1
    obtain hr0 | hr0 := hm.2.ciphers r hr
    · exact ⟨r, hr, hu, hc r hr0 hu⟩
    · exact hr0.elim
  refine .of_grant hp ⟨rfl, rfl, rfl, rfl⟩ ⟨rfl, rfl⟩ (fun _ hb => ⟨hb.1, hb.2, hb.3⟩) fun hx hl =>
    hl.extend hx ?_
  exact forall_putRows (fun _ h => .inl h) (.inr ⟨o, hk.mono (hm.2.keeps rfl), hcipher⟩)

/-! ## Removing an organization -/

theorem Organization.delete_safe {o : Organization} (hp : p.deletes = true) :
    p.Safe w (o.delete env) ⊤ := by
  refine (Cipher.deleteAllByOrganization_safe hp).seq ?_
  refine (Collection.deleteAllByOrganization_safe hp).seq ?_
  refine (Membership.deleteAllByOrganization_safe hp).seq ?_
  refine (OrgPolicy.deleteAllByOrganization_writes.quiet rfl).safe.seq ?_
  refine (Group.deleteAllByOrganization_safe hp).andThen fun _ _ _ _ => ?_
  have hkeys : Quiet (execTotal (fun db => { db with
      organizationApiKey := db.organizationApiKey.deleteWhere fun k => k.orgUuid = o.uuid })
      "Error removing organization api key from organization") :=
    .execTotal fun _ _ _ => .of_unwatched rfl
  refine hkeys.safe.andThen fun _ _ _ _ => ?_
  have hrow : Quiet (exec (deleteStmt o.uuid) "Error saving organization" .write) :=
    .execGuarded fun _ _ _ => .of_unwatched rfl
  exact hrow.safe

end VaultServer
