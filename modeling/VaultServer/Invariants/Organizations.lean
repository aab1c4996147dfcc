import VaultServer.Invariants.Vault

/-!
# Organization requests under a pledge

The handlers on organizations, collections, members, groups and directories. Each assignment they
write connects rows that were found in, or checked against, the organization of the request.
-/

namespace VaultServer

open Lib List Table

variable {data : FullCollectionData} {groups : List CollectionGroupData}

variable {env : Env} {p : Pledge} {w w' : World} {org : OrganizationId} {headers : OrgHeaders}

/-! ## Finding rows -/

theorem Group.findByUuidAndOrg_eq_some {db id o g} (h : Group.findByUuidAndOrg db id o = some g) :
    g ∈ db.groups.rows ∧ g.uuid = id ∧ g.organizationsUuid = o := by
  obtain ⟨hg, hp⟩ := mem_of_find? h
  exact ⟨hg, of_decide_eq_true hp⟩

theorem Collection.mem_of_mem_findByUserUuid {cfg db u k}
    (h : k ∈ Collection.findByUserUuid cfg db u) : k ∈ db.collections.rows := by
  -- the joins add to a row, its collection stays the one it started with
  let ok (r : JoinRow) : Prop := ∀ k, r.collections = some k → k ∈ db.collections.rows
  have hbase : ∀ r ∈ JoinRow.ofCollections db.collections.rows, ok r := by
    intro r hr x hx
    obtain ⟨y, hy, rfl⟩ := mem_map.1 hr
    obtain rfl := Option.some.inj hx
    exact hy
  have hassigned : ∀ r ∈ JoinRow.withAssignment db u (JoinRow.ofCollections db.collections.rows),
      ok r := forall_mem_leftJoin (fun _ _ h => h) hbase
  have hmember : ∀ r ∈ JoinRow.withMember db u
      (JoinRow.withAssignment db u (JoinRow.ofCollections db.collections.rows)), ok r :=
    forall_mem_leftJoin (fun _ _ h => h) hassigned
  have hgroups : ∀ r ∈ JoinRow.withMemberGroups db (JoinRow.withMember db u
      (JoinRow.withAssignment db u (JoinRow.ofCollections db.collections.rows))), ok r :=
    forall_mem_leftJoin (fun _ _ h => h)
      (forall_mem_leftJoin (fun _ _ h => h) (forall_mem_leftJoin (fun _ _ h => h) hmember))
  obtain ⟨r, hr, hk⟩ := mem_filterMap.1 (mem_dedup.1 h)
  obtain ⟨hr, -⟩ := mem_filter.1 hr
  revert hr
  split
  · exact fun hr => hgroups r hr k hk
  · exact fun hr => hmember r hr k hk

/-! ## Organizations and collections -/

theorem createOrganization_safe {data user} (hp : p.Grows) :
    p.Safe w (createOrganization env data user) ⊤ := by
  refine .check <| .query (.check ?_)
  refine .getUuid fun _ _ => .getUuid fun hw1 _ => ?_
  refine .getUuid fun hw2 _ => ?_
  -- neither identifier is in use, and what is written in between leaves that so
  have hm : ∀ r ∈ w.db.usersOrganizations.rows, r.uuid.val < w.nextUuid + 1 := hw1.fresh.members
  have hk : ∀ r ∈ w.db.collections.rows, r.uuid.val < w.nextUuid + 1 + 1 := hw2.fresh.collections
  refine .bind (Organization.save_writes.quiet rfl).calm fun _ w4 _ _ h4 => ?_
  have hn : w.nextUuid + 1 + 1 + 1 ≤ w4.nextUuid := h4.1
  refine .bind (Membership.save_safe_new hp.inserts ?_ ?_) fun _ w5 _ hr5 ⟨_, h5⟩ => ?_
  · show w.nextUuid + 1 < w4.nextUuid
    omega
  · intro r hr
    obtain ⟨r0, hr0, hu0, -⟩ := (h4.2.stable rfl).members r hr
    exact hu0 ▸ hm r0 hr0
  refine (Collection.save_safe_new hp.inserts ?_ ?_).forget
  · show w.nextUuid + 1 + 1 < w5.nextUuid
    have := hr5.1
    omega
  · intro r hr
    obtain ⟨r1, hr1, hu1⟩ := h5 r hr
    obtain ⟨r0, hr0, hu0, -⟩ := (h4.2.stable rfl).collections r1 hr1
    exact hu0.trans hu1 ▸ hk r0 hr0

theorem deleteOrganization_safe {data} (hp : p.Free) :
    p.Safe w (deleteOrganization env org data headers) ⊤ := by
  refine .check <| (PasswordOrOtpData.validate_writes.quiet rfl).safe.andThen
    fun _ _ _ _ => .query ?_
  split
  · exact .err
  · exact Organization.delete_safe hp.deletes

theorem leaveOrganization_safe (hp : p.Free)
    (hm : headers.membership ∈ w.db.usersOrganizations.rows) :
    p.Safe w (leaveOrganization env org headers) ⊤ :=
  Pledge.Safe.check <| .query <| .ensure fun _ =>
    Membership.delete_safe hp.deletes (.of_mem hm)

/-! ## Who a collection is assigned to -/

theorem validateGroups_safe : p.Safe w (validateGroups org groups) fun _ w' =>
      w' = w ∧ ∀ g ∈ groups, w.db.GroupIn g.id org := by
  refine .query (.ensure_last fun hall => ⟨rfl, fun g hg => ?_⟩)
  obtain ⟨x, hx, hu⟩ := any_eq_true.1 (all_eq_true.1 hall g hg)
  obtain ⟨hx, ho⟩ := mem_filter.1 hx
  exact ⟨x, hx, of_decide_eq_true hu, of_decide_eq_true ho⟩

theorem FullCollectionData.validate_safe : p.Safe w (data.validate org) fun _ w' =>
      w' = w ∧ ∀ g ∈ data.groups, w.db.GroupIn g.id org := by
  refine .bind validateGroups_safe fun _ w1 _ _ ⟨hw, hg⟩ => ?_
  subst hw
  exact Pledge.Safe.query (Pledge.Safe.ensure_last fun _ => ⟨rfl, hg⟩)

section
variable {k : CollectionId} (hp : p.grants = true) (hd : p.deletes = false)
  (hk : w.db.CollectionIn k org)
include hp hd hk

theorem assignGroups_safe (hg : ∀ g ∈ groups, w.db.GroupIn g.id org) :
    p.Safe w (assignGroups env org k groups) ⊤ :=
  Prog.Safe.each fun g hmem _ _ hr =>
    CollectionGroup.save_safe hp (hk.mono (hr.2.keeps hd)) ((hg g hmem).mono (hr.2.keeps hd))

theorem assignMembers_safe : p.Safe w (assignMembers env org k users) ⊤ := by
  refine .each fun u _ w1 _ hr => Pledge.Safe.found .err fun m hm => ?_
  obtain ⟨hmem, -, ho⟩ := Membership.findByUuidAndOrg_eq_some hm
  show p.Safe w1 (if m.accessAll then pure () else _) _
  split
  · exact .ret trivial
  · exact CollectionUser.save_safe hp (hk.mono (hr.2.keeps hd)) ⟨m, hmem, rfl, ho⟩

theorem reassign_safe (hg : ∀ g ∈ groups, w.db.GroupIn g.id org) :
    p.Safe w (reassign env org k groups users) ⊤ := by
  refine CollectionGroup.deleteAllByCollection_quiet.safe.andThen fun _ w1 _ h1 => ?_
  have hk1 := hk.mono (h1.2.keeps hd)
  refine (assignGroups_safe hp hd hk1 fun g hmem => (hg g hmem).mono (h1.2.keeps hd)).andThen
    fun _ w2 _ h2 => ?_
  have hk2 := hk1.mono (h2.2.keeps hd)
  refine CollectionUser.deleteAllByCollection_quiet.safe.andThen fun _ w3 _ h3 => ?_
  exact assignMembers_safe hp hd (hk2.mono (h3.2.keeps hd))

end

theorem postOrganizationCollections_safe (hp : p.Grows) :
    p.Safe w (postOrganizationCollections env org data headers) ⊤ := by
  refine Pledge.Safe.of_growing hp (.check ?_)
  refine .bind FullCollectionData.validate_safe fun _ w1 _ _ ⟨hw, hg⟩ => ?_
  subst hw
  refine Pledge.Safe.check <| .getUuid fun hw _ => ?_
  refine .bind (Collection.save_safe_new rfl (Nat.lt_succ_self _) hw.fresh.collections)
    fun _ w2 _ h2 hk => ?_
  refine (assignGroups_safe rfl rfl hk fun g hmem => (hg g hmem).mono (h2.2.keeps rfl)).andThen
    fun _ w3 _ h3 => ?_
  exact assignMembers_safe rfl rfl (hk.mono (h3.2.keeps rfl))

theorem postBulkAccessCollections_safe {data} (hp : p.Grows) :
    p.Safe w (postBulkAccessCollections env org data headers) ⊤ := by
  refine Pledge.Safe.of_growing hp (.check ?_)
  refine .query (.check ?_)
  refine .bind validateGroups_safe fun _ w1 _ _ ⟨hw, hg⟩ => ?_
  subst hw
  refine .each fun id _ w2 _ h2 => Pledge.Safe.found .err fun k hk => ?_
  obtain ⟨hmem, rfl, rfl⟩ := Collection.findByUuidAndOrg_eq_some hk
  refine .query (.check ?_)
  refine .bind (Collection.save_safe ⟨k, hmem, rfl, rfl⟩) fun _ w3 _ h3 hk3 => ?_
  exact reassign_safe rfl rfl hk3
    fun g hgm => ((hg g hgm).mono (h2.2.keeps rfl)).mono (h3.2.keeps rfl)

theorem postOrganizationCollectionUpdate_safe (hp : p.Grows) :
    p.Safe w (postOrganizationCollectionUpdate env org collection data headers) ⊤ := by
  refine Pledge.Safe.of_growing hp (.check ?_)
  refine .bind FullCollectionData.validate_safe fun _ w1 _ _ ⟨hw, hg⟩ => ?_
  subst hw
  refine Pledge.Safe.query (.check <| .query ?_)
  cases hk : Collection.findByUuidAndOrg w1.db collection org with
  | none => exact .err
  | some k =>
    obtain ⟨hmem, rfl, rfl⟩ := Collection.findByUuidAndOrg_eq_some hk
    refine .bind (Collection.save_safe ⟨k, hmem, rfl, rfl⟩) fun _ w2 _ h2 hk2 => ?_
    exact reassign_safe rfl rfl hk2 fun g hgm => (hg g hgm).mono (h2.2.keeps rfl)

theorem deleteOrganizationCollectionImpl_safe (hp : p.Free) :
    p.Safe w (deleteOrganizationCollectionImpl env org headers collection) ⊤ := by
  refine .check <| .found .err fun _ _ => ?_
  exact Collection.delete_safe hp.deletes

theorem bulkDeleteOrganizationCollections_safe (hp : p.Free) :
    p.Safe w (bulkDeleteOrganizationCollections env org ids headers) ⊤ := by
  have hcheck : Quiet (ManagerHeaders.fromLoose headers ids) :=
    .each fun _ _ => .bind .query fun _ => .ensure
  refine .check <| hcheck.safe.seq ?_
  exact .each fun _ _ _ _ _ => deleteOrganizationCollectionImpl_safe hp

/-! ## Items of an organization -/

/-- Every collection an import has collected is one of the organization. -/
theorem importCollections_safe {member existing data} (hp : p.Grows) (hd : p.deletes = false)
    (he : ∀ k ∈ existing, w.db.CollectionIn k.uuid org) :
    p.Safe w (Prog.foldl data [] (importCollection env org member existing)) fun ks w' =>
      ∀ k ∈ ks, w'.db.CollectionIn k org := by
  refine .foldl nofun fun ks d _ w1 _ hr hks => ?_
  have hadd : ∀ {w2 : World} {x : CollectionId}, p.Rel w1 w2 → w2.db.CollectionIn x org →
      ∀ k ∈ ks ++ [x], w2.db.CollectionIn k org := by
    intro w2 x h2 hx k hk
    obtain hk | hk := mem_append.1 hk
    · exact (hks k hk).mono (h2.2.keeps hd)
    · obtain rfl := mem_singleton.1 hk
      exact hx
  unfold importCollection
  cases hfound : d.id.bind fun id => existing.find? fun k => k.uuid = id with
  | some k =>
    obtain ⟨id, -, hfind⟩ := Option.bind_eq_some_iff.1 hfound
    refine Pledge.Safe.query (.check <| .ret ?_)
    exact hadd (p.guarantee.refl _) ((he k (mem_of_find?_eq_some hfind)).mono (hr.2.keeps hd))
  | none =>
    refine Pledge.Safe.check <| .getUuid fun hw _ => ?_
    refine .bind (Collection.save_safe_new hp.inserts (Nat.lt_succ_self _) hw.fresh.collections)
      fun _ w2 _ h2 hx => ?_
    have hnext : p.Rel w1 { w1 with nextUuid := w1.nextUuid + 1 } := ⟨Nat.le_succ _, .refl p w1.db⟩
    exact .ret (hadd (p.guarantee.trans hnext h2) hx)

/-- What is stored under the identifier, if anything, is in the organization. -/
def ImportedInto (org : OrganizationId) (w : World) (c : CipherId) : Prop :=
  c.val < w.nextUuid ∧ ∀ r ∈ w.db.ciphers.rows, r.uuid = c → r.organizationUuid = some org

/-- One cipher of an import; whether it could be stored or not, the others stay as they are. -/
theorem importOrgCipher_safe {me ks cs data} (hp : p.Grows)
    (hks : ∀ k ∈ ks, w.db.CollectionIn k org) (hcs : ∀ c ∈ cs, ImportedInto org w c) :
    p.Safe w (importOrgCipher env org me ks cs data) fun cs w' =>
      (∀ k ∈ ks, w'.db.CollectionIn k org) ∧ ∀ c ∈ cs, ImportedInto org w' c := by
  refine .getUuid fun hw _ => ?_
  let q : Pledge := { p.calm with
    stores := fun r => r.uuid.val = w.nextUuid ∧ r.organizationUuid = some org }
  have hq : q.Le p := { p.calm_le with stores := fun c _ => hp.stores c }
  have hwq : q.Inv w := hq.inv.2 hw
  refine .bind (Pledge.Safe.weaken (Pledge.Safe.catchErr
    (updateCipherFromData_safe_new hwq fun c hu ho => ⟨hu, ho⟩)) hq)
      fun _ w1 _ hr ⟨_, h1⟩ => .ret ⟨?_, ?_⟩
  · exact fun k hk => (hks k hk).mono (h1.2.keeps rfl)
  have hn : w.nextUuid + 1 ≤ w1.nextUuid := h1.1
  intro c hc
  obtain hc | hc := mem_append.1 hc
  · obtain ⟨hlt, hall⟩ := hcs c hc
    refine ⟨by omega, fun r hr hu => ?_⟩
    obtain hr | ⟨hnew, -⟩ := h1.2.ciphers r hr
    · exact hall r hr hu
    · rw [hu] at hnew; omega
  · obtain rfl := mem_singleton.1 hc
    refine ⟨hn, fun r hr hu => ?_⟩
    obtain hr | ⟨-, ho⟩ := h1.2.ciphers r hr
    · have hlt := (hw.fresh.ciphers r hr).1
      rw [hu] at hlt
      exact absurd hlt (Nat.lt_irrefl _)
    · exact ho

theorem postOrgImport_safe {data} (hp : p.Grows) :
    p.Safe w (postOrgImport env org data headers) ⊤ := by
  refine Pledge.Safe.of_growing hp (.check ?_)
  have hg := p.growing_grows
  refine validateCipherData_writes.silent.safe.andThen fun _ w1 _ _ => .query ?_
  refine .bind (importCollections_safe hg rfl fun k hk => ?_) fun ks w2 _ _ hks => ?_
  · obtain ⟨hk, ho⟩ := mem_filter.1 hk
    exact ⟨k, hk, rfl, of_decide_eq_true ho⟩
  refine .bind (.foldl (J := fun cs w' =>
    (∀ k ∈ ks, w'.db.CollectionIn k org) ∧ ∀ c ∈ cs, ImportedInto org w' c)
    ⟨hks, nofun⟩ fun cs d _ w3 _ _ ⟨hks3, hcs3⟩ =>
      importOrgCipher_safe hg hks3 hcs3) fun cs w3 _ _ ⟨hks3, hcs3⟩ => ?_
  -- the links are written when everything else is in place
  let q : Pledge := { p.calm with grants := true }
  have hlinks : q.Safe w3 (Prog.each data.collectionRelationships (importLink env cs ks))
      ⊤ := by
    refine .each fun r _ w4 _ h4 => ?_
    unfold importLink
    split
    · next c k hc hk =>
      refine CollectionCipher.save_safe rfl
        ((hks3 k (mem_of_getElem? hk)).mono (h4.2.keeps rfl)) (.inl fun r hr hu => ?_)
      exact (hcs3 c (mem_of_getElem? hc)).2 r ((h4.2.ciphers r hr).elim id fun h => h.elim) hu
    · exact Pledge.Safe.err
  refine (hlinks.weaken (q := p.growing) { p.growing.calm_le with grants := fun _ => rfl }).andThen
    fun _ _ _ _ => User.updateRevision_writes.silent.safe

/-- Every collection the request names is one of the organization. -/
theorem checkBulkCollections_safe {data me} :
    p.Safe w (checkBulkCollections env data me) fun _ w' =>
      p.calm.Rel w w' ∧ ∀ k ∈ data.collectionIds, w.db.CollectionIn k data.organizationId := by
  have hloop : p.calm.Safe w (checkBulkCollections env data me) fun _ _ =>
      ∀ k ∈ env.walk.order data.collectionIds.dedup, w.db.CollectionIn k data.organizationId := by
    refine .query (Prog.Safe.each_all (fun _ _ _ _ h => h) fun id _ w1 _ _ => ?_)
    split
    · exact Pledge.Safe.err
    · next k hk =>
      refine Pledge.Safe.query (Pledge.Safe.ensure_last fun _ => ?_)
      have hu : k.uuid = id := by simpa using find?_some hk
      obtain ⟨hmem, ho⟩ := mem_filter.1 (mem_of_find?_eq_some hk)
      exact ⟨k, Collection.mem_of_mem_findByUserUuid hmem, hu, of_decide_eq_true ho⟩
  refine (hloop.weaken p.calm_le).mono fun _ w' h => ⟨h.2, fun k hk => ?_⟩
  exact h.1 k ((env.walk.perm _).mem_iff.2 (mem_dedup.2 hk))

theorem postBulkCollections_safe {data me} (hp : p.Grows) :
    p.Safe w (postBulkCollections env data me) ⊤ := by
  refine Pledge.Safe.of_growing hp (.query (.check ?_))
  refine .bind checkBulkCollections_safe fun _ w1 _ _ ⟨h1, hks⟩ => ?_
  refine .each fun x _ w2 _ h2 => Pledge.Safe.query ?_
  cases hc : Cipher.findByUuidAndOrg w2.db x data.organizationId with
  | none => exact .ret trivial
  | some c =>
    obtain ⟨hmem, hp⟩ := mem_of_find? hc
    have hco : c.uuid = x ∧ c.organizationUuid = some data.organizationId := of_decide_eq_true hp
    refine .query ?_
    split
    · let q : Pledge := { p.calm with grants := true }
      have hloop : q.Safe w2 (Prog.each (env.walk.order data.collectionIds.dedup) fun k =>
          if data.removeCollections then CollectionCipher.delete env c.uuid k
          else CollectionCipher.save env c.uuid k) ⊤ := by
        refine .each fun k hk w3 _ h3 => ?_
        split
        · exact CollectionCipher.delete_quiet.safe
        · have hk := hks k (mem_dedup.1 ((env.walk.perm _).mem_iff.1 hk))
          refine CollectionCipher.save_safe rfl
            (((hk.mono (h1.2.keeps rfl)).mono (h2.2.keeps rfl)).mono (h3.2.keeps rfl))
            (.inl fun r hr hu => ?_)
          have hr := (h3.2.ciphers r hr).elim id fun h => h.elim
          rw [eq_of_key hr hmem hu]
          exact hco.2
      exact (hloop.weaken (q := p.growing) { p.growing.calm_le with grants := fun _ => rfl }).forget
    · exact .ret trivial

end VaultServer
