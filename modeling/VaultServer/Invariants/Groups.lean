import VaultServer.Invariants.Members

/-!
# Group, policy and directory requests under a pledge
-/

namespace VaultServer

open Lib List Pledge Prog

variable {env : Env} {p : Pledge} {w w' : World} {org : OrganizationId} {headers : OrgHeaders}

/-! ## Groups -/

theorem GroupRequest.validate_safe {r : GroupRequest} :
    p.Safe w (r.validate org) fun _ w' => w' = w ∧
      (∀ c ∈ r.collections, w.db.CollectionIn c.id org) ∧
      ∀ m ∈ r.users, w.db.MembershipIn m org := by
  refine .query (.ensure fun hks => ?_)
  refine .query (.ensure_last fun hms => ⟨rfl, fun c hc => ?_, fun m hm => ?_⟩)
  · obtain ⟨k, hk, hu⟩ := any_eq_true.1 (all_eq_true.1 hks c hc)
    obtain ⟨hk, ho⟩ := mem_filter.1 hk
    exact ⟨k, hk, of_decide_eq_true hu, of_decide_eq_true ho⟩
  · obtain ⟨x, hx, hu⟩ := any_eq_true.1 (all_eq_true.1 hms m hm)
    obtain ⟨hx, ho⟩ := mem_filter.1 hx
    exact ⟨x, hx, of_decide_eq_true hu, of_decide_eq_true ho⟩

section
variable {g : Group} {collections : List CollectionRights} {members : List MembershipId}
  (hp : p.grants = true) (hd : p.deletes = false)
  (hc : ∀ c ∈ collections, w.db.CollectionIn c.id g.organizationsUuid)
  (hm : ∀ m ∈ members, w.db.MembershipIn m g.organizationsUuid)
include hp hd hc hm

/-- The group is stored first; its collections and members were checked by the caller. -/
theorem addUpdateGroup_safe
    (hsave : p.Safe w g.save fun _ w' => w'.db.GroupIn g.uuid g.organizationsUuid) :
    p.Safe w (addUpdateGroup env g collections members org) ⊤ := by
  refine .bind hsave fun _ w1 _ h1 hg => ?_
  refine Safe.andThen (.each fun c hmem w2 _ h2 => ?_) fun _ w2 _ h2 => ?_
  · exact CollectionGroup.save_safe hp
      (((hc c hmem).mono (h1.2.keeps hd)).mono (h2.2.keeps hd)) (hg.mono (h2.2.keeps hd))
  · refine .each fun m hmem w3 _ h3 => ?_
    exact GroupUser.save_safe hp ((hg.mono (h2.2.keeps hd)).mono (h3.2.keeps hd))
      ((((hm m hmem).mono (h1.2.keeps hd)).mono (h2.2.keeps hd)).mono (h3.2.keeps hd))

end

theorem postGroups_safe {request} (hp : p.Grows) :
    p.Safe w (postGroups env org request headers) ⊤ := by
  refine Safe.of_growing hp (.check <| .check ?_)
  refine .bind GroupRequest.validate_safe fun _ w1 _ _ ⟨hw, hc, hm⟩ => ?_
  subst hw
  refine Safe.getUuid fun hw _ => addUpdateGroup_safe rfl rfl hc hm ?_
  exact Group.save_safe_new rfl (Nat.lt_succ_self _) hw.fresh.groups

theorem putGroup_safe {id request} (hp : p.Grows) :
    p.Safe w (putGroup env org id request headers) ⊤ := by
  refine .of_growing hp (.check <| .check ?_)
  refine .found .err fun g hg => ?_
  obtain ⟨hmem, rfl, rfl⟩ := Group.findByUuidAndOrg_eq_some hg
  have hin : w.db.GroupIn g.uuid g.organizationsUuid := ⟨g, hmem, rfl, rfl⟩
  refine .bind GroupRequest.validate_safe fun _ w1 _ _ ⟨hw, hc, hm⟩ => ?_
  subst hw
  refine CollectionGroup.deleteAllByGroup_quiet.safe.andThen fun _ w2 _ h2 => ?_
  refine GroupUser.deleteAllByGroup_quiet.safe.andThen fun _ w3 _ h3 => ?_
  refine addUpdateGroup_safe rfl rfl
    (fun c hcm => ((hc c hcm).mono (h2.2.keeps rfl)).mono (h3.2.keeps rfl))
    (fun m hmm => ((hm m hmm).mono (h2.2.keeps rfl)).mono (h3.2.keeps rfl)) ?_
  exact Group.save_safe ((hin.mono (h2.2.keeps rfl)).mono (h3.2.keeps rfl))

theorem deleteGroupImpl_safe {id} (hp : p.Free) :
    p.Safe w (deleteGroupImpl env org headers id) ⊤ := by
  refine .check <| .check <| .found .err fun _ _ => ?_
  exact Group.delete_safe hp.deletes

theorem putGroupMembers_safe {id members} (hp : p.Grows) :
    p.Safe w (putGroupMembers env org id members headers) ⊤ := by
  refine .of_growing hp (.check <| .check ?_)
  refine .query (.ensure fun hsome => ?_)
  obtain ⟨g, hg⟩ := Option.isSome_iff_exists.1 hsome
  obtain ⟨hmem, hu, ho⟩ := Group.findByUuidAndOrg_eq_some hg
  have hin : w.db.GroupIn id org := ⟨g, hmem, hu, ho⟩
  refine .query (.ensure fun hall => ?_)
  refine GroupUser.deleteAllByGroup_quiet.safe.andThen fun _ w1 _ h1 => ?_
  refine .each fun m hm w2 _ h2 => ?_
  obtain ⟨x, hx, hxu⟩ := any_eq_true.1 (all_eq_true.1 hall m hm)
  obtain ⟨hx, hxo⟩ := mem_filter.1 hx
  have hmi : w.db.MembershipIn m org := ⟨x, hx, of_decide_eq_true hxu, of_decide_eq_true hxo⟩
  exact GroupUser.save_safe rfl ((hin.mono (h1.2.keeps rfl)).mono (h2.2.keeps rfl))
    ((hmi.mono (h1.2.keeps rfl)).mono (h2.2.keeps rfl))

theorem postDeleteGroupMember_quiet {id member} :
    Quiet (postDeleteGroupMember env org id member headers) :=
  .bind .ensure fun _ => .bind .ensure fun _ => .bind .query fun _ => .bind .ensure fun _ =>
    .bind .query fun _ => .bind .ensure fun _ => GroupUser.deleteByGroupAndMember_quiet

/-! ## Policies -/

theorem revokeForPolicy_safe (hm : w.db.MembershipOf m.uuid m.userUuid m.orgUuid) :
    p.Safe w (revokeForPolicy env m) ⊤ := by
  have hmail : Quiet (when env.mailEnabled do
      let _ ← unwrap (← query (Organization.findByUuid · m.orgUuid))
      let _ ← unwrap (← query (User.findByUuid · m.userUuid))
      external "mail") :=
    .when (.bind .query fun _ => .bind .unwrap fun _ => .bind .query fun _ =>
      .bind .unwrap fun _ => .external)
  refine .bind hmail.calm fun _ w1 _ _ h1 => ?_
  exact Membership.save_safe_of_sameRow (hm.mono (h1.2.keeps rfl)) Membership.sameRow_revoke_getD

/-- A loop over loaded memberships that saves some of them. -/
theorem saveEach_safe (hm : ∀ m ∈ ms, m ∈ w.db.usersOrganizations.rows)
    (hf : ∀ (q : Pledge) w' m, w'.db.MembershipOf m.uuid m.userUuid m.orgUuid →
      q.Safe w' (f m) ⊤) : p.Safe w (each ms f) ⊤ := by
  have h : p.calm.Safe w (each ms f) ⊤ :=
    Prog.Safe.each fun m hmem w' _ hr =>
      hf _ w' m ((Db.MembershipOf.of_mem (hm m hmem)).mono (hr.2.keeps rfl))
  exact (h.weaken p.calm_le).forget

theorem enforce2faPolicyForOrg_safe : p.Safe w (enforce2faPolicyForOrg env org) ⊤ := by
  refine .query (.unwrap fun _ _ => .query ?_)
  refine saveEach_safe (fun m hm => (mem_filter.1 hm).1) fun q w' m hm => ?_
  exact .query (.when fun _ => revokeForPolicy_safe hm)

theorem enforceSingleOrgPolicy_safe : p.Safe w (enforceSingleOrgPolicy env org) ⊤ := by
  refine .query ?_
  refine saveEach_safe (fun m hm => (mem_filter.1 hm).1) fun q w' m hm => ?_
  exact .query (.when fun _ => revokeForPolicy_safe hm)

theorem checkPolicyDependency_quiet : Quiet (checkPolicyDependency env org t b) :=
  .bind .query fun _ => .bind .query fun _ => .bind .ensure fun _ => .ensure

theorem putPolicy_safe : p.Safe w (putPolicy env org t data headers) ⊤ := by
  refine .check ?_
  cases OrgPolicyType.fromI32 t with
  | none => exact .err
  | some =>
    refine checkPolicyDependency_quiet.safe.seq ?_
    refine (Safe.when fun _ => enforce2faPolicyForOrg_safe).seq ?_
    refine (Safe.when fun _ => enforceSingleOrgPolicy_safe).seq ?_
    refine .query ?_
    split
    · exact (OrgPolicy.save_writes.quiet rfl).safe
    · exact .getUuid fun _ _ => (OrgPolicy.save_writes.quiet rfl).safe

/-! ## Directory import -/

theorem importRevoke_safe (hm : m ∈ w.db.usersOrganizations.rows) :
    p.Safe w (importRevoke env org externalId m) ⊤ := by
  refine .query (.when fun _ => ?_)
  refine Membership.save_safe_of_sameRow (.of_mem hm) (.trans ?_ Membership.sameRow_setExternalId_getD)
  split
  · exact .refl m
  · exact Membership.sameRow_revoke_getD

theorem importRestore_safe (hm : m ∈ w.db.usersOrganizations.rows) :
    p.Safe w (importRestore env externalId m) ⊤ := by
  have hof : w.db.MembershipOf m.uuid m.userUuid m.orgUuid := .of_mem hm
  have hrow : m.SameRow (((m.restore.getD m).setExternalId (some externalId)).getD
      (m.restore.getD m)) :=
    Membership.sameRow_restore_getD.trans Membership.sameRow_setExternalId_getD
  show p.Safe w (if m.restore.isSome then _ else _) _
  split
  · refine .bind (Quiet.catchErr (OrgPolicy.checkUserAllowed_writes.quiet rfl)).calm
      fun r w1 _ _ h1 => ?_
    have hof1 := hof.mono (h1.2.keeps rfl)
    cases r with
    | ok => exact Membership.save_safe_of_sameRow hof1 hrow
    | error =>
      exact Safe.when fun _ => Membership.save_safe_of_sameRow hof1
        (hrow.trans Membership.sameRow_revoke_getD)
  · exact .when fun _ => Membership.save_safe_of_sameRow hof hrow

theorem importUser_safe (hp : p.inserts = true) : p.Safe w (importUser env email) ⊤ := by
  refine .query ?_
  split
  · exact .ret trivial
  · refine (createUser_safe hp).seq ?_
    exact (Quiet.when (Invitation.save_writes.quiet rfl)).safe.seq <| .ret trivial

theorem importNewMember_safe (hp : p.Free) : p.Safe w (importNewMember env org data) ⊤ := by
  refine (importUser_safe hp.inserts).andThen fun a w1 _ _ => ?_
  obtain ⟨user, created⟩ := a
  refine .found .err fun o _ => ?_
  refine .getUuid fun hw _ => ?_
  have hrow := Membership.sameRow_setExternalId_getD
    (m := Membership.new w1.nextUuid user.uuid org (some o.billingEmail))
    (x := some data.externalId)
  have hid := congrArg MembershipId.val hrow.1
  exact .bind (Membership.save_safe_new hp.inserts (hid ▸ Nat.lt_succ_self _)
    (hid ▸ hw.fresh.members))
    fun _ w2 _ _ ⟨hmem, _⟩ => Safe.when fun _ => (mailInvite_safe hp hmem).forget

theorem importMember_safe (hp : p.Free) : p.Safe w (importMember env org data) ⊤ := by
  refine .query ?_
  cases hm : Membership.findByEmailAndOrg w.db data.email org with
  | some =>
    obtain ⟨u, -, hm⟩ := Option.bind_eq_some_iff.1 hm
    obtain ⟨hmem, -⟩ := Membership.findByUserAndOrg_eq_some hm
    show p.Safe w (if data.deleted then _ else _) _
    split
    · exact importRevoke_safe hmem
    · exact importRestore_safe hmem
  | none =>
    show p.Safe w (if data.deleted then _ else _) _
    split
    · exact .ret trivial
    · exact importNewMember_safe hp

theorem importGroupUuid_safe (hp : p.inserts = true) :
    p.Safe w (importGroupUuid org data) fun g w' => w'.db.GroupIn g org := by
  refine .query ?_
  cases hg : Group.findByExternalIdAndOrg w.db data.externalId org with
  | some g =>
    obtain ⟨hmem, hp⟩ := Table.mem_of_find? hg
    have hp : g.externalId = some data.externalId ∧ g.organizationsUuid = org := of_decide_eq_true hp
    exact .ret ⟨g, hmem, rfl, hp.2⟩
  | none =>
    refine .getUuid fun hw _ => ?_
    exact .bind (Group.save_safe_new hp (Nat.lt_succ_self _) hw.fresh.groups)
      fun _ _ _ _ h => .ret h

theorem importGroup_safe (hp : p.Grows) : p.Safe w (importGroup env org data) ⊤ := by
  refine Safe.of_growing hp ?_
  refine .bind (importGroupUuid_safe rfl) fun g w1 _ _ hg => ?_
  refine GroupUser.deleteAllByGroup_quiet.safe.andThen fun _ w2 _ h2 => ?_
  refine .each fun x _ w3 _ h3 => Safe.query ?_
  cases hm : Membership.findByExternalIdAndOrg w3.db x org with
  | none => exact .ret trivial
  | some m =>
    obtain ⟨hmem, hp⟩ := Table.mem_of_find? hm
    have hp : m.externalId = some x ∧ m.orgUuid = org := of_decide_eq_true hp
    exact GroupUser.save_safe rfl ((hg.mono (h2.2.keeps rfl)).mono (h3.2.keeps rfl))
      ⟨m, hmem, rfl, hp.2⟩

theorem ldapImport_safe (hp : p.Free) : p.Safe w (ldapImport env org data) ⊤ := by
  refine .andThen (.each fun _ _ _ _ _ => importMember_safe hp) fun _ _ _ _ => ?_
  refine .andThen (.when fun _ => .each fun _ _ _ _ _ =>
    importGroup_safe hp.toGrows) fun _ _ _ _ => ?_
  refine .when fun _ => .query ?_
  refine Membership.deleteEach_safe hp.deletes (fun m hm => .of_mem (mem_filter.1 hm).1)
    fun q w' m hq hm => .when fun _ => .query ?_
  split
  · exact .ret trivial
  · exact Membership.delete_safe hq hm

end VaultServer
