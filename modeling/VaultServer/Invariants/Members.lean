import VaultServer.Invariants.Organizations

/-!
# Member, group and directory requests under a pledge

An invitation stores the membership before it hands out collections and groups; a mail that cannot
be sent takes the membership away again.
-/

namespace VaultServer

open Lib Pledge Prog

variable {m : Membership} {data : InviteData}

variable {env : Env} {p : Pledge} {w w' : World} {org : OrganizationId} {headers : OrgHeaders}

/-! ## Inviting -/

theorem createUser_safe (hp : p.inserts = true) :
    p.Safe w (createUser env email) fun u _ => p.base ≤ u.uuid.val ∧ u.enabled = true := by
  refine Prog.Ends.of_inv fun hw => ?_
  refine Prog.Safe.bind User.fresh_safe fun u w1 _ _ ⟨hu, hlt, he, hon⟩ => ?_
  have hb : p.base ≤ u.uuid.val := hu ▸ hw.base
  refine (User.save_safe_new hp hb hlt he).mono fun u' _ h => ?_
  rw [h]
  exact ⟨hb, hon⟩

theorem invitedUser_safe (hp : p.inserts = true) : p.Safe w (invitedUser env org email) ⊤ := by
  refine .query ?_
  split
  · refine .check <| .check ?_
    refine (Quiet.when (Invitation.save_writes.quiet rfl)).safe.seq ?_
    exact (createUser_safe hp).seq <| .ret trivial
  · refine .query (.check ?_)
    split
    · exact .ret trivial
    · split
      · exact (Invitation.save_writes.quiet rfl).safe.seq <| .ret trivial
      · exact .ret trivial

theorem grantCollection_safe (hp : p.grants = true) (hm : w.db.IsMember u org) :
    p.Safe w (grantCollection env org u col) ⊤ := by
  refine .found .err fun k hk => ?_
  obtain ⟨hmem, -, ho⟩ := Collection.findByUuidAndOrg_eq_some hk
  exact CollectionUser.save_safe hp ⟨k, hmem, rfl, ho⟩ hm

theorem joinGroup_safe {m g} (hp : p.grants = true) (hm : w.db.MembershipIn m org) :
    p.Safe w (joinGroup env org m g) ⊤ := by
  refine .query (.ensure fun hsome => ?_)
  obtain ⟨x, hx⟩ := Option.isSome_iff_exists.1 hsome
  obtain ⟨hmem, hu, ho⟩ := Group.findByUuidAndOrg_eq_some hx
  exact GroupUser.save_safe hp ⟨x, hmem, hu, ho⟩ hm

/-- When it returns, the mail has been sent and nothing was taken away. -/
theorem mailInvite_safe (hp : p.Free) (hm : m ∈ w.db.usersOrganizations.rows) :
    p.Safe w (mailInvite env user m created) fun _ w' => p.calm.Rel w w' := by
  refine .bind (Quiet.catchErr .external).calm fun r w1 _ _ h₁ => ?_
  cases r with
  | ok => exact .ret h₁
  | error =>
    refine Safe.andThen (Q := ⊤) ?_ fun _ _ _ _ => .err
    split
    · exact User.delete_safe hp.deletes hp.dropsUsers hp.dropsDevices
    · exact Membership.delete_safe hp.deletes
        ((Membership.Placed.of_mem hm).later (h₁.2.stable rfl))

theorem welcomeMember_safe
    (hp : p.Free) (hmem : m ∈ w.db.usersOrganizations.rows) (hu : m.userUuid = user.uuid)
    (ho : m.orgUuid = org) : p.Safe w (welcomeMember env org data user m created) ⊤ := by
  subst ho
  have hmail : p.Safe w (when env.mailEnabled do
      let found ← query (Organization.findByUuid · m.orgUuid)
      ensure found.isSome "Error looking up organization"
      mailInvite env user m created) fun _ w' => p.calm.Rel w w' := by
    cases env.mailEnabled with
    | false => exact .ret (p.calm.guarantee.refl w)
    | true => exact .query (.check <| mailInvite_safe hp hmem)
  refine .bind hmail fun _ w1 _ _ h₁ => ?_
  -- from here on the membership stays
  have hof := (Db.MembershipOf.of_mem hmem).mono (h₁.2.keeps rfl)
  rw [hu] at hof
  let q : Pledge := { p.calm with grants := true }
  have hq : q.Le p := { p.calm_le with grants := fun _ => hp.grants }
  have hgrants : q.Safe w1 (when (!m.accessAll)
      (each (data.collections.getD []) (grantCollection env m.orgUuid user.uuid)))
      ⊤ :=
    Safe.when fun _ => .each fun _ _ _ _ hr =>
      grantCollection_safe rfl (hof.mono (hr.2.keeps rfl)).isMember
  refine .bind (hgrants.weaken hq) fun _ w2 _ _ ⟨_, h₂⟩ => ?_
  have hgroups : q.Safe w2 (each data.groups (joinGroup env m.orgUuid m.uuid))
      ⊤ :=
    Prog.Safe.each fun _ _ _ _ hr =>
      joinGroup_safe rfl ((hof.mono (h₂.2.keeps rfl)).mono (hr.2.keeps rfl)).membershipIn
  exact (hgroups.weaken hq).forget

theorem inviteOne_safe (hp : p.Free) :
    p.Safe w (inviteOne env org data newType accessAll invitedBy created email) ⊤ := by
  refine (invitedUser_safe hp.inserts).andThen fun a w1 _ _ => ?_
  obtain ⟨user, status, new⟩ := a
  refine .getUuid fun hw _ => ?_
  refine .bind (Membership.save_safe_new hp.inserts (Nat.lt_succ_self _) hw.fresh.members)
    fun _ w2 _ _ ⟨hmem, _⟩ => ?_
  exact (welcomeMember_safe hp hmem rfl rfl).seq <| .ret trivial

theorem InviteData.validate_quiet : Quiet (data.validate org) :=
  .bind .query fun _ => .bind .ensure fun _ => .bind .query fun _ => .ensure

theorem sendInvite_safe (hp : p.Free) : p.Safe w (sendInvite env org data headers) ⊤ := by
  refine .check <| InviteData.validate_quiet.safe.seq ?_
  cases MembershipType.fromStr data.type with
  | none => exact .err
  | some =>
    refine .check <| .andThen
      (.foldl (J := ⊤) trivial fun _ _ _ _ _ _ _ => inviteOne_safe hp)
      fun _ _ _ _ => .ret trivial

/-! ## Changing a membership -/

/-- A bulk request goes on after an error. -/
theorem forAll_safe {ids} {f : α → Cmd Unit} (h : ∀ x ∈ ids, ∀ w, p.Safe w (f x) ⊤) :
    p.Safe w (forAll ids f) ⊤ :=
  Prog.Safe.each fun x hx w' _ _ =>
    (Safe.catchErr (h x hx w')).seq <| .ret trivial

theorem reinviteMemberImpl_safe {id} : p.Safe w (reinviteMemberImpl env org id) ⊤ := by
  refine .found .err fun m hm => ?_
  obtain ⟨hmem, -, -⟩ := Membership.findByUuidAndOrg_eq_some hm
  refine .check <| .found .err fun _ _ => ?_
  refine .check <| .query (.check ?_)
  split
  · exact .external
  · split
    · exact (Invitation.save_writes.quiet rfl).safe
    · refine .bind (Invitation.take_writes.quiet rfl).calm fun _ w1 _ _ h₁ => ?_
      exact Membership.save_safe ((Db.MembershipOf.of_mem hmem).mono (h₁.2.keeps rfl))

theorem acceptOrgInvite_safe (hm : w.db.MembershipOf m.uuid m.userUuid m.orgUuid) :
    p.Safe w (acceptOrgInvite env m key) ⊤ := by
  refine .check ?_
  refine .bind (OrgPolicy.checkUserAllowed_writes.quiet rfl).calm fun _ w1 _ _ h₁ => ?_
  refine Safe.andThen (Membership.save_safe (hm.mono (h₁.2.keeps rfl))) fun _ _ _ _ => ?_
  exact (Quiet.when (.bind .query fun _ => .bind .ensure fun _ => .external)).safe

theorem acceptInvite_safe : p.Safe w (acceptInvite env org member token key user) ⊤ := by
  refine decodeJwt_writes.silent.safe.andThen fun claims w1 _ _ => ?_
  refine .check <| .check <| .check ?_
  refine (Invitation.take_writes.quiet rfl).safe.andThen fun _ w2 _ _ => ?_
  cases claims.memberId with
  | none => exact (Quiet.when .external).safe
  | some =>
    refine .found .err fun m hm => ?_
    obtain ⟨hmem, -, -⟩ := Membership.findByUuidAndOrg_eq_some hm
    exact .query (.check <| acceptOrgInvite_safe ⟨m, hmem, rfl, rfl, rfl⟩)

theorem confirmInviteImpl_safe {id key} :
    p.Safe w (confirmInviteImpl env org headers id key) ⊤ := by
  refine .check <| .check <| .found .err fun m hm => ?_
  obtain ⟨hmem, -, -⟩ := Membership.findByUuidAndOrg_eq_some hm
  refine .check <| .check ?_
  refine .bind (OrgPolicy.checkUserAllowed_writes.quiet rfl).calm fun _ w1 _ _ h₁ => ?_
  refine .bind (Quiet.when (.bind .query fun _ => .bind .ensure fun _ =>
    .bind .query fun _ => .bind .ensure fun _ => .external)).calm fun _ w2 _ _ h₂ => ?_
  exact Membership.save_safe
    (((Db.MembershipOf.of_mem hmem).mono (h₁.2.keeps rfl)).mono (h₂.2.keeps rfl))

theorem editMember_safe {id data} (hp : p.Grows) :
    p.Safe w (editMember env org id data headers) ⊤ := by
  refine Safe.of_growing hp (.check ?_)
  cases MembershipType.fromStr data.type with
  | none => exact .err
  | some =>
    refine .found .err fun m hm => ?_
    obtain ⟨hmem, rfl, rfl⟩ := Membership.findByUuidAndOrg_eq_some hm
    have hof : w.db.MembershipOf m.uuid m.userUuid m.orgUuid := .of_mem hmem
    refine .query ?_
    refine checkEdit_quiet.safe.andThen fun _ w1 _ h₁ => ?_
    refine (OrgPolicy.checkUserAllowed_writes.quiet rfl).safe.andThen fun _ w2 _ h₂ => .query ?_
    refine (Quiet.each fun _ _ => CollectionUser.delete_quiet).safe.andThen fun _ w3 _ h₃ => ?_
    have hof3 := ((hof.mono (h₁.2.keeps rfl)).mono (h₂.2.keeps rfl)).mono (h₃.2.keeps rfl)
    refine .andThen (.when fun _ => .each fun _ _ _ _ hr =>
      grantCollection_safe rfl (hof3.mono (hr.2.keeps rfl)).isMember) fun _ w4 _ h4 => ?_
    refine GroupUser.deleteAllByMember_quiet.safe.andThen fun _ w5 _ h5 => ?_
    have hof5 := (hof3.mono (h4.2.keeps rfl)).mono (h5.2.keeps rfl)
    refine .andThen (.each fun _ _ _ _ hr =>
      joinGroup_safe rfl (hof5.mono (hr.2.keeps rfl)).membershipIn) fun _ w6 _ h6 => ?_
    exact Membership.save_safe (hof5.mono (h6.2.keeps rfl))

theorem deleteMemberImpl_safe {id} (hp : p.Free) :
    p.Safe w (deleteMemberImpl env org headers id) ⊤ := by
  refine .check <| .found .err fun m hm => ?_
  obtain ⟨hmem, -, -⟩ := Membership.findByUuidAndOrg_eq_some hm
  refine .check <| .query (.check ?_)
  refine .bind forgetInvitation_quiet.calm fun _ w1 _ _ h₁ => ?_
  exact Membership.delete_safe hp.deletes ((Membership.Placed.of_mem hmem).later (h₁.2.stable rfl))

/-- A changed copy of the same membership. -/
def Membership.SameRow (m m' : Membership) : Prop :=
  m'.uuid = m.uuid ∧ m'.userUuid = m.userUuid ∧ m'.orgUuid = m.orgUuid

theorem Membership.SameRow.refl (m : Membership) : m.SameRow m := ⟨rfl, rfl, rfl⟩

theorem Membership.SameRow.trans {a b c : Membership} (h : a.SameRow b) (h' : b.SameRow c) :
    a.SameRow c :=
  ⟨h'.1.trans h.1, h'.2.1.trans h.2.1, h'.2.2.trans h.2.2⟩

theorem Membership.sameRow_of_revoke (h : m.revoke = some m') : m.SameRow m' := by
  unfold Membership.revoke at h
  split at h
  · obtain rfl := Option.some.inj h
    exact ⟨rfl, rfl, rfl⟩
  · cases h

theorem Membership.sameRow_revoke_getD : m.SameRow (m.revoke.getD m) := by
  cases h : m.revoke with
  | none => exact .refl m
  | some => exact Membership.sameRow_of_revoke h

theorem Membership.sameRow_restore_getD : m.SameRow (m.restore.getD m) := by
  unfold Membership.restore
  split <;> exact ⟨rfl, rfl, rfl⟩

theorem Membership.sameRow_setExternalId_getD : m.SameRow ((m.setExternalId x).getD m) := by
  unfold Membership.setExternalId
  split <;> exact ⟨rfl, rfl, rfl⟩

theorem Membership.save_safe_of_sameRow
    (hm : w.db.MembershipOf m.uuid m.userUuid m.orgUuid) (h : m.SameRow m') :
    p.Safe w (m'.save env) ⊤ := by
  obtain ⟨h1, h2, h3⟩ := h
  exact Membership.save_safe (by rw [h1, h2, h3]; exact hm)

theorem revokeMemberImpl_safe {id} : p.Safe w (revokeMemberImpl env org headers id) ⊤ := by
  refine .check <| .found .err fun m hm => ?_
  obtain ⟨hmem, -, -⟩ := Membership.findByUuidAndOrg_eq_some hm
  dsimp only
  cases hr : m.revoke with
  | none => exact .err
  | some =>
    refine .check <| .check <| .query ?_
    exact .ensure fun _ =>
      Membership.save_safe_of_sameRow (.of_mem hmem) (Membership.sameRow_of_revoke hr)

theorem restoreMemberImpl_safe {id} : p.Safe w (restoreMemberImpl env org headers id) ⊤ := by
  refine .check <| .found .err fun m hm => ?_
  obtain ⟨hmem, -, -⟩ := Membership.findByUuidAndOrg_eq_some hm
  refine .check <| .check <| .check ?_
  refine .bind (OrgPolicy.checkUserAllowed_writes.quiet rfl).calm fun _ w1 _ _ h₁ => ?_
  exact Membership.save_safe_of_sameRow ((Db.MembershipOf.of_mem hmem).mono (h₁.2.keeps rfl))
    Membership.sameRow_restore_getD

theorem putResetPasswordEnrollment_safe (hm : headers.membership ∈ w.db.usersOrganizations.rows) :
    p.Safe w (putResetPasswordEnrollment env org userId request headers) ⊤ := by
  refine .check ?_
  refine .bind checkResetPasswordApplicable_writes.silent.calm fun _ w1 _ _ h₁ => ?_
  refine .bind (Quiet.ite (.bind .query fun _ => .ensure)
    (PasswordOrOtpData.validate_writes.quiet rfl)).calm fun _ w2 _ _ h₂ => ?_
  exact Membership.save_safe (((Db.MembershipOf.of_mem hm).mono (h₁.2.keeps rfl)).mono (h₂.2.keeps rfl))

end VaultServer
