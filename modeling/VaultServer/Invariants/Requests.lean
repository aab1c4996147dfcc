import VaultServer.Invariants.Groups
import VaultServer.Invariants.Logins

/-!
# Every request under a pledge

What is left of the requests, and then all of them: whatever a request does and however it ends,
the invariants hold afterwards, and the only account whose sessions may have changed is the one the
request is about.
-/

namespace VaultServer

open Lib Pledge

variable {data : RegisterData} {u : UserId} {org : OrganizationId} {headers : Headers}

variable {env : Env} {p : Pledge} {change : Option (UserId × StampChange)} {w w' : World}

/-- A request that is about no account, or does not switch one on. -/
theorem noEnable_of_reset {α : Type} {o : Option α} {f : α → UserId}
    (hc : change = o.map fun a => (f a, .reset)) (u : UserId) : change ≠ some (u, .enable) := by
  intro h
  rw [hc] at h
  obtain ⟨_, -, h⟩ := Option.map_eq_some_iff.1 h
  exact StampChange.noConfusion (Prod.mk.inj h).2

/-! ## Registration -/

theorem decodeJwt_changes {token : Signed α} :
    p.Changes env change w (decodeJwt env token) fun _ w' => w' = w ∧ True := by
  unfold decodeJwt
  split
  · exact .err
  · split
    · exact .err
    · split
      · exact .err
      · exact .ret ⟨rfl, trivial⟩

theorem RegisterData.verifyTokens_changes :
    p.Changes env change w (data.verifyTokens env) fun _ w' => w' = w ∧ True := by
  unfold RegisterData.verifyTokens
  split
  · refine .guard decodeJwt_changes fun _ _ => .check ?_
    exact .ret ⟨rfl, trivial⟩
  · refine .check <| .guard decodeJwt_changes fun _ _ => ?_
    refine .check <| .check ?_
    exact .ret ⟨rfl, trivial⟩
  · refine .guard decodeJwt_changes fun _ _ => .check ?_
    exact .check <| .ret ⟨rfl, trivial⟩
  · exact .err

/-- A row to be filled in: one that is stored, which is then the account of the change, or one that
is not. -/
def Registering (p : Pledge) (change : Option (UserId × StampChange)) (w : World) (u : User) :
    Prop :=
  (w.db.HoldsUser u ∧ change = some (u.uuid, .reset)) ∨
    (p.base ≤ u.uuid.val ∧ u.uuid.val < w.nextUuid ∧ u.stampException = none)

theorem Registering.later {u} (h : Registering p change w u) (hr : p.calm.Rel w w') :
    Registering p change w' u := by
  obtain ⟨hu, hc⟩ | ⟨hb, hn, he⟩ := h
  · exact .inl ⟨hu.later hr.2 rfl rfl, hc⟩
  · exact .inr ⟨hb, Nat.lt_of_lt_of_le hn hr.1, he⟩

theorem Registering.copy {u u'} (h : Registering p change w u) (hid : u'.uuid = u.uuid)
    (hk : RowKept u u') : Registering p change w u' := by
  obtain ⟨hu, hc⟩ | ⟨hb, hn, he⟩ := h
  · exact .inl ⟨hu.copy hid hk, hid ▸ hc⟩
  · exact .inr ⟨hid ▸ hb, hid ▸ hn, hk.2.2.trans he⟩

theorem registrationUser_safe
    (hc : change = (User.findByMail w.db email).map fun u => (u.uuid, .reset)) :
    p.calm.Safe w (registrationUser env data email verified pending) fun r w' =>
      Registering p change w' r.1 := by
  refine Prog.Ends.of_inv fun hw => Safe.loadUser ?_
  cases hfind : User.findByMail w.db email with
  | some user =>
    rw [hfind] at hc
    have hreg : Registering p change w user := .inl ⟨.of_mem (Table.mem_of_find? hfind).1, hc⟩
    refine .check ?_
    split
    · refine decodeJwt_writes.silent.safe.andThen fun _ w1 _ h1 => .check ?_
      exact .ret (hreg.later h1)
    · refine (Invitation.take_writes.quiet rfl).safe.andThen fun taken w1 _ h1 => ?_
      have hreg1 := hreg.later h1
      split
      · refine Membership.acceptUserInvitations_quiet.safe.andThen fun _ w2 _ h2 => ?_
        exact .ret (hreg1.later h2)
      · exact .query (.check <| .ret hreg1)
  | none =>
    refine (Invitation.take_writes.quiet rfl).safe.andThen fun _ w1 hw1 _ => .check ?_
    refine .bind User.fresh_safe fun u w2 _ _ ⟨hu, hlt, he, _⟩ => ?_
    have hb : p.base ≤ u.uuid.val := hu ▸ hw1.base
    exact .ret (.inr ⟨hb, hlt, he⟩)

theorem User.save_registering {u u'} (hp : p.inserts = true) (h : Registering p change w u)
    (hid : u'.uuid = u.uuid) (hm : StampChange.reset.Moves env u u') :
    p.Changes env change w (u'.save env) ⊤ := by
  obtain ⟨hu, hc⟩ | ⟨hb, hn, he⟩ := h
  · exact (User.save_changes hu hid (.inr (.inr ⟨.reset, hc, hm⟩))).mono fun _ _ _ => trivial
  · refine .of_safe (User.save_safe_new hp ?_ ?_ (hm.2.trans he)).forget
    · rw [hid]; exact hb
    · rw [hid]; exact hn

theorem register_changes (hp : p.inserts = true)
    (hc : change = (User.findByMail w.db (toLowercase data.email)).map fun u => (u.uuid, .reset)) :
    p.Changes env change w (register env data verify) ⊤ := by
  have hno := noEnable_of_reset hc
  refine .check ?_
  refine .guard (P := ⊤) ?_ fun a _ => ?_
  · split
    · exact RegisterData.verifyTokens_changes
    · exact .ret ⟨rfl, trivial⟩
  obtain ⟨name, verified, pending⟩ := a
  refine Changes.check <| Changes.check ?_
  refine .after_safe (registrationUser_safe hc) p.calm_le rfl fun b w1 _ _ hreg => ?_
  obtain ⟨user, verified'⟩ := b
  refine .after_quiet (Invitation.take_writes.quiet rfl) fun _ w2 _ h2 => ?_
  refine .after_safe (setKdfData_safe (p := p.calm)) p.calm_le rfl fun u w3 _ h3 ⟨hid, hk⟩ => ?_
  refine .after_safe (User.setPassword_safe (p := p.calm)) p.calm_le rfl ?_
  intro u' w4 _ h4 ⟨hid', he, _, hx⟩
  have hreg4 := (((hreg.later h2).later h3).copy hid hk).later h4
  refine .after_quiet (sendWelcome_writes.quiet rfl) fun _ w5 _ h5 => ?_
  refine Changes.andThen (User.save_registering hp (hreg4.later h5) ?_ ?_) hno
    fun saved w6 _ _ _ => ?_
  · cases data.keys <;> exact hid'
  · cases data.keys <;> exact ⟨he, hx⟩
  · refine Quiet.safe (.ite (.bind .query fun _ => .each fun _ _ => ?_) .ret)
    exact .bind (.attempt (EmergencyAccess.acceptInvite_writes.quiet rfl)) fun _ => .ret

/-! ## Recovery and emergency access -/

theorem recoverAccount_changes {m request headers}
    (hc : change = (Membership.findByUuidAndOrg w.db m org).map fun m => (m.userUuid, .reset)) :
    p.Changes env change w (recoverAccount env org m request headers) ⊤ := by
  refine .check <| .query (.check <| .query ?_)
  cases hm : Membership.findByUuidAndOrg w.db m org with
  | none => exact .err
  | some =>
    rw [hm] at hc
    refine .found .err fun user hu => ?_
    obtain ⟨humem, huid⟩ := User.findByUuid_eq_some hu
    have hc : change = some (user.uuid, .reset) := by rw [hc, huid]; rfl
    refine .after_quiet checkResetPasswordApplicableAndPermissions_writes.silent fun _ w1 _ h1 => ?_
    refine .check <| .check <| .after_quiet .external fun _ w2 _ h2 => ?_
    have hu2 := ((Db.HoldsUser.of_mem humem).later h1.2 rfl rfl).later h2.2 rfl rfl
    refine User.resetPassword_changes hu2 hc fun u' w3 hu3 hid hm => ?_
    exact (User.save_changes hu3 hid hm).discard

namespace Emergency

theorem grantee_safe (hp : p.inserts = true) : p.Safe w (grantee env email) ⊤ := by
  refine .query ?_
  split
  · exact .ret trivial
  · refine .check <| .check ?_
    refine (Quiet.when (Invitation.save_writes.quiet rfl)).safe.seq ?_
    exact (createUser_safe hp).seq <| .ret trivial

theorem sendInvite_safe {data} (hp : p.inserts = true) :
    p.Safe w (sendInvite env data headers) ⊤ := by
  refine .check ?_
  dsimp only
  split
  · exact .err
  · refine .check <| (grantee_safe hp).andThen fun a _ _ _ => ?_
    obtain ⟨contact, isNew⟩ := a
    refine .query (.check <| .getUuid fun _ _ => ?_)
    refine (EmergencyAccess.save_writes.quiet rfl).safe.seq <| Quiet.safe ?_
    exact .ite .external (.ite (EmergencyAccess.acceptInvite_writes.quiet rfl) .ret)

theorem passwordEmergencyAccess_changes {id : Nat} {data} (hp : p.Free)
    (hc : change = (EmergencyAccess.findByUuidAndGranteeUuid w.db id headers.user.uuid).map
      fun ea => (ea.grantorUuid, .reset)) :
    p.Changes env change w (passwordEmergencyAccess env id data headers) ⊤ := by
  have hno := noEnable_of_reset hc
  refine .check <| .found .err fun ea hea => ?_
  rw [show EmergencyAccess.findByUuidAndGranteeUuid w.db id _ = some ea from hea] at hc
  refine .check <| .found .err fun grantor hu => ?_
  obtain ⟨humem, huid⟩ := User.findByUuid_eq_some hu
  have hc : change = some (grantor.uuid, .reset) := by rw [hc, huid]; rfl
  refine User.resetPassword_changes (.of_mem humem) hc fun u' w1 hu1 hid hm => ?_
  refine .andThen (User.save_changes hu1 hid hm) hno fun _ w2 _ _ _ => ?_
  refine (TwoFactor.deleteAllByUser_writes.quiet rfl).safe.andThen fun _ w3 _ _ => .query ?_
  refine Membership.deleteEach_safe hp.deletes (fun m hm => .of_mem (List.mem_filter.1 hm).1) ?_
  intro q w' m hq hm
  split
  · exact Membership.delete_safe hq hm
  · exact .ret trivial

end Emergency

theorem EmergencyRequest.handle_changes (hp : p.Free) (hf : headers.Found env w caller)
    (hc : change = (Request.emergency caller request).change w.db) :
    p.Changes env change w (request.handle env headers) ⊤ := by
  cases request with
  | sendInvite => exact .of_safe (Emergency.sendInvite_safe hp.inserts)
  | resendInvite => exact .of_safe (Emergency.resendInvite_writes.quiet rfl).safe
  | acceptInvite => exact .of_safe (Emergency.acceptInvite_writes.quiet rfl).safe
  | passwordEmergencyAccess =>
    refine Emergency.passwordEmergencyAccess_changes hp ?_
    rw [hf.sub]; exact hc
  | _ => exact .of_safe (EmergencyRequest.handle_writes.quiet rfl).safe

/-! ## The admin page -/

namespace Admin

/-- The account must be there; nothing is written yet. -/
theorem getUserOr404_changes : p.Changes env change w (getUserOr404 u) fun user w' =>
      w' = w ∧ user ∈ w.db.users.rows ∧ user.uuid = u := by
  refine .found .err fun user hu => ?_
  exact .ret ⟨rfl, User.findByUuid_eq_some hu⟩

theorem unregisterPushDevices_quiet : Quiet (unregisterPushDevices env u) :=
  .ite (.bind .query fun _ => .each fun _ _ => .bind (.attempt .external) fun _ => .ret) .ret

theorem inviteUser_safe (hp : p.inserts = true) : p.Safe w (inviteUser env email) ⊤ := by
  refine Prog.Ends.of_inv fun hw => Pledge.Safe.query (.check ?_)
  refine .bind User.fresh_safe fun u w1 _ _ ⟨hu, hlt, he, _⟩ => ?_
  have hb : p.base ≤ u.uuid.val := hu ▸ hw.base
  refine Safe.andThen (Quiet.safe (.ite .external (Invitation.save_writes.quiet rfl)))
    fun _ w2 _ h2 => ?_
  refine (User.save_safe_new hp hb (Nat.lt_of_lt_of_le hlt h2.1) he).seq ?_
  exact .ret trivial

theorem deauthUser_changes (hp : p.dropsDevices = true) (hc : change = some (u, .reset)) :
    p.Changes env change w (deauthUser env u) ⊤ := by
  refine .guard getUserOr404_changes fun user ⟨hu, hid⟩ => ?_
  rw [← hid] at hc
  refine .after_quiet unregisterPushDevices_quiet fun _ w1 _ h1 => ?_
  let q : Pledge := { p.calm with dropsDevices := true }
  have hq : q.Le p := { p.calm_le with dropsDevices := fun _ => hp }
  refine .after_safe (q := q) (Device.deleteAllByUser_safe rfl) hq rfl fun _ w2 _ h2 _ => ?_
  have hu2 := ((Db.HoldsUser.of_mem hu).later h1.2 rfl rfl).later h2.2 rfl rfl
  refine .after_safe (User.resetSecurityStamp_safe (p := p.calm)) p.calm_le rfl ?_
  intro user' w3 _ h3 ⟨hid', hm⟩
  exact (User.save_changes (hu2.later h3.2 rfl rfl) hid' (.inr (.inr ⟨.reset, hc, hm⟩))).discard

theorem disableUser_changes (hp : p.dropsDevices = true) (hc : change = some (u, .disable)) :
    p.Changes env change w (disableUser env u) fun _ w' =>
      (∃ r ∈ w'.db.users.rows, r.uuid = u ∧ r.enabled = false) ∧ ¬ w'.db.HasDevice u := by
  refine .guard getUserOr404_changes fun user ⟨hu, hid⟩ => ?_
  rw [← hid] at hc ⊢
  refine .after_safe (User.resetSecurityStamp_safe (p := p.calm)) p.calm_le rfl ?_
  intro user' w1 _ h1 ⟨hid', _, hx⟩
  have hu1 := (Db.HoldsUser.of_mem hu).later h1.2 rfl rfl
  have hsave : p.Changes env change w1 (User.save env { user' with enabled := false }) _ :=
    User.save_changes hu1 hid' (.inr (.inr ⟨.disable, hc, rfl, hx⟩))
  refine hsave.catchErr.andThen ?_ fun saved w2 _ _ hsaved => ?_
  · rw [hc]; exact fun _ h => nomatch h
  · refine .bind (Device.deleteAllByUser_safe hp) fun _ w3 _ _ hdb => ?_
    refine Safe.lift fun row hrow => .ret ?_
    rw [hdb]
    refine ⟨⟨_, hsaved row hrow, hid', rfl⟩, fun ⟨d, hd, hdu⟩ => ?_⟩
    have hd := (Table.mem_deleteWhere.1 hd).2
    rw [hid'] at hd
    exact of_decide_eq_false hd hdu

theorem enableUser_changes (hc : change = some (u, .enable)) :
    p.Changes env change w (enableUser env u) ⊤ := by
  refine .guard getUserOr404_changes fun user ⟨hu, hid⟩ => ?_
  rw [← hid] at hc
  refine (User.save_changes (.of_mem hu) ?_ (.inr (.inr ⟨.enable, hc, ?_, ?_⟩))).discard
  · rfl
  · rfl
  · rfl

theorem remove2fa_changes : p.Changes env change w (remove2fa env u) ⊤ := by
  refine Changes.guard getUserOr404_changes fun user ⟨hu, hid⟩ => .of_safe ?_
  refine .bind (TwoFactor.deleteAllByUser_writes.quiet rfl).calm fun _ w1 _ _ h1 => ?_
  refine .bind enforce2faPolicy_quiet.calm fun _ w2 _ _ h2 => ?_
  have hu2 := ((Db.HoldsUser.of_mem hu).later h1.2 rfl rfl).later h2.2 rfl rfl
  refine Safe.andThen (User.save_safe ?_) fun _ _ _ _ => .ret trivial
  exact hu2.copy rfl ⟨rfl, rfl, rfl⟩

theorem updateMembershipType_safe {data} : p.Safe w (updateMembershipType env data) ⊤ := by
  refine .found .err fun m hm => ?_
  obtain ⟨hmem, -⟩ := Membership.findByUserAndOrg_eq_some hm
  dsimp only
  split
  · exact .err
  · refine .query (.check ?_)
    refine .bind (OrgPolicy.checkUserAllowed_writes.quiet rfl).calm fun _ w1 _ _ h1 => ?_
    exact Membership.save_safe ((Db.MembershipOf.of_mem hmem).mono (h1.2.keeps rfl))

theorem updateRevisionUsers_quiet : Quiet (updateRevisionUsers env) :=
  .updateUsers fun _ => ⟨rfl, rfl, rfl⟩

end Admin

theorem AdminRequest.handle_changes (hp : p.Free)
    (hc : change = (Request.admin request).change w.db) :
    p.Changes env change w (request.handle env) ⊤ := by
  cases request with
  | inviteUser => exact .of_safe (Admin.inviteUser_safe hp.inserts)
  | deleteUser =>
    exact .guard Admin.getUserOr404_changes fun _ _ =>
      .of_safe (User.delete_safe hp.deletes hp.dropsUsers hp.dropsDevices)
  | deleteSsoUser => exact .of_safe (SsoUser.delete_writes.quiet rfl).safe
  | deauthUser => exact Admin.deauthUser_changes hp.dropsDevices hc
  | disableUser =>
    exact (Admin.disableUser_changes hp.dropsDevices hc).mono fun _ _ _ => trivial
  | enableUser => exact Admin.enableUser_changes hc
  | remove2fa => exact Admin.remove2fa_changes
  | updateMembershipType => exact .of_safe Admin.updateMembershipType_safe
  | updateRevisionUsers => exact .of_safe Admin.updateRevisionUsers_quiet.safe
  | deleteOrganization =>
    refine .of_safe (.query ?_)
    split
    · exact .err
    · exact Organization.delete_safe hp.deletes

/-! ## Vaults and organizations -/

/-- The requests that link a cipher to collections before it is in their organization. -/
def VaultRequest.linksFirst : VaultRequest → Bool
  | postCipherShare .. | putCipherShareSelected _ | postCiphersCreate _ => true
  | _ => false

theorem VaultRequest.handle_safe {request : VaultRequest} (hp : p.Free)
    (hx : request.linksFirst = true → ∀ c o, p.exempt c o) :
    p.Safe w (request.handle env user) ⊤ := by
  cases request with
  | postCipherShare c =>
    exact (shareCipherByUuid_safe hp.grants (fun c _ _ => hp.stores c)
      fun o _ _ => .inr (hx rfl _ o)).forget
  | putCipherShareSelected => exact putCipherShareSelected_safe hp.toGrows (hx rfl)
  | postCiphersCreate => exact postCiphersCreate_safe hp fun o _ _ => hx rfl _ o
  | postCiphers => exact postCiphers_safe hp.toGrows
  | postCiphersImport => exact postCiphersImport_safe hp.toGrows
  | putCipher => exact putCipher_safe hp.toGrows
  | putCipherPartial => exact (putCipherPartial_writes.quiet rfl).safe
  | postCollectionsUpdate => exact updateCollections_safe hp.toGrows
  | postCollectionsAdmin => exact updateCollections_safe hp.toGrows
  | deleteCipher => exact deleteCipherByUuid_safe hp
  | deleteMultipleCiphers =>
    exact .each fun _ _ _ _ _ => deleteCipherByUuid_safe hp
  | restoreCipher => exact restoreCipherByUuid_safe hp.toGrows
  | restoreMultipleCiphers =>
    exact .each fun _ _ _ _ _ => restoreCipherByUuid_safe hp.toGrows
  | moveCipherSelected => exact moveCipherSelected_quiet.safe
  | setArchived => exact (setArchived_writes.quiet rfl).safe
  | purgeOrgVault => exact purgeOrgVault_safe hp
  | purgePersonalVault => exact purgePersonalVault_safe hp
  | postBulkCollections => exact postBulkCollections_safe hp.toGrows
  | _ => exact ((handle_attachments rfl).quiet rfl).safe

theorem OrgRequest.handle_changes {caller headers request} (hp : p.Free) (hf : headers.Found w org)
    (hc : change = (Request.organization caller org request).change w.db) :
    p.Changes env change w (request.handle env org headers) ⊤ := by
  cases request with
  | recoverAccount => exact recoverAccount_changes hc
  | deleteOrganization => exact .of_safe (deleteOrganization_safe hp)
  | leaveOrganization => exact .of_safe (leaveOrganization_safe hp hf.membership)
  | postOrganization => exact .of_safe (postOrganization_writes.quiet rfl).safe
  | postOrganizationCollections =>
    exact .of_safe (postOrganizationCollections_safe hp.toGrows)
  | postBulkAccessCollections => exact .of_safe (postBulkAccessCollections_safe hp.toGrows)
  | postOrganizationCollectionUpdate =>
    exact .of_safe (postOrganizationCollectionUpdate_safe hp.toGrows)
  | deleteOrganizationCollection => exact .of_safe (deleteOrganizationCollectionImpl_safe hp)
  | bulkDeleteOrganizationCollections =>
    exact .of_safe (bulkDeleteOrganizationCollections_safe hp)
  | postOrgImport => exact .of_safe (postOrgImport_safe hp.toGrows)
  | sendInvite => exact .of_safe (sendInvite_safe hp)
  | reinviteMember => exact .of_safe (.check <| reinviteMemberImpl_safe)
  | bulkReinviteMembers =>
    exact .of_safe (.check <| forAll_safe fun _ _ _ => reinviteMemberImpl_safe)
  | confirmInvite => exact .of_safe confirmInviteImpl_safe
  | bulkConfirmInvite =>
    refine .of_safe (.check <| forAll_safe fun k _ w => ?_)
    split
    · exact .fail
    · exact confirmInviteImpl_safe
  | editMember => exact .of_safe (editMember_safe hp.toGrows)
  | deleteMember => exact .of_safe (deleteMemberImpl_safe hp)
  | bulkDeleteMember =>
    exact .of_safe (.check <| forAll_safe fun _ _ _ => deleteMemberImpl_safe hp)
  | revokeMember => exact .of_safe revokeMemberImpl_safe
  | bulkRevokeMembers =>
    exact .of_safe (.check <| forAll_safe fun _ _ _ => revokeMemberImpl_safe)
  | restoreMember => exact .of_safe restoreMemberImpl_safe
  | bulkRestoreMembers =>
    exact .of_safe (.check <| forAll_safe fun _ _ _ => restoreMemberImpl_safe)
  | putResetPasswordEnrollment =>
    exact .of_safe (putResetPasswordEnrollment_safe hf.membership)
  | postGroups => exact .of_safe (postGroups_safe hp.toGrows)
  | putGroup => exact .of_safe (putGroup_safe hp.toGrows)
  | deleteGroup => exact .of_safe (deleteGroupImpl_safe hp)
  | bulkDeleteGroups =>
    exact .of_safe (.check <| .ensure fun _ =>
      Prog.Safe.each fun _ _ _ _ _ => deleteGroupImpl_safe hp)
  | putGroupMembers => exact .of_safe (putGroupMembers_safe hp.toGrows)
  | postDeleteGroupMember => exact .of_safe postDeleteGroupMember_quiet.safe
  | putPolicy => exact .of_safe putPolicy_safe
  | apiKey => exact .of_safe (apiKey_writes.quiet rfl).safe

/-! ## The rest, and all of them -/

theorem OpenRequest.handle_changes (hp : p.Free)
    (hc : change = (Request.anyone request).change w.db) :
    p.Changes env change w (request.handle env) ⊤ := by
  cases request with
  | register => exact register_changes hp.inserts hc
  | postVerifyEmailToken => exact .of_safe postVerifyEmailToken_safe
  | postDeleteRecoverToken => exact .of_safe (postDeleteRecoverToken_safe hp)
  | putClearDeviceToken => exact .of_safe putClearDeviceToken_quiet.safe
  | _ => exact .of_safe (OpenRequest.handle_writes.quiet rfl).safe

theorem Job.handle_quiet {task : Job} : Quiet (task.handle env) := by
  cases task <;> exact Job.handle_writes.quiet rfl

def Request.linksFirst : Request → Bool
  | vault _ request => request.linksFirst
  | _ => false

/-- **A request keeps the invariants, changes the sessions of no account but the one it is about,
and answers with a session only for an account that has a device.** -/
theorem Request.serve_changes {request : Request} (hp : p.Free)
    (hx : request.linksFirst = true → ∀ c o, p.exempt c o) :
    p.Changes env (request.change w.db) w (request.serve env) fun r w' =>
      ∀ a, r = some a → a.Backed w'.db := by
  cases request with
  | vault =>
    refine .guard Headers.fromRequest_changes fun headers _ => ?_
    exact (Changes.of_safe (VaultRequest.handle_safe hp hx)).answer fun _ _ _ _ h => nomatch h
  | organization =>
    refine .guard OrgRequest.guard_changes fun headers hf => ?_
    exact (OrgRequest.handle_changes hp hf rfl).answer fun _ _ _ _ h => nomatch h
  | account =>
    refine .guard Headers.fromRequest_changes fun headers hf => ?_
    exact (AccountRequest.handle_changes hp hf rfl).answer fun _ _ _ _ h => nomatch h
  | twoFactor =>
    refine .guard Headers.fromRequest_changes fun headers hf => ?_
    exact (Changes.of_safe (TwoFactorRequest.handle_holding p w (.of_mem hf.user))).answer
      fun _ _ _ _ h => nomatch h
  | emergency =>
    refine .guard Headers.fromRequest_changes fun headers hf => ?_
    exact (EmergencyRequest.handle_changes hp hf rfl).answer fun _ _ _ _ h => nomatch h
  | send =>
    refine .guard Headers.fromRequest_changes fun headers _ => ?_
    exact (Changes.of_safe (SendRequest.handle_writes.quiet rfl).safe).answer
      fun _ _ _ _ h => nomatch h
  | admin => exact (AdminRequest.handle_changes hp rfl).answer fun _ _ _ _ h => nomatch h
  | directory =>
    refine .after_quiet PublicToken.fromRequest_writes.silent fun org w1 _ _ => ?_
    exact (Changes.of_safe (ldapImport_safe hp)).answer fun _ _ _ _ h => nomatch h
  | login grantType data ip =>
    let q : Pledge := { p.calm with inserts := true }
    have hq : q.Le p := { p.calm_le with inserts := fun _ => hp.inserts }
    have h : p.Safe w (VaultServer.login env grantType data ip) fun r w' => r.Backed w'.db :=
      (Safe.weaken (p := q) (login_safe rfl rfl) hq).mono fun _ _ h => h.1
    refine (Changes.of_safe h).answer fun r w' hr a ha => ?_
    rw [← Option.some.inj ha]; exact hr
  | anyone => exact (OpenRequest.handle_changes hp rfl).answer fun _ _ _ _ h => nomatch h
  | job =>
    exact (Changes.of_safe Job.handle_quiet.safe).answer fun _ _ _ _ h => nomatch h

end VaultServer
