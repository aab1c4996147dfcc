import VaultServer.Invariants.Step
import VaultServer.Effects.Requests

/-!
# What the invariants do not notice

The functions that keep every pledge: they write tables no invariant speaks about, they take
assignments or links away, or they bump a revision.
-/

namespace VaultServer

open Lib List Table

variable {p : Pledge} {c : CipherId} {u : UserId} {o : OrganizationId} {k : CollectionId}
  {ea : EmergencyAccess} {w w' : World}

/-! ## Programs that write other tables -/

/-- The parts the invariants speak about. -/
def watchedParts : List Part :=
  [.users, .devices, .usersOrganizations, .collections, .usersCollections, .ciphersCollections,
    .groups, .collectionsGroups, .groupsUsers, .ciphers]

theorem World.Same.kept (h : w.Same w' .users) :
    ∀ r' ∈ w'.db.users.rows, ∃ r ∈ w.db.users.rows, r.uuid = r'.uuid ∧ RowKept r r' := by
  intro r' hr'
  have hmem : { r' with updatedAt := 0 } ∈ w.db.accounts := h ▸ mem_map_of_mem hr'
  obtain ⟨r, hr, hx⟩ := mem_map.1 hmem
  rw [User.mk.injEq] at hx
  exact ⟨r, hr, hx.1, by tauto⟩

theorem World.Same.symm_users (h : w.Same w' .users) : w'.Same w .users := Eq.symm h

theorem Pledge.Step.of_same (h : ∀ t ∈ watchedParts, w.Same w' t) : p.Step n w.db w'.db := by
  have hu : w.Same w' .users := h _ (by decide)
  have hd : w'.db.devices = w.db.devices := h .devices (by decide)
  refine .of_accounts ⟨h .usersOrganizations (by decide), h .collections (by decide),
    h .groups (by decide), h .ciphers (by decide)⟩ (.of_same (h .usersCollections (by decide))
    (h .collectionsGroups (by decide)) (h .groupsUsers (by decide))
    (h .ciphersCollections (by decide))) ?_ ⟨fun r' hr' => .inl (hu.kept r' hr'), ?_⟩ ?_ ?_
  · intro hlt r' hr'
    obtain ⟨r, hr, hx, -⟩ := hu.kept r' hr'
    rw [← hx]
    exact hlt r hr
  · exact fun d hd' => .inl ⟨d, hd ▸ hd', rfl⟩
  · intro _ r hr
    obtain ⟨r', hr', hx, -⟩ := hu.symm_users.kept r hr
    exact ⟨r', hr', hx⟩
  · exact fun _ d hd' => ⟨d, hd ▸ hd', rfl⟩

/-- **A program that writes none of the watched parts keeps every pledge.** -/
theorem Writes.quiet {c : Cmd α} (h : Writes S c)
    (hs : (watchedParts.all fun t => !S.contains t) = true) : Quiet c := by
  have hsame : ∀ w : World, ∀ t ∈ watchedParts, w.Same (c.after w) t := by
    intro w t ht
    refine h.after (fun hmem => ?_) w
    have hno := all_eq_true.1 hs t ht
    rw [contains_iff_mem.2 hmem] at hno
    cases hno
  refine fun p w => .of_after fun hw => ?_
  have hstep : p.Step w.nextUuid w.db (c.after w).db := .of_same (hsame w)
  have hn : w.nextUuid ≤ (c.after w).nextUuid := h.nextUuid_le w
  exact ⟨⟨hstep.boundary hw.boundary, hstep.links hw.links, (hstep.fresh hw.fresh).mono hn,
    Nat.le_trans hw.base hn⟩, hn, hstep.moves⟩

theorem Writes.silent {c : Cmd α} (h : Writes [] c) : Quiet c := h.quiet rfl

/-! ## Accounts -/

/-- Changing other columns of some accounts changes no session. -/
theorem Quiet.updateUsers (hf : ∀ u, RowKept u (f u)) : Quiet (VaultServer.execTotal
      (fun db => { db with users := db.users.updateWhere P f hk hm }) message) := by
  refine .execTotal fun p n db => .of_users ?_ ?_ ?_
  · intro h r hr
    obtain ⟨r0, hr0, rfl⟩ := mem_map.1 hr
    split
    · rw [hk]; exact h r0 hr0
    · exact h r0 hr0
  · intro r hr
    obtain ⟨r0, hr0, rfl⟩ := mem_map.1 hr
    split
    · exact .inl ⟨r0, hr0, (hk r0).symm, hf r0⟩
    · exact .inl ⟨r0, hr0, rfl, .refl r0⟩
  · intro _ r hr
    refine ⟨_, mem_map_of_mem hr, ?_⟩
    split
    · exact hk r
    · rfl

theorem Quiet.updateDevices : Quiet (VaultServer.execTotal
      (fun db => { db with devices := db.devices.updateWhere P f hk hm }) message) := by
  have huser : ∀ d, (f d).userUuid = d.userUuid := fun d => congrArg Prod.snd (hk d)
  refine .execTotal fun p n db => .of_devices ?_ ?_
  · intro d hd
    obtain ⟨d0, hd0, rfl⟩ := mem_map.1 hd
    refine .inl ⟨d0, hd0, ?_⟩
    split
    · exact (huser d0).symm
    · rfl
  · intro _ d hd
    refine ⟨_, mem_map_of_mem hd, ?_⟩
    split
    · exact huser d
    · rfl

variable {env : Env} {g : GroupId}

/-! ## Groups and collections -/

theorem GroupUser.deleteWhere_step : p.Step n db (GroupUser.deleteWhere P db) :=
  .of_quiet ⟨rfl, rfl, rfl, rfl⟩ ⟨rfl, rfl⟩
    { Shrinks.refl db with groupsUsers := fun _ h => (mem_deleteWhere.1 h).1 }

theorem GroupUser.deleteByGroupAndMember_quiet : Quiet (GroupUser.deleteByGroupAndMember env g m) :=
  .bind GroupUser.updateMemberRevision_writes.silent fun _ => .execTotal fun _ _ _ => deleteWhere_step

theorem GroupUser.deleteAllByGroup_quiet : Quiet (GroupUser.deleteAllByGroup env g o) :=
  .bind .query fun _ => .bind (.each fun _ _ => GroupUser.updateMemberRevision_writes.silent) fun _ =>
    .execTotal fun _ _ _ => deleteWhere_step

theorem GroupUser.deleteAllByMember_quiet : Quiet (GroupUser.deleteAllByMember env m) :=
  .bind GroupUser.updateMemberRevision_writes.silent fun _ => .execTotal fun _ _ _ => deleteWhere_step

theorem CollectionGroup.deleteWhere_step : p.Step n db (CollectionGroup.deleteWhere P db) :=
  .of_quiet ⟨rfl, rfl, rfl, rfl⟩ ⟨rfl, rfl⟩
    { Shrinks.refl db with collectionsGroups := fun _ h => (mem_deleteWhere.1 h).1 }

theorem CollectionGroup.deleteAllByGroup_quiet : Quiet (CollectionGroup.deleteAllByGroup env g o) :=
  .bind CollectionGroup.updateGroupRevision_writes.silent fun _ =>
    .execTotal fun _ _ _ => deleteWhere_step

theorem CollectionGroup.deleteAllByCollection_quiet :
    Quiet (CollectionGroup.deleteAllByCollection env k o) :=
  .bind .query fun _ =>
    .bind (.each fun _ _ => CollectionGroup.updateGroupRevision_writes.silent) fun _ =>
      .execTotal fun _ _ _ => deleteWhere_step

theorem CollectionUser.deleteWhere_step : p.Step n db (CollectionUser.deleteWhere P db) :=
  .of_quiet ⟨rfl, rfl, rfl, rfl⟩ ⟨rfl, rfl⟩
    { Shrinks.refl db with usersCollections := fun _ h => (mem_deleteWhere.1 h).1 }

theorem CollectionUser.delete_quiet {cu : CollectionUser} : Quiet (cu.delete env) :=
  .bind User.updateUuidRevision_writes.silent fun _ => .execTotal fun _ _ _ => deleteWhere_step

theorem CollectionUser.deleteAllByCollection_quiet :
    Quiet (CollectionUser.deleteAllByCollection env k) :=
  .bind .query fun _ => .bind (.each fun _ _ => User.updateUuidRevision_writes.silent) fun _ =>
    .execTotal fun _ _ _ => deleteWhere_step

theorem CollectionCipher.deleteWhere_step : p.Step n db (CollectionCipher.deleteWhere P db) :=
  .of_quiet ⟨rfl, rfl, rfl, rfl⟩ ⟨rfl, rfl⟩
    { Shrinks.refl db with ciphersCollections := fun _ h => (mem_deleteWhere.1 h).1 }

theorem CollectionCipher.delete_quiet : Quiet (CollectionCipher.delete env c k) :=
  .bind CollectionCipher.updateUsersRevision_writes.silent fun _ =>
    .execTotal fun _ _ _ => deleteWhere_step

theorem CollectionCipher.deleteAllByCipher_quiet : Quiet (CollectionCipher.deleteAllByCipher c) :=
  .execTotal fun _ _ _ => deleteWhere_step

theorem CollectionCipher.deleteAllByCollection_quiet :
    Quiet (CollectionCipher.deleteAllByCollection k) :=
  .execTotal fun _ _ _ => deleteWhere_step

/-! ## Vault items -/

theorem FolderCipher.deleteAllByCipher_quiet : Quiet (FolderCipher.deleteAllByCipher c) :=
  .execTotal fun _ _ _ => .of_unwatched rfl

theorem Favorite.deleteAllByCipher_quiet : Quiet (Favorite.deleteAllByCipher c) :=
  .execTotal fun _ _ _ => .of_unwatched rfl

theorem Favorite.deleteAllByUser_quiet : Quiet (Favorite.deleteAllByUser u) :=
  .execTotal fun _ _ _ => .of_unwatched rfl

/-! ## Policies, organizations and contacts -/

/-! ## Checks -/

theorem checkEdit_quiet : Quiet (checkEdit headers m t owners) :=
  .bind .ensure fun _ => .bind .ensure fun _ => .ensure

theorem forgetInvitation_quiet : Quiet (forgetInvitation env m) := by
  refine .bind .query fun found => ?_
  cases found with
  | none => exact .ret
  | some =>
    refine .bind .query fun _ => .ite ?_ .ret
    exact .bind (Invitation.take_writes.quiet rfl) fun _ => .ret

end VaultServer
