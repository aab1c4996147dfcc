import VaultServer.Invariants.Rows

/-!
# Accounts and devices under a pledge

An account row that is written back says about its sessions what the stored row says, and a device
is stored for an account that has one already, for an enabled account, or for one that the request
has created itself.
-/

namespace VaultServer

open Lib List Table Pledge

variable {u : User}

variable {env : Env} {p : Pledge} {w w' : World} {n : Nat} {db db' : Db}

/-! ## Account rows -/

/-- The account is stored, with the sessions the copy shows. -/
def Db.HoldsUser (db : Db) (u : User) : Prop := ∃ r ∈ db.users.rows, r.uuid = u.uuid ∧ RowKept r u

theorem Db.HoldsUser.of_mem (hu : u ∈ db.users.rows) : db.HoldsUser u := ⟨u, hu, rfl, .refl u⟩

theorem Db.HoldsUser.later (h : db.HoldsUser u) (hm : p.Moves db db')
    (hu : p.dropsUsers = false) (hi : p.inserts = false) : db'.HoldsUser u := by
  obtain ⟨r, hr, hru, hk⟩ := h
  obtain ⟨r', hr', hru'⟩ := hm.users hu r hr
  obtain ⟨r0, hr0, hu0, hk0⟩ | ⟨hnew, -⟩ := hm.accounts.users r' hr'
  · obtain rfl := eq_of_key hr0 hr (hu0.trans hru')
    exact ⟨r', hr', hru'.trans hru, hk0.symm.trans hk⟩
  · rw [hi] at hnew; cases hnew

namespace User

theorem saveStmt_eq_some (hs : u.saveStmt db = some db') :
    ∃ hc, db' = { db with users := db.users.put u hc } := by
  obtain ⟨t, ht, hs⟩ := Option.map_eq_some_iff.1 hs
  obtain ⟨hc, rfl⟩ := upsert?_eq_some ht
  exact ⟨hc, hs.symm⟩

theorem put_step (hn : (∀ r ∈ db.users.rows, r.uuid.val < n) → u.uuid.val < n)
    (hk : (∃ r ∈ db.users.rows, r.uuid = u.uuid ∧ RowKept r u) ∨
      (p.inserts = true ∧ p.base ≤ u.uuid.val ∧ u.stampException = none)) :
    p.Step n db { db with users := db.users.put u hc } := by
  refine .of_users (fun hf => forall_putRows hf (hn hf)) ?_ fun _ => ?_
  · exact forall_putRows (fun r hr => .inl ⟨r, hr, rfl, .refl r⟩) hk
  · exact putRows_keeps (fun _ => rfl) fun _ _ h => h.symm

theorem save_safe (hu : w.db.HoldsUser u) :
    p.Safe w (u.save env) fun u' _ => u' = { u with updatedAt := env.now } := by
  refine .check ?_
  refine .bind (Pledge.Safe.exec fun _ db' hs => ?_) fun _ _ _ _ _ => .ret rfl
  obtain ⟨hc, rfl⟩ := saveStmt_eq_some hs
  obtain ⟨r, hr, hru, hk⟩ := hu
  exact put_step (fun hf => hru ▸ hf r hr) (.inl ⟨r, hr, hru, hk⟩)

theorem save_safe_new (hp : p.inserts = true) (hb : p.base ≤ u.uuid.val)
    (hn : u.uuid.val < w.nextUuid) (he : u.stampException = none) :
    p.Safe w (u.save env) fun u' _ => u' = { u with updatedAt := env.now } := by
  refine .check ?_
  refine .bind (Pledge.Safe.exec fun _ db' hs => ?_) fun _ _ _ _ _ => .ret rfl
  obtain ⟨hc, rfl⟩ := saveStmt_eq_some hs
  exact put_step (fun _ => hn) (.inr ⟨hp, hb, he⟩)

/-- What a drawn account is like. -/
theorem fresh_safe {email name} : p.Safe w (User.fresh env email name) fun u w' =>
      u.uuid.val = w.nextUuid ∧ u.uuid.val < w'.nextUuid ∧ u.stampException = none ∧
        u.enabled = true := by
  refine .getUuid fun _ _ => .getUuid fun _ _ => .getUuid fun _ _ => ?_
  refine .ret ⟨rfl, ?_, rfl, rfl⟩
  show w.nextUuid < w.nextUuid + 1 + 1 + 1
  omega

end User

/-! ## Devices -/

def Db.HasDevice (db : Db) (u : UserId) : Prop := ∃ d ∈ db.devices.rows, d.userUuid = u

theorem Db.HasDevice.later {u} (h : db.HasDevice u) (hm : p.Moves db db')
    (hd : p.dropsDevices = false) : db'.HasDevice u := by
  obtain ⟨d, hdev, hdu⟩ := h
  obtain ⟨d', hd', hdu'⟩ := hm.devices hd d hdev
  exact ⟨d', hd', hdu'.trans hdu⟩

/-- A device may be stored for the account. -/
def DeviceAllowed (p : Pledge) (db : Db) (u : UserId) : Prop :=
  db.HasDevice u ∨ (∀ r ∈ db.users.rows, r.uuid = u → r.enabled = true) ∨ p.base ≤ u.val

theorem DeviceAllowed.later {u} (h : DeviceAllowed p db u) (hm : p.Moves db db')
    (hd : p.dropsDevices = false) : DeviceAllowed p db' u := by
  obtain hdev | hon | hb := h
  · exact .inl (hdev.later hm hd)
  · by_cases hb : p.base ≤ u.val
    · exact .inr (.inr hb)
    refine .inr (.inl fun r' hr' hu' => ?_)
    obtain ⟨r, hr, hu, hk⟩ | ⟨-, hnew, -⟩ := hm.accounts.users r' hr'
    · rw [hk.1]; exact hon r hr (hu.trans hu')
    · rw [hu'] at hnew; exact absurd hnew hb
  · exact .inr (.inr hb)

namespace Device

variable {d : Device}

theorem saveStmt_step (hd : DeviceAllowed p db d.userUuid)
    (hs : d.saveStmt db = some db') : p.Step n db db' := by
  obtain ⟨hfk, rfl⟩ := Db.guarded_eq_some hs
  refine .of_devices ?_ ?_
  · intro d' hd'
    rcases mem_upsert.1 hd' with rfl | ⟨hd', -⟩
    · obtain h | hon | hb := hd
      · exact .inl h
      · simp only [Db.hasUser, any_eq_true, decide_eq_true_eq] at hfk
        obtain ⟨r, hr, hu⟩ := hfk
        exact .inr (.inl ⟨r, hr, hu, hon r hr hu⟩)
      · exact .inr (.inr hb)
    · exact .inl ⟨d', hd', rfl⟩
  · intro _ x hx
    obtain ⟨y, hy, hk⟩ := exists_mem_upsert (r := d) hx
    exact ⟨y, hy, congrArg Prod.snd hk⟩

theorem save_safe (hd : DeviceAllowed p w.db d.userUuid) : p.Safe w (d.save env b) fun d' w' =>
      d'.userUuid = d.userUuid ∧ d'.uuid = d.uuid ∧ w'.db.HasDevice d.userUuid := by
  have huser : (if b then { d with updatedAt := env.now } else d).userUuid = d.userUuid ∧
      (if b then { d with updatedAt := env.now } else d).uuid = d.uuid := by
    cases b <;> exact ⟨rfl, rfl⟩
  refine .bind (Pledge.Safe.exec fun _ _ hs => saveStmt_step ?_ hs) fun _ w' _ _ h => ?_
  · rw [huser.1]; exact hd
  · refine .ret ⟨huser.1, huser.2, _, ?_, huser.1⟩
    obtain ⟨-, h⟩ := Db.guarded_eq_some h.1
    rw [h]
    exact mem_upsert.2 (.inl rfl)

theorem deleteAllByUser_safe {u} (hp : p.dropsDevices = true) :
    p.Safe w (deleteAllByUser u) fun _ w' =>
      w'.db = { w.db with devices := w.db.devices.deleteWhere fun d => d.userUuid = u } := by
  refine (Safe.execTotal fun _ => ?_).mono fun _ _ h => h.1
  refine .of_devices (fun d hd => ?_) fun h => ?_
  · exact .inl ⟨d, (mem_deleteWhere.1 hd).1, rfl⟩
  · rw [hp] at h; cases h

theorem rotateStmt_step {uuid user expected new} :
    p.Step n db (rotateStmt env uuid user expected new db) := by
  refine .of_devices (fun d hd => ?_) fun _ d hd => ?_
  · obtain ⟨d0, hd0, rfl⟩ := mem_map.1 hd
    refine .inl ⟨d0, hd0, ?_⟩
    split <;> rfl
  · refine ⟨_, mem_map_of_mem hd, ?_⟩
    split <;> rfl

theorem rotateRefreshTokenIfMatches_safe :
    p.Safe w (d.rotateRefreshTokenIfMatches env expected) fun r _ =>
      ∀ d', r = some d' → d'.userUuid = d.userUuid ∧ d'.uuid = d.uuid := by
  refine .getUuid fun _ _ => Prog.Safe.call ?_ ?_
  · intro hw
    obtain ⟨-, hx⟩ | ⟨db', -, hs, hx⟩ := World.exec_cases
      (fun db => some (rotateStmt env d.uuid d.userUuid expected w.nextUuid db))
      { w with nextUuid := w.nextUuid + 1 }
    · rw [hx]; exact (Pledge.Step.refl p _ _).world _ hw
    · obtain rfl := Option.some.inj hs
      rw [hx]; exact rotateStmt_step.world _ hw
  · split
    · exact .fail
    · split
      · exact .ret fun d' h => by obtain rfl := Option.some.inj h; exact ⟨rfl, rfl⟩
      · exact .ret fun d' h => nomatch h

/-- Every round writes back a device the account has. -/
theorem rotateRefreshTokensByUser_quiet {u} : Quiet (rotateRefreshTokensByUser env u) := by
  refine .of_calm fun p w => Prog.Safe.read (.each fun d hd w1 _ hr => ?_)
  refine Safe.getUuid fun _ _ => ?_
  have hin : d ∈ w.db.devices.rows := (mem_filter.1 hd).1
  have hallowed : DeviceAllowed p.calm w1.db d.userUuid :=
    DeviceAllowed.later (.inl ⟨d, hin, rfl⟩) hr.2 rfl
  refine .andThen (save_safe ?_) fun _ _ _ _ => .ret trivial
  exact hallowed

end Device

namespace User

theorem deleteStmt_step {u} (hp : p.dropsUsers = true) (hs : deleteStmt u db = some db') :
    p.Step n db db' := by
  obtain ⟨-, rfl⟩ := Db.guarded_eq_some hs
  refine .of_accounts ⟨rfl, rfl, rfl, rfl⟩ (.of_same rfl rfl rfl rfl)
    (fun h r hr => h r (mem_deleteWhere.1 hr).1)
    ⟨fun r hr => ?_, fun d hd => .inl ⟨d, hd, rfl⟩⟩ (fun h => ?_) fun _ d hd => ⟨d, hd, rfl⟩
  · exact .inl ⟨r, (mem_deleteWhere.1 hr).1, rfl, .refl r⟩
  · rw [hp] at h; cases h

theorem delete_safe (hp : p.deletes = true) (hu : p.dropsUsers = true)
    (hd : p.dropsDevices = true) : p.Safe w (u.delete env) ⊤ := by
  refine .query (.check ?_)
  refine (Send.deleteAllByUser_writes.quiet rfl).safe.seq ?_
  refine (EmergencyAccess.deleteAllByUser_writes.quiet rfl).safe.seq ?_
  refine (EmergencyAccess.deleteAllByGranteeEmail_writes.quiet rfl).safe.seq ?_
  refine (Membership.deleteAllByUser_safe hp).seq ?_
  refine (Cipher.deleteAllByUser_safe hp).seq ?_
  refine Favorite.deleteAllByUser_quiet.safe.seq ?_
  refine (Folder.deleteAllByUser_writes.quiet rfl).safe.seq ?_
  refine (Device.deleteAllByUser_safe hd).seq ?_
  refine (TwoFactor.deleteAllByUser_writes.quiet rfl).safe.seq ?_
  refine (TwoFactorIncomplete.deleteAllByUser_writes.quiet rfl).safe.seq ?_
  refine (Invitation.take_writes.quiet rfl).safe.seq ?_
  exact (Pledge.Safe.exec fun _ _ hs => deleteStmt_step hu hs).forget

end User

end VaultServer
