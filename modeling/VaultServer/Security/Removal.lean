import VaultServer.Invariants.Runs
import VaultServer.Effects.Faults

/-!
# Removing an account

`User::delete` empties one table after the other and then deletes the account. There is no
transaction: whatever stops it leaves the tables before it empty. The database stops it when a row
that was not removed still refers to the account. Of the tables that can hold such a row the
purges cover all but one, the requests to log in with a device.
-/

namespace VaultServer

open Lib List Table Prog

variable {env : Env} {w : World}

/-! ## What refers to an account -/

/-- The user is one side of the contact, or is invited to be. -/
def EmergencyAccess.concerns (u : User) (ea : EmergencyAccess) : Bool :=
  ea.grantorUuid = u.uuid ∨ ea.granteeUuid = some u.uuid ∨
    (ea.email = some u.email ∧ ea.status = .invited)

/-- No row of the part refers to the account. -/
def Free (u : User) (w : World) : Part → Prop
  | .sends => ∀ s ∈ w.db.sends.rows, s.userUuid ≠ some u.uuid
  | .emergencyAccess => ∀ ea ∈ w.db.emergencyAccess.rows, ea.concerns u = false
  | .usersOrganizations => ∀ m ∈ w.db.usersOrganizations.rows, m.userUuid ≠ u.uuid
  | .usersCollections => ∀ cu ∈ w.db.usersCollections.rows, cu.userUuid ≠ u.uuid
  | .ciphers => ∀ c ∈ w.db.ciphers.rows, c.userUuid ≠ some u.uuid
  | .favorites => ∀ f ∈ w.db.favorites.rows, f.userUuid ≠ u.uuid
  | .folders => ∀ f ∈ w.db.folders.rows, f.userUuid ≠ u.uuid
  | .devices => ∀ d ∈ w.db.devices.rows, d.userUuid ≠ u.uuid
  | .twofactor => ∀ t ∈ w.db.twofactor.rows, t.userUuid ≠ u.uuid
  | .twofactorIncomplete => ∀ t ∈ w.db.twofactorIncomplete.rows, t.userUuid ≠ u.uuid
  | .authRequests => ∀ a ∈ w.db.authRequests.rows, a.userUuid ≠ u.uuid
  | .ssoUsers => ∀ s ∈ w.db.ssoUsers.rows, s.userUuid ≠ u.uuid
  | .archives => ∀ a ∈ w.db.archives.rows, a.userUuid ≠ u.uuid
  | _ => True

theorem Free.of_same {u w' t} (h : Free u w t) (hs : w.Same w' t) : Free u w' t := by
  -- each part that is spoken about is one table
  cases t <;> first | trivial | exact fun r hr => h r (congrArg (r ∈ Table.rows ·) hs ▸ hr)

/-! ## One row -/

theorem Send.delete_returns {s : Send} : Returns w (s.delete env) fun _ w' =>
      ∀ r ∈ w'.db.sends.rows, r ∈ w.db.sends.rows ∧ ¬ r.uuid = s.uuid := by
  have hrevision : Returns w (s.updateUsersRevision env) ⊤ := by
    unfold Send.updateUsersRevision
    split
    · exact .updateUuidRevision
    · exact .ret trivial
  refine .still Send.updateUsersRevision_writes hrevision fun _ w1 h1 => ?_
  have hfiles : Writes [] (when (s.atype = SendType.file) do
      let _ ← (external "Error deleting files").attempt) :=
    .when (.bind (.attempt .external) fun _ => .ret)
  refine .still hfiles (.when ?_) fun _ w2 h2 => ?_
  · exact .bind Returns.attempt fun _ _ => Prog.Returns.ret trivial
  · exact Returns.execTotal.deleted (·.sends) ((h1 .sends).trans (h2 .sends)) rfl

theorem EmergencyAccess.delete_returns {ea : EmergencyAccess} :
    Returns w (ea.delete env) fun _ w' => ∀ r ∈ w'.db.emergencyAccess.rows,
      r ∈ w.db.emergencyAccess.rows ∧ ¬ r.uuid = ea.uuid := by
  refine Returns.still User.updateUuidRevision_writes Returns.updateUuidRevision fun _ w1 h1 => ?_
  exact Returns.execTotal.deleted (·.emergencyAccess) (h1 .emergencyAccess) rfl

theorem Folder.delete_returns {f : Folder} :
    Returns w (f.delete env) fun _ w' => ∀ r ∈ w'.db.folders.rows,
      r ∈ w.db.folders.rows ∧ ¬ r.uuid = f.uuid := by
  refine .still User.updateUuidRevision_writes Returns.updateUuidRevision fun _ w1 h1 => ?_
  refine Prog.Returns.bind Returns.execTotal fun _ hdb => ?_
  refine Returns.deleted (Returns.execGuarded rfl ?_) (·.folders) ?_ rfl
  · rw [hdb]
    simp [FolderCipher.deleteWhere]
  · rw [hdb]
    exact h1 .folders

theorem Attachment.deleteAllByCipher_returns :
    Returns w (Attachment.deleteAllByCipher c) fun _ w' =>
      ∀ a ∈ w'.db.attachments.rows, a.cipherUuid ≠ c := by
  refine .query ?_
  have hloop : Returns w (each (Attachment.findByCipher w.db c) Attachment.delete) fun _ w' =>
      ∀ r ∈ w'.db.attachments.rows, r ∈ w.db.attachments.rows ∧
        ∀ a ∈ Attachment.findByCipher w.db c, ¬ r.id = a.id := by
    refine .purge (J := ⊤) trivial fun a _ w1 _ => ?_
    refine Prog.Returns.bind Returns.execTotal fun _ hdb => ?_
    refine (Returns.frame (S := []) .external Returns.external).mono fun _ w2 h2 => ⟨trivial, ?_⟩
    intro r hr
    have hsame := h2.2 .attachments not_mem_nil
    rw [show w2.db.attachments = _ from hsame, hdb] at hr
    obtain ⟨hr, hne⟩ := mem_deleteWhere.1 hr
    exact ⟨hr, by simpa using hne⟩
  refine hloop.mono fun _ w' h r hr hc => ?_
  obtain ⟨hmem, hne⟩ := h r hr
  exact hne r (mem_filter.2 ⟨hmem, decide_eq_true hc⟩) rfl

/-- Everything that refers to the cipher is removed before the cipher. -/
theorem Cipher.delete_returns {c : Cipher} :
    Returns w (c.delete env) fun _ w' => ∀ r ∈ w'.db.ciphers.rows,
      r ∈ w.db.ciphers.rows ∧ ¬ r.uuid = c.uuid := by
  have hrevision : Returns w (c.updateUsersRevision env) ⊤ :=
    Returns.query (.each fun _ _ _ => .updateUuidRevision)
  refine .still Cipher.updateUsersRevision_writes hrevision fun _ w1 h1 => ?_
  refine .andThen FolderCipher.deleteWhere_writes Returns.execTotal fun _ w2 h2 s2 => ?_
  refine .andThen CollectionCipher.deleteWhere_writes Returns.execTotal fun _ w3 h3 s3 => ?_
  refine .andThen Attachment.deleteAllByCipher_writes Attachment.deleteAllByCipher_returns ?_
  intro _ w4 h4 s4
  refine Returns.andThen Favorite.deleteWhere_writes Returns.execTotal fun _ w5 h5 s5 => ?_
  have hfolders : w5.db.foldersCiphers = w2.db.foldersCiphers :=
    ((s3 .foldersCiphers (by decide)).trans (s4 .foldersCiphers (by decide))).trans
      (s5 .foldersCiphers (by decide))
  have hlinks : w5.db.ciphersCollections = w3.db.ciphersCollections :=
    (s4 .ciphersCollections (by decide)).trans (s5 .ciphersCollections (by decide))
  have hfiles : w5.db.attachments = w4.db.attachments := s5 .attachments (by decide)
  have hciphers : w5.db.ciphers = w.db.ciphers :=
    ((((h1 .ciphers).trans (s2 .ciphers (by decide))).trans (s3 .ciphers (by decide))).trans
      (s4 .ciphers (by decide))).trans (s5 .ciphers (by decide))
  refine Returns.deleted (Returns.execGuarded rfl ?_) (·.ciphers) hciphers rfl
  · rw [hfolders, hlinks, hfiles, h2, h3, h5]
    simp only [Bool.and_eq_true, all_eq_true, decide_eq_true_eq]
    refine ⟨⟨⟨?_, ?_⟩, fun a ha => h4 a ha⟩, ?_⟩
    · exact fun x hx => by simpa using (mem_deleteWhere.1 hx).2
    · exact fun x hx => by simpa using (mem_deleteWhere.1 hx).2
    · exact fun x hx => by simpa using (mem_deleteWhere.1 hx).2

theorem CollectionUser.deleteAllByUserAndOrg_returns {u o} :
    Returns w (CollectionUser.deleteAllByUserAndOrg u o) fun _ w' =>
      ∀ cu ∈ w'.db.usersCollections.rows, cu ∈ w.db.usersCollections.rows ∧
        ¬ (cu.userUuid = u ∧ ∃ k ∈ w.db.collections.rows, k.uuid = cu.collectionUuid ∧
          k.orgUuid = o) := by
  refine Returns.query ?_
  refine (Prog.Returns.purge (J := ⊤) (T := fun w : World => w.db.usersCollections.rows)
    (D := fun (x : CollectionUser) r => r.userUuid = u ∧ r.collectionUuid = x.collectionUuid)
    trivial ?_).mono fun _ w' h cu hcu => ?_
  · intro x _ w1 _
    exact (Returns.execTotal.deleted (·.usersCollections) rfl rfl).mono fun _ _ h => ⟨trivial, h⟩
  · obtain ⟨hmem, hne⟩ := h cu hcu
    refine ⟨hmem, fun ⟨hu, k, hk, hid, ho⟩ => hne cu ?_ ⟨hu, rfl⟩⟩
    refine mem_map.2 ⟨(cu, k), mem_filter.2 ⟨mem_innerJoin.2 ?_, by simpa using ho⟩, rfl⟩
    exact ⟨cu, mem_filter.2 ⟨hmem, by simpa using hu⟩, k, hk, by simpa using hid, rfl⟩

/-- The assignments in the organization of the membership go with it. -/
theorem Membership.delete_returns {m : Membership} : Returns w (m.delete env) fun _ w' =>
      (∀ r ∈ w'.db.usersOrganizations.rows, r ∈ w.db.usersOrganizations.rows ∧ ¬ r.uuid = m.uuid) ∧
      ∀ cu ∈ w'.db.usersCollections.rows, cu ∈ w.db.usersCollections.rows ∧
        ¬ (cu.userUuid = m.userUuid ∧ ∃ k ∈ w.db.collections.rows, k.uuid = cu.collectionUuid ∧
          k.orgUuid = m.orgUuid) := by
  refine Returns.still User.updateUuidRevision_writes Returns.updateUuidRevision fun _ w1 h1 => ?_
  refine Returns.andThen CollectionUser.deleteAllByUserAndOrg_writes
    CollectionUser.deleteAllByUserAndOrg_returns fun _ w2 h2 s2 => ?_
  have hgroups : Returns w2 (GroupUser.deleteAllByMember env m.uuid) fun _ w' =>
      ∀ gu ∈ w'.db.groupsUsers.rows, gu.usersOrganizationsUuid ≠ m.uuid := by
    refine Prog.Returns.bind (Q := ⊤) (Returns.query ?_) fun _ _ => ?_
    · split
      · exact .updateUuidRevision
      · exact .ret trivial
    · exact (Returns.execTotal.deleted (·.groupsUsers) rfl rfl).mono fun _ _ h r hr => (h r hr).2
  refine Returns.andThen GroupUser.deleteAllByMember_writes hgroups fun _ w3 h3 s3 => ?_
  refine (Returns.execGuarded rfl ?_).mono fun _ w' hdb => ⟨fun r hr => ?_, fun cu hcu => ?_⟩
  · simpa using h3
  · rw [hdb] at hr
    obtain ⟨hr, hne⟩ := mem_deleteWhere.1 hr
    have hsame : w3.db.usersOrganizations = w.db.usersOrganizations :=
      ((h1 .usersOrganizations).trans (s2 .usersOrganizations (by decide))).trans
        (s3 .usersOrganizations (by decide))
    rw [hsame] at hr
    exact ⟨hr, by simpa using hne⟩
  · rw [hdb] at hcu
    have hsame : w3.db.usersCollections = w2.db.usersCollections := s3 .usersCollections (by decide)
    have hrow := h2 cu (hsame ▸ hcu)
    rw [show w1.db.usersCollections = w.db.usersCollections from h1 .usersCollections,
      show w1.db.collections = w.db.collections from h1 .collections] at hrow
    exact hrow

/-! ## All rows of an account -/

section
variable {u : User}

end

/-! ## The account -/

theorem OrgBoundary.of_same (hb : OrgBoundary w.db)
    (h : ∀ t ∈ [Part.usersCollections, .collections, .usersOrganizations, .collectionsGroups,
      .groups, .groupsUsers], w.Same w' t) : OrgBoundary w'.db := by
  have hassigned : w'.db.usersCollections = w.db.usersCollections := h .usersCollections (by decide)
  have hcollections : w'.db.collections = w.db.collections := h .collections (by decide)
  have hmembers : w'.db.usersOrganizations = w.db.usersOrganizations :=
    h .usersOrganizations (by decide)
  have hrights : w'.db.collectionsGroups = w.db.collectionsGroups :=
    h .collectionsGroups (by decide)
  have hgroups : w'.db.groups = w.db.groups := h .groups (by decide)
  have hlinks : w'.db.groupsUsers = w.db.groupsUsers := h .groupsUsers (by decide)
  refine ⟨?_, ?_, ?_⟩
  · rw [hassigned, hcollections, hmembers]
    exact hb.usersCollections
  · rw [hrights, hcollections, hgroups]
    exact hb.collectionsGroups
  · rw [hlinks, hgroups, hmembers]
    exact hb.groupsUsers

/-- How far the removal has come: the parts `T` are free, and the requests to log in are those of
the start. -/
structure Emptied (u : User) (w0 : World) (T : List Part) (w : World) : Prop where
  free : ∀ t ∈ T, Free u w t
  authRequests : w0.Same w .authRequests

theorem Emptied.next {u w0 w'} {S T N : List Part} (h : Emptied u w0 T w)
    (hs : ∀ t, t ∉ S → w.Same w' t) (hS : Part.authRequests ∉ S) (hnew : ∀ t ∈ N, Free u w' t) :
    Emptied u w0 (N ++ T.filter fun t => !S.contains t) w' := by
  refine ⟨fun t ht => ?_, h.authRequests.trans (hs _ hS)⟩
  rcases mem_append.1 ht with ht | ht
  · exact hnew t ht
  · obtain ⟨hT, ht⟩ := mem_filter.1 ht
    exact (h.free t hT).of_same (hs t (by simpa using ht))

/-- The parts that are purged before the account is deleted. -/
def purgedParts : List Part :=
  [.sends, .emergencyAccess, .usersOrganizations, .usersCollections, .ciphers, .favorites, .folders,
    .devices, .twofactor, .twofactorIncomplete]

/-- What is removed along with an account. -/
structure Belongings where
  sends : List Send
  emergencyAccess : List EmergencyAccess
  memberships : List Membership
  ciphers : List Cipher
  favorites : List Favorite
  folders : List Folder
  devices : List Device
  twofactor : List TwoFactor

def User.belongings (u : User) (db : Db) : Belongings where
  sends := db.sends.rows.filter fun s => s.userUuid = some u.uuid
  emergencyAccess := db.emergencyAccess.rows.filter fun ea => ea.concerns u
  memberships := db.usersOrganizations.rows.filter fun m => m.userUuid = u.uuid
  ciphers := db.ciphers.rows.filter fun c => c.userUuid = some u.uuid
  favorites := db.favorites.rows.filter fun f => f.userUuid = u.uuid
  folders := db.folders.rows.filter fun f => f.userUuid = u.uuid
  devices := db.devices.rows.filter fun d => d.userUuid = u.uuid
  twofactor := db.twofactor.rows.filter fun t => t.userUuid = u.uuid

namespace Belongings

def none : Belongings := ⟨[], [], [], [], [], [], [], []⟩

/-- Nothing of the first is missing from the second. -/
structure Kept (b b' : Belongings) : Prop where
  sends : b.sends ⊆ b'.sends
  emergencyAccess : b.emergencyAccess ⊆ b'.emergencyAccess
  memberships : b.memberships ⊆ b'.memberships
  ciphers : b.ciphers ⊆ b'.ciphers
  favorites : b.favorites ⊆ b'.favorites
  folders : b.folders ⊆ b'.folders
  devices : b.devices ⊆ b'.devices
  twofactor : b.twofactor ⊆ b'.twofactor

theorem Kept.refl (b : Belongings) : b.Kept b := by
  constructor <;> exact List.Subset.refl _

end Belongings

/-- An `Err` took nothing away, and after an `Ok` nothing refers to the account. -/
def RemovedOrKept (u : User) (w : World) : Except Failure Unit → World → Prop
  | .error _, w' => (u.belongings w.db).Kept (u.belongings w'.db)
  | .ok (), w' => (∀ t, Free u w' t) ∧ ∀ r ∈ w'.db.users.rows, r.uuid ≠ u.uuid

theorem Emptied.deleted {u w0 w'} (h : Emptied u w0 purgedParts w)
    (hauth : Free u w .authRequests) (hdb : w'.db = { w.db with
      users := w.db.users.deleteWhere fun x => x.uuid = u.uuid
      ssoUsers := w.db.ssoUsers.deleteWhere fun s => s.userUuid = u.uuid
      archives := w.db.archives.deleteWhere fun a => a.userUuid = u.uuid }) :
    RemovedOrKept u w0 (.ok ()) w' := by
  refine ⟨fun t => ?_, fun r hr => ?_⟩
  · by_cases ht : t ∈ .authRequests :: purgedParts
    · have hfree : Free u w t := (mem_cons.1 ht).elim (fun ht => ht ▸ hauth) (h.free t)
      refine hfree.of_same ?_
      cases t <;> first | exact absurd ht (by decide) | (show _ = _; rw [hdb])
    · cases t with
      | ssoUsers =>
        intro s hs
        rw [hdb] at hs
        simpa using (mem_deleteWhere.1 hs).2
      | archives =>
        intro a ha
        rw [hdb] at ha
        simpa using (mem_deleteWhere.1 ha).2
      | _ => trivial
  · rw [hdb] at hr
    simpa using (mem_deleteWhere.1 hr).2

namespace Removal

end Removal

end VaultServer
