import VaultServer.Access.SelfGrant
import VaultServer.Access.Entry
import VaultServer.Effects.Invariant
import VaultServer.Security.Removal

/-!
# Who writes to the shared data of an organization

An account whose membership is not confirmed should not be able to write to the collections, the
ciphers, the files and the links of the organization. The requests check this in different ways:
the update of a cipher and the bulk requests look for a confirmed membership, the import asks for a
membership that is not revoked, and everything else asks whether the cipher is write accessible,
which reads the assignments and no status.

`Shielded` is the invariant: as long as no cipher of the organization is write accessible, each
call of the requests leaves what the organization shares as it was.
-/

namespace VaultServer

open Lib Access List Table

variable {c : Cipher} {cfg : Config} {a : Attachment} {cols : Option (List CollectionId)}
  {data : UploadData} {headers : OrgHeaders}

/-! ## Shared data -/

/-- A link that ends in the organization. -/
def Db.LinkOf (db : Db) (cc : CollectionCipher) (org : OrganizationId) : Prop :=
  db.CipherIn cc.cipherUuid org ∨ db.CollectionIn cc.collectionUuid org

/-- The collections, ciphers, files and links of the organization are the same rows. -/
structure SharedKept (db : Db) (org : OrganizationId) (db' : Db) : Prop where
  collections : ∀ k : Collection, k.orgUuid = org →
    (k ∈ db'.collections.rows ↔ k ∈ db.collections.rows)
  ciphers : ∀ c : Cipher, c.organizationUuid = some org →
    (c ∈ db'.ciphers.rows ↔ c ∈ db.ciphers.rows)
  attachments : ∀ a : Attachment, (a ∈ db'.attachments.rows ∧ db'.CipherIn a.cipherUuid org) ↔
    (a ∈ db.attachments.rows ∧ db.CipherIn a.cipherUuid org)
  links : ∀ cc : CollectionCipher, (cc ∈ db'.ciphersCollections.rows ∧ db'.LinkOf cc org) ↔
    (cc ∈ db.ciphersCollections.rows ∧ db.LinkOf cc org)

/-- The cipher is the organization's, or is linked to one of its collections. -/
def Db.Shares (db : Db) (org : OrganizationId) (id : CipherId) : Prop :=
  db.CipherIn id org ∨
    ∃ cc ∈ db.ciphersCollections.rows, cc.cipherUuid = id ∧ db.CollectionIn cc.collectionUuid org

/-- The tables that write access is read from, besides the ciphers and their links. -/
def rightParts : List Part :=
  [.usersOrganizations, .usersCollections, .groups, .collectionsGroups, .groupsUsers]

/-- The rows of the protected ciphers are the ones from before, and nothing has come in. -/
structure Shielded (w0 : World) (org : OrganizationId) (w : World) : Prop where
  collections : Table.KeptOn (fun k => k.orgUuid = org) w0.db.collections w.db.collections
  ciphers : Table.KeptOn (fun c => w0.db.Shares org c.uuid) w0.db.ciphers w.db.ciphers
  attachments : Table.KeptOn (fun a => w0.db.Shares org a.cipherUuid) w0.db.attachments
    w.db.attachments
  links : Table.KeptOn (fun cc => w0.db.Shares org cc.cipherUuid) w0.db.ciphersCollections
    w.db.ciphersCollections
  entered : ∀ c ∈ w.db.ciphers.rows, c.organizationUuid = some org → w0.db.Shares org c.uuid
  linked : ∀ cc ∈ w.db.ciphersCollections.rows, w0.db.CollectionIn cc.collectionUuid org →
    w0.db.Shares org cc.cipherUuid
  rights : ∀ t ∈ rightParts, w0.Same w t
  later : w0.nextUuid ≤ w.nextUuid

section
variable {w0 w w' : World} {org : OrganizationId} {env : Env} {u : UserId}

theorem Shielded.refl : Shielded w org w where
  collections := .refl
  ciphers := .refl
  attachments := .refl
  links := .refl
  entered c hc ho := .inl ⟨c, hc, rfl, ho⟩
  linked cc hcc hk := .inr ⟨cc, hcc, rfl, hk⟩
  rights t _ := .refl w t
  later := Nat.le_refl _

theorem Shielded.collectionIn (h : Shielded w0 org w) :
    w.db.CollectionIn k org ↔ w0.db.CollectionIn k org := by
  constructor
  · rintro ⟨r, hr, hid, ho⟩
    exact ⟨r, (h.collections r ho).1 hr, hid, ho⟩
  · rintro ⟨r, hr, hid, ho⟩
    exact ⟨r, (h.collections r ho).2 hr, hid, ho⟩

theorem Shielded.cipherIn (h : Shielded w0 org w) {c} :
    w.db.CipherIn c org ↔ w0.db.CipherIn c org := by
  constructor
  · rintro ⟨r, hr, hid, ho⟩
    exact ⟨r, (h.ciphers r (h.entered r hr ho)).1 hr, hid, ho⟩
  · rintro ⟨r, hr, hid, ho⟩
    exact ⟨r, (h.ciphers r (.inl ⟨r, hr, rfl, ho⟩)).2 hr, hid, ho⟩

/-- **What the invariant is for.** -/
theorem Shielded.sharedKept (h : Shielded w0 org w) : SharedKept w0.db org w.db where
  collections := h.collections
  ciphers c ho := by
    constructor
    · exact fun hc => (h.ciphers c (h.entered c hc ho)).1 hc
    · exact fun hc => (h.ciphers c (.inl ⟨c, hc, rfl, ho⟩)).2 hc
  attachments a := by
    rw [h.cipherIn]
    exact and_congr_left fun hin => h.attachments a (.inl hin)
  links cc := by
    unfold Db.LinkOf
    rw [h.cipherIn, h.collectionIn]
    constructor
    · rintro ⟨hcc, hin | hin⟩
      · exact ⟨(h.links cc (.inl hin)).1 hcc, .inl hin⟩
      · exact ⟨(h.links cc (h.linked cc hcc hin)).1 hcc, .inr hin⟩
    · rintro ⟨hcc, hin | hin⟩
      · exact ⟨(h.links cc (.inl hin)).2 hcc, .inl hin⟩
      · exact ⟨(h.links cc (.inr ⟨cc, hcc, rfl, hin⟩)).2 hcc, .inr hin⟩

def shielded (w0 : World) (org : OrganizationId) : PartInvariant where
  parts := [.collections, .ciphers, .attachments, .ciphersCollections] ++ rightParts
  holds := Shielded w0 org
  of_same {w w'} h hle hw := by
    have hk : w'.db.collections = w.db.collections := h .collections (by decide)
    have hc : w'.db.ciphers = w.db.ciphers := h .ciphers (by decide)
    have ha : w'.db.attachments = w.db.attachments := h .attachments (by decide)
    have hl : w'.db.ciphersCollections = w.db.ciphersCollections := h .ciphersCollections (by decide)
    refine ⟨?_, ?_, ?_, ?_, ?_, ?_, fun t ht => (hw.rights t ht).trans (h t ?_), ?_⟩
    · rw [hk]; exact hw.collections
    · rw [hc]; exact hw.ciphers
    · rw [ha]; exact hw.attachments
    · rw [hl]; exact hw.links
    · rw [hc]; exact hw.entered
    · rw [hl]; exact hw.linked
    · exact mem_append_right _ ht
    · exact Nat.le_trans hw.later hle

/-- A statement on the protected tables leaves the rights alone. -/
theorem Shielded.sameRights (h : Shielded w0 org w) :
    ∀ t ∈ rightParts, w0.Same { w with db := { w.db with
      collections := ks
      ciphers := cs
      attachments := as
      ciphersCollections := ls } } t := by
  intro t ht
  refine (h.rights t ht).trans ?_
  cases t <;> first | rfl | exact absurd ht (by decide)

/-! ## Write access -/

/-- Write access is decided by the rows on the links of the cipher. -/
theorem Cipher.isWriteAccessibleToUser_congr
    (h : ∀ t ∈ rightParts, w.Same w' t) (hc : c ∈ w.db.ciphers.rows) (hc' : c ∈ w'.db.ciphers.rows)
    (hl : ∀ k, Linked w'.db c k ↔ Linked w.db c k) :
    c.isWriteAccessibleToUser cfg w'.db u = c.isWriteAccessibleToUser cfg w.db u := by
  have hm : w'.db.usersOrganizations = w.db.usersOrganizations := h .usersOrganizations (by decide)
  have hcu : w'.db.usersCollections = w.db.usersCollections := h .usersCollections (by decide)
  have hg : w'.db.groups = w.db.groups := h .groups (by decide)
  have hgu : w'.db.groupsUsers = w.db.groupsUsers := h .groupsUsers (by decide)
  have hcg : w'.db.collectionsGroups = w.db.collectionsGroups := h .collectionsGroups (by decide)
  have hfull : Cipher.hasFullAccess cfg w'.db c u none = Cipher.hasFullAccess cfg w.db c u none := by
    rw [Bool.eq_iff_iff, hasFullAccess_iff, hasFullAccess_iff]
    simp only [ConfirmedIn, MemberOf, GroupOf, hm, hg, hgu]
  have hdirect : ∀ k cu, Direct w'.db u k cu ↔ Direct w.db u k cu := by
    intro k cu
    rw [Direct, Direct, hcu]
  have hgroup : ∀ k cg, GroupRight cfg w'.db u k cg ↔ GroupRight cfg w.db u k cg := by
    intro k cg
    simp only [GroupRight, MemberOf, ByGroup, GroupOf, hm, hg, hgu, hcg]
  cases hf : Cipher.hasFullAccess cfg w.db c u none with
  | true =>
    rw [hf] at hfull
    simp only [Cipher.isWriteAccessibleToUser, Cipher.getAccessRestrictions, hf, hfull, if_true]
  | false =>
    rw [hf] at hfull
    rw [Bool.eq_iff_iff, isWriteAccessibleToUser_iff hc' hfull, isWriteAccessibleToUser_iff hc hf,
      Grants.congr hl hdirect hgroup, Grants.congr hl hdirect hgroup]

/-- The rows that let the user write to the cipher. Only the second of them asks for a confirmed
membership. -/
def WriteRow (cfg : Config) (db : Db) (c : Cipher) (u : UserId) : Prop :=
  c.userUuid = some u ∨
  (∃ m, ConfirmedIn db u c m ∧ (m.accessAll = true ∨ MembershipType.admin ≤ m.atype)) ∨
  (cfg.orgGroupsEnabled = true ∧ ∃ m g, MemberOf db u m ∧ c.organizationUuid = some m.orgUuid ∧
    GroupOf db m g ∧ g.accessAll = true) ∨
  Grants cfg db c u .write ∨ Grants cfg db c u .manage

theorem isWriteAccessibleToUser_iff_row (hc : c ∈ db.ciphers.rows) :
    c.isWriteAccessibleToUser cfg db u = true ↔ WriteRow cfg db c u := by
  have hrows : WriteRow cfg db c u ↔ Cipher.hasFullAccess cfg db c u none = true ∨
      Grants cfg db c u .write ∨ Grants cfg db c u .manage := by
    rw [hasFullAccess_iff, WriteRow]
    simp only [or_assoc]
  rw [hrows]
  cases hf : Cipher.hasFullAccess cfg db c u none with
  | true => simp [Cipher.isWriteAccessibleToUser, Cipher.getAccessRestrictions, hf]
  | false => simp [isWriteAccessibleToUser_iff hc hf]

/-- No row lets the user write to a cipher that the organization shares. -/
def Barred (cfg : Config) (db : Db) (org : OrganizationId) (u : UserId) : Prop :=
  ∀ c ∈ db.ciphers.rows, db.Shares org c.uuid → ¬ WriteRow cfg db c u

/-- A cipher that is found, and found writable, is none of them. -/
theorem Shielded.not_shares (hb : Barred cfg w0.db org u)
    (h : Shielded w0 org w) (hc : c ∈ w.db.ciphers.rows) (h' : Shielded w0 org w')
    (hw : c.isWriteAccessibleToUser cfg w'.db u = true) : ¬ w0.db.Shares org c.uuid := by
  intro hs
  have hc0 : c ∈ w0.db.ciphers.rows := (h.ciphers c hs).1 hc
  have hlinks : ∀ k, Linked w'.db c k ↔ Linked w0.db c k := by
    have hkept : ∀ cc : CollectionCipher, cc.cipherUuid = c.uuid →
        (cc ∈ w'.db.ciphersCollections.rows ↔ cc ∈ w0.db.ciphersCollections.rows) :=
      fun cc hid => h'.links cc (show w0.db.Shares org cc.cipherUuid from hid ▸ hs)
    intro k
    constructor
    · rintro ⟨cc, hcc, hid, hk⟩
      exact ⟨cc, (hkept cc hid).1 hcc, hid, hk⟩
    · rintro ⟨cc, hcc, hid, hk⟩
      exact ⟨cc, (hkept cc hid).2 hcc, hid, hk⟩
  rw [Cipher.isWriteAccessibleToUser_congr h'.rights hc0 ((h'.ciphers c hs).2 hc0) hlinks,
    isWriteAccessibleToUser_iff_row hc0] at hw
  exact hb c hc0 hs hw

theorem Cipher.isWriteAccessible_of_editable (h : c.isInEditableCollectionByUser cfg db u = true) :
    c.isWriteAccessibleToUser cfg db u = true := by
  unfold Cipher.isInEditableCollectionByUser at h
  unfold Cipher.isWriteAccessibleToUser
  cases hr : Cipher.getAccessRestrictions cfg db c u none with
  | none => rw [hr] at h; cases h
  | some f =>
    rw [hr] at h
    obtain ⟨readOnly, hidePasswords, manage⟩ := f
    revert h
    cases readOnly <;> cases hidePasswords <;> cases manage <;> decide

/-! ## Statements -/

theorem Cipher.save_shielded (hs : ¬ w0.db.Shares org c.uuid) (ho : c.organizationUuid ≠ some org) :
    (shielded w0 org).Keeps (c.save env) fun c' => c'.uuid = c.uuid := by
  refine .skip Cipher.updateUsersRevision_writes ?_
  refine (PartInvariant.Keeps.exec fun w db' hw hstmt => ?_).bind fun _ _ => .ret rfl
  obtain ⟨-, rfl⟩ := Db.guarded_eq_some hstmt
  exact { hw with
    ciphers := hw.ciphers.upsert hs fun x _ hx hid => hs (hid ▸ hx)
    entered := forall_putRows hw.entered fun hxo => absurd hxo ho
    rights := hw.sameRights }

/-- A file that may be written: none of the protected ones has its number. -/
def FreeFile (w0 : World) (org : OrganizationId) (a : Attachment) : Prop :=
  ¬ w0.db.Shares org a.cipherUuid ∧
    ∀ x ∈ w0.db.attachments.rows, w0.db.Shares org x.cipherUuid → x.id ≠ a.id

/-- A stored file of another cipher is free. -/
theorem Shielded.freeFile (h : Shielded w0 org w)
    (ha : a ∈ w.db.attachments.rows) (hs : ¬ w0.db.Shares org a.cipherUuid) :
    FreeFile w0 org a := by
  refine ⟨hs, fun x hx hxs hid => ?_⟩
  have hxa : x = a := eq_of_key ((h.attachments x hxs).2 hx) ha hid
  exact hs (hxa ▸ hxs)

theorem Attachment.save_shielded (ha : FreeFile w0 org a) : (shielded w0 org).Keeps a.save ⊤ := by
  refine .exec fun w db' hw hstmt => ?_
  obtain ⟨-, rfl⟩ := Db.guarded_eq_some hstmt
  exact { hw with attachments := hw.attachments.upsert ha.1 ha.2, rights := hw.sameRights }

theorem Attachment.delete_shielded (ha : FreeFile w0 org a) :
    (shielded w0 org).Keeps a.delete ⊤ := by
  refine (PartInvariant.Keeps.execTotal fun w hw => ?_).bind fun _ _ => .idle .external
  exact { hw with
    attachments := hw.attachments.deleteWhere fun x hx hs => decide_eq_false (ha.2 x hx hs)
    rights := hw.sameRights }

theorem CollectionCipher.deleteWhere_shielded
    (hp : ∀ cc, p cc = true → ¬ w0.db.Shares org cc.cipherUuid) :
    (shielded w0 org).Keeps (execTotal (CollectionCipher.deleteWhere p) message) ⊤ := by
  refine .execTotal fun w hw => ?_
  exact { hw with
    links := hw.links.deleteWhere fun x _ hx => Bool.eq_false_iff.2 fun hpx => hp x hpx hx
    linked := fun x hx => hw.linked x (mem_deleteWhere.1 hx).1
    rights := hw.sameRights }

theorem CollectionCipher.delete_shielded {c k} (hs : ¬ w0.db.Shares org c) :
    (shielded w0 org).Keeps (CollectionCipher.delete env c k) ⊤ := by
  refine .skip CollectionCipher.updateUsersRevision_writes ?_
  refine CollectionCipher.deleteWhere_shielded fun cc hcc => ?_
  rw [(of_decide_eq_true hcc).1]
  exact hs

theorem CollectionCipher.save_shielded {c k}
    (hs : ¬ w0.db.Shares org c) (hk : ¬ w0.db.CollectionIn k org) :
    (shielded w0 org).Keeps (CollectionCipher.save env c k) ⊤ := by
  refine .skip CollectionCipher.updateUsersRevision_writes <| .exec fun w db' hw hstmt => ?_
  obtain ⟨-, rfl⟩ := Db.guarded_eq_some hstmt
  refine { hw with
    links := hw.links.upsert hs fun x _ hx hkey => ?_
    linked := forall_putRows hw.linked fun hin => absurd hin hk
    rights := hw.sameRights }
  have hid : x.cipherUuid = c := congrArg Prod.fst hkey
  exact hs (hid ▸ hx)

/-- A collection of another organization. -/
theorem Collection.save_shielded {k : Collection} (ho : k.orgUuid ≠ org)
    (hk : ¬ w0.db.CollectionIn k.uuid org) : (shielded w0 org).Keeps (k.save env) ⊤ := by
  refine .skip Collection.updateUsersRevision_writes <| .exec fun w db' hw hstmt => ?_
  obtain ⟨-, rfl⟩ := Db.guarded_eq_some hstmt
  exact { hw with
    collections := hw.collections.upsert ho fun x hx hxo hid => hk ⟨x, hx, hid, hxo⟩
    rights := hw.sameRights }

theorem Cipher.delete_shielded (hs : ¬ w0.db.Shares org c.uuid) :
    (shielded w0 org).Keeps (c.delete env) ⊤ := by
  refine .skip Cipher.updateUsersRevision_writes ?_
  refine .past FolderCipher.deleteWhere_writes rfl ?_
  refine (CollectionCipher.deleteWhere_shielded fun cc hcc => ?_).bind fun _ _ => ?_
  · rw [of_decide_eq_true hcc]
    exact hs
  · refine .bind (.query fun w hw => .each fun a ha => ?_) fun _ _ => ?_
    · obtain ⟨hmem, hid⟩ := mem_filter.1 ha
      exact Attachment.delete_shielded (hw.freeFile hmem (of_decide_eq_true hid ▸ hs))
    · refine .past Favorite.deleteWhere_writes rfl <| .exec fun w db' hw hstmt => ?_
      obtain ⟨-, rfl⟩ := Db.guarded_eq_some hstmt
      refine { hw with
        ciphers := hw.ciphers.deleteWhere fun x _ hx => decide_eq_false fun hid => hs (hid ▸ hx)
        entered := fun x hx => hw.entered x (mem_deleteWhere.1 hx).1
        rights := fun t ht => (hw.rights t ht).trans ?_ }
      cases t <;> first | rfl | exact absurd ht (by decide)

/-! ## Requests on ciphers -/

section
variable (hb : Barred env.toConfig w0.db org u)
include hb

/-- The two queries that every request on a cipher starts with. -/
theorem foundWritable_shielded {id} {missing refused : String}
    {k : Cipher → Cmd α} {label}
    (hk : ∀ c : Cipher, c.uuid = id → ¬ w0.db.Shares org c.uuid → c.organizationUuid ≠ some org →
      (shielded w0 org).Keeps (k c) ⊤) :
    (shielded w0 org).Keeps (do
      match ← Prog.read label fun w => Cipher.findByUuid w.db id with
      | none => err missing
      | some c =>
        let writable ← query (Cipher.isWriteAccessibleToUser env.toConfig · c u)
        ensure writable refused
        k c) ⊤ := by
  refine .found .err fun w c hw hc => ?_
  obtain ⟨hmem, hid⟩ := mem_of_find? hc
  refine .query fun w' hw' => .ensure fun hwritable => ?_
  have hs := hw.not_shares hb hmem hw' hwritable
  exact hk c (of_decide_eq_true hid) hs fun ho => hs (hw.entered c hmem ho)

theorem deleteCipherByUuid_shielded {options id} :
    (shielded w0 org).Keeps (deleteCipherByUuid env u options id) ⊤ := by
  refine foundWritable_shielded hb fun c _ hs ho => .ite ?_ ?_
  · have hsave : (shielded w0 org).Keeps (Cipher.save env { c with deletedAt := some env.now }) _ :=
      Cipher.save_shielded hs ho
    exact hsave.bind fun _ _ => .idle (.when Cipher.updateUsersRevision_writes)
  · exact (Cipher.delete_shielded hs).bind fun _ _ =>
      .idle (.when Cipher.updateUsersRevision_writes)

theorem restoreCipherByUuid_shielded {multi : Bool} {id} :
    (shielded w0 org).Keeps (restoreCipherByUuid env u multi id) ⊤ := by
  refine foundWritable_shielded hb fun c _ hs ho => ?_
  have hsave : (shielded w0 org).Keeps (Cipher.save env { c with deletedAt := none }) _ :=
    Cipher.save_shielded hs ho
  refine hsave.bind fun _ _ => .skip (.when Cipher.updateUsersRevision_writes) ?_
  exact .idle Cipher.toJson_writes

omit hb in
theorem updateAttachments_shielded {c} (hs : ¬ w0.db.Shares org c) :
    (shielded w0 org).Keeps (updateAttachments c xs) ⊤ := by
  induction xs with
  | nil => exact .ret trivial
  | cons x xs ih =>
    refine .query fun w hw => ?_
    split
    · exact ih
    · next saved hsaved =>
      split
      · exact .ret trivial
      · next hid =>
        have hfree := hw.freeFile (mem_of_find? hsaved).1 (not_not.1 hid ▸ hs)
        have hcopy : FreeFile w0 org { saved with akey := some x.key, fileName := x.fileName } := hfree
        exact (Attachment.save_shielded hcopy).bind fun _ _ => ih

omit hb in
/-- Only a confirmed member puts a cipher into the organization. -/
theorem chooseOwner_shielded {o} (ho : c.organizationUuid ≠ some org)
    (hno : Membership.findConfirmedByUserAndOrg w0.db u org = none) :
    (shielded w0 org).Keeps (chooseOwner env c o u cols) fun c' =>
      c'.uuid = c.uuid ∧ c'.organizationUuid ≠ some org := by
  cases o with
  | none => exact .ret ⟨rfl, ho⟩
  | some =>
    refine .found .err fun w m hw hm => ?_
    refine .skip .query <| .check <| .ret ⟨rfl, fun heq => ?_⟩
    dsimp only at hm
    rw [(hw.rights .usersOrganizations (by decide)).findConfirmed, Option.some.inj heq, hno] at hm
    cases hm

omit hb in
theorem updateCipherFromData_shielded {data ut} (hs : ¬ w0.db.Shares org c.uuid)
    (ho : c.organizationUuid ≠ some org)
    (hno : Membership.findConfirmedByUserAndOrg w0.db u org = none) :
    (shielded w0 org).Keeps (updateCipherFromData env c data u cols ut) ⊤ := by
  refine .skip checkUpdate_writes ?_
  refine (chooseOwner_shielded ho hno).bind fun c1 ⟨hid1, ho1⟩ => ?_
  rw [← hid1] at hs
  refine .skip checkFolder_writes <| (updateAttachments_shielded hs).bind fun _ _ => ?_
  refine .lift fun c2 hfill => ?_
  obtain ⟨hid2, ho2, -⟩ := CipherData.fill_eq_ok hfill
  rw [← hid2] at hs
  rw [← ho2] at ho1
  refine (Cipher.save_shielded hs ho1).bind fun _ _ => .past writeUserMarks_writes rfl ?_
  exact .skip (.when Cipher.updateUsersRevision_writes) <| .ret trivial

theorem putCipher_shielded {id data}
    (hno : Membership.findConfirmedByUserAndOrg w0.db u org = none) :
    (shielded w0 org).Keeps (putCipher env id data u) ⊤ := by
  refine foundWritable_shielded hb fun c _ hs ho => ?_
  exact (updateCipherFromData_shielded hs ho hno).bind fun _ _ => .idle Cipher.toJson_writes

theorem updateCollections_shielded {id posted current} :
    (shielded w0 org).Keeps (updateCollections env id posted u current) ⊤ := by
  refine .found .err fun w c hw hc => ?_
  obtain ⟨hmem, -⟩ := mem_of_find? hc
  refine .query fun w' hw' => .ensure fun heditable => ?_
  have hs := hw.not_shares hb hmem hw' (Cipher.isWriteAccessible_of_editable heditable)
  split
  · exact .err
  · next o ho =>
    have hne : o ≠ org := fun h => hs (hw.entered c hmem (h ▸ ho))
    refine .skip .query <| (PartInvariant.Keeps.each fun k _ => ?_).bind fun _ _ => ?_
    · refine .found .err fun w2 r hw2 hr => ?_
      obtain ⟨hrow, hro⟩ := mem_of_find? hr
      have hk : ¬ w0.db.CollectionIn r.uuid org := fun hin =>
        hne (Db.CollectionIn.unique ⟨r, hrow, rfl, (of_decide_eq_true hro).2⟩
          (hw2.collectionIn.2 hin))
      refine .skip .query <| .ite (.ite ?_ ?_) .err
      · exact CollectionCipher.save_shielded hs hk
      · exact CollectionCipher.delete_shielded hs
    · exact .skip Cipher.updateUsersRevision_writes <| .idle Cipher.toJson_writes

theorem bulkCipher_shielded {data id} (hk : ∀ k ∈ data.collectionIds, ¬ w0.db.CollectionIn k org) :
    (shielded w0 org).Keeps (bulkCipher env data u id) ⊤ := by
  refine .query fun w hw => ?_
  split
  · exact .ret trivial
  · next c hc =>
    obtain ⟨hmem, -⟩ := mem_of_find? hc
    refine .query fun w' hw' => ?_
    split
    · next hwritable =>
      have hs := hw.not_shares hb hmem hw' hwritable
      refine .each fun k hmem => .ite (CollectionCipher.delete_shielded hs) ?_
      exact CollectionCipher.save_shielded hs
        (hk k (mem_dedup.1 ((env.walk.perm _).mem_iff.1 hmem)))
    · exact .ret trivial

/-- The collections are listed for another organization than the protected one. -/
theorem postBulkCollections_shielded {data}
    (hno : Membership.findConfirmedByUserAndOrg w0.db u org = none) :
    (shielded w0 org).Keeps (postBulkCollections env data u) ⊤ := by
  refine .query fun w hw => .ensure fun hmember => ?_
  have hne : data.organizationId ≠ org := by
    intro heq
    rw [heq, (hw.rights .usersOrganizations (by decide)).findConfirmed, hno] at hmember
    cases hmember
  have hcheck : (shielded w0 org).Keeps (checkBulkCollections env data u) fun _ =>
      ∀ k ∈ data.collectionIds, ¬ w0.db.CollectionIn k org := by
    refine .query fun w hw => (PartInvariant.Keeps.eachAll fun k _ => ?_).mono fun _ hall k hk =>
      hall k ((env.walk.perm _).mem_iff.2 (mem_dedup.2 hk))
    split
    · exact .err
    · next r hr =>
      refine .skip .query <| .mono .ensured fun _ _ hin => hne ?_
      obtain ⟨hrow, hro⟩ := mem_filter.1 (mem_of_find?_eq_some hr)
      have hid := find?_some hr
      obtain rfl : r.uuid = k := of_decide_eq_true hid
      exact Db.CollectionIn.unique ⟨r, Collection.mem_of_mem_findByUserUuid hrow, rfl,
        of_decide_eq_true hro⟩ (hw.collectionIn.2 hin)
  exact hcheck.bind fun _ hk => .each fun _ _ => bulkCipher_shielded hb hk

/-! ## Files -/

theorem deleteCipherAttachmentById_shielded {id file} :
    (shielded w0 org).Keeps (deleteCipherAttachmentById env id file u) ⊤ := by
  refine .found .err fun w a hw ha => ?_
  refine .ensure fun hid => foundWritable_shielded hb fun c hc hs _ => ?_
  have hfree := hw.freeFile (mem_of_find? ha).1 ((of_decide_eq_true hid).trans hc.symm ▸ hs)
  refine (Attachment.delete_shielded hfree).bind fun _ _ => ?_
  exact .skip Cipher.updateUsersRevision_writes <| .idle Cipher.toJson_writes

variable (hnew : ∀ x ∈ w0.db.attachments.rows, x.id < w0.nextUuid)
include hnew

omit hb in
/-- The numbers that are drawn have not been used before. -/
theorem Attachment.free_of_drawn (hw : Shielded w0 org w)
    (hs : ¬ w0.db.Shares org a.cipherUuid) (hid : a.id = w.nextUuid) : FreeFile w0 org a := by
  refine ⟨hs, fun x hx _ heq => ?_⟩
  have hlt := hnew x hx
  have hle := hw.later
  omega

omit hb in
theorem storeAttachment_shielded {a c} (hs : ¬ w0.db.Shares org c)
    (ha : ∀ x, a = some x → FreeFile w0 org x) :
    (shielded w0 org).Keeps (storeAttachment a c data) ⊤ := by
  unfold storeAttachment
  split
  · next x =>
    unfold adjustAttachment
    split
    · exact .err
    · split
      · exact .err
      · have hcopy : FreeFile w0 org { x with fileSize := data.size } := ha x rfl
        refine .ite (.when (.expectOk (Attachment.save_shielded hcopy))) ?_
        exact (Attachment.delete_shielded (ha x rfl)).catchErr.bind fun _ _ => .err
  · refine .getUuid fun w hw => ?_
    unfold createAttachment
    split
    · exact .err
    · exact .check <| .expectOk (Attachment.save_shielded (Attachment.free_of_drawn hnew hw hs rfl))

theorem saveAttachment_shielded {a id}
    (ha : ∀ x, a = some x → ¬ w0.db.Shares org id → FreeFile w0 org x) :
    (shielded w0 org).Keeps (saveAttachment env a id data u) ⊤ := by
  refine .check <| .check <| foundWritable_shielded hb fun c hid hs _ => ?_
  rw [hid] at hs
  refine .skip attachmentSizeLimit_writes <| .check ?_
  refine (storeAttachment_shielded hnew hs fun x hx => ha x hx hs).bind fun _ _ => ?_
  exact .skip .external <| .skip Cipher.updateUsersRevision_writes <| .ret trivial

theorem postAttachmentV2_shielded {id data} :
    (shielded w0 org).Keeps (postAttachmentV2 env id data u) ⊤ := by
  refine foundWritable_shielded hb fun c _ hs _ => .lift fun size _ => .check ?_
  refine .getUuid fun w hw => ?_
  have hfree : FreeFile w0 org ⟨w.nextUuid, c.uuid, data.fileName, size, some data.key⟩ :=
    Attachment.free_of_drawn hnew hw hs rfl
  exact (Attachment.save_shielded hfree).expectOk.bind fun _ _ => .idle Cipher.toJson_writes

theorem postAttachment_shielded {id} : (shielded w0 org).Keeps (postAttachment env id data u) ⊤ :=
  (saveAttachment_shielded (a := none) hb hnew nofun).bind fun _ _ =>
    .idle Cipher.toJson_writes

theorem postAttachmentV2Data_shielded {id file} :
    (shielded w0 org).Keeps (postAttachmentV2Data env id file data u) ⊤ := by
  refine .found .err fun w a hw ha => ?_
  refine .ensure fun hid => (saveAttachment_shielded hb hnew fun x hx hs => ?_).bind fun _ _ =>
    .ret trivial
  obtain rfl := Option.some.inj hx
  exact hw.freeFile (mem_of_find? ha).1 (of_decide_eq_true hid ▸ hs)

end

end

/-! ## Imports -/

/-- Identifiers that are drawn are new. -/
structure World.DrawsNew (w : World) : Prop where
  collections : ∀ k ∈ w.db.collections.rows, k.uuid.val < w.nextUuid
  ciphers : ∀ c ∈ w.db.ciphers.rows, c.uuid.val < w.nextUuid
  links : ∀ cc ∈ w.db.ciphersCollections.rows, cc.cipherUuid.val < w.nextUuid
  attachments : ∀ a ∈ w.db.attachments.rows, a.id < w.nextUuid

section
variable {w0 w : World} {org o : OrganizationId} {env : Env} {u : UserId}

theorem World.DrawsNew.not_shares (h : w0.DrawsNew) (hn : w0.nextUuid ≤ n) :
    ¬ w0.db.Shares org ⟨n⟩ := by
  rintro (⟨c, hc, hid, -⟩ | ⟨cc, hcc, hid, -⟩)
  · have hlt := h.ciphers c hc
    rw [hid] at hlt
    exact absurd hlt (Nat.not_lt.2 hn)
  · have hlt := h.links cc hcc
    rw [hid] at hlt
    exact absurd hlt (Nat.not_lt.2 hn)

theorem World.DrawsNew.not_collectionIn (h : w0.DrawsNew) (hn : w0.nextUuid ≤ n) :
    ¬ w0.db.CollectionIn ⟨n⟩ org := by
  rintro ⟨k, hk, hid, -⟩
  have hlt := h.collections k hk
  rw [hid] at hlt
  exact absurd hlt (Nat.not_lt.2 hn)

theorem World.exists_drawsNew (db : Db) : ∃ w : World, w.db = db ∧ w.faults = [] ∧ w.DrawsNew := by
  obtain ⟨k, hk⟩ := exists_fresh (fun r : Collection => r.uuid.val) db.collections.rows
  obtain ⟨c, hc⟩ := exists_fresh (fun r : Cipher => r.uuid.val) db.ciphers.rows
  obtain ⟨l, hl⟩ := exists_fresh (fun r : CollectionCipher => r.cipherUuid.val)
    db.ciphersCollections.rows
  obtain ⟨a, ha⟩ := exists_fresh (fun r : Attachment => r.id) db.attachments.rows
  have hle : k ≤ k + c + l + a ∧ c ≤ k + c + l + a ∧ l ≤ k + c + l + a ∧ a ≤ k + c + l + a := by
    omega
  refine ⟨⟨db, k + c + l + a, [], [], []⟩, rfl, rfl, fun r hr => ?_, fun r hr => ?_,
    fun r hr => ?_, fun r hr => ?_⟩
  · exact Nat.lt_of_lt_of_le (hk r hr) hle.1
  · exact Nat.lt_of_lt_of_le (hc r hr) hle.2.1
  · exact Nat.lt_of_lt_of_le (hl r hr) hle.2.2.1
  · exact Nat.lt_of_lt_of_le (ha r hr) hle.2.2.2

/-- An import into another organization. -/
theorem postOrgImport_shielded {data} (hnew : w0.DrawsNew)
    (hne : o ≠ org) (hno : Membership.findConfirmedByUserAndOrg w0.db headers.user.uuid org = none) :
    (shielded w0 org).Keeps (postOrgImport env o data headers) ⊤ := by
  refine .check <| .skip validateCipherData_writes <| .query fun w hw => ?_
  have hcollections : (shielded w0 org).Keeps
      (Prog.foldl data.collections [] (importCollection env o headers.membership
        (Collection.findByOrganization w.db o)))
      fun ks => ∀ k ∈ ks, ¬ w0.db.CollectionIn k org := by
    refine .foldl nofun fun ks d _ hks => ?_
    unfold importCollection
    split
    · next k hk =>
      refine .skip .query <| .check <| .ret ?_
      obtain ⟨id, -, hfind⟩ := Option.bind_eq_some_iff.1 hk
      obtain ⟨hrow, hro⟩ := mem_filter.1 (mem_of_find?_eq_some hfind)
      refine forall_mem_append.2 ⟨hks, forall_mem_singleton.2 fun hin => hne ?_⟩
      exact Db.CollectionIn.unique ⟨k, hrow, rfl, of_decide_eq_true hro⟩ (hw.collectionIn.2 hin)
    · refine .check <| .getUuid fun w' hw' => ?_
      have hdrawn : ¬ w0.db.CollectionIn ⟨w'.nextUuid⟩ org := hnew.not_collectionIn hw'.later
      refine (Collection.save_shielded hne hdrawn).bind fun _ _ => .ret ?_
      exact forall_mem_append.2 ⟨hks, forall_mem_singleton.2 hdrawn⟩
  refine hcollections.bind fun ks hks => ?_
  have hciphers : (shielded w0 org).Keeps
      (Prog.foldl data.ciphers [] (importOrgCipher env o headers.user.uuid ks))
      fun cs => ∀ c ∈ cs, ¬ w0.db.Shares org c := by
    refine .foldl nofun fun cs d _ hcs => .getUuid fun w' hw' => ?_
    have hdrawn : ¬ w0.db.Shares org ⟨w'.nextUuid⟩ := hnew.not_shares hw'.later
    have howner : (Cipher.new w'.nextUuid env.now d.type d.name).organizationUuid ≠ some org := nofun
    refine (updateCipherFromData_shielded hdrawn howner hno).catchErr.bind fun _ _ => .ret ?_
    exact forall_mem_append.2 ⟨hcs, forall_mem_singleton.2 hdrawn⟩
  refine hciphers.bind fun cs hcs => (PartInvariant.Keeps.each fun r _ => ?_).bind fun _ _ => ?_
  · unfold importLink
    split
    · next c k hc hk =>
      exact CollectionCipher.save_shielded (hcs c (mem_of_getElem? hc)) (hks k (mem_of_getElem? hk))
    · exact .err
  · exact .of_writes User.updateRevision_writes rfl

/-- The parts are as they were, and so are the identifiers still to come. -/
def frozen (w0 : World) (S : List Part) : PartInvariant where
  parts := S
  holds w := (∀ t ∈ S, w0.Same w t) ∧ w0.nextUuid ≤ w.nextUuid
  of_same h hle hw := ⟨fun t ht => (hw.1 t ht).trans (h t ht), Nat.le_trans hw.2 hle⟩

theorem frozen_start : (frozen w S).holds w := ⟨fun t _ => .refl w t, Nat.le_refl _⟩

/-- What the import into the organization itself leaves as it was. -/
def importParts : List Part :=
  [.collections, .ciphers, .attachments, .ciphersCollections, .usersOrganizations]

theorem Shielded.of_frozen (h : (frozen w0 importParts).holds w) : SharedKept w0.db org w.db := by
  have hk : w.db.collections = w0.db.collections := h.1 .collections (by decide)
  have hc : w.db.ciphers = w0.db.ciphers := h.1 .ciphers (by decide)
  have ha : w.db.attachments = w0.db.attachments := h.1 .attachments (by decide)
  have hl : w.db.ciphersCollections = w0.db.ciphersCollections := h.1 .ciphersCollections (by decide)
  refine ⟨fun k _ => by rw [hk], fun c _ => by rw [hc], fun a => ?_, fun cc => ?_⟩
  · rw [Db.CipherIn, Db.CipherIn, ha, hc]
  · rw [Db.LinkOf, Db.LinkOf, Db.CipherIn, Db.CipherIn, Db.CollectionIn, Db.CollectionIn, hc, hk, hl]

/-- Nobody but a confirmed member stores a cipher there. -/
theorem updateCipherFromData_refuses {data ut} (ho : data.organizationId = some org)
    (hno : Membership.findConfirmedByUserAndOrg w0.db u org = none) :
    (frozen w0 importParts).Keeps (updateCipherFromData env c data u cols ut) ⊤ := by
  refine .skip checkUpdate_writes ?_
  rw [ho]
  refine .bind (Q := fun _ => False) (.query fun w hw => ?_) fun _ h => h.elim
  rw [(hw.1 .usersOrganizations (by decide)).findConfirmed, hno]
  exact .err

/-- A link is refused as long as its cipher is not there. -/
theorem importLink_frozen (hnew : w0.DrawsNew) (hcs : ∀ c ∈ cs, w0.nextUuid ≤ c.val) :
    (frozen w0 importParts).Keeps (importLink env cs ks r) ⊤ := by
  unfold importLink
  split
  · next c k hc hk =>
    refine .skip CollectionCipher.updateUsersRevision_writes <| .exec fun w db' hw hs => ?_
    obtain ⟨hguard, -⟩ := Db.guarded_eq_some hs
    have hthere := (Bool.and_eq_true_iff.1 hguard).1
    rw [(hw.1 .ciphers (by decide)).hasCipher] at hthere
    obtain ⟨x, hx, hid⟩ := any_eq_true.1 hthere
    have hlt := hnew.ciphers x hx
    rw [of_decide_eq_true hid] at hlt
    exact absurd hlt (Nat.not_lt.2 (hcs c (mem_of_getElem? hc)))
  · exact .err

/-- An import by somebody who may create no collection changes nothing. -/
theorem postOrgImport_frozen {data} (hnew : w0.DrawsNew)
    (hno : Membership.findConfirmedByUserAndOrg w0.db headers.user.uuid org = none)
    (hmay : (decide (MembershipType.manager < headers.membership.atype) ||
      headers.membership.hasFullAccess) = false) :
    (frozen w0 importParts).Keeps (postOrgImport env org data headers) ⊤ := by
  refine .check <| .skip validateCipherData_writes <| .still .query fun existing => ?_
  refine PartInvariant.Keeps.bind (.foldl (R := ⊤) trivial fun ks d _ _ => ?_) fun ks _ => ?_
  · unfold importCollection
    split
    · exact .skip .query <| .check <| .ret trivial
    · refine .ensure fun h => ?_
      rw [Bool.decide_or, Bool.decide_eq_true, hmay] at h
      cases h
  have hciphers : (frozen w0 importParts).Keeps
      (Prog.foldl data.ciphers [] (importOrgCipher env org headers.user.uuid ks))
      fun cs => ∀ c ∈ cs, w0.nextUuid ≤ c.val := by
    refine .foldl nofun fun cs d _ hcs => .getUuid fun w hw => ?_
    refine (updateCipherFromData_refuses rfl hno).catchErr.bind fun _ _ => .ret ?_
    exact forall_mem_append.2 ⟨hcs, forall_mem_singleton.2 hw.2⟩
  refine hciphers.bind fun cs hcs => (PartInvariant.Keeps.each fun r _ => ?_).bind fun _ _ => ?_
  · exact importLink_frozen hnew hcs
  · exact .of_writes User.updateRevision_writes rfl

end

/-! ## The requests together -/

/-- The requests of an account that write to ciphers that are there. -/
def VaultRequest.onShared : VaultRequest → Bool
  | putCipher .. | postCollectionsUpdate .. | postCollectionsAdmin .. | deleteCipher ..
  | deleteMultipleCiphers .. | restoreCipher .. | restoreMultipleCiphers ..
  | postBulkCollections .. => true
  | request => request.onAttachments

/-- Such a request, or an import into some organization, in a session of the user. -/
def Request.sharedBy (u : UserId) : Request → Bool
  | .vault caller request => caller.token.claims.sub = u ∧ request.onShared = true
  | .organization caller _ (.postOrgImport _) => caller.token.claims.sub = u
  | _ => false

/-- The import lets a member in whose membership is pending, and lets admins create. -/
def Membership.pendingAdmin (m : Membership) : Bool :=
  (m.hasStatus .invited || m.hasStatus .accepted) && MembershipType.admin ≤ m.atype

section
variable {env : Env} {w w0 : World} {org : OrganizationId} {user : User} {m : Membership}
  {caller : Caller}

theorem VaultRequest.handle_shielded {request : VaultRequest} (hnew : w0.DrawsNew)
    (hb : Barred env.toConfig w0.db org user.uuid)
    (hno : Membership.findConfirmedByUserAndOrg w0.db user.uuid org = none)
    (hr : request.onShared = true) : (shielded w0 org).Keeps (request.handle env user) ⊤ := by
  cases request with
  | putCipher => exact putCipher_shielded hb hno
  | postCollectionsUpdate => exact updateCollections_shielded hb
  | postCollectionsAdmin => exact updateCollections_shielded hb
  | deleteCipher => exact deleteCipherByUuid_shielded hb
  | deleteMultipleCiphers => exact .each fun _ _ => deleteCipherByUuid_shielded hb
  | restoreCipher => exact restoreCipherByUuid_shielded hb
  | restoreMultipleCiphers => exact .each fun _ _ => restoreCipherByUuid_shielded hb
  | postBulkCollections => exact postBulkCollections_shielded hb hno
  | postAttachmentV2 => exact postAttachmentV2_shielded hb hnew.attachments
  | postAttachmentV2Data => exact postAttachmentV2Data_shielded hb hnew.attachments
  | postAttachment => exact postAttachment_shielded hb hnew.attachments
  | postAttachmentShare =>
    exact (deleteCipherAttachmentById_shielded hb).bind fun _ _ =>
      postAttachment_shielded hb hnew.attachments
  | deleteAttachment => exact deleteCipherAttachmentById_shielded hb
  | _ => cases hr

theorem MembershipType.admin_le_of_manager_lt (h : MembershipType.manager < t) :
    MembershipType.admin ≤ t := by
  cases t <;> revert h <;> decide

theorem MembershipType.manager_lt_of_admin_le (h : MembershipType.admin ≤ t) :
    MembershipType.manager < t := by
  cases t <;> revert h <;> decide

theorem MembershipType.eq_manager (h : MembershipType.manager ≤ t)
    (hadmin : ¬ MembershipType.admin ≤ t) : t = .manager := by
  cases t <;> revert h hadmin <;> decide

/-- A pending membership, by its status. -/
theorem MembershipStatus.pending_of_fromI32
    (h : MembershipStatus.fromI32 m.status = some status) (hc : m.hasStatus .confirmed = false) :
    (m.hasStatus .invited || m.hasStatus .accepted) = true := by
  unfold MembershipStatus.fromI32 at h
  unfold Membership.hasStatus at hc ⊢
  split at h
  · next h0 => simp [h0, MembershipStatus.toI32]
  · split at h
    · next h1 => simp [h1, MembershipStatus.toI32]
    · split at h
      · next h2 => simp [h2, MembershipStatus.toI32] at hc
      · cases h

theorem Membership.findConfirmed_none {db u}
    (hm : Membership.findByUserAndOrg db u org = some m) (hc : m.hasStatus .confirmed = false) :
    Membership.findConfirmedByUserAndOrg db u org = none := by
  cases hf : Membership.findConfirmedByUserAndOrg db u org with
  | none => rfl
  | some m' =>
    obtain ⟨hmem', hu', ho', hs'⟩ := Membership.findConfirmedByUserAndOrg_eq_some.1 hf
    obtain ⟨hmem, hu, ho⟩ := Membership.findByUserAndOrg_eq_some hm
    have hsame : m' = m := MemberOf.unique ⟨hmem', hu'⟩ ⟨hmem, hu⟩ (ho'.trans ho.symm)
    rw [hsame, hc] at hs'
    cases hs'

/-- **Without leftover rights nothing is written**, by any of the requests and in any outcome. -/
theorem Request.sharedKept {request : Request} (hnew : w.DrawsNew)
    (hm : Membership.findByUserAndOrg w.db user.uuid org = some m)
    (hc : m.hasStatus .confirmed = false) (hp : m.pendingAdmin = false)
    (hb : Barred env.toConfig w.db org user.uuid) (hr : request.sharedBy user.uuid = true) :
    SharedKept w.db org ((request.serve env).after w).db := by
  have hno := Membership.findConfirmed_none hm hc
  cases request with
  | vault caller request =>
    obtain ⟨hsub, hr⟩ := of_decide_eq_true hr
    have hkeeps : (shielded w org).Keeps ((Request.vault caller request).serve env)
        ⊤ := by
      refine (PartInvariant.Keeps.headers rfl).bind fun headers hid => ?_
      rw [hsub] at hid
      rw [← hid] at hb hno
      exact (VaultRequest.handle_shielded hnew hb hno hr).bind fun _ _ => .ret trivial
    exact (hkeeps.after Shielded.refl).sharedKept
  | organization caller o request =>
    cases request with
    | postOrgImport data =>
      have hsub : caller.token.claims.sub = user.uuid := of_decide_eq_true hr
      by_cases ho : o = org
      · subst ho
        have hkeeps : (frozen w importParts).Keeps
            ((Request.organization caller o (.postOrgImport data)).serve env) ⊤ := by
          refine (PartInvariant.Keeps.orgHeaders rfl).bind fun headers h => ?_
          obtain ⟨hid, ⟨w1, hw1, hmem⟩, _, hstatus, _⟩ := h
          rw [hsub] at hid
          rw [Membership.findByUserAndOrg, show w1.db.usersOrganizations = _ from
            hw1.1 .usersOrganizations (by decide), ← Membership.findByUserAndOrg, hid, hm] at hmem
          obtain rfl := Option.some.inj hmem
          have hrole : MembershipType.admin ≤ headers.membership.atype → False := by
            intro hadmin
            rw [Membership.pendingAdmin, MembershipStatus.pending_of_fromI32 hstatus hc] at hp
            simp [hadmin] at hp
          have hmay : (decide (MembershipType.manager < headers.membership.atype) ||
              headers.membership.hasFullAccess) = false := by
            rw [Membership.hasFullAccess, hc, Bool.and_false, Bool.or_false]
            exact decide_eq_false fun h => hrole (MembershipType.admin_le_of_manager_lt h)
          rw [← hid] at hno
          exact (postOrgImport_frozen hnew hno hmay).bind fun _ _ => .ret trivial
        exact Shielded.of_frozen (hkeeps.after frozen_start)
      · have hkeeps : (shielded w org).Keeps
            ((Request.organization caller o (.postOrgImport data)).serve env) ⊤ := by
          refine (PartInvariant.Keeps.orgHeaders rfl).bind fun headers h => ?_
          obtain ⟨hid, -⟩ := h
          rw [hsub] at hid
          rw [← hid] at hno
          exact (postOrgImport_shielded hnew ho hno).bind fun _ _ => .ret trivial
        exact (hkeeps.after Shielded.refl).sharedKept
    | _ => cases hr
  | _ => cases hr

/-! ## What leftover rights permit -/

/-- The token is one of the account's, and is accepted. -/
def Caller.IsSession (caller : Caller) (env : Env) (db : Db) (user : User) : Prop :=
  decodeLogin env caller.token = some caller.token.claims ∧
  (Device.findByUuidAndUser db caller.token.claims.device caller.token.claims.sub).isSome = true ∧
  User.findByUuid db caller.token.claims.sub = some user ∧
  user.securityStamp = caller.token.claims.sstamp

theorem Headers.fromRequest_returns (h : caller.IsSession env w.db user) :
    Returns w (Headers.fromRequest env caller) fun headers w' => headers.user = user ∧ w' = w := by
  obtain ⟨htoken, hdevice, huser, hstamp⟩ := h
  obtain ⟨device, hdevice⟩ := Option.isSome_iff_exists.1 hdevice
  unfold Headers.fromRequest
  rw [htoken]
  refine .query ?_
  rw [hdevice]
  refine .read ?_
  dsimp only
  rw [huser]
  dsimp only
  rw [hstamp]
  simp only [ne_eq, not_true_eq_false, decide_false]
  exact .ret ⟨rfl, rfl⟩

theorem OrgMemberHeaders.fromRequest_returns (h : caller.IsSession env w.db user)
    (hm : Membership.findByUserAndOrg w.db user.uuid org = some m)
    (hp : (m.hasStatus .invited || m.hasStatus .accepted) = true) :
    Returns w (OrgMemberHeaders.fromRequest env caller org) fun headers w' =>
      headers.membership = m ∧ headers.user = user ∧ w' = w := by
  have hstatus : ∃ status, MembershipStatus.fromI32 m.status = some status ∧ status ≠ .revoked := by
    unfold Membership.hasStatus at hp
    rcases Bool.or_eq_true_iff.1 hp with h0 | h1
    · rw [of_decide_eq_true h0]
      exact ⟨.invited, rfl, nofun⟩
    · rw [of_decide_eq_true h1]
      exact ⟨.accepted, rfl, nofun⟩
  obtain ⟨status, hstatus, hnot⟩ := hstatus
  have hfound : Returns w (OrgHeaders.fromRequest env caller org) fun headers w' =>
      headers.membershipStatus ≠ .revoked ∧ headers.membership = m ∧ headers.user = user ∧ w' = w := by
    refine Prog.Returns.bind (Headers.fromRequest_returns h) fun headers ⟨huser, hsame⟩ => ?_
    rw [hsame]
    refine Returns.query ?_
    rw [huser, hm]
    dsimp only
    rw [hstatus]
    exact Prog.Returns.ret ⟨hnot, rfl, rfl, rfl⟩
  refine Prog.Returns.bind hfound fun headers ⟨hnot, hfound⟩ => Returns.ensure ?_ ?_
  · refine decide_eq_true ⟨hnot, ?_⟩
    cases headers.membershipType <;> decide
  · exact Prog.Returns.ret hfound

/-- A new collection and nothing else. -/
def importNewCollection : OrgImportData := ⟨[], [⟨"new", [], [], none, none⟩], []⟩

theorem Collection.save_returns (h : w.db.hasOrganization k.orgUuid = true) :
    Returns w (k.save env) fun _ w' => k ∈ w'.db.collections.rows := by
  have hrevision : Returns w (k.updateUsersRevision env) ⊤ :=
    Returns.query (.each fun _ _ _ => .updateUuidRevision)
  refine Returns.still Collection.updateUsersRevision_writes hrevision fun _ w1 h1 => ?_
  rw [← (h1 .organizations).hasOrganization] at h
  refine (Returns.execGuarded rfl h).mono fun _ w' hdb => ?_
  rw [hdb]
  exact mem_upsert.2 (.inl rfl)

theorem postOrgImport_returns (ho : headers.membership.orgUuid = org)
    (horg : w.db.hasOrganization org = true)
    (hadmin : MembershipType.admin ≤ headers.membership.atype) :
    Returns w (postOrgImport env org importNewCollection headers) fun _ w' =>
      w'.db.CollectionIn ⟨w.nextUuid⟩ org := by
  have hchecked : Returns w (validateCipherData env.toConfig []) fun _ w' => w' = w :=
    Prog.Returns.ret rfl
  refine Returns.ensure (decide_eq_true ho.symm) (Prog.Returns.bind hchecked fun _ hsame => ?_)
  rw [show (validateCipherData env.toConfig importNewCollection.ciphers).after w = w from hsame]
  refine Returns.query ?_
  have hcreated : Returns w (Prog.foldl importNewCollection.collections []
      (importCollection env org headers.membership (Collection.findByOrganization w.db org)))
      fun _ w' => w'.db.CollectionIn ⟨w.nextUuid⟩ org := by
    have hmay : MembershipType.manager < headers.membership.atype :=
      MembershipType.manager_lt_of_admin_le hadmin
    refine Prog.Returns.bind (Q := fun _ w' => w'.db.CollectionIn ⟨w.nextUuid⟩ org)
      (Returns.ensure (decide_eq_true (.inl hmay)) (Returns.getUuid ?_)) fun _ h => .ret h
    refine Prog.Returns.bind (Collection.save_returns horg) fun _ hk => Prog.Returns.ret ?_
    exact ⟨_, hk, rfl, rfl⟩
  refine Prog.Returns.bind hcreated fun ks hk => ?_
  refine (Returns.frame User.updateRevision_writes Returns.execTotal).mono fun _ w' hw' => ?_
  rw [Db.CollectionIn, show w'.db.collections = _ from hw'.2 .collections (by decide)]
  exact hk

/-- Neither the cipher nor a link of it is stored. -/
def Db.Lacks (db : Db) (id : CipherId) : Prop :=
  (∀ x ∈ db.ciphers.rows, x.uuid ≠ id) ∧ ∀ cc ∈ db.ciphersCollections.rows, cc.cipherUuid ≠ id

theorem deleteCipherByUuid_returns (hc : c ∈ w.db.ciphers.rows)
    (hw : WriteRow env.toConfig w.db c user.uuid) :
    Returns w (deleteCipherByUuid env user.uuid .hardSingle c.uuid) fun _ w' =>
      w'.db.Lacks c.uuid := by
  refine .query ?_
  rw [findByUuid_of_mem hc]
  refine .query (.ensure ((isWriteAccessibleToUser_iff_row hc).2 hw) ?_)
  have hdelete : Returns w (c.delete env) fun _ w' => w'.db.Lacks c.uuid := by
    intro hs
    obtain ⟨a, ha, hgone⟩ := Cipher.delete_returns hs
    exact ⟨a, ha, fun x hx => (hgone x hx).2, Cipher.delete_leads hs⟩
  refine Prog.Returns.bind hdelete fun _ h => ?_
  have hrest : Writes [] (Prog.when (CipherDeleteOptions.hardSingle = .hardSingle)
      (c.updateUsersRevision env)) := .when Cipher.updateUsersRevision_writes
  refine (Returns.frame hrest (.when Cipher.updateUsersRevision_returns)).mono fun _ w' hw' => ?_
  rw [Db.Lacks, show w'.db.ciphers = _ from hw'.2 .ciphers not_mem_nil,
    show w'.db.ciphersCollections = _ from hw'.2 .ciphersCollections not_mem_nil]
  exact h

end

/-- **Who writes to the shared data.**  A member who is not confirmed writes to it in some request
exactly if their membership is pending with the role of an admin, or rows that were left behind let
them write to a cipher that the organization shares. -/
theorem sharedKept_iff (env : Env) (db : Db) (org : OrganizationId) (user : User) (m : Membership)
    (hm : Membership.findByUserAndOrg db user.uuid org = some m)
    (hc : m.hasStatus .confirmed = false) (horg : db.hasOrganization org = true)
    (hsession : ∃ caller : Caller, caller.IsSession env db user) :
    (∀ w : World, w.db = db → w.DrawsNew → ∀ request : Request,
      request.sharedBy user.uuid = true → SharedKept db org ((request.serve env).after w).db) ↔
    m.pendingAdmin = false ∧ Barred env.toConfig db org user.uuid := by
  constructor
  · intro hall
    obtain ⟨caller, hcaller⟩ := hsession
    have hsub : caller.token.claims.sub = user.uuid :=
      (of_decide_eq_true (mem_of_find? hcaller.2.2.1).2).symm
    obtain ⟨w, rfl, hfaults, hnew⟩ := World.exists_drawsNew db
    refine ⟨?_, fun c hmem hs hrow => ?_⟩
    · by_contra hp
      obtain ⟨hpending, hadmin⟩ := Bool.and_eq_true_iff.1 ((Bool.not_eq_false _).mp hp)
      have hkept := hall w rfl hnew (.organization caller org (.postOrgImport importNewCollection))
        (decide_eq_true hsub)
      have hcreates : Returns w
          ((Request.organization caller org (.postOrgImport importNewCollection)).serve env)
          fun _ w' => w'.db.CollectionIn ⟨w.nextUuid⟩ org := by
        refine .bind (OrgMemberHeaders.fromRequest_returns hcaller hm hpending)
          fun headers ⟨hmember, _, hsame⟩ => ?_
        have ho : headers.membership.orgUuid = org := by
          rw [hmember]
          exact (Membership.findByUserAndOrg_eq_some hm).2.2
        rw [hsame]
        refine .bind (postOrgImport_returns ho horg ?_) fun _ h => .ret h
        rw [hmember]
        exact of_decide_eq_true hadmin
      obtain ⟨_, -, k, hk, hid, ho⟩ := hcreates (Request.serve_writes.undisturbed hfaults)
      have hlt := hnew.collections k ((hkept.collections k ho).1 hk)
      rw [hid] at hlt
      exact absurd hlt (Nat.lt_irrefl _)
    · have hkept := hall w rfl hnew (.vault caller (.deleteCipher c.uuid .hardSingle))
        (decide_eq_true ⟨hsub, rfl⟩)
      have hdeletes : Returns w
          ((Request.vault caller (.deleteCipher c.uuid .hardSingle)).serve env) fun _ w' =>
          w'.db.Lacks c.uuid := by
        refine .bind (Headers.fromRequest_returns hcaller) fun headers ⟨huser, hsame⟩ => ?_
        rw [hsame, huser]
        exact .bind (deleteCipherByUuid_returns hmem hrow) fun _ h => .ret h
      obtain ⟨_, -, hgone, hlinks⟩ := hdeletes (Request.serve_writes.undisturbed hfaults)
      rcases hs with ⟨x, hx, hid, ho⟩ | ⟨cc, hcc, hid, hin⟩
      · exact hgone x ((hkept.ciphers x ho).2 hx) hid
      · exact hlinks cc ((hkept.links cc).2 ⟨hcc, .inr hin⟩).1 hid
  · rintro ⟨hp, hb⟩ w rfl hnew request hr
    exact request.sharedKept hnew hm hc hp hb hr

/-! ## A revoked member and a pending admin -/

namespace Leftover

def user : User := User.new {} 1 6 7 "member@example.com" none

def device : Device := ⟨⟨8⟩, ⟨1⟩, 0, 0, "browser", 9, none, none, 10, none⟩

def caller : Caller := Client.caller ⟨1⟩ user.securityStamp ⟨8⟩

/-- An admin of organization 2, with the given status. -/
def member (status : Int) : Membership :=
  { Membership.new 3 ⟨1⟩ ⟨2⟩ none with atype := .admin, status := status }

def revoked : Int := MembershipStatus.confirmed.toI32 - 128

def item : Cipher := { Cipher.new 5 0 1 "login" with organizationUuid := some ⟨2⟩ }

/-- The collection 4 of organization 2 holds cipher 5; `assigned` are the rows of user 1 on it. -/
def db (status : Int) (assigned : Table CollectionUser.key CollectionUser.key) : Db :=
  { Db.empty with
    users := .ofRows [user]
    devices := .ofRows [device]
    organizations := .ofRows [⟨⟨2⟩, "org", "owner@example.com", none, none⟩]
    usersOrganizations := .ofRows [member status]
    collections := .ofRows [⟨⟨4⟩, ⟨2⟩, "collection", none⟩]
    usersCollections := assigned
    ciphers := .ofRows [item]
    ciphersCollections := .ofRows [⟨⟨5⟩, ⟨4⟩⟩] }

def assignment : Table CollectionUser.key CollectionUser.key :=
  .ofRows [⟨⟨1⟩, ⟨4⟩, false, false, false⟩]

end Leftover

open Leftover in
/-- A revoked member without an assignment. -/
theorem sharedKept_iff_revoked :
    (∀ c ∈ (db revoked Table.empty).ciphers.rows,
      ¬ c.isWriteAccessibleToUser {} (db revoked Table.empty) ⟨1⟩ = true) ∧
    ∀ w : World, w.db = db revoked Table.empty → w.DrawsNew → ∀ request : Request,
      request.sharedBy ⟨1⟩ = true →
        SharedKept (db revoked Table.empty) ⟨2⟩ ((request.serve {}).after w).db := by
  have hrows : ∀ c ∈ (db revoked Table.empty).ciphers.rows,
      ¬ c.isWriteAccessibleToUser {} (db revoked Table.empty) ⟨1⟩ = true := by decide
  refine ⟨hrows, (sharedKept_iff {} (db revoked Table.empty) ⟨2⟩ user (member revoked) (by rfl)
    (by decide) (by decide) ⟨caller, by rfl, by decide, by rfl, by rfl⟩).2
    ⟨by decide, fun c hc _ hrow => ?_⟩⟩
  exact hrows c hc ((isWriteAccessibleToUser_iff_row hc).2 hrow)

open Leftover in
/-- **A revoked member deletes, hides and adds to what the organization shares, and a pending admin
creates a collection.** -/
theorem unconfirmed_writes :
    (((Request.vault caller (.deleteCipher ⟨5⟩ .hardSingle)).serve {}).after
      ⟨db revoked assignment, 20, [], [], []⟩).db.ciphers.rows.length = 0 ∧
    (((Request.vault caller (.postCollectionsUpdate ⟨5⟩ [])).serve {}).after
      ⟨db revoked assignment, 20, [], [], []⟩).db.ciphersCollections.rows.length = 0 ∧
    (((Request.vault caller (.postAttachment ⟨5⟩ ⟨some "key", some "file", 1⟩)).serve {}).after
      ⟨db revoked assignment, 20, [], [], []⟩).db.attachments.rows.length = 1 ∧
    (((Request.organization caller ⟨2⟩ (.postOrgImport importNewCollection)).serve {}).after
      ⟨db MembershipStatus.accepted.toI32 Table.empty, 20, [], [], []⟩).db.collections.rows.length =
        2 := by
  decide

end VaultServer
