import VaultServer.Access.Sync
import VaultServer.Access.Links

/-!
# Granting oneself the passwords

A user whose assignments hide the passwords of a cipher must not be able to move the cipher to where
they are shown. The requests on a single cipher ask for an editable collection, which a user with
hidden passwords does not have. Sharing and the bulk request ask only for write access to the
cipher. What such a user can reach with them is decided by the state before the request: a
collection that shows the passwords and may be added, or assignments that hide them and may all be
taken away while a group right remains.
-/

namespace VaultServer

open Lib Access List Option Table

variable {k : CollectionId} {data : BulkCollectionsData}

/-! ## What the rows permit -/

section
variable {cfg : Config} {db : Db} {c : Cipher} {u : UserId} {p : Permission}

/-- The rows that decide: the direct assignments, or where there is none the group rights. -/
def Grants (cfg : Config) (db : Db) (c : Cipher) (u : UserId) (p : Permission) : Prop :=
  (∃ cu, DirectOn db c u cu ∧ p.granted cu.flags = true) ∨
    (¬ ∃ cu, DirectOn db c u cu) ∧ ∃ cg, KeptGroupRight cfg db c u cg ∧ p.granted cg.flags = true

theorem grants_iff (hc : c ∈ db.ciphers.rows) (hf : Cipher.hasFullAccess cfg db c u none = false) :
    (Cipher.getAccessRestrictions cfg db c u none).any p.granted = true ↔ Grants cfg db c u p := by
  have hrows : (Cipher.getAccessRestrictions cfg db c u none).any p.granted = true ↔
      p.granted (Cipher.combineFlags (Cipher.liveFlags cfg db c u)) = true := by
    unfold Cipher.getAccessRestrictions
    rw [hf]
    by_cases hnil : Cipher.liveFlags cfg db c u = []
    · cases p <;> simp [hnil, Cipher.combineFlags, Permission.granted]
    · simp [hnil]
  rw [hrows]
  by_cases hd : ∃ cu, DirectOn db c u cu
  · rw [granted_liveFlags_of_direct hc hd]
    simp only [Grants, hd, not_true_eq_false, false_and, or_false]
  · rw [granted_liveFlags_of_no_direct hc hd]
    have hno : ∀ cu, ¬ DirectOn db c u cu := not_exists.1 hd
    simp [Grants, hno]

/-- Write access without full access. -/
theorem isWriteAccessibleToUser_iff (hc : c ∈ db.ciphers.rows)
    (hf : Cipher.hasFullAccess cfg db c u none = false) :
    c.isWriteAccessibleToUser cfg db u = true ↔
      Grants cfg db c u .write ∨ Grants cfg db c u .manage := by
  rw [← grants_iff hc hf, ← grants_iff hc hf]
  unfold Cipher.isWriteAccessibleToUser
  cases Cipher.getAccessRestrictions cfg db c u none with
  | none => simp
  | some => simp [Permission.granted]

/-- More precisely: equal rows on equal links permit the same. -/
theorem Grants.congr (hl : ∀ k, Linked db c k ↔ Linked db' c' k)
    (hd : ∀ k cu, Direct db u k cu ↔ Direct db' u k cu)
    (hg : ∀ k cg, GroupRight cfg db u k cg ↔ GroupRight cfg db' u k cg) :
    Grants cfg db c u p ↔ Grants cfg db' c' u p := by
  simp only [Grants, DirectOn, KeptGroupRight, hl, hd, hg]

end

/-! ## What the user could do -/

variable {env : Env} {w w0 : World} {c : Cipher} {u : UserId}

/-- The bulk request accepts the collection: it is listed for the user and writable by them. -/
def bulkAccepts (env : Env) (db : Db) (me : UserId) (org : OrganizationId) (k : CollectionId) :
    Bool :=
  ((Collection.findByOrganizationAndUserUuid env.toConfig db org me).find? fun x => x.uuid = k).any
    fun k => k.isWritableByUser env.toConfig db me

/-- A collection that may be added to the cipher shows the passwords. -/
def CanAdd (env : Env) (db : Db) (c : Cipher) (u : UserId) (org : OrganizationId) : Prop :=
  ∃ k, linkable env db u org k = true ∧
    ((∃ cu, Direct db u k cu ∧ cu.hidePasswords = false) ∨
      (¬ ∃ cu, DirectOn db c u cu) ∧ (∀ cu, ¬ Direct db u k cu) ∧
        ∃ cg, GroupRight env.toConfig db u k cg ∧ cg.hidePasswords = false)

/-- The assignments that hide what a group right shows may all be taken off the cipher. -/
def CanRemove (env : Env) (db : Db) (c : Cipher) (u : UserId) (org : OrganizationId) : Prop :=
  (Membership.findConfirmedByUserAndOrg db u org).isSome = true ∧
    (∀ k cu, Linked db c k → Direct db u k cu → bulkAccepts env db u org k = true) ∧
    ∃ cg, KeptGroupRight env.toConfig db c u cg ∧ cg.hidePasswords = false

/-- The user can get at the passwords of the cipher of the organization. -/
def Revealable (env : Env) (db : Db) (c : Cipher) (u : UserId) (org : OrganizationId) : Prop :=
  c.isWriteAccessibleToUser env.toConfig db u = true ∧
    (CanAdd env db c u org ∨ CanRemove env db c u org)

theorem findByOrganizationAndUserUuid_same {w w' : World} {org}
    (h : ∀ t ∈ accessParts, w.Same w' t) :
    Collection.findByOrganizationAndUserUuid env.toConfig w'.db org u =
      Collection.findByOrganizationAndUserUuid env.toConfig w.db org u := by
  obtain ⟨hk, hm, hu, hg, hgu, hcg⟩ := tables_of_same h
  simp only [Collection.findByOrganizationAndUserUuid, Collection.findByUserUuid,
    JoinRow.withAssignment, JoinRow.withMember, JoinRow.withMemberGroups, JoinRow.withGroupsUsers,
    JoinRow.withGroups, JoinRow.withCollectionRights, hk, hm, hu, hg, hgu, hcg]

/-- What the bulk request accepts, a share accepts. -/
theorem linkable_of_bulkAccepts {db org} (h : bulkAccepts env db u org k = true) :
    linkable env db u org k = true := by
  obtain ⟨k', hfind, hwr⟩ := (any_eq_true _ _).1 h
  have hid : k'.uuid = k := by simpa using find?_some hfind
  obtain ⟨hmem, horg⟩ := mem_filter.1 (mem_of_find?_eq_some hfind)
  have horg : k'.orgUuid = org := of_decide_eq_true horg
  have hmem := Collection.mem_of_mem_findByUserUuid hmem
  refine (any_eq_true _ _).2 ⟨k', ?_, hwr⟩
  refine find?_eq_some_of_unique hmem (decide_eq_true ⟨hid, horg⟩) fun s hs hp => ?_
  exact eq_of_key hs hmem ((of_decide_eq_true hp).1.trans hid.symm)

/-! ## Only the links of the cipher move -/

/-- The cipher has gained and lost links of the given kinds, and nothing else about access has
changed. -/
structure Relinked (w0 : World) (c : Cipher) (u : UserId) (gains losses : CollectionId → Prop)
    (w : World) : Prop where
  frame : ∀ t ∈ accessParts, w0.Same w t
  stored : ∃ c' ∈ w.db.ciphers.rows, c'.uuid = c.uuid
  rows : ∀ c' ∈ w.db.ciphers.rows, c'.uuid = c.uuid →
    c'.organizationUuid = c.organizationUuid ∧ c'.userUuid ≠ some u
  gained : ∀ k, Linked w.db c k → Linked w0.db c k ∨ gains k
  kept : ∀ k, Linked w0.db c k → Linked w.db c k ∨ losses k

namespace Relinked

variable {gains losses : CollectionId → Prop}

theorem refl (hc : c ∈ w.db.ciphers.rows) (hu : c.userUuid ≠ some u) :
    Relinked w c u gains losses w where
  frame t _ := .refl w t
  stored := ⟨c, hc, rfl⟩
  rows c' hc' h := by
    rw [eq_of_key hc' hc h]
    exact ⟨rfl, hu⟩
  gained _ h := .inl h
  kept _ h := .inl h

/-- What does not touch the ciphers, the links or another table of access keeps the relation. -/
theorem later (h : Relinked w0 c u gains losses w)
    (hs : ∀ t ∈ Part.ciphers :: .ciphersCollections :: accessParts, w.Same w' t) :
    Relinked w0 c u gains losses w' := by
  have hc : w'.db.ciphers = w.db.ciphers := hs .ciphers (by decide)
  have hl : ∀ k, Linked w'.db c k ↔ Linked w.db c k := by
    intro k
    unfold Linked
    rw [(hs .ciphersCollections (by decide)).links]
  refine ⟨fun t ht => (h.frame t ht).trans (hs t ?_), ?_, ?_, ?_, ?_⟩
  · exact mem_cons_of_mem _ (mem_cons_of_mem _ ht)
  · rw [hc]; exact h.stored
  · rw [hc]; exact h.rows
  · exact fun k hk => h.gained k ((hl k).1 hk)
  · exact fun k hk => (h.kept k hk).imp_left (hl k).2

section
variable (h : Relinked w0 c u gains losses w)
include h

theorem direct : Direct w.db u k cu ↔ Direct w0.db u k cu := by
  rw [Direct, Direct, (tables_of_same h.frame).2.2.1]

theorem groupRight {cfg cg} : GroupRight cfg w.db u k cg ↔ GroupRight cfg w0.db u k cg := by
  obtain ⟨-, hm, -, hg, hgu, hcg⟩ := tables_of_same h.frame
  simp only [GroupRight, MemberOf, ByGroup, GroupOf, hm, hg, hgu, hcg]

theorem hasFullAccess {cfg c'} (hc' : c' ∈ w.db.ciphers.rows)
    (hu : c'.uuid = c.uuid) (hf : Cipher.hasFullAccess cfg w0.db c u none = false) :
    Cipher.hasFullAccess cfg w.db c' u none = false := by
  obtain ⟨-, hm, -, hg, hgu, -⟩ := tables_of_same h.frame
  obtain ⟨horg, howner⟩ := h.rows c' hc' hu
  rw [← Bool.not_eq_true, hasFullAccess_iff] at hf ⊢
  simp only [ConfirmedIn, MemberOf, GroupOf, hm, hg, hgu, horg, howner, false_or] at hf ⊢
  exact fun hfull => hf (.inr hfull)

end

end Relinked

/-! ## Handlers -/

section
variable {gains losses : CollectionId → Prop}

/-- Pieces of a handler keep the relation to the state before the request. -/
def relinking (w0 : World) (c : Cipher) (u : UserId) (gains losses : CollectionId → Prop) :
    Guarantee World where
  inv := Relinked w0 c u gains losses
  rel _ _ := True
  refl _ := trivial
  trans _ _ := trivial

abbrev Relinks (w0 : World) (c : Cipher) (u : UserId) (gains losses : CollectionId → Prop)
    {α : Type} (w : World) (prog : Cmd α) (Q : α → World → Prop) : Prop :=
  Prog.Safe (relinking w0 c u gains losses) w prog Q

namespace Relinks

theorem of_writes {prog : Cmd α} (h : Writes S prog)
    (hs : ∀ t ∈ Part.ciphers :: .ciphersCollections :: accessParts, t ∉ S) :
    Relinks w0 c u gains losses w prog ⊤ :=
  Prog.Ends.of_after fun hw => ⟨hw.later fun t ht => h.after (hs t ht) w, trivial⟩

theorem exec {stmt message label}
    (h : ∀ db', stmt w.db = some db' → Relinked w0 c u gains losses w →
      Relinked w0 c u gains losses { w with db := db' }) :
    Relinks w0 c u gains losses w (VaultServer.exec stmt message label) ⊤ := by
  refine (Safe.exec (fun hw => ⟨?_, trivial⟩) fun db' hs hw => ⟨?_, trivial⟩).mono
    fun _ _ _ => trivial
  · exact Relinked.later hw fun t _ => .of_eq rfl rfl rfl t
  · exact Relinked.later (h db' hs hw) fun t _ => .of_eq rfl rfl rfl t

theorem updateUsersRevision :
    Relinks w0 c u gains losses w (CollectionCipher.updateUsersRevision env k) ⊤ :=
  of_writes (S := []) CollectionCipher.updateUsersRevision_writes fun _ _ => not_mem_nil

/-- Another set of links, with bounds on those of the cipher. -/
theorem relink (hw : Relinked w0 c u gains losses w)
    (hin : ∀ cc ∈ links.rows, cc ∈ w.db.ciphersCollections.rows ∨
      (cc.cipherUuid = c.uuid → gains cc.collectionUuid))
    (hout : ∀ cc ∈ w.db.ciphersCollections.rows, cc ∈ links.rows ∨
      (cc.cipherUuid = c.uuid → losses cc.collectionUuid)) :
    Relinked w0 c u gains losses { w with db := { w.db with ciphersCollections := links } } := by
  refine ⟨fun t ht => (hw.frame t ht).trans ?_, hw.stored, hw.rows, ?_, ?_⟩
  · cases t <;> first | rfl | exact absurd ht (by decide)
  · rintro k ⟨cc, hcc, hid, rfl⟩
    rcases hin cc hcc with h | h
    · exact hw.gained _ ⟨cc, h, hid, rfl⟩
    · exact .inr (h hid)
  · intro k hk
    rcases hw.kept k hk with ⟨cc, hcc, hid, rfl⟩ | hk
    · rcases hout cc hcc with h | h
      · exact .inl ⟨cc, h, hid, rfl⟩
      · exact .inr (h hid)
    · exact .inr hk

theorem saveLink {id} (hk : id = c.uuid → gains k) :
    Relinks w0 c u gains losses w (CollectionCipher.save env id k) ⊤ := by
  refine .bind updateUsersRevision fun _ w1 _ _ _ => exec fun db' hs hw => ?_
  obtain ⟨-, rfl⟩ := Db.guarded_eq_some hs
  refine relink hw (fun cc hcc => ?_) fun cc hcc => .inl ?_
  · rcases mem_upsert.1 hcc with rfl | ⟨hcc, -⟩
    · exact .inr hk
    · exact .inl hcc
  · refine mem_upsert.2 ?_
    by_cases heq : cc.key = CollectionCipher.key ⟨id, k⟩
    · exact .inl (congrArg (fun key => CollectionCipher.mk key.1 key.2) heq)
    · exact .inr ⟨hcc, heq⟩

theorem deleteLink {id} (hk : id = c.uuid → losses k) :
    Relinks w0 c u gains losses w (CollectionCipher.delete env id k) ⊤ := by
  refine .bind updateUsersRevision fun _ w1 _ _ _ => exec fun db' hs hw => ?_
  obtain rfl := Option.some.inj hs
  refine relink hw (fun cc hcc => .inl (mem_deleteWhere.1 hcc).1) fun cc hcc => ?_
  by_cases heq : cc.cipherUuid = id ∧ cc.collectionUuid = k
  · obtain ⟨rfl, rfl⟩ := heq
    exact .inr hk
  · exact .inl (mem_deleteWhere.2 ⟨hcc, decide_eq_false heq⟩)

/-- A cipher is stored; the one in question stays in its organization. -/
theorem saveCipher {x : Cipher} (hx : x.uuid = c.uuid →
      x.organizationUuid = c.organizationUuid ∧ x.userUuid ≠ some u) :
    Relinks w0 c u gains losses w (x.save env) ⊤ := by
  have hrevision : Relinks w0 c u gains losses w (x.updateUsersRevision env) ⊤ :=
    of_writes (S := []) Cipher.updateUsersRevision_writes fun _ _ => not_mem_nil
  refine .bind hrevision fun _ w1 _ _ _ => ?_
  refine .bind (exec fun db' hs hw => ?_) fun _ _ _ _ _ => .ret trivial
  obtain ⟨-, rfl⟩ := Db.guarded_eq_some hs
  refine ⟨fun t ht => (hw.frame t ht).trans ?_, ?_, ?_, hw.gained, hw.kept⟩
  · cases t <;> first | rfl | exact absurd ht (by decide)
  · obtain ⟨c', hc', hid⟩ := hw.stored
    obtain ⟨y, hy, hkey⟩ := exists_mem_upsert (r := { x with updatedAt := env.now }) hc'
    exact ⟨y, hy, hkey.trans hid⟩
  · intro c' hc' hid
    rcases mem_upsert.1 hc' with rfl | ⟨hc', -⟩
    · exact hx hid
    · exact hw.rows c' hc' hid

theorem chooseOwner {x org cols} :
    Relinks w0 c u gains losses w (VaultServer.chooseOwner env x org u cols) fun x' _ =>
      x'.uuid = x.uuid ∧ ∀ o, org = some o → x'.organizationUuid = some o ∧ x'.userUuid = none := by
  unfold VaultServer.chooseOwner
  split
  · exact .ret ⟨rfl, nofun⟩
  · refine Safe.query ?_
    split
    · exact .fail
    · exact Safe.query (Safe.ensure fun _ => .ret ⟨rfl, fun o ho => ⟨ho, rfl⟩⟩)

theorem updateCipherFromData {x : Cipher} {data : CipherData} {cols : Option (List CollectionId)}
    {ut : UpdateType} {org : OrganizationId} (ho : c.organizationUuid = some org)
    (hx : x.uuid = c.uuid → data.organizationId = some org) :
    Relinks w0 c u gains losses w (VaultServer.updateCipherFromData env x data u cols ut) ⊤ := by
  have hquiet : ∀ {α} {w : World} {prog : Cmd α}, Writes [] prog →
      Relinks w0 c u gains losses w prog ⊤ :=
    fun h => of_writes h fun _ _ => not_mem_nil
  refine .bind (hquiet checkUpdate_writes) fun _ _ _ _ _ => ?_
  refine .bind chooseOwner fun x2 _ _ _ ⟨hid2, howner2⟩ => ?_
  refine .bind (hquiet checkFolder_writes) fun _ _ _ _ _ => ?_
  refine .bind (of_writes updateAttachments_writes (by decide)) fun _ _ _ _ _ => ?_
  refine Safe.lift fun x5 hfill => ?_
  obtain ⟨hid5, horg5, huser5⟩ := CipherData.fill_eq_ok hfill
  refine .bind (saveCipher fun hid => ?_) fun _ _ _ _ _ => ?_
  · obtain ⟨h1, h2⟩ := howner2 org (hx (hid2.symm.trans (hid5.symm.trans hid)))
    rw [horg5, huser5, h1, h2, ho]
    exact ⟨rfl, nofun⟩
  · refine .bind (of_writes writeUserMarks_writes (by decide)) fun _ _ _ _ _ => ?_
    exact .bind (hquiet (.when Cipher.updateUsersRevision_writes)) fun _ _ _ _ _ => .ret trivial

end Relinks

/-- Write access at any point of the request was there before it. -/
theorem Relinked.writable {cfg x} (h : Relinked w0 c u gains losses w)
    (hc : c ∈ w0.db.ciphers.rows) (hf : Cipher.hasFullAccess cfg w0.db c u none = false)
    (hg : ∀ k, gains k → c.isWriteAccessibleToUser cfg w0.db u = true)
    (hl : ∀ k, losses k → c.isWriteAccessibleToUser cfg w0.db u = true)
    (hx : x ∈ w.db.ciphers.rows) (hid : x.uuid = c.uuid)
    (hw : x.isWriteAccessibleToUser cfg w.db u = true) :
    c.isWriteAccessibleToUser cfg w0.db u = true := by
  by_contra hno
  -- nothing could be gained or lost, so the rows on the cipher are the ones from before
  have hlinks : ∀ k, Linked w.db x k ↔ Linked w0.db c k := by
    intro k
    have hsame : Linked w.db x k ↔ Linked w.db c k := by rw [Linked, Linked, hid]
    rw [hsame]
    constructor
    · exact fun hk => (h.gained k hk).resolve_right fun hgk => hno (hg k hgk)
    · exact fun hk => (h.kept k hk).resolve_right fun hlk => hno (hl k hlk)
  rw [isWriteAccessibleToUser_iff hx (h.hasFullAccess hx hid hf),
    Grants.congr hlinks (fun _ _ => h.direct) fun _ _ => h.groupRight,
    Grants.congr hlinks (fun _ _ => h.direct) fun _ _ => h.groupRight,
    ← isWriteAccessibleToUser_iff hc hf] at hw
  exact hno hw

end

/-! ## Requests -/

section

/-- The links a user may add to the cipher. -/
def Addable (env : Env) (db : Db) (c : Cipher) (u : UserId) (org : OrganizationId)
    (named : List CollectionId) (k : CollectionId) : Prop :=
  c.isWriteAccessibleToUser env.toConfig db u = true ∧ linkable env db u org k = true ∧ k ∈ named

/-- The links a user may take off the cipher. -/
def Removable (env : Env) (db : Db) (c : Cipher) (u : UserId) (org : OrganizationId)
    (named : List CollectionId) (k : CollectionId) : Prop :=
  c.isWriteAccessibleToUser env.toConfig db u = true ∧
    (Membership.findConfirmedByUserAndOrg db u org).isSome = true ∧
    bulkAccepts env db u org k = true ∧ k ∈ named

variable {org : OrganizationId} (hc : c ∈ w0.db.ciphers.rows)
  (ho : c.organizationUuid = some org)
  (hf : Cipher.hasFullAccess env.toConfig w0.db c u none = false)
include hc ho hf

theorem shareCipherByUuid_relinks {id : CipherId} (data : ShareCipherData)
    (hid : id = c.uuid → data.cipher.organizationId = some org) :
    Relinks w0 c u (Addable env w0.db c u org data.collectionIds) (fun _ => False) w
      (shareCipherByUuid env id data u ut) ⊤ := by
  refine .of_inv fun hw => Safe.query ?_
  cases hfind : Cipher.findByUuid w.db id with
  | none => exact .fail
  | some x =>
    obtain ⟨hx, hxid⟩ := Cipher.findByUuid_eq_some hfind
    refine Safe.query (Safe.ensure fun hwr => Safe.ensure fun _ => ?_)
    have hwr0 : x.uuid = c.uuid → c.isWriteAccessibleToUser env.toConfig w0.db u = true :=
      fun h => hw.writable hc hf (fun _ h => h.1) (fun _ h => h.elim) hx h hwr
    refine .bind (Q := ⊤) ?_ fun _ _ _ _ _ => ?_
    · unfold linkAllShared
      split
      · exact .ret trivial
      · next o hdo =>
        refine .foldl (J := ⊤) trivial fun _ k hk w1 hw1 _ _ => ?_
        refine Safe.query ?_
        cases hfindk : Collection.findByUuidAndOrg w1.db k o with
        | none => exact .fail
        | some k' =>
          refine Safe.query (Safe.ensure fun hwrk => ?_)
          obtain ⟨-, hku, -⟩ := Collection.findByUuidAndOrg_eq_some hfindk
          refine .bind (Relinks.saveLink fun h => ⟨hwr0 h, ?_, ?_⟩) fun _ _ _ _ _ => .ret trivial
          · -- the collection may be linked now, so it might have been before
            have horg : o = org := Option.some.inj (hdo.symm.trans (hid (hxid.symm.trans h)))
            rw [← linkable_same hw1.frame, ← horg, hku]
            exact (any_eq_true _ _).2 ⟨k', hfindk, hwrk⟩
          · rw [hku]; exact hk
    · refine .bind (Relinks.updateCipherFromData ho fun h => hid (hxid.symm.trans h))
        fun _ _ _ _ _ => ?_
      exact Relinks.of_writes (S := []) Cipher.toJson_writes fun _ _ => not_mem_nil

theorem putCipherShareSelected_relinks {data}
    (hid : ∀ d ∈ data.ciphers, d.id = some c.uuid → d.organizationId = some org) :
    Relinks w0 c u (Addable env w0.db c u org data.collectionIds) (fun _ => False) w
      (putCipherShareSelected env data u) ⊤ := by
  refine Safe.ensure fun _ => Safe.ensure fun _ => Safe.ensure fun _ => ?_
  refine .each fun d hd w1 _ _ => ?_
  unfold shareSelected
  split
  · exact .fail
  · next id hdid =>
    refine shareCipherByUuid_relinks hc ho hf ⟨{ d with id := none }, data.collectionIds⟩ fun h => ?_
    rw [h] at hdid
    exact hid d (mem_reverse.1 hd) hdid

omit hc ho hf in
/-- The bulk request goes on only if it accepts every collection. -/
theorem checkBulkCollections_relinks {gains losses} :
    Relinks w0 c u gains losses w (checkBulkCollections env data u) fun _ _ =>
      ∀ k ∈ env.walk.order data.collectionIds.dedup,
        bulkAccepts env w0.db u data.organizationId k = true := by
  refine .of_inv fun hw => Safe.query ?_
  refine .each_all (fun _ _ _ _ h => h) fun id _ w1 hw1 _ => ?_
  split
  · exact .fail
  · next k hk =>
    rw [findByOrganizationAndUserUuid_same hw.frame] at hk
    refine Safe.query ?_
    cases hwr : k.isWritableByUser env.toConfig w1.db u with
    | false => exact .fail
    | true =>
      rw [isWritableByUser_same hw1.frame] at hwr
      exact .ret ((any_eq_true _ _).2 ⟨k, hk, hwr⟩)

/-- Either every link it writes may be added, or every link it takes away may be removed. -/
theorem postBulkCollections_relinks {gains losses}
    (hg : ∀ k, gains k → c.isWriteAccessibleToUser env.toConfig w0.db u = true)
    (hl : ∀ k, losses k → c.isWriteAccessibleToUser env.toConfig w0.db u = true)
    (hadd : data.removeCollections = false →
      ∀ k, Addable env w0.db c u org data.collectionIds k → gains k)
    (hremove : data.removeCollections = true →
      ∀ k, Removable env w0.db c u org data.collectionIds k → losses k) :
    Relinks w0 c u gains losses w (postBulkCollections env data u) ⊤ := by
  refine .of_inv fun hw => Safe.query (Safe.ensure fun hmember => ?_)
  rw [(hw.frame .usersOrganizations (by decide)).findConfirmed] at hmember
  refine .bind checkBulkCollections_relinks fun _ _ _ _ haccepts => ?_
  refine .each fun id _ w1 hw1 _ => Safe.query ?_
  cases hfind : Cipher.findByUuidAndOrg w1.db id data.organizationId with
  | none => exact .ret trivial
  | some x =>
    obtain ⟨hx, hp⟩ := mem_of_find? hfind
    obtain ⟨-, hxo⟩ : x.uuid = id ∧ x.organizationUuid = some data.organizationId :=
      of_decide_eq_true hp
    refine Safe.query ?_
    split
    · next hwr =>
      refine .each fun k hk w2 _ _ => ?_
      have hbulk := haccepts k hk
      have hnamed : k ∈ data.collectionIds := mem_dedup.1 ((env.walk.perm _).mem_iff.1 hk)
      -- where the round is about the cipher, the request is about its organization
      have horg : x.uuid = c.uuid → data.organizationId = org := fun h =>
        Option.some.inj (hxo.symm.trans ((hw1.rows x hx h).1.trans ho))
      have hwr0 : x.uuid = c.uuid → c.isWriteAccessibleToUser env.toConfig w0.db u = true :=
        fun h => hw1.writable hc hf hg hl hx h hwr
      split
      · next hr =>
        refine Relinks.deleteLink fun h => hremove hr k ⟨hwr0 h, ?_, ?_, hnamed⟩
        · rw [← horg h]; exact hmember
        · rw [← horg h]; exact hbulk
      · next hr =>
        refine Relinks.saveLink fun h => hadd (by simpa using hr) k ⟨hwr0 h, ?_, hnamed⟩
        rw [← horg h]
        exact linkable_of_bulkAccepts hbulk
    · exact .ret trivial

end

/-! ## Hidden passwords stay hidden -/

/-- The passwords of the cipher are hidden from the user, or the user does not reach it. -/
def Hidden (cfg : Config) (db : Db) (c : Cipher) (u : UserId) : Prop :=
  ∀ x ∈ db.ciphers.rows, x.uuid = c.uuid → ∀ readOnly hidePasswords manage,
    Cipher.getAccessRestrictions cfg db x u none = some (readOnly, hidePasswords, manage) →
      hidePasswords = true

/-- The requests that change the collections of the cipher; a share is one into its own
organization. -/
def VaultRequest.OnCollectionsOf (c : Cipher) : VaultRequest → Prop
  | postCipherShare id data => id = c.uuid ∧ data.cipher.organizationId = c.organizationUuid
  | putCipherShareSelected data =>
    ∀ d ∈ data.ciphers, d.id = some c.uuid → d.organizationId = c.organizationUuid
  | postCollectionsUpdate id _ | postCollectionsAdmin id _ => id = c.uuid
  | postBulkCollections _ => True
  | _ => False

section
variable {gains losses : CollectionId → Prop} {org : OrganizationId}

theorem granted_seePasswords : Permission.seePasswords.granted f = true ↔ f.2.1 = false := by
  simp [Permission.granted]

theorem Relinked.hidden_iff {cfg} (h : Relinked w0 c u gains losses w)
    (hf : Cipher.hasFullAccess cfg w0.db c u none = false) :
    Hidden cfg w.db c u ↔ ¬ Grants cfg w.db c u .seePasswords := by
  have hrow : ∀ x ∈ w.db.ciphers.rows, x.uuid = c.uuid →
      ((Cipher.getAccessRestrictions cfg w.db x u none).any Permission.seePasswords.granted = true ↔
        Grants cfg w.db c u .seePasswords) := by
    intro x hx hid
    rw [grants_iff hx (h.hasFullAccess hx hid hf)]
    exact Grants.congr (fun k => by rw [Linked, Linked, hid]) (fun _ _ => .rfl) fun _ _ => .rfl
  constructor
  · intro hidden hg
    obtain ⟨x, hx, hid⟩ := h.stored
    obtain ⟨⟨ro, hp, mn⟩, hfl, hgr⟩ := (any_eq_true _ _).1 ((hrow x hx hid).2 hg)
    rw [hidden x hx hid ro hp mn hfl] at hgr
    cases hgr
  · intro hg x hx hid ro hp mn hfl
    by_contra hne
    refine hg ((hrow x hx hid).1 ((any_eq_true _ _).2 ⟨_, hfl, ?_⟩))
    exact granted_seePasswords.2 ((Bool.not_eq_true _).mp hne)

/-- Adding what may be added reveals the passwords only if some collection among it shows them. -/
theorem Relinked.canAdd (h : Relinked w0 c u (Addable env w0.db c u org named) (fun _ => False) w)
    (hno : ¬ Grants env.toConfig w0.db c u .seePasswords)
    (hg : Grants env.toConfig w.db c u .seePasswords) : Revealable env w0.db c u org := by
  rcases hg with ⟨cu, ⟨k, hl, hd⟩, hsee⟩ | ⟨hnone, cg, ⟨k, hl, hnd, hright⟩, hsee⟩
  · have hd := h.direct.1 hd
    rcases h.gained k hl with hl | ⟨hwr, hlk, -⟩
    · exact absurd (.inl ⟨cu, ⟨k, hl, hd⟩, hsee⟩) hno
    · exact ⟨hwr, .inl ⟨k, hlk, .inl ⟨cu, hd, granted_seePasswords.1 hsee⟩⟩⟩
  · have hright := h.groupRight.1 hright
    have hnd : ∀ cu, ¬ Direct w0.db u k cu := fun cu hd => hnd cu (h.direct.2 hd)
    -- no link went away, so there was no assignment before either
    have hnone : ¬ ∃ cu, DirectOn w0.db c u cu := fun ⟨cu, k', hl', hd'⟩ =>
      hnone ⟨cu, k', (h.kept k' hl').resolve_right id, h.direct.2 hd'⟩
    rcases h.gained k hl with hl | ⟨hwr, hlk, -⟩
    · exact absurd (.inr ⟨hnone, cg, ⟨k, hl, hnd, hright⟩, hsee⟩) hno
    · exact ⟨hwr, .inl ⟨k, hlk, .inr ⟨hnone, hnd, cg, hright, granted_seePasswords.1 hsee⟩⟩⟩

/-- Taking links away reveals them only if all assignments go and a group right stays. -/
theorem Relinked.canRemove
    (h : Relinked w0 c u (fun _ => False) (Removable env w0.db c u org named) w)
    (hno : ¬ Grants env.toConfig w0.db c u .seePasswords)
    (hg : Grants env.toConfig w.db c u .seePasswords) : Revealable env w0.db c u org := by
  have hback : ∀ k, Linked w.db c k → Linked w0.db c k :=
    fun k hl => (h.gained k hl).resolve_right id
  rcases hg with ⟨cu, ⟨k, hl, hd⟩, hsee⟩ | ⟨hnone, cg, ⟨k, hl, hnd, hright⟩, hsee⟩
  · exact absurd (.inl ⟨cu, ⟨k, hback k hl, h.direct.1 hd⟩, hsee⟩) hno
  · have hkept : KeptGroupRight env.toConfig w0.db c u cg :=
      ⟨k, hback k hl, fun cu hd => hnd cu (h.direct.2 hd), h.groupRight.1 hright⟩
    have hgone : ∀ k cu, Linked w0.db c k → Direct w0.db u k cu →
        Removable env w0.db c u org named k := fun k cu hl hd =>
      (h.kept k hl).resolve_left fun hl' => hnone ⟨cu, k, hl', h.direct.2 hd⟩
    by_cases hany : ∃ cu, DirectOn w0.db c u cu
    · obtain ⟨cu, k, hl, hd⟩ := hany
      obtain ⟨hwr, hmember, -, -⟩ := hgone k cu hl hd
      exact ⟨hwr, .inr ⟨hmember, fun k cu hl hd => (hgone k cu hl hd).2.2.1, cg, hkept,
        granted_seePasswords.1 hsee⟩⟩
    · exact absurd (.inr ⟨hany, cg, hkept, hsee⟩) hno

theorem findByUuid_of_mem {db} (hc : c ∈ db.ciphers.rows) : Cipher.findByUuid db c.uuid = some c :=
  find?_key hc

/-- A user who does not see the passwords has no editable collection. -/
theorem updateCollections_refuses (hc : c ∈ w.db.ciphers.rows)
    (hr : Cipher.getAccessRestrictions env.toConfig w.db c u none = some (ro, true, false)) :
    Prog.Refuses w (updateCollections env c.uuid posted u current) := by
  refine Refuses.query ?_
  rw [findByUuid_of_mem hc]
  refine Refuses.query (Refuses.ensure fun heditable => ?_)
  rw [Cipher.isInEditableCollectionByUser, hr] at heditable
  simp at heditable

theorem owner_ne_of_hasFullAccess {cfg} (hf : Cipher.hasFullAccess cfg w.db c u none = false) :
    c.userUuid ≠ some u := by
  intro h
  rw [← Bool.not_eq_true, hasFullAccess_iff] at hf
  exact hf (.inl h)

/-- What a request can have done to the links of the cipher. -/
theorem relinked_after_request {request : VaultRequest} {user : User}
    (hrequest : request.OnCollectionsOf c) (hc : c ∈ w.db.ciphers.rows)
    (ho : c.organizationUuid = some org)
    (hr : Cipher.getAccessRestrictions env.toConfig w.db c user.uuid none = some (ro, true, false))
    (hf : Cipher.hasFullAccess env.toConfig w.db c user.uuid none = false) :
    (∃ named, Relinked w c user.uuid (Addable env w.db c user.uuid org named) (fun _ => False)
      ((request.handle env user).after w)) ∨
    ∃ named, Relinked w c user.uuid (fun _ => False) (Removable env w.db c user.uuid org named)
      ((request.handle env user).after w) := by
  have howner := owner_ne_of_hasFullAccess hf
  have hstart : ∀ {gains losses}, Relinked w c user.uuid gains losses w := .refl hc howner
  have hrefused : ∀ {posted current}, Relinked w c user.uuid
      (Addable env w.db c user.uuid org []) (fun _ => False)
      ((updateCollections env c.uuid posted user.uuid current).after w) := by
    intro posted current
    rw [(updateCollections_refuses hc hr).after]
    exact hstart
  cases request with
  | postCipherShare id data =>
    obtain ⟨-, hdo⟩ := hrequest
    have hsafe : Relinks w c user.uuid _ _ w (shareCipherByUuid env id data user.uuid none) _ :=
      shareCipherByUuid_relinks hc ho hf data fun _ => hdo.trans ho
    exact .inl ⟨_, (hsafe.after hstart).1⟩
  | putCipherShareSelected data =>
    have hsafe : Relinks w c user.uuid _ _ w (putCipherShareSelected env data user.uuid) _ :=
      putCipherShareSelected_relinks hc ho hf fun d hd hid => (hrequest d hd hid).trans ho
    exact .inl ⟨_, (hsafe.after hstart).1⟩
  | postCollectionsUpdate id posted =>
    obtain rfl : id = c.uuid := hrequest
    exact .inl ⟨[], hrefused⟩
  | postCollectionsAdmin id posted =>
    obtain rfl : id = c.uuid := hrequest
    exact .inl ⟨[], hrefused⟩
  | postBulkCollections data =>
    cases hrm : data.removeCollections with
    | false =>
      have hsafe : Relinks w c user.uuid (Addable env w.db c user.uuid org data.collectionIds)
          (fun _ => False) w (postBulkCollections env data user.uuid) _ :=
        postBulkCollections_relinks hc ho hf (fun _ h => h.1) (fun _ h => h.elim) (fun _ _ h => h)
          fun h => nomatch hrm.symm.trans h
      exact .inl ⟨_, (hsafe.after hstart).1⟩
    | true =>
      have hsafe : Relinks w c user.uuid (fun _ => False)
          (Removable env w.db c user.uuid org data.collectionIds) w
          (postBulkCollections env data user.uuid) _ :=
        postBulkCollections_relinks hc ho hf (fun _ h => h.elim) (fun _ h => h.1)
          (fun h => nomatch hrm.symm.trans h) fun _ _ h => h
      exact .inr ⟨_, (hsafe.after hstart).1⟩
  | _ => exact hrequest.elim

end

/-! ## The requests that do reveal them -/

section
variable {org : OrganizationId}

/-- A share of the cipher with one collection, whatever becomes of the rest of the request. -/
def shareInto (org : OrganizationId) (k : CollectionId) : ShareCipherData :=
  ⟨{ type := 1, name := "", organizationId := some org }, [k]⟩

theorem shareInto_leads (hc : c ∈ w.db.ciphers.rows)
    (ho : c.organizationUuid = some org) (hwr : c.isWriteAccessibleToUser env.toConfig w.db u = true)
    (hk : linkable env w.db u org k = true) :
    Prog.Leads Call.fails w (shareCipherByUuid env c.uuid (shareInto org k) u none)
      fun w' => Linked w'.db c k := by
  refine Leads.query ?_
  rw [findByUuid_of_mem hc]
  refine Leads.query (Leads.ensure hwr (Leads.ensure ?_ ?_))
  · simp [CipherData.orgMismatch, ho, shareInto]
  have hlink : Returns w (linkAllShared env c.uuid u (shareInto org k)) fun _ w' =>
      ⟨c.uuid, k⟩ ∈ w'.db.ciphersCollections.rows :=
    Prog.Returns.bind (linkShared_returns (hasCipher_of_mem hc) hk) fun _ h => Prog.Returns.ret h.2
  refine Prog.Leads.bind hlink fun shared hmem => ?_
  -- the rest of the request leaves the links alone
  have hrest : ∀ shared, Writes updateParts (do
      let x ← updateCipherFromData env c (shareInto org k).cipher u (some shared)
        (shareUpdateType (shareInto org k) none)
      x.toJson) := fun _ => .bind updateCipherFromData_writes fun _ => Cipher.toJson_writes
  intro _
  refine ⟨⟨c.uuid, k⟩, ?_, rfl, rfl⟩
  rw [World.Same.links ((hrest shared).after (by decide) _)]
  exact hmem

theorem checkBulkCollections_returns
    (h : ∀ k ∈ data.collectionIds, bulkAccepts env w.db u data.organizationId k = true) :
    Returns w (checkBulkCollections env data u) fun _ w' => w' = w := by
  refine Returns.query (Prog.Returns.each (J := fun w' => w' = w) rfl ?_)
  rintro k hk w' rfl
  have hk : k ∈ data.collectionIds := mem_dedup.1 ((env.walk.perm _).mem_iff.1 hk)
  obtain ⟨k', hfind, hwr⟩ := (any_eq_true _ _).1 (h k hk)
  rw [hfind]
  exact Returns.query (Returns.ensure_last hwr rfl)

/-- The loop over the collections; those taken off already stay off. -/
theorem deleteLinks_returns {id ks} (done : List CollectionId)
    (hdone : ∀ k ∈ done, ⟨id, k⟩ ∉ w.db.ciphersCollections.rows) :
    Returns w (Prog.each ks fun k => CollectionCipher.delete env id k) fun _ w' =>
      ∀ k ∈ done ++ ks, ⟨id, k⟩ ∉ w'.db.ciphersCollections.rows := by
  induction ks generalizing w done with
  | nil => exact .ret (by rw [append_nil]; exact hdone)
  | cons k ks ih =>
    have hround : Returns w (CollectionCipher.delete env id k) fun _ w' =>
        ∀ x ∈ done ++ [k], ⟨id, x⟩ ∉ w'.db.ciphersCollections.rows := by
      refine Prog.Returns.bind CollectionCipher.updateUsersRevision_returns fun _ _ => ?_
      refine Returns.execTotal.mono fun _ w' hdb x hx hmem => ?_
      rw [hdb] at hmem
      obtain ⟨hmem, hne⟩ := mem_deleteWhere.1 hmem
      rw [World.Same.links (CollectionCipher.updateUsersRevision_writes.still w _)] at hmem
      rcases mem_append.1 hx with hx | hx
      · exact hdone x hx hmem
      · rw [mem_singleton.1 hx] at hne
        simp at hne
    refine .bind hround fun _ h => (ih _ h).mono fun _ w' h' x hx => h' x ?_
    rw [append_assoc]
    exact hx

/-- A bulk request that takes the named collections off the cipher. -/
def bulkRemoval (org : OrganizationId) (c : CipherId) (ks : List CollectionId) :
    BulkCollectionsData :=
  ⟨org, [c], ks, true⟩

theorem bulkRemoval_leads (hc : c ∈ w.db.ciphers.rows)
    (ho : c.organizationUuid = some org) (hwr : c.isWriteAccessibleToUser env.toConfig w.db u = true)
    (hmember : (Membership.findConfirmedByUserAndOrg w.db u org).isSome = true)
    (hks : ∀ k ∈ ks, bulkAccepts env w.db u org k = true) :
    Prog.Leads Call.fails w (postBulkCollections env (bulkRemoval org c.uuid ks) u)
      fun w' => ∀ k ∈ ks, ¬ Linked w'.db c k := by
  refine Leads.query (Leads.ensure hmember ?_)
  refine Prog.Leads.bind (checkBulkCollections_returns hks) fun _ hw => ?_
  rw [hw]
  have hfind : Cipher.findByUuidAndOrg w.db c.uuid org = some c :=
    find?_eq_some_of_unique hc (decide_eq_true ⟨rfl, ho⟩) fun _ hs hp =>
      eq_of_key hs hc (of_decide_eq_true hp).1
  have hcipher : Returns w (bulkCipher env (bulkRemoval org c.uuid ks) u c.uuid) fun _ w' =>
      ∀ k ∈ env.walk.order ks.dedup, ⟨c.uuid, k⟩ ∉ w'.db.ciphersCollections.rows := by
    refine Returns.query ?_
    dsimp only [bulkRemoval]
    rw [hfind]
    refine Returns.query ?_
    rw [hwr]
    exact deleteLinks_returns [] nofun
  refine Prog.Leads.bind hcipher fun _ hgone _ k hk => ?_
  rintro ⟨⟨x, k'⟩, hmem, rfl, rfl⟩
  exact hgone k' ((env.walk.perm _).mem_iff.2 (mem_dedup.2 hk)) hmem

/-- The collections of the cipher that are assigned to the user. -/
def assignedLinks (db : Db) (c : Cipher) (u : UserId) : List CollectionId :=
  (db.ciphersCollections.rows.filter fun cc => cc.cipherUuid = c.uuid ∧
    db.usersCollections.rows.any fun cu =>
      cu.userUuid = u ∧ cu.collectionUuid = cc.collectionUuid).map fun cc => cc.collectionUuid

theorem mem_assignedLinks {db} :
    k ∈ assignedLinks db c u ↔ Linked db c k ∧ ∃ cu, Direct db u k cu := by
  simp only [assignedLinks, List.mem_map, List.mem_filter, decide_eq_true_eq, List.any_eq_true]
  constructor
  · rintro ⟨cc, ⟨hcc, hid, cu, hcu, hu, hk⟩, rfl⟩
    exact ⟨⟨cc, hcc, hid, rfl⟩, cu, hcu, hu, hk⟩
  · rintro ⟨⟨cc, hcc, hid, rfl⟩, cu, hcu, hu, hk⟩
    exact ⟨cc, ⟨hcc, hid, cu, hcu, hu, hk⟩, rfl⟩

section
variable {user : User} (hw : w.faults = []) (hc : c ∈ w.db.ciphers.rows)
  (ho : c.organizationUuid = some org)
  (hf : Cipher.hasFullAccess env.toConfig w.db c user.uuid none = false)
  (hwr : c.isWriteAccessibleToUser env.toConfig w.db user.uuid = true)
include hw hc ho hf hwr

/-- A share reveals the passwords that a collection it may add shows. -/
theorem shareInto_reveals (h : CanAdd env w.db c user.uuid org) :
    ∃ request : VaultRequest, request.OnCollectionsOf c ∧
      ¬ Hidden env.toConfig ((request.handle env user).after w).db c user.uuid := by
  obtain ⟨k, hk, hshows⟩ := h
  have howner := owner_ne_of_hasFullAccess hf
  refine ⟨.postCipherShare c.uuid (shareInto org k), ⟨rfl, ho.symm⟩, fun hidden => ?_⟩
  have hsafe : Relinks w c user.uuid _ _ w
      (shareCipherByUuid env c.uuid (shareInto org k) user.uuid none) _ :=
    shareCipherByUuid_relinks hc ho hf _ fun _ => rfl
  have h := (hsafe.after (.refl hc howner)).1
  have hlinked := shareInto_leads hc ho hwr hk (shareCipherByUuid_writes.undisturbed hw)
  refine (h.hidden_iff hf).1 hidden ?_
  rcases hshows with ⟨cu, hd, hsee⟩ | ⟨hnone, hnd, cg, hright, hsee⟩
  · exact .inl ⟨cu, ⟨k, hlinked, h.direct.2 hd⟩, granted_seePasswords.2 hsee⟩
  · refine .inr ⟨?_, cg, ⟨k, hlinked, fun cu hd => hnd cu (h.direct.1 hd), h.groupRight.2 hright⟩,
      granted_seePasswords.2 hsee⟩
    -- an assignment on the cipher was there before, or is on the one collection added
    rintro ⟨cu, k', hl, hd⟩
    rcases h.gained k' hl with hl | ⟨-, -, hmem⟩
    · exact hnone ⟨cu, k', hl, h.direct.1 hd⟩
    · rw [mem_singleton.1 hmem] at hd
      exact hnd cu (h.direct.1 hd)

/-- Taking all assignments off the cipher reveals what a group right shows. -/
theorem bulkRemoval_reveals (h : CanRemove env w.db c user.uuid org) :
    ∃ request : VaultRequest, request.OnCollectionsOf c ∧
      ¬ Hidden env.toConfig ((request.handle env user).after w).db c user.uuid := by
  obtain ⟨hmember, haccepts, cg, ⟨k, hl, hnd, hright⟩, hsee⟩ := h
  have howner := owner_ne_of_hasFullAccess hf
  refine ⟨.postBulkCollections (bulkRemoval org c.uuid (assignedLinks w.db c user.uuid)), trivial,
    fun hidden => ?_⟩
  have hks : ∀ k ∈ assignedLinks w.db c user.uuid, bulkAccepts env w.db user.uuid org k = true := by
    intro k hk
    obtain ⟨hl, cu, hd⟩ := mem_assignedLinks.1 hk
    exact haccepts k cu hl hd
  have hsafe : Relinks w c user.uuid (fun _ => False)
      (Removable env w.db c user.uuid org (assignedLinks w.db c user.uuid)) w
      (postBulkCollections env (bulkRemoval org c.uuid (assignedLinks w.db c user.uuid)) user.uuid) _ :=
    postBulkCollections_relinks hc ho hf (fun _ h => h.elim) (fun _ h => h.1) nofun
      fun _ _ h => h
  have h := (hsafe.after (.refl hc howner)).1
  have hgone := bulkRemoval_leads hc ho hwr hmember hks (postBulkCollections_writes.undisturbed hw)
  refine (h.hidden_iff hf).1 hidden (.inr ⟨?_, cg, ⟨k, ?_, fun cu hd => hnd cu (h.direct.1 hd),
    h.groupRight.2 hright⟩, granted_seePasswords.2 hsee⟩)
  · rintro ⟨cu, k', hl', hd'⟩
    have hback := (h.gained k' hl').resolve_right id
    exact hgone k' (mem_assignedLinks.2 ⟨hback, cu, h.direct.1 hd'⟩) hl'
  · -- the collection of the group right is not among those taken off
    refine (h.kept k hl).resolve_right fun ⟨_, _, _, hmem⟩ => ?_
    obtain ⟨-, cu, hd⟩ := mem_assignedLinks.1 hmem
    exact hnd cu hd

end

end


/-- **When hidden passwords stay hidden.**  In a state in which the user does not see the passwords
of an organization's cipher and does not manage it, no request of theirs on its collections, however
it ends, shows them the passwords, exactly if they have no write access, or there is no collection
that shows them to add and no assignment that hides them to take away. -/
theorem hidden_after_request_iff (env : Env) (db : Db) (c : Cipher) (org : OrganizationId)
    (user : User) (readOnly : Bool) (hc : c ∈ db.ciphers.rows) (ho : c.organizationUuid = some org)
    (hr : Cipher.getAccessRestrictions env.toConfig db c user.uuid none =
      some (readOnly, true, false)) :
    (∀ w : World, w.db = db → ∀ request : VaultRequest, request.OnCollectionsOf c →
      Hidden env.toConfig ((request.handle env user).after w).db c user.uuid) ↔
    ¬ Revealable env db c user.uuid org := by
  have hf : Cipher.hasFullAccess env.toConfig db c user.uuid none = false := by
    by_contra hfull
    rw [Cipher.getAccessRestrictions, (Bool.not_eq_false _).mp hfull] at hr
    cases hr
  have hno : ¬ Grants env.toConfig db c user.uuid .seePasswords := by
    rw [← grants_iff hc hf, hr]
    exact fun h => nomatch h
  constructor
  · intro hall hreveal
    let w : World := ⟨db, 0, [], [], []⟩
    obtain ⟨request, hrequest, hshown⟩ : ∃ request : VaultRequest, request.OnCollectionsOf c ∧
        ¬ Hidden env.toConfig ((request.handle env user).after w).db c user.uuid := by
      rcases hreveal with ⟨hwr, hadd | hremove⟩
      · exact shareInto_reveals rfl hc ho hf hwr hadd
      · exact bulkRemoval_reveals rfl hc ho hf hwr hremove
    exact hshown (hall w rfl request hrequest)
  · rintro hno' w rfl request hrequest
    rcases relinked_after_request hrequest hc ho hr hf with ⟨named, h⟩ | ⟨named, h⟩
    · exact (h.hidden_iff hf).2 fun hg => hno' (h.canAdd hno hg)
    · exact (h.hidden_iff hf).2 fun hg => hno' (h.canRemove hno hg)

/-! ## A user with two collections -/

namespace SelfGrant

def cipher : Cipher := { Cipher.new 5 0 1 "login" with organizationUuid := some ⟨2⟩ }

def user : User := User.new {} 1 6 7 "member@example.com" none

/-- Cipher 5 is in collection 4, where the passwords are hidden from user 1. In collection 8 of the
same organization the user sees and writes everything. -/
def db (readOnly : Bool) : Db :=
  { Db.empty with
    users := .ofRows [user]
    organizations := .ofRows [⟨⟨2⟩, "org", "owner@example.com", none, none⟩]
    usersOrganizations := .ofRows [{ Membership.new 3 ⟨1⟩ ⟨2⟩ none with
      status := MembershipStatus.confirmed.toI32 }]
    collections := .ofRows [⟨⟨4⟩, ⟨2⟩, "hidden", none⟩, ⟨⟨8⟩, ⟨2⟩, "shown", none⟩]
    usersCollections := .ofRows [⟨⟨1⟩, ⟨4⟩, readOnly, true, false⟩, ⟨⟨1⟩, ⟨8⟩, false, false, false⟩]
    ciphers := .ofRows [cipher]
    ciphersCollections := .ofRows [⟨⟨5⟩, ⟨4⟩⟩] }

end SelfGrant

open SelfGrant in
/-- Where the assignment is read-only the user has no way to the passwords. -/
theorem hidden_after_request_readOnly :
    Cipher.getAccessRestrictions {} (db true) cipher ⟨1⟩ none = some (true, true, false) ∧
    ∀ w : World, w.db = db true → ∀ request : VaultRequest, request.OnCollectionsOf cipher →
      Hidden {} ((request.handle {} user).after w).db cipher ⟨1⟩ := by
  refine ⟨by decide, (hidden_after_request_iff {} (db true) cipher ⟨2⟩ user true (by decide) rfl
    (by decide)).2 fun h => ?_⟩
  exact absurd h.1 (by decide)

open SelfGrant in
/-- **With write access the user adds the cipher to the collection that shows its passwords.**  One
request does, a share into the cipher's own organization or the bulk request. -/
theorem bulk_and_share_reveal :
    Cipher.getAccessRestrictions {} (db false) cipher ⟨1⟩ none = some (false, true, false) ∧
    Cipher.getAccessRestrictions {}
      ((VaultRequest.handle {} user (.postBulkCollections ⟨⟨2⟩, [⟨5⟩], [⟨8⟩], false⟩)).after
        ⟨db false, 9, [], [], []⟩).db cipher ⟨1⟩ none = some (false, false, false) ∧
    Cipher.getAccessRestrictions {}
      ((VaultRequest.handle {} user (.postCipherShare ⟨5⟩ (shareInto ⟨2⟩ ⟨8⟩))).after
        ⟨db false, 9, [], [], []⟩).db cipher ⟨1⟩ none = some (false, false, false) := by
  decide

end VaultServer
