import VaultServer.Effects.Faults
import VaultServer.Security.Stamps

/-!
# Links

A link between a cipher and a collection is in order when the cipher is in the organization of the
collection. The requests that share a cipher write the links first and ask afterwards whether the
cipher may be moved, so a share that is refused in between leaves links of a personal cipher behind.
Everything else keeps the links in order, and so does a share that is refused before the first link
or accepted as a whole.
-/

namespace VaultServer

open Lib List Table Bool Prog

variable {k : CollectionId}

variable {env : Env} {w w' : World} {me : UserId} {data : ShareCipherData} {c : Cipher}

/-- No link may be out of place. -/
def noLink : CipherId → OrganizationId → Prop := fun _ _ => False

/-- Links of the one cipher into the one organization may be out of place. -/
def linkOf (id : CipherId) (org : OrganizationId) : CipherId → OrganizationId → Prop :=
  fun c o => c = id ∧ o = org

/-! ## Conditions -/

/-- The collection is in the organization, and the user may write to it. -/
def linkable (env : Env) (db : Db) (me : UserId) (org : OrganizationId) (k : CollectionId) : Bool :=
  (Collection.findByUuidAndOrg db k org).any fun k => k.isWritableByUser env.toConfig db me

/-- What `update_cipher_from_data` asks of a share, in the state before the request. -/
def acceptable (env : Env) (db : Db) (me : UserId) (c : Cipher) (org : OrganizationId)
    (ut : UpdateType) (data : ShareCipherData) : Bool :=
  data.collectionIds.all (linkable env db me org) &&
    (Membership.findConfirmedByUserAndOrg db me org).isSome &&
    db.hasOrganization org &&
    !data.cipher.isStale env ut c &&
    !data.cipher.notesTooLong env.toConfig &&
    data.cipher.folderId.all (fun f => (Folder.findByUuidAndUser db f me).isSome) &&
    (data.cipher.fill c).toBool

/-- The share writes no link, or the cipher is in the organization already, or nothing stops the
request before the cipher is moved. -/
def shareSettled (env : Env) (w : World) (me : UserId) (id : CipherId) (data : ShareCipherData)
    (ut : Option UpdateType) : Bool :=
  match data.cipher.organizationId, data.collectionIds, Cipher.findByUuid w.db id with
  | some org, k :: _, some c =>
    !c.isWriteAccessibleToUser env.toConfig w.db me || data.cipher.orgMismatch c ||
      !linkable env w.db me org k || c.organizationUuid = some org ||
      (undisturbed (shareCipherByUuid env id data me ut) w &&
        acceptable env w.db me c org (shareUpdateType data ut) data)
  | _, _, _ => true

/-- The shares of one request, each in the state it meets; the first that fails is the last. -/
def sharesSettled (env : Env) (me : UserId) (cols : List CollectionId) :
    World → List CipherData → Bool
  | _, [] => true
  | w, d :: ds =>
    d.id.all (fun id => shareSettled env w me id ⟨{ d with id := none }, cols⟩ (some .none)) &&
      (!((shareSelected env cols me d).run w).1.toBool ||
        sharesSettled env me cols ((shareSelected env cols me d).after w) ds)

/-- Reading the body panics. -/
def CipherData.panics (d : CipherData) : Bool :=
  match d.typeData, d.cleanFields with
  | .error (.panic _), _ | .ok _, .error (.panic _) => true
  | _, _ => false

/-- A new cipher whose share fails is deleted again, unless that fails too or is never tried. -/
def createSettled (env : Env) (w : World) (me : UserId) (data : ShareCipherData) : Bool :=
  match data.cipher.organizationId, data.collectionIds with
  | some org, k :: _ =>
    !linkable env w.db me org k ||
      (undisturbed (postCiphersCreate env data me) w && !data.cipher.panics)
  | _, _ => true

/-! ## An accepted share -/

/-- The tables that decide about access besides the ciphers and their links. -/
def accessParts : List Part :=
  [.collections, .usersOrganizations, .usersCollections, .groups, .collectionsGroups, .groupsUsers]

theorem tables_of_same (h : ∀ t ∈ accessParts, w.Same w' t) :
    w'.db.collections = w.db.collections ∧ w'.db.usersOrganizations = w.db.usersOrganizations ∧
      w'.db.usersCollections = w.db.usersCollections ∧ w'.db.groups = w.db.groups ∧
      w'.db.groupsUsers = w.db.groupsUsers ∧ w'.db.collectionsGroups = w.db.collectionsGroups :=
  ⟨h .collections (by decide), h .usersOrganizations (by decide), h .usersCollections (by decide),
    h .groups (by decide), h .groupsUsers (by decide), h .collectionsGroups (by decide)⟩

theorem isWritableByUser_same {k : Collection} (h : ∀ t ∈ accessParts, w.Same w' t) :
    k.isWritableByUser env.toConfig w'.db me = k.isWritableByUser env.toConfig w.db me := by
  obtain ⟨hk, hm, hu, hg, hgu, hcg⟩ := tables_of_same h
  simp only [Collection.isWritableByUser, JoinRow.withAssignment, JoinRow.withMemberGroups,
    JoinRow.withGroupsUsers, JoinRow.withGroups, JoinRow.withCollectionRights, hk, hm, hu, hg, hgu,
    hcg]

theorem linkable_same {org} (h : ∀ t ∈ accessParts, w.Same w' t) :
    linkable env w'.db me org k = linkable env w.db me org k := by
  simp only [linkable, Collection.findByUuidAndOrg, (tables_of_same h).1, isWritableByUser_same h]

theorem World.Same.findConfirmed {u o} (h : w.Same w' .usersOrganizations) :
    Membership.findConfirmedByUserAndOrg w'.db u o =
      Membership.findConfirmedByUserAndOrg w.db u o := by
  have hmembers : w'.db.usersOrganizations = w.db.usersOrganizations := h
  rw [Membership.findConfirmedByUserAndOrg, hmembers, ← Membership.findConfirmedByUserAndOrg]

/-- What is asked of a share is asked of other tables than the ciphers and their links. -/
theorem acceptable_same {org ut} (h : ∀ t, t ∉ [Part.ciphers, .ciphersCollections] → w.Same w' t) :
    acceptable env w'.db me c org ut data = acceptable env w.db me c org ut data := by
  have hfolders : w'.db.folders = w.db.folders := h .folders (by decide)
  have hout : ∀ t ∈ accessParts, t ∉ [Part.ciphers, .ciphersCollections] := by decide
  have hlink : linkable env w'.db me org = linkable env w.db me org :=
    funext fun _ => linkable_same fun t ht => h t (hout t ht)
  simp only [acceptable, hlink, (h .usersOrganizations (by decide)).findConfirmed,
    Folder.findByUuidAndUser, hfolders, (h .organizations (by decide)).hasOrganization]

theorem World.Same.links (h : w.Same w' .ciphersCollections) :
    w'.db.ciphersCollections = w.db.ciphersCollections := h

theorem Db.CipherIn.of_same {c o}
    (h : w.Same w' .ciphers) (hc : w.db.CipherIn c o) : w'.db.CipherIn c o := by
  unfold Db.CipherIn at hc ⊢
  rw [show w'.db.ciphers = w.db.ciphers from h]
  exact hc

theorem hasCipher_of_mem {db : Db} (h : c ∈ db.ciphers.rows) : db.hasCipher c.uuid = true :=
  any_eq_true.2 ⟨c, h, decide_eq_true rfl⟩

theorem CollectionCipher.updateUsersRevision_returns :
    Returns w (CollectionCipher.updateUsersRevision env k) ⊤ := by
  refine .query ?_
  split
  · exact .query (.each fun _ _ _ => .updateUuidRevision)
  · exact .ret trivial

theorem CollectionCipher.save_returns {c}
    (hc : w.db.hasCipher c = true) (hk : w.db.hasCollection k = true) :
    Returns w (CollectionCipher.save env c k) fun _ w' =>
      ⟨c, k⟩ ∈ w'.db.ciphersCollections.rows := by
  refine Prog.Returns.bind CollectionCipher.updateUsersRevision_returns fun _ _ => ?_
  -- the references still resolve once the revision dates are bumped
  have hsame : ∀ t, w.Same ((CollectionCipher.updateUsersRevision env k).after w) t :=
    CollectionCipher.updateUsersRevision_writes.still w
  refine (Returns.execGuarded rfl ?_).mono fun _ w' hdb => ?_
  · rw [(hsame .ciphers).hasCipher, (hsame .collections).hasCollection, hc, hk]
    rfl
  · rw [hdb]
    exact mem_upsert.2 (.inl rfl)

theorem linkShared_returns {c org shared} (hc : w.db.hasCipher c = true)
    (hk : linkable env w.db me org k = true) :
    Returns w (linkShared env c org me shared k) fun shared' w' =>
      shared' ≠ [] ∧ ⟨c, k⟩ ∈ w'.db.ciphersCollections.rows := by
  obtain ⟨k', hfind, hwritable⟩ := (Option.any_eq_true _ _).1 hk
  refine .query ?_
  rw [hfind]
  refine .query (.ensure hwritable ?_)
  obtain ⟨hmem, hid, -⟩ := Collection.findByUuidAndOrg_eq_some hfind
  have hhas : w.db.hasCollection k'.uuid = true := any_eq_true.2 ⟨k', hmem, decide_eq_true rfl⟩
  exact .bind (CollectionCipher.save_returns hc hhas) fun _ hlink =>
    Prog.Returns.ret ⟨by simp, hid ▸ hlink⟩

/-- The loop over the collections; it is entered with one of them linked already, or with one to
link. -/
theorem linkAllShared_returns {c org}
    (ho : data.cipher.organizationId = some org) (hne : data.collectionIds ≠ [])
    (hc : w.db.hasCipher c = true) (hk : data.collectionIds.all (linkable env w.db me org) = true) :
    Returns w (linkAllShared env c me data) fun shared _ => shared ≠ [] := by
  have hround : ∀ shared, ∀ k ∈ data.collectionIds, ∀ w',
      (∀ t, t ∉ [Part.ciphersCollections] → w.Same w' t) →
      Returns w' (linkShared env c org me shared k) fun shared' w'' =>
        shared' ≠ [] ∧ ∀ t, t ∉ [Part.ciphersCollections] → w.Same w'' t := by
    intro shared k hmem w' hsame
    refine (Returns.and_after (linkShared_returns ?_ ?_) fun t ht => (hsame t ht).trans
      (linkShared_writes.after ht w')).mono fun _ _ h => ⟨h.1.1, h.2⟩
    · exact (hsame .ciphers (by decide)).hasCipher.trans hc
    · have hout : ∀ t ∈ accessParts, t ∉ [Part.ciphersCollections] := by decide
      rw [linkable_same fun t ht => hsame t (hout t ht)]
      exact all_eq_true.1 hk k hmem
  unfold linkAllShared
  rw [ho]
  cases hcols : data.collectionIds with
  | nil => exact absurd hcols hne
  | cons k =>
    rw [hcols] at hround
    refine Prog.Returns.bind (hround [] k mem_cons_self w fun t _ => .refl w t) ?_
    intro shared hshared
    refine (Prog.Returns.foldl (J := fun shared' w' => shared' ≠ [] ∧
      ∀ t, t ∉ [Part.ciphersCollections] → w.Same w' t) hshared ?_).mono fun _ _ h => h.1
    exact fun b k' hk' w' h => hround b k' (mem_cons_of_mem _ hk') w' h.2

theorem enforcePersonalOwnershipPolicy_of_org {data org} (ho : data.organizationId = some org) :
    enforcePersonalOwnershipPolicy (some data) me = pure () := by
  have hnone : ((some data).bind fun d => d.organizationId).isNone = false := by simp [ho]
  unfold enforcePersonalOwnershipPolicy
  rw [hnone]
  rfl

theorem checkUpdate_returns {c data ut org} (ho : data.organizationId = some org)
    (hstale : data.isStale env ut c = false) (hm : data.orgMismatch c = false)
    (hn : data.notesTooLong env.toConfig = false) :
    Returns w (checkUpdate env c data me ut) fun _ w' => w' = w := by
  unfold checkUpdate
  rw [enforcePersonalOwnershipPolicy_of_org ho, hstale, hm, hn]
  exact .ret rfl

theorem chooseOwner_returns {c org cols}
    (hmember : (Membership.findConfirmedByUserAndOrg w.db me org).isSome = true)
    (hmay : (cols.any fun cols => !cols.isEmpty) = true ∨
      c.isWriteAccessibleToUser env.toConfig w.db me = true) :
    Returns w (chooseOwner env c (some org) me cols) fun c' w' =>
      w' = w ∧ c' = { c with organizationUuid := some org, userUuid := none } := by
  obtain ⟨m, hm⟩ := Option.isSome_iff_exists.1 hmember
  refine .query ?_
  rw [hm]
  refine .query (.ensure ?_ (.ret ⟨rfl, rfl⟩))
  rcases hmay with hcols | hwr
  · rw [hcols]
    rfl
  · rw [hwr, Bool.or_true]

theorem checkFolder_returns
    (hf : (f.all fun f => (Folder.findByUuidAndUser w.db f me).isSome) = true) :
    Returns w (checkFolder f me) fun _ w' => w' = w := by
  cases f with
  | none => exact .ret rfl
  | some => exact .query (.ensure_last hf rfl)

theorem updateAttachments_returns {c xs} (hc : w.db.hasCipher c = true) :
    Returns w (updateAttachments c xs) ⊤ := by
  induction xs generalizing w with
  | nil => exact .ret trivial
  | cons a xs ih =>
    refine Returns.query ?_
    cases Attachment.findById w.db a.id with
    | none => exact ih hc
    | some saved =>
      by_cases hsaved : saved.cipherUuid = c
      · simp only [hsaved, ne_eq, not_true_eq_false, if_false]
        refine Prog.Returns.bind (Returns.execGuarded rfl ?_) fun _ _ => ih ?_
        · exact hc
        · exact (World.Same.hasCipher (Attachment.save_writes.after (by decide) w)).trans hc
      · simp only [ne_eq, hsaved, not_false_eq_true, if_true]
        exact .ret trivial

theorem Cipher.updateUsersRevision_returns : Returns w (c.updateUsersRevision env) ⊤ :=
  Returns.query (.each fun _ _ _ => .updateUuidRevision)

theorem Cipher.save_returns (hu : c.userUuid.all w.db.hasUser = true)
    (ho : c.organizationUuid.all w.db.hasOrganization = true) :
    Returns w (c.save env) fun c' w' => c' ∈ w'.db.ciphers.rows ∧
      c' = { c with updatedAt := env.now } := by
  refine Prog.Returns.bind Cipher.updateUsersRevision_returns fun _ _ => ?_
  have hsame : ∀ t, w.Same ((c.updateUsersRevision env).after w) t :=
    Cipher.updateUsersRevision_writes.still w
  refine Prog.Returns.bind (Returns.execGuarded rfl ?_) fun _ hdb => Prog.Returns.ret ⟨?_, rfl⟩
  · refine and_eq_true_iff.2 ⟨?_, ?_⟩
    · rw [show ((c.updateUsersRevision env).after w).db.hasUser = w.db.hasUser from
        funext fun _ => (hsame .users).hasUser]
      exact hu
    · rw [show ((c.updateUsersRevision env).after w).db.hasOrganization = w.db.hasOrganization from
        funext fun _ => (hsame .organizations).hasOrganization]
      exact ho
  · rw [hdb]
    exact mem_upsert.2 (.inl rfl)

/-- Whether the body can be read does not depend on the cipher. -/
theorem CipherData.exists_fill {data : CipherData} {c} (c' : Cipher)
    (h : (data.fill c).toBool = true) : ∃ c'', data.fill c' = .ok c'' ∧ c''.uuid = c'.uuid ∧
      c''.userUuid = c'.userUuid ∧ c''.organizationUuid = c'.organizationUuid ∧
      c''.atype = c'.atype := by
  unfold CipherData.fill at h ⊢
  cases ht : data.typeData with
  | error => rw [ht] at h; cases h
  | ok =>
    cases hf : data.cleanFields with
    | error => rw [ht, hf] at h; cases h
    | ok => exact ⟨_, rfl, rfl, rfl, rfl, rfl⟩

/-- An update up to the point where the row is stored. -/
def storeCipher (env : Env) (c : Cipher) (data : CipherData) (me : UserId)
    (cols : Option (List CollectionId)) (ut : UpdateType) : Cmd Cipher := do
  checkUpdate env c data me ut
  let c ← chooseOwner env c data.organizationId me cols
  checkFolder data.folderId me
  updateAttachments c.uuid (data.attachments2.getD [])
  let c ← lift (data.fill c)
  c.save env

section
variable {c : Cipher} {cols : Option (List CollectionId)} {ut : UpdateType} {org : OrganizationId}

theorem updateCipherFromData_eq {data : CipherData} : updateCipherFromData env c data me cols ut = (do
    let c ← storeCipher env c data me cols ut
    writeUserMarks env c data me
    when (ut ≠ .none) (c.updateUsersRevision env)
    pure c) := by
  simp only [updateCipherFromData, storeCipher, bind_assoc]

theorem storeCipher_returns (ho : data.cipher.organizationId = some org)
    (hmay : (cols.any fun cols => !cols.isEmpty) = true ∨
      c.isWriteAccessibleToUser env.toConfig w.db me = true) (hc : w.db.hasCipher c.uuid = true)
    (hm : data.cipher.orgMismatch c = false) (ha : acceptable env w.db me c org ut data = true) :
    Returns w (storeCipher env c data.cipher me cols ut) fun c' w' =>
      c'.uuid = c.uuid ∧ c' ∈ w'.db.ciphers.rows ∧ c'.organizationUuid = some org ∧
        c'.atype = c.atype := by
  simp only [acceptable, and_eq_true, not_eq_true'] at ha
  obtain ⟨⟨⟨⟨⟨⟨-, hmember⟩, horg⟩, hstale⟩, hn⟩, hfolder⟩, hfill⟩ := ha
  obtain ⟨c5, hc5, hu5, hme5, ho5, ht5⟩ := CipherData.exists_fill
    { c with organizationUuid := some org, userUuid := none } hfill
  refine .bind (checkUpdate_returns ho hstale hm hn) fun _ hw1 => ?_
  rw [hw1, ho]
  refine .bind (chooseOwner_returns hmember hmay) fun c2 ⟨hw2, hc2⟩ => ?_
  rw [hw2, hc2]
  refine .bind (checkFolder_returns hfolder) fun _ hw3 => ?_
  rw [hw3]
  refine .bind (updateAttachments_returns hc) fun _ _ => ?_
  rw [hc5]
  have hattach : Writes [.attachments]
      (updateAttachments c.uuid (data.cipher.attachments2.getD [])) := updateAttachments_writes
  have hsame := hattach.after (t := .organizations) (by decide) w
  refine (Cipher.save_returns (c := c5) ?_ ?_).mono fun c6 w6 ⟨hmem, hc6⟩ => ?_
  · rw [hme5]; rfl
  · rw [ho5]; exact hsame.hasOrganization.trans horg
  · rw [hc6] at hmem ⊢
    exact ⟨hu5, hmem, ho5, ht5⟩

/-- The marks and the revision dates leave the cipher in place. -/
theorem updateRest_writes {c} {data : CipherData} : Writes [.foldersCiphers, .favorites, .archives] (do
    writeUserMarks env c data me
    when (ut ≠ .none) (c.updateUsersRevision env)
    pure c) :=
  .bind writeUserMarks_writes fun _ => .bind (.when Cipher.updateUsersRevision_writes) fun _ => .ret

/-- The organization's cipher is stored when nothing of the request is refused, whatever becomes of
the user's marks afterwards. -/
theorem updateCipherFromData_leads (ho : data.cipher.organizationId = some org)
    (hmay : (cols.any fun cols => !cols.isEmpty) = true ∨
      c.isWriteAccessibleToUser env.toConfig w.db me = true) (hc : w.db.hasCipher c.uuid = true)
    (hm : data.cipher.orgMismatch c = false) (ha : acceptable env w.db me c org ut data = true) :
    Prog.Leads Call.fails w (updateCipherFromData env c data.cipher me cols ut)
      fun w' => w'.db.CipherIn c.uuid org := by
  rw [updateCipherFromData_eq]
  refine .bind (storeCipher_returns ho hmay hc hm ha) ?_
  intro c6 ⟨hu6, hmem, ho6, _⟩ _
  exact Db.CipherIn.of_same (updateRest_writes.after (by decide) _) ⟨c6, hmem, hu6, ho6⟩

end

/-! ## A share that is refused, not needed or accepted -/

theorem LinksKept.mono
    (h : LinksKept exempt db) (hx : ∀ c o, exempt c o → exempt' c o) : LinksKept exempt' db := by
  intro cc hcc
  obtain ⟨o, ho, hin⟩ := h cc hcc
  exact ⟨o, ho, hin.imp_right (hx _ _)⟩

/-- Once the cipher has arrived its links are in order. -/
theorem LinksKept.settle {db id org} (h : LinksKept (linkOf id org) db) (hc : db.CipherIn id org) :
    LinksKept noLink db := by
  intro cc hcc
  obtain ⟨o, ho, hin⟩ := h cc hcc
  rcases hin with hin | ⟨rfl, rfl⟩
  · exact ⟨o, ho, .inl hin⟩
  · exact ⟨o, ho, .inl hc⟩

theorem World.Sound.mono (h : w.Sound exempt)
    (hx : ∀ c o, exempt c o → exempt' c o) : w.Sound exempt' :=
  ⟨h.boundary, h.links.mono hx, h.fresh⟩

theorem linkShared_refuses {c org shared} (hk : linkable env w.db me org k = false) :
    Prog.Refuses w (linkShared env c org me shared k) := by
  unfold linkable at hk
  refine Refuses.query ?_
  cases hf : Collection.findByUuidAndOrg w.db k org with
  | none => exact Prog.Refuses.fail
  | some =>
    rw [hf] at hk
    refine Refuses.query (Refuses.ensure fun hwr => ?_)
    exact absurd (hwr.symm.trans hk) (by decide)

/-- Before the first link is written nothing is. -/
theorem shareCipherByUuid_refuses {id org ks data ut}
    (ho : data.cipher.organizationId = some org) (hcols : data.collectionIds = k :: ks)
    (h : ∀ c, Cipher.findByUuid w.db id = some c →
      c.isWriteAccessibleToUser env.toConfig w.db me = true → data.cipher.orgMismatch c = false →
      linkable env w.db me org k = false) :
    Prog.Refuses w (shareCipherByUuid env id data me ut) := by
  refine Refuses.query ?_
  cases hc : Cipher.findByUuid w.db id with
  | none => exact Prog.Refuses.fail
  | some c =>
    refine Refuses.query (Refuses.ensure fun hwr => Refuses.ensure fun hm => ?_)
    have hk : linkable env w.db me org k = false := h c hc hwr (by simpa using hm)
    refine Prog.Refuses.bind ?_
    unfold linkAllShared
    rw [ho, hcols]
    exact Prog.Refuses.bind (linkShared_refuses hk)

/-- A share in which no link is written before its cipher is in place. -/
theorem shareCipherByUuid_sound_of_placed {id data ut} (hw : w.Sound noLink)
    (hx : ∀ o, data.cipher.organizationId = some o → data.collectionIds ≠ [] →
      ∀ r ∈ w.db.ciphers.rows, r.uuid = id → r.organizationUuid = some o) :
    ((shareCipherByUuid env id data me ut).after w).Sound noLink :=
  hw.of_safe (shareCipherByUuid_safe rfl (fun _ _ _ => trivial) fun o ho hne => .inl (hx o ho hne))

/-- An accepted share: the links come first and the cipher follows. -/
theorem shareCipherByUuid_sound_of_acceptable {id} {org} {ut} (hw : w.Sound noLink)
    (hc : Cipher.findByUuid w.db id = some c) (ho : data.cipher.organizationId = some org)
    (hne : data.collectionIds ≠ []) (hwr : c.isWriteAccessibleToUser env.toConfig w.db me = true)
    (hm : data.cipher.orgMismatch c = false)
    (hs : undisturbed (shareCipherByUuid env id data me ut) w = true)
    (ha : acceptable env w.db me c org (shareUpdateType data ut) data = true) :
    ((shareCipherByUuid env id data me ut).after w).Sound noLink := by
  obtain ⟨hmem, rfl⟩ := Cipher.findByUuid_eq_some hc
  -- the links written on the way are the only ones out of place
  have hsafe : (Pledge.any (linkOf c.uuid org) w.nextUuid).Safe w
      (shareCipherByUuid env c.uuid data me ut) _ :=
    shareCipherByUuid_safe rfl (fun _ _ _ => trivial) fun o ho' _ =>
      .inr ⟨rfl, Option.some.inj (ho'.symm.trans ho)⟩
  obtain ⟨hinv, -⟩ := hsafe.after (hw.mono fun _ _ h => h.elim).inv
  refine ⟨hinv.boundary, hinv.links.settle ?_, hinv.fresh⟩
  have hleads : Prog.Leads Call.fails w (shareCipherByUuid env c.uuid data me ut)
      fun w' => w'.db.CipherIn c.uuid org := by
    have hk : data.collectionIds.all (linkable env w.db me org) = true := by
      simp only [acceptable, and_eq_true] at ha
      exact ha.1.1.1.1.1.1
    have hhas : w.db.hasCipher c.uuid = true := hasCipher_of_mem hmem
    refine Leads.query ?_
    rw [hc]
    refine Leads.query (Leads.ensure hwr (Leads.ensure (by rw [hm]; rfl) ?_))
    refine Prog.Leads.bind (linkAllShared_returns ho hne hhas hk) fun shared hshared => ?_
    -- what the update looks at is as it was before the links
    have hlink : Writes [.ciphersCollections] (linkAllShared env c.uuid me data) :=
      linkAllShared_writes
    have hsame : ∀ t, t ∉ [Part.ciphersCollections] →
      w.Same ((linkAllShared env c.uuid me data).after w) t := fun t ht => hlink.after ht w
    refine Prog.Leads.andThen (updateCipherFromData_leads ho (.inl ?_) ?_ hm ?_) ?_
    · cases shared with
      | nil => exact absurd rfl hshared
      | cons => rfl
    · rw [(hsame .ciphers (by decide)).hasCipher]; exact hhas
    · rw [acceptable_same fun t ht => hsame t fun h => ht (mem_cons_of_mem _ h)]; exact ha
    · intro c' w' hin
      exact Db.CipherIn.of_same (Cipher.toJson_writes.still w' .ciphers) hin
  exact hleads hs

/-- **A settled share leaves the links in order.** -/
theorem shareCipherByUuid_sound {id data ut}
    (hw : w.Sound noLink) (hs : shareSettled env w me id data ut = true) :
    ((shareCipherByUuid env id data me ut).after w).Sound noLink := by
  cases ho : data.cipher.organizationId with
  | none => exact shareCipherByUuid_sound_of_placed hw fun o ho' => nomatch ho.symm.trans ho'
  | some org =>
    cases hcols : data.collectionIds with
    | nil => exact shareCipherByUuid_sound_of_placed hw fun _ _ hne => absurd hcols hne
    | cons k =>
      cases hc : Cipher.findByUuid w.db id with
      | none =>
        refine shareCipherByUuid_sound_of_placed hw fun o _ _ r hr hu => ?_
        have hno := List.find?_eq_none.1 hc r hr
        exact absurd (decide_eq_true hu) hno
      | some c =>
        simp only [shareSettled, ho, hcols, hc, or_eq_true, not_eq_true',
          decide_eq_true_eq, and_eq_true] at hs
        by_cases hin : c.organizationUuid = some org
        · refine shareCipherByUuid_sound_of_placed hw fun o ho' _ r hr hu => ?_
          obtain ⟨hmem, hid⟩ := Cipher.findByUuid_eq_some hc
          rw [eq_of_key hr hmem (hu.trans hid.symm), ← ho', ho]
          exact hin
        · by_cases hgo : c.isWriteAccessibleToUser env.toConfig w.db me = true ∧
              data.cipher.orgMismatch c = false ∧ linkable env w.db me org k = true
          · obtain ⟨hwr, hm, hk⟩ := hgo
            obtain ⟨hs, ha⟩ : _ ∧ _ := by simpa [hwr, hm, hk, hin] using hs
            exact shareCipherByUuid_sound_of_acceptable hw hc ho (by simp [hcols]) hwr hm hs ha
          · have hrefuses : Prog.Refuses w (shareCipherByUuid env id data me ut) := by
              refine shareCipherByUuid_refuses ho hcols fun c' hc' hwr hm => ?_
              obtain rfl := Option.some.inj (hc.symm.trans hc')
              exact (not_eq_true _).mp fun hk => hgo ⟨hwr, hm, hk⟩
            rw [hrefuses.after]
            exact hw

/-! ## Several shares, and a share of a new cipher -/

theorem sharesSettled_sound {cols ds} (hw : w.Sound noLink)
    (hs : sharesSettled env me cols w ds = true) :
    ((each ds (shareSelected env cols me)).after w).Sound noLink := by
  induction ds generalizing w with
  | nil => exact hw
  | cons d ds ih =>
    obtain ⟨hd, hds⟩ := and_eq_true_iff.1 hs
    have hround : ((shareSelected env cols me d).after w).Sound noLink := by
      unfold shareSelected
      cases hid : d.id with
      | none => exact hw
      | some =>
        rw [hid] at hd
        exact shareCipherByUuid_sound hw hd
    refine Prog.after_bind_or (c := shareSelected env cols me d) hround fun a ha => ih hround ?_
    rw [ha] at hds
    exact hds

theorem putCipherShareSelected_sound {data} (hw : w.Sound noLink)
    (hs : sharesSettled env me data.collectionIds w data.ciphers.reverse = true) :
    ((putCipherShareSelected env data me).after w).Sound noLink := by
  have hensure : ∀ {b m} {k : Unit → Cmd Unit}, ((k ()).after w).Sound noLink →
      ((ensure b m >>= k).after w).Sound noLink := by
    intro b m k h
    cases b with
    | false => exact hw
    | true => exact h
  exact hensure (hensure (hensure (sharesSettled_sound hw hs)))

theorem CipherData.fill_noPanic {data : CipherData} {c} (h : data.panics = false) :
    NoPanic (lift (data.fill c)) := by
  unfold CipherData.panics at h
  unfold CipherData.fill
  cases ht : data.typeData with
  | error =>
    rw [ht] at h
    intro m hm
    subst hm
    cases h
  | ok =>
    cases hf : data.cleanFields with
    | error =>
      rw [ht, hf] at h
      intro m hm
      subst hm
      cases h
    | ok => trivial

theorem Cipher.updateUsersRevision_noPanic : NoPanic (c.updateUsersRevision env) :=
  .bind .query fun _ => .each fun _ => .updateUuidRevision

theorem linkAllShared_noPanic {c data} : NoPanic (linkAllShared env c me data) := by
  have hrevision : ∀ k, NoPanic (CollectionCipher.updateUsersRevision env k) := by
    refine fun k => .bind .query fun found => ?_
    split
    · exact .bind .query fun _ => .each fun _ => .updateUuidRevision
    · exact .ret
  unfold linkAllShared
  split
  · exact .ret
  · refine .foldl fun _ _ => .bind .query fun found => ?_
    split
    · exact .err
    · exact .bind .query fun _ => .bind .ensure fun _ =>
        .bind (.bind (hrevision _) fun _ => .exec) fun _ => .ret

theorem updateAttachments_noPanic {c xs} : NoPanic (updateAttachments c xs) := by
  induction xs with
  | nil => exact .ret
  | cons a xs ih =>
    refine .bind .query fun found => ?_
    split
    · exact ih
    · exact .ite .ret (.bind .exec fun _ => ih)

theorem writeUserMarks_noPanic {c data} : NoPanic (writeUserMarks env c data me) := by
  have hremove : ∀ f c, NoPanic (Cipher.removeFromFolder f c) := by
    refine fun f c => .bind .query fun found => ?_
    split
    · exact .exec
    · exact .ret
  refine .bind (.bind .updateUuidRevision fun _ => .bind .query fun old => ?_) fun _ => ?_
  · split
    · exact .ret
    · exact .exec
    · refine .bind .query fun found => ?_
      split
      · exact .exec
      · exact .err
    · exact .ite .ret (.bind (hremove _ _) fun _ => .exec)
  · refine .bind ?_ fun _ => ?_
    · unfold Cipher.setFavorite
      split
      · exact .ret
      · refine .bind .query fun marked => ?_
        split
        · exact .bind .updateUuidRevision fun _ => .exec
        · exact .bind .updateUuidRevision fun _ => .exec
        · exact .ret
    · split
      · exact .bind .updateUuidRevision fun _ => .exec
      · exact .ret

/-- Only reading the body can panic. -/
theorem shareCipherByUuid_noPanic {id}
    {ut} (h : data.cipher.panics = false) : NoPanic (shareCipherByUuid env id data me ut) := by
  refine .bind .query fun found => ?_
  split
  · exact .err
  refine .bind .query fun _ => .bind .ensure fun _ => .bind .ensure fun _ => ?_
  refine .bind linkAllShared_noPanic fun _ => .bind ?_ fun _ => ?_
  · refine .bind ?_ fun _ => .bind ?_ fun _ => .bind ?_ fun _ => ?_
    · exact .bind (.ite (.bind .query fun _ => .ensure) .ret) fun _ => .bind .ensure fun _ =>
        .bind .ensure fun _ => .ensure
    · unfold chooseOwner
      split
      · exact .ret
      · refine .bind .query fun found => ?_
        split
        · exact .err
        · exact .bind .query fun _ => .bind .ensure fun _ => .ret
    · unfold checkFolder
      split
      · exact .ret
      · exact .bind .query fun _ => .ensure
    · refine .bind updateAttachments_noPanic fun _ => .bind (CipherData.fill_noPanic h) fun _ => ?_
      refine .bind (.bind Cipher.updateUsersRevision_noPanic fun _ => .bind .exec fun _ => .ret) ?_
      intro _
      exact .bind writeUserMarks_noPanic fun _ =>
        .bind (.when Cipher.updateUsersRevision_noPanic) fun _ => .ret
  · refine .bind .query fun _ => .bind (.each fun _ => .external) fun _ => .bind ?_ fun _ => .ret
    unfold Cipher.typeKey
    split <;> first | exact .ret | exact .err

/-- An undisturbed deletion takes the links of the cipher along. -/
theorem Cipher.delete_leads : Prog.Leads Call.fails w (c.delete env)
    fun w' => ∀ cc ∈ w'.db.ciphersCollections.rows, cc.cipherUuid ≠ c.uuid := by
  refine .bind Cipher.updateUsersRevision_returns fun _ _ => ?_
  refine .bind Returns.execTotal fun _ _ => ?_
  refine .bind Returns.execTotal fun _ hdb => ?_
  -- nothing that follows writes a link
  have hrest : Writes [.attachments, .favorites, .ciphers, .archives] (do
      Attachment.deleteAllByCipher c.uuid
      Favorite.deleteAllByCipher c.uuid
      exec (Cipher.deleteStmt c.uuid) "Error deleting cipher" .write) := by
    refine .bind (Attachment.deleteAllByCipher_writes.mono rfl) fun _ => ?_
    exact .bind (Favorite.deleteWhere_writes.mono rfl) fun _ => .guarded fun _ => rfl
  intro _ cc hcc
  rw [World.Same.links (hrest.after (by decide) _), hdb] at hcc
  exact of_decide_eq_false (mem_deleteWhere.1 hcc).2

/-- The share of a cipher that was just stored for the user, and the deletion when it fails. -/
theorem shareOrDelete_sound {org}
    (hw : w.Sound noLink) (ho : data.cipher.organizationId = some org)
    (hp : data.cipher.panics = false) :
    Prog.Leads Call.fails w (do
      match ← catchErr (shareCipherByUuid env c.uuid data me none) with
      | .ok () => pure ()
      | .error e => do
        c.delete env
        .fail e : Cmd Unit) (World.Sound noLink) := by
  have hsafe : (Pledge.any (linkOf c.uuid org) w.nextUuid).Safe w
      (shareCipherByUuid env c.uuid data me none) _ :=
    shareCipherByUuid_safe rfl (fun _ _ _ => trivial) fun o ho' _ =>
      .inr ⟨rfl, Option.some.inj (ho'.symm.trans ho)⟩
  have hsound : w.Sound (linkOf c.uuid org) := hw.mono fun _ _ h => h.elim
  obtain ⟨hinv, -⟩ := hsafe.after hsound.inv
  refine Leads.catchErr (shareCipherByUuid_noPanic hp) fun outcome hr => ?_
  cases outcome with
  | ok _ =>
    have hin := (hsafe.of_ok hsound.inv hr).2 org ho
    exact fun _ => ⟨hinv.boundary, hinv.links.settle hin, hinv.fresh⟩
  | error e =>
    have hdelete : (Pledge.any (linkOf c.uuid org) w.nextUuid).Safe
        ((shareCipherByUuid env c.uuid data me none).after w) (c.delete env) _ :=
      Cipher.delete_safe rfl
    obtain ⟨hinv', -⟩ := hdelete.after hinv
    refine Prog.Leads.andThen (fun hs => ?_) fun _ _ h => h
    refine ⟨hinv'.boundary, fun cc hcc => ?_, hinv'.fresh⟩
    obtain ⟨o, ho, hin | ⟨heq, -⟩⟩ := hinv'.links cc hcc
    · exact ⟨o, ho, .inl hin⟩
    · exact absurd heq (Cipher.delete_leads hs cc hcc)

theorem postCiphersCreate_leads {org}
    (hw : w.Sound noLink) (ho : data.cipher.organizationId = some org)
    (hp : data.cipher.panics = false) :
    Prog.Leads Call.fails w (postCiphersCreate env data me) (World.Sound noLink) := by
  unfold postCiphersCreate
  rw [enforcePersonalOwnershipPolicy_of_org ho]
  intro hs
  -- the new cipher is stored under the identifier that is drawn first
  have hw1 : World.Sound noLink { w with nextUuid := w.nextUuid + 1 } :=
    ⟨hw.boundary, hw.links, hw.fresh.mono (Nat.le_succ _)⟩
  let c := { Cipher.new w.nextUuid env.now data.cipher.type data.cipher.name with
    userUuid := some me }
  have hw2 : World.Sound noLink ((c.save env).after { w with nextUuid := w.nextUuid + 1 }) := by
    exact hw1.of_safe (Cipher.save_safe trivial ⟨Nat.lt_succ_self _, .inr rfl⟩ (.of_fresh hw.fresh))
  exact Prog.Leads.bind_or (c := c.save env) hw2 (fun c' _ => shareOrDelete_sound hw2 ho hp)
    (and_eq_true_iff.1 hs).2

/-- **A settled creation leaves the links in order.** -/
theorem postCiphersCreate_sound {data} (hw : w.Sound noLink)
    (hs : createSettled env w me data = true) :
    ((postCiphersCreate env data me).after w).Sound noLink := by
  -- unless there is a link to write, the request keeps its pledge as a whole
  have hquiet (hx : ∀ o, data.cipher.organizationId = some o → data.collectionIds ≠ [] → False) :
      ((postCiphersCreate env data me).after w).Sound noLink :=
    hw.of_safe (postCiphersCreate_safe Pledge.any_free fun o ho hne => (hx o ho hne).elim)
  cases ho : data.cipher.organizationId with
  | none => exact hquiet fun o ho' => nomatch ho.symm.trans ho'
  | some org =>
    cases hcols : data.collectionIds with
    | nil => exact hquiet fun _ _ hne => hne hcols
    | cons k =>
      simp only [createSettled, ho, hcols, or_eq_true, not_eq_true', and_eq_true] at hs
      rcases hs with hk | ⟨hs, hp⟩
      · refine hw.of_safe (postCiphersCreate_safe_of Pledge.any_free fun w2 hsame => ?_)
        have hk2 : linkable env w2.db me org k = false := by
          have hout : ∀ t ∈ accessParts, t ∉ [Part.ciphers] := by decide
          rw [linkable_same fun t ht => hsame t (hout t ht)]
          exact hk
        have hrefuses : Prog.Refuses w2 (shareCipherByUuid env ⟨w.nextUuid⟩
            { data with cipher := { data.cipher with lastKnownRevisionDate := none } } me none) :=
          shareCipherByUuid_refuses ho hcols fun _ _ _ _ => hk2
        obtain ⟨e, he⟩ := hrefuses
        exact .of_error he ((Pledge.guarantee _).refl w2)
      · exact postCiphersCreate_leads hw ho hp hs

/-! ## Runs -/

/-- Every link joins a cipher and a collection of one organization. -/
def LinksInOrder (db : Db) : Prop :=
  ∀ cc ∈ db.ciphersCollections.rows, ∃ c ∈ db.ciphers.rows, ∃ k ∈ db.collections.rows,
    c.uuid = cc.cipherUuid ∧ k.uuid = cc.collectionUuid ∧ c.organizationUuid = some k.orgUuid

instance (db : Db) : Decidable (LinksInOrder db) :=
  inferInstanceAs (Decidable (∀ cc ∈ db.ciphersCollections.rows, ∃ c ∈ db.ciphers.rows,
    ∃ k ∈ db.collections.rows, _ ∧ _ ∧ _))

theorem LinksKept.inOrder (h : LinksKept noLink db) : LinksInOrder db := by
  intro cc hcc
  obtain ⟨o, ⟨k, hk, hku, rfl⟩, ⟨c, hc, hcu, hco⟩ | hx⟩ := h cc hcc
  · exact ⟨c, hc, k, hk, hcu, hku, hco⟩
  · exact hx.elim

/-- A cipher of one account alone has no link, so nobody else reaches it. -/
theorem LinksInOrder.personal (h : LinksInOrder db) {c}
    (hc : c ∈ db.ciphers.rows) (ho : c.organizationUuid = none) :
    (∀ cc ∈ db.ciphersCollections.rows, cc.cipherUuid ≠ c.uuid) ∧
      ∀ cfg u, c.userUuid ≠ some u → c.isAccessibleToUser cfg db u = false := by
  have hlink : ∀ cc ∈ db.ciphersCollections.rows, cc.cipherUuid ≠ c.uuid := by
    intro cc hcc hu
    obtain ⟨c', hc', k, -, hcu, -, hco⟩ := h cc hcc
    rw [eq_of_key hc' hc (hcu.trans hu), ho] at hco
    cases hco
  refine ⟨hlink, fun cfg u hne => ?_⟩
  have hno : ¬ (Cipher.getAccessRestrictions cfg db c u none).isSome = true := by
    have hunlinked : ∀ k, ¬ Access.Linked db c k := fun k ⟨cc, hcc, hu, _⟩ => hlink cc hcc hu
    rw [Access.isSome_getAccessRestrictions hc, Access.hasFullAccess_iff]
    simp [hne, ho, hunlinked, Access.ConfirmedIn, Access.RowPath]
  exact (not_eq_true _).mp hno

/-- The links the request writes will be in order. -/
def Event.linksSettled (w : World) (e : Event) : Bool :=
  match e.request with
  | .vault caller (.postCipherShare id data) =>
    shareSettled e.env w caller.token.claims.sub id data none
  | .vault caller (.putCipherShareSelected data) =>
    sharesSettled e.env caller.token.claims.sub data.collectionIds w data.ciphers.reverse
  | .vault caller (.postCiphersCreate data) =>
    createSettled e.env w caller.token.claims.sub data
  | _ => true

theorem World.Sound.vault (hw : w.Sound noLink)
    (h : ∀ user : User, user.uuid = caller.token.claims.sub →
      ((request.handle env user).after w).Sound noLink) :
    ((Request.serve env (.vault caller request)).after w).Sound noLink := by
  have hguard : (Pledge.any noLink w.nextUuid).Changes env none w
      (Headers.fromRequest env caller) _ := Headers.fromRequest_changes
  obtain ⟨hinv, -⟩ := hguard.after hw.inv
  refine Prog.after_bind_or (c := Headers.fromRequest env caller)
    ⟨hinv.boundary, hinv.links, hinv.fresh⟩ fun headers hr => ?_
  obtain ⟨-, hsame, hfound⟩ := hguard.of_ok hw.inv hr
  rw [hsame]
  have hdone := h headers.user hfound.sub
  exact Prog.after_bind_or (c := request.handle env headers.user) hdone fun _ _ => hdone

/-- One request. -/
theorem World.Sound.step_settled {e : Event} (hw : w.Sound noLink) (hs : e.linksSettled w = true) :
    (e.prog.after w).Sound noLink := by
  by_cases hfirst : e.request.linksFirst = true
  · obtain ⟨env, request⟩ := e
    cases request with
    | vault caller request =>
      refine hw.vault fun user hu => ?_
      cases request with
      | postCipherShare =>
        refine shareCipherByUuid_sound hw ?_
        rw [hu]
        exact hs
      | putCipherShareSelected =>
        refine putCipherShareSelected_sound hw ?_
        rw [hu]
        exact hs
      | postCiphersCreate =>
        refine postCiphersCreate_sound hw ?_
        rw [hu]
        exact hs
      | _ => cases hfirst
    | _ => cases hfirst
  · exact (hw.step e fun h => absurd h hfirst).1

/-- **The links are in order in every state a run reaches in which every share is settled**, and a
personal cipher is out of everybody else's reach. -/
theorem linksInOrder_after (faults : List Bool) (run : List Event)
    (h : (World.initial faults).Each (fun w e => e.linksSettled w = true) run) :
    LinksInOrder ((World.initial faults).after run).db ∧
    ∀ c ∈ ((World.initial faults).after run).db.ciphers.rows, c.organizationUuid = none →
      (∀ cc ∈ ((World.initial faults).after run).db.ciphersCollections.rows,
        cc.cipherUuid ≠ c.uuid) ∧
      ∀ cfg u, c.userUuid ≠ some u →
        c.isAccessibleToUser cfg ((World.initial faults).after run).db u = false := by
  have hsound : ((World.initial faults).after run).Sound noLink :=
    World.after_induction (fun _ _ hw hs => hw.step_settled hs) h World.sound_initial
  have horder := hsound.links.inOrder
  exact ⟨horder, fun c hc ho => horder.personal hc ho⟩

/-! ## A share that is settled, and one that is not -/

namespace Links

open Stamps

def createOrganization : Request :=
  .account ⟨token 3, some "create_organization"⟩ (.createOrganization
    { name := "o", billingEmail := "a@example.com", collectionName := "k", key := "key", keys := none })

def postCiphers : Request :=
  .vault ⟨token 3, some "post_ciphers"⟩ (.postCiphers
    { type := 1, name := "n", login := some (.object []) })

/-- The account moves its cipher into the collection of the new organization. -/
def share (folder : Option FolderId) : Request :=
  .vault ⟨token 3, some "post_cipher_share"⟩ (.postCipherShare ⟨9⟩
    ⟨{ type := 1, name := "n", login := some (.object []), organizationId := some ⟨6⟩,
       folderId := folder }, [⟨8⟩]⟩)

def setup : List Event := Client.signedIn ++ [⟨{}, createOrganization⟩, ⟨{}, postCiphers⟩]

end Links

open Links in
/-- The cipher is shared, linked and in the organization. -/
theorem linksInOrder_after_share :
    LinksInOrder ((World.initial []).after (setup ++ [⟨{}, share none⟩])).db ∧
    ((World.initial []).after (setup ++ [⟨{}, share none⟩])).db.ciphersCollections.rows =
      [⟨⟨9⟩, ⟨8⟩⟩] := by
  refine ⟨(linksInOrder_after [] (setup ++ [⟨{}, share none⟩]) ?_).1, by decide⟩
  exact ⟨by decide, by decide, by decide, by decide, by decide, trivial⟩

open Links in
/-- **A share refused for its folder leaves a link of a personal cipher behind.** -/
theorem linksInOrder_broken_by_share :
    ((Request.serve {} (share (some ⟨99⟩))).run ((World.initial []).after setup)).1 =
      .error (.err "Invalid folder") ∧
    ((World.initial []).after (setup ++ [⟨{}, share (some ⟨99⟩)⟩])).db.ciphersCollections.rows =
      [⟨⟨9⟩, ⟨8⟩⟩] ∧
    (∀ c ∈ ((World.initial []).after (setup ++ [⟨{}, share (some ⟨99⟩)⟩])).db.ciphers.rows,
      c.uuid = ⟨9⟩ ∧ c.organizationUuid = none) ∧
    ¬ LinksInOrder ((World.initial []).after (setup ++ [⟨{}, share (some ⟨99⟩)⟩])).db := by
  exact ⟨rfl, by decide, by decide, by decide⟩

end VaultServer
