import VaultServer.Access.Links

/-!
# Items that enter an organization

A member without write access to any collection of an organization is refused when they store a new
item for it. The check asks for write access to the item, though, not to the organization, and an
item of one's own passes it: changing such an item, or sharing it into no collection, moves it into
the organization.
-/

namespace VaultServer

open Lib List Option Table

variable {env : Env} {w w0 : World} {org : OrganizationId} {me : UserId} {c : Cipher} {α : Type}

/-! ## What stays out -/

/-- Every cipher of the organization was one of its ciphers before. -/
def NoneEntered (db : Db) (org : OrganizationId) (db' : Db) : Prop :=
  ∀ c ∈ db'.ciphers.rows, c.organizationUuid = some org → db.CipherIn c.uuid org

/-- What the requests keep, besides: identifiers that are drawn are new, and nobody's rights have
changed. -/
structure Shut (w0 : World) (org : OrganizationId) (w : World) : Prop where
  entered : NoneEntered w0.db org w.db
  fresh : ∀ c ∈ w.db.ciphers.rows, c.uuid.val < w.nextUuid
  rights : ∀ t ∈ accessParts, w0.Same w t

theorem Shut.refl (h : ∀ c ∈ w.db.ciphers.rows, c.uuid.val < w.nextUuid) : Shut w org w :=
  ⟨fun c hc ho => ⟨c, hc, rfl, ho⟩, h, fun t _ => .refl w t⟩

/-- The parts that `Shut` looks at. -/
def shutParts : List Part := .ciphers :: accessParts

section
variable (h : Shut w0 org w)
include h

theorem Shut.pass {c : Cmd α} (hw : Writes S c)
    (hs : shutParts.any S.contains = false) : Shut w0 org (c.after w) := by
  have hsame : ∀ t ∈ shutParts, w.Same (c.after w) t := by
    intro t ht
    refine hw.after (fun hmem => ?_) w
    have hany : shutParts.any S.contains = true := any_eq_true.2 ⟨t, ht, contains_iff_mem.2 hmem⟩
    rw [hs] at hany
    cases hany
  have hciphers : (c.after w).db.ciphers = w.db.ciphers := hsame .ciphers mem_cons_self
  refine ⟨?_, ?_, fun t ht => (h.rights t ht).trans (hsame t (mem_cons_of_mem _ ht))⟩
  · unfold NoneEntered
    rw [hciphers]
    exact h.entered
  · intro x hx
    rw [hciphers] at hx
    exact Nat.lt_of_lt_of_le (h.fresh x hx) (hw.nextUuid_le w)

theorem Shut.still {c : Cmd α} (hw : Writes [] c) : Shut w0 org (c.after w) :=
  h.pass hw (by decide)

/-- A number is drawn. -/
theorem Shut.draw : Shut w0 org { w with nextUuid := w.nextUuid + 1 } :=
  ⟨h.entered, fun c hc => Nat.lt_succ_of_lt (h.fresh c hc),
    fun t ht => (h.rights t ht).trans (.of_eq rfl rfl rfl t)⟩

/-- A statement on the ciphers alone. -/
theorem Shut.exec (hs : ∀ db', stmt w.db = some db' →
      NoneEntered w0.db org db' ∧ (∀ c ∈ db'.ciphers.rows, c.uuid.val < w.nextUuid) ∧
        ∀ t ∈ accessParts, w.Same { w with db := db' } t) : Shut w0 org (w.exec stmt) := by
  obtain ⟨-, hx⟩ | ⟨db', -, hstmt, hx⟩ := w.exec_cases stmt
  · rw [hx]
    exact ⟨h.entered, h.fresh, fun t ht => (h.rights t ht).trans (.of_eq rfl rfl rfl t)⟩
  · rw [hx]
    obtain ⟨hentered, hfresh, hsame⟩ := hs db' hstmt
    refine ⟨hentered, hfresh, fun t ht => ?_⟩
    exact ((h.rights t ht).trans (hsame t ht)).trans (.of_eq rfl rfl rfl t)

/-- A stored cipher is one of the organization's only if it was, or the organization is gone. -/
theorem Shut.save (hc : c.uuid.val < w.nextUuid) (ho : c.organizationUuid = some org →
      w0.db.CipherIn c.uuid org ∨ w.db.hasOrganization org = false) :
    Shut w0 org ((c.save env).after w) := by
  have hwrites : Writes [] (c.updateUsersRevision env) := Cipher.updateUsersRevision_writes
  have h1 : Shut w0 org ((c.updateUsersRevision env).after w) := h.still hwrites
  refine Prog.after_bind_or h1 fun _ _ => ?_
  rw [← (hwrites.still w .organizations).hasOrganization] at ho
  have hc1 := Nat.lt_of_lt_of_le hc (hwrites.nextUuid_le w)
  generalize (c.updateUsersRevision env).after w = w1 at h1 hc1 ho ⊢
  rw [Prog.after_bind_pure, after_exec]
  refine h1.exec fun db' hs => ?_
  obtain ⟨hguard, rfl⟩ := Db.guarded_eq_some hs
  refine ⟨fun x hx hxo => ?_, fun x hx => ?_, fun t ht => ?_⟩
  · rcases mem_upsert.1 hx with rfl | ⟨hx, -⟩
    · rcases ho hxo with hin | hgone
      · exact hin
      · -- the row refers to an organization that is not there
        have hthere := (Bool.and_eq_true_iff.1 hguard).2
        rw [hxo] at hthere
        rw [all_some, hgone] at hthere
        cases hthere
    · exact h1.entered x hx hxo
  · rcases mem_upsert.1 hx with rfl | ⟨hx, -⟩
    · exact hc1
    · exact h1.fresh x hx
  · cases t <;> first | rfl | exact absurd ht (by decide)

/-- The rest of a program starts where the first part, which writes other parts, has stopped. -/
theorem Shut.andThen {α β : Type} {c} {k : α → Cmd β}
    (hw : Writes S c) (hs : shutParts.any S.contains = false)
    (hk : ∀ a w', Shut w0 org w' → (∀ t, t ∉ S → w.Same w' t) → w.nextUuid ≤ w'.nextUuid →
      Shut w0 org ((k a).after w')) : Shut w0 org ((c >>= k).after w) :=
  Prog.after_bind_or (h.pass hw hs) fun a _ =>
    hk a _ (h.pass hw hs) (fun _ ht => hw.after ht w) (hw.nextUuid_le w)

theorem Shut.delete : Shut w0 org ((c.delete env).after w) := by
  refine h.andThen (S := []) Cipher.updateUsersRevision_writes (by decide) fun _ w1 h _ _ => ?_
  refine h.andThen FolderCipher.deleteWhere_writes (by decide) fun _ w2 h _ _ => ?_
  refine h.andThen CollectionCipher.deleteWhere_writes (by decide) fun _ w3 h _ _ => ?_
  refine h.andThen Attachment.deleteAllByCipher_writes (by decide) fun _ w4 h _ _ => ?_
  refine h.andThen Favorite.deleteWhere_writes (by decide) fun _ w5 h _ _ => ?_
  rw [after_exec]
  refine h.exec fun db' hs => ?_
  obtain ⟨-, rfl⟩ := Db.guarded_eq_some hs
  refine ⟨fun x hx => h.entered x (mem_deleteWhere.1 hx).1,
    fun x hx => h.fresh x (mem_deleteWhere.1 hx).1, fun t ht => ?_⟩
  cases t <;> first | rfl | exact absurd ht (by decide)

end

/-! ## Writing a cipher -/

/-- The update accepts the organization, as far as the state before it decides. -/
def admits (env : Env) (db : Db) (me : UserId) (c : Cipher) (org : OrganizationId)
    (cols : Option (List CollectionId)) (ut : UpdateType) (data : CipherData) : Bool :=
  !data.orgMismatch c &&
    ((Membership.findConfirmedByUserAndOrg db me org).any fun m =>
      (cols.any fun cols => !cols.isEmpty) || m.hasFullAccess ||
        c.isWriteAccessibleToUser env.toConfig db me) &&
    !data.isStale env ut c &&
    !data.notesTooLong env.toConfig &&
    data.folderId.all (fun f => (Folder.findByUuidAndUser db f me).isSome) &&
    (data.fill c).toBool

section
variable {c : Cipher} {data : CipherData} {cols : Option (List CollectionId)} {ut : UpdateType}

theorem checkUpdate_yields : Yields w (checkUpdate env c data me ut) fun _ w' => w' = w ∧
    data.isStale env ut c = false ∧ data.orgMismatch c = false ∧
      data.notesTooLong env.toConfig = false := by
  have hpolicy : Yields w (enforcePersonalOwnershipPolicy (some data) me) fun _ w' => w' = w := by
    unfold enforcePersonalOwnershipPolicy
    split
    · exact .query (Yields.ensure_last fun _ => rfl)
    · exact Prog.Yields.ret rfl
  refine hpolicy.bind fun _ hw => ?_
  rw [hw]
  refine Yields.ensure fun hstale => Yields.ensure fun hm => Yields.ensure_last fun hn => ?_
  simp only [Bool.not_eq_true'] at hstale hm hn
  exact ⟨rfl, hstale, hm, hn⟩

theorem chooseOwner_yields : Yields w (chooseOwner env c data.organizationId me cols) fun c' w' =>
    w' = w ∧ c'.uuid = c.uuid ∧
      c'.organizationUuid = data.organizationId.or c.organizationUuid ∧
      ∀ o, data.organizationId = some o →
        ((Membership.findConfirmedByUserAndOrg w.db me o).any fun m =>
          (cols.any fun cols => !cols.isEmpty) || m.hasFullAccess ||
            c.isWriteAccessibleToUser env.toConfig w.db me) = true := by
  unfold chooseOwner
  cases ho : data.organizationId with
  | none => exact .ret ⟨rfl, rfl, rfl, nofun⟩
  | some o =>
    refine .query ?_
    cases hm : Membership.findConfirmedByUserAndOrg w.db me o with
    | none => exact .err
    | some =>
      refine .query (.ensure fun hmay => .ret ⟨rfl, rfl, rfl, ?_⟩)
      rintro o' ho'
      obtain rfl := Option.some.inj ho'
      rw [hm]
      exact hmay

theorem checkFolder_yields : Yields w (checkFolder f me) fun _ w' => w' = w ∧
    (f.all fun f => (Folder.findByUuidAndUser w.db f me).isSome) = true := by
  cases f with
  | none => exact .ret ⟨rfl, rfl⟩
  | some => exact .query (.ensure_last fun h => ⟨rfl, h⟩)

/-- **An update that does not admit the organization leaves the cipher where it is.** -/
theorem Shut.update (h : Shut w0 org w) (hc : c.uuid.val < w.nextUuid)
    (hno : data.organizationId = some org → w0.db.CipherIn c.uuid org ∨
      w.db.hasOrganization org = false ∨ admits env w.db me c org cols ut data = false) :
    Shut w0 org ((updateCipherFromData env c data me cols ut).after w) := by
  refine checkUpdate_yields.after_bind (h.still checkUpdate_writes) ?_
  rintro _ ⟨hw1, hstale, hm, hnotes⟩
  rw [hw1]
  refine chooseOwner_yields.after_bind (h.still chooseOwner_writes) ?_
  rintro c2 ⟨hw2, hu2, ho2, hmay⟩
  rw [hw2]
  refine checkFolder_yields.after_bind (h.still checkFolder_writes) ?_
  rintro _ ⟨hw3, hfolder⟩
  rw [hw3]
  refine h.andThen updateAttachments_writes (by decide) fun _ w4 h4 hsame hle => ?_
  cases hfill : data.fill c2 with
  | error => exact h4
  | ok c5 =>
    obtain ⟨hu5, ho5, -⟩ := CipherData.fill_eq_ok hfill
    have hrest : ∀ c6 : Cipher, Writes [.foldersCiphers, .favorites, .archives] (do
        writeUserMarks env c6 data me
        Prog.when (ut ≠ .none) (c6.updateUsersRevision env)
        pure c6) := fun _ =>
      .bind writeUserMarks_writes fun _ => .bind (.when Cipher.updateUsersRevision_writes) fun _ =>
        .ret
    have hsave : Shut w0 org ((c5.save env).after w4) := by
      refine h4.save ?_ fun ho => ?_
      · rw [hu5, hu2]
        exact Nat.lt_of_lt_of_le hc hle
      · have hmism : ¬ (c.organizationUuid.isSome = true ∧ c.organizationUuid ≠ data.organizationId) :=
          of_decide_eq_false hm
        have hdata : data.organizationId = some org := by
          rw [ho5, ho2] at ho
          cases hd : data.organizationId with
          | none =>
            rw [hd] at ho hmism
            exact absurd ⟨by rw [show c.organizationUuid = some org from ho]; rfl,
              by rw [show c.organizationUuid = some org from ho]; simp⟩ hmism
          | some =>
            rw [hd] at ho
            exact ho
        rw [hu5, hu2]
        rcases hno hdata with hin | hgone | hadmits
        · exact .inl hin
        · exact .inr ((hsame .organizations (by decide)).hasOrganization.trans hgone)
        · -- every check of the update was passed
          obtain ⟨c', hc', -⟩ := CipherData.exists_fill c (by rw [hfill]; rfl)
          have htrue : admits env w.db me c org cols ut data = true := by
            simp only [admits, hm, hmay org hdata, hstale, hnotes, hfolder, hc', Bool.not_false,
              Bool.and_self, Except.toBool]
          rw [htrue] at hadmits
          cases hadmits
    exact Prog.after_bind_or (c := c5.save env) hsave fun c6 _ => hsave.pass (hrest c6) (by decide)

end

/-! ## Requests -/

theorem Cipher.save_yields : Yields w (c.save env) fun c' w' =>
    c' ∈ w'.db.ciphers.rows ∧ c'.organizationUuid = c.organizationUuid := by
  refine Yields.still Cipher.updateUsersRevision_writes fun _ w1 _ => ?_
  refine Yields.exec.bind fun _ hs => Prog.Yields.ret ⟨?_, rfl⟩
  obtain ⟨-, hdb⟩ := Db.guarded_eq_some hs
  rw [hdb]
  exact mem_upsert.2 (.inl rfl)

/-- A cipher that is not stored is nobody's. -/
theorem Cipher.new_not_writable {db n now atype name} (h : ∀ c ∈ db.ciphers.rows, c.uuid.val < n) :
    (Cipher.new n now atype name).isWriteAccessibleToUser env.toConfig db me = false := by
  have hnone : (db.ciphers.rows.filter fun x => x.uuid = (Cipher.new n now atype name).uuid) = [] := by
    refine filter_eq_nil_iff.2 fun x hx heq => ?_
    have hlt := h x hx
    rw [of_decide_eq_true heq] at hlt
    exact Nat.lt_irrefl _ hlt
  have hfull : Cipher.hasFullAccess env.toConfig db (Cipher.new n now atype name) me none = false := by
    simp [Cipher.hasFullAccess, Cipher.isOwnedByUser, Cipher.isInFullAccessOrg,
      Cipher.isInFullAccessGroup, Cipher.new]
  have hflags : Cipher.liveFlags env.toConfig db (Cipher.new n now atype name) me = [] := by
    simp [Cipher.liveFlags, Cipher.getUserCollectionsAccessFlags,
      Cipher.getGroupCollectionsAccessFlags, hnone, innerJoin]
  simp [Cipher.isWriteAccessibleToUser, Cipher.getAccessRestrictions, hfull, hflags]

/-- The user has no place in the organization to put an item. -/
structure Outside (env : Env) (db : Db) (org : OrganizationId) (me : UserId) : Prop where
  limited : ∀ m, Membership.findConfirmedByUserAndOrg db me org = some m → m.hasFullAccess = false
  readOnly : ∀ k, linkable env db me org k = false

theorem Outside.later {w w' : World} (h : Outside env w.db org me)
    (hsame : ∀ t ∈ accessParts, w.Same w' t) : Outside env w'.db org me := by
  refine ⟨fun m hm => ?_, fun k => (linkable_same hsame).trans (h.readOnly k)⟩
  rw [(hsame .usersOrganizations (by decide)).findConfirmed] at hm
  exact h.limited m hm

/-- A new cipher is not admitted without a collection. -/
theorem admits_new {db n now atype name ut data} (hout : Outside env db org me)
    (h : ∀ c ∈ db.ciphers.rows, c.uuid.val < n) :
    admits env db me (Cipher.new n now atype name) org none ut data = false := by
  have hmay : ((Membership.findConfirmedByUserAndOrg db me org).any fun m =>
      ((none : Option (List CollectionId)).any fun cols => !cols.isEmpty) || m.hasFullAccess ||
        (Cipher.new n now atype name).isWriteAccessibleToUser env.toConfig db me) = false := by
    cases hm : Membership.findConfirmedByUserAndOrg db me org with
    | none => rfl
    | some m => simp [hout.limited m hm, Cipher.new_not_writable h]
  simp only [admits, hmay, Bool.and_false, Bool.false_and]

theorem Shut.putCipher {id} {data : CipherData} (h : Shut w0 org w)
    (hno : data.organizationId = some org → ∀ c, Cipher.findByUuid w.db id = some c →
      w0.db.CipherIn c.uuid org ∨ w.db.hasOrganization org = false ∨
        admits env w.db me c org none .syncCipherUpdate data = false) :
    Shut w0 org ((VaultServer.putCipher env id data me).after w) := by
  unfold VaultServer.putCipher
  rw [after_read]
  cases hfound : Cipher.findByUuid w.db id with
  | none => exact h
  | some c =>
    rw [after_query]
    refine after_ensure h fun _ => ?_
    have hstored := h.update (h.fresh c (Cipher.findByUuid_eq_some hfound).1)
      fun ho => hno ho c hfound
    exact Prog.after_bind_or hstored fun _ _ => hstored.still Cipher.toJson_writes

section
variable (hout : Outside env w0.db org me) (h : Shut w0 org w) {data : ShareCipherData}
include hout h

theorem Shut.new {data ut atype name} :
    Shut w0 org ((updateCipherFromData env (Cipher.new w.nextUuid env.now atype name) data me none
      ut).after { w with nextUuid := w.nextUuid + 1 }) := by
  refine h.draw.update (Nat.lt_succ_self _) fun _ => .inr (.inr ?_)
  exact admits_new (hout.later h.rights) h.fresh

theorem Shut.postCiphers {data} : Shut w0 org ((VaultServer.postCiphers env data me).after w) := by
  unfold VaultServer.postCiphers
  rw [after_getUuid]
  exact Prog.after_bind_or (h.new hout) fun c _ => (h.new hout).still Cipher.toJson_writes

theorem Shut.postCiphersImport {data} :
    Shut w0 org ((VaultServer.postCiphersImport env data me).after w) := by
  refine h.andThen (S := []) enforcePersonalOwnershipPolicy_writes (by decide) fun _ w1 h _ _ => ?_
  refine h.andThen (S := []) validateCipherData_writes (by decide) fun _ w2 h _ _ => ?_
  rw [after_query]
  refine h.andThen (.foldl fun _ _ => importFolder_writes) (by decide) fun folders w3 h _ _ => ?_
  have hround : Prog.Keeps (Shut w0 org)
      (Prog.each data.ciphers.zipIdx (importCipher env me data.folderRelationships folders)) := by
    refine Prog.Keeps.each fun item _ w h => ?_
    unfold importCipher
    rw [after_getUuid, Prog.after_bind_pure]
    exact h.new hout
  exact Prog.after_bind_or (hround w3 h) fun _ _ =>
    (hround w3 h).pass User.updateRevision_writes (by decide)

theorem Shut.share {id} {ut}
    (hno : data.collectionIds = [] → data.cipher.organizationId = some org →
      ∀ c, Cipher.findByUuid w.db id = some c → w0.db.CipherIn c.uuid org ∨
        w.db.hasOrganization org = false ∨
        admits env w.db me c org (some []) (shareUpdateType data ut) data.cipher = false) :
    Shut w0 org ((shareCipherByUuid env id data me ut).after w) := by
  have hupdate : ∀ {c : Cipher} {shared : List CollectionId} {w' : World}, Shut w0 org w' →
      c.uuid.val < w'.nextUuid →
      (data.cipher.organizationId = some org → w0.db.CipherIn c.uuid org ∨
        w'.db.hasOrganization org = false ∨
        admits env w'.db me c org (some shared) (shareUpdateType data ut) data.cipher = false) →
      Shut w0 org ((do
        let c ← updateCipherFromData env c data.cipher me (some shared) (shareUpdateType data ut)
        c.toJson : Cmd Unit).after w') := by
    intro c shared w' h' hc hno'
    have hstored := h'.update hc hno'
    exact Prog.after_bind_or hstored fun _ _ => hstored.still Cipher.toJson_writes
  by_cases hinto : data.cipher.organizationId = some org ∧ data.collectionIds ≠ []
  · -- the first collection is refused
    obtain ⟨ho, hne⟩ := hinto
    obtain ⟨k, ks, hcols⟩ := exists_cons_of_ne_nil hne
    have hrefuses : Prog.Refuses w (shareCipherByUuid env id data me ut) :=
      shareCipherByUuid_refuses ho hcols fun _ _ _ _ => (hout.later h.rights).readOnly k
    obtain ⟨e, he⟩ := hrefuses
    rw [Prog.after, he]
    exact h
  · unfold shareCipherByUuid
    rw [after_query]
    cases hfound : Cipher.findByUuid w.db id with
    | none => exact h
    | some c =>
      have hc : c.uuid.val < w.nextUuid := h.fresh c (Cipher.findByUuid_eq_some hfound).1
      rw [after_query]
      refine after_ensure h fun _ => after_ensure h fun _ => ?_
      by_cases ho : data.cipher.organizationId = some org
      · have hcols : data.collectionIds = [] := by
          by_contra hne
          exact hinto ⟨ho, hne⟩
        have hlink : linkAllShared env c.uuid me data = pure [] := by
          unfold linkAllShared
          rw [ho, hcols]
          rfl
        rw [hlink]
        exact hupdate h hc fun _ => hno hcols ho c hfound
      · refine h.andThen linkAllShared_writes (by decide) fun shared w1 h1 _ hle => ?_
        exact hupdate h1 (Nat.lt_of_lt_of_le hc hle) fun ho' => absurd ho' ho

theorem Shut.putCipherShareSelected {data} :
    Shut w0 org ((VaultServer.putCipherShareSelected env data me).after w) := by
  refine after_ensure h fun _ => after_ensure h fun hne => after_ensure h fun _ => ?_
  refine Prog.Keeps.each (fun d _ w1 h1 => ?_) w h
  unfold shareSelected
  split
  · exact h1
  · refine h1.share hout fun hnil => ?_
    rw [show data.collectionIds = [] from hnil] at hne
    cases hne

/-- The new cipher is the one that is shared, and the one that is deleted when that fails. -/
theorem Shut.postCiphersCreate
    (hno : data.collectionIds = [] → data.cipher.organizationId = some org →
      w.db.hasOrganization org = false ∨ ∀ c : Cipher, c.organizationUuid = none →
        ∀ w' : World, (∀ t, t ∉ [Part.ciphers] → w.Same w' t) →
          admits env w'.db me c org (some []) .syncCipherCreate
            { data.cipher with lastKnownRevisionDate := none } = false) :
    Shut w0 org ((VaultServer.postCiphersCreate env data me).after w) := by
  refine h.andThen (S := []) enforcePersonalOwnershipPolicy_writes (by decide)
    fun _ w1 h1 hsame1 _ => ?_
  rw [after_getUuid]
  have h2 : Shut w0 org { w1 with nextUuid := w1.nextUuid + 1 } := h1.draw
  let c := { Cipher.new w1.nextUuid env.now data.cipher.type data.cipher.name with
    userUuid := some me }
  have hstored : Shut w0 org ((c.save env).after { w1 with nextUuid := w1.nextUuid + 1 }) :=
    h2.save (Nat.lt_succ_self _) nofun
  refine Prog.after_bind_or (c := c.save env) hstored fun c' hc' => ?_
  obtain ⟨hmem, hpersonal⟩ := Cipher.save_yields c' hc'
  have hsame : ∀ t, t ∉ [Part.ciphers] →
      w.Same ((c.save env).after { w1 with nextUuid := w1.nextUuid + 1 }) t := fun t ht =>
    ((hsame1 t not_mem_nil).trans (.of_eq rfl rfl rfl t)).trans (Cipher.save_writes.after ht _)
  generalize (c.save env).after { w1 with nextUuid := w1.nextUuid + 1 } = w3 at hstored hmem hsame ⊢
  have hshared : Shut w0 org ((shareCipherByUuid env c'.uuid
      { data with cipher := { data.cipher with lastKnownRevisionDate := none } } me none).after
        w3) := by
    refine hstored.share hout fun hcols ho x hx => .inr ?_
    obtain ⟨hxmem, hxid⟩ := Cipher.findByUuid_eq_some hx
    obtain rfl := eq_of_key hxmem hmem hxid
    rcases hno hcols ho with hgone | hadmits
    · exact .inl ((hsame .organizations (by decide)).hasOrganization.trans hgone)
    · exact .inr (hadmits x hpersonal w3 hsame)
  refine Prog.after_bind_or (by rw [after_catchErr]; exact hshared) fun r _ => ?_
  rw [after_catchErr]
  cases r with
  | ok => exact hshared
  | error => exact Prog.after_bind_or hshared.delete fun _ _ => hshared.delete

end

/-! ## An item that is moved alone -/

theorem Folder.hasFolder_of_found {db f u} (h : (Folder.findByUuidAndUser db f u).isSome = true) :
    db.hasFolder f = true := by
  obtain ⟨folder, hfolder⟩ := isSome_iff_exists.1 h
  obtain ⟨hmem, hkey⟩ := mem_of_find? hfolder
  exact any_eq_true.2 ⟨folder, hmem, decide_eq_true (of_decide_eq_true hkey).1⟩

/-- The folder that is found for a cipher comes with the row that put it there. -/
theorem Cipher.exists_of_getFolderUuid {db c f} (h : Cipher.getFolderUuid db c me = some f) :
    ∃ fc, FolderCipher.findByFolderAndCipher db f c.uuid = some fc := by
  obtain ⟨⟨fc, folder⟩, hfound, rfl⟩ := map_eq_some_iff.1 h
  have hkey := find?_some hfound
  simp only [decide_eq_true_eq] at hkey
  obtain ⟨x, hx, y, -, -, heq⟩ := mem_innerJoin.1 (mem_of_find?_eq_some hfound)
  obtain ⟨rfl, rfl⟩ := Prod.mk.inj heq
  refine isSome_iff_exists.1 (find?_isSome.2 ⟨fc, hx, ?_⟩)
  exact decide_eq_true ⟨rfl, hkey.2⟩

theorem Cipher.moveToFolder_returns (hc : w.db.hasCipher c.uuid = true)
    (hf : (f.all fun f => (Folder.findByUuidAndUser w.db f me).isSome) = true) :
    Returns w (c.moveToFolder env f me) ⊤ := by
  refine Returns.still User.updateUuidRevision_writes Returns.updateUuidRevision fun _ w1 hsame => ?_
  have hc1 : w1.db.hasCipher c.uuid = true := (hsame .ciphers).hasCipher.trans hc
  have hfolders : w1.db.folders = w.db.folders := hsame .folders
  have hf1 : ∀ new, f = some new → w1.db.hasFolder new = true := by
    rintro new rfl
    refine Folder.hasFolder_of_found (u := me) ?_
    rw [Folder.findByUuidAndUser, hfolders]
    exact hf
  have hsave : ∀ new (w2 : World), f = some new → (∀ t, t ∉ [Part.foldersCiphers] → w1.Same w2 t) →
      Returns w2 (FolderCipher.save ⟨c.uuid, new⟩) ⊤ := by
    intro new w2 hnew hsame2
    refine (Returns.execGuarded rfl ?_).mono fun _ _ _ => trivial
    have hfolder : w2.db.hasFolder new = w1.db.hasFolder new := by
      rw [Db.hasFolder, show w2.db.folders = w1.db.folders from hsame2 .folders (by decide)]
      rfl
    rw [(hsame2 .ciphers (by decide)).hasCipher, hc1, hfolder, hf1 new hnew]
    rfl
  refine .query ?_
  cases hold : Cipher.getFolderUuid w1.db c me with
  | none =>
    cases f with
    | none => exact .ret trivial
    | some new => exact hsave new w1 rfl fun t _ => .refl w1 t
  | some old =>
    obtain ⟨fc, hfc⟩ := Cipher.exists_of_getFolderUuid hold
    cases f with
    | none =>
      refine .query ?_
      rw [hfc]
      exact Returns.execTotal.mono fun _ _ _ => trivial
    | some new =>
      dsimp only
      split
      · exact .ret trivial
      · have hremove : Returns w1 (Cipher.removeFromFolder old c.uuid) ⊤ := by
          refine .query ?_
          rw [hfc]
          exact Returns.execTotal.mono fun _ _ _ => trivial
        exact .andThen Cipher.removeFromFolder_writes hremove fun _ w2 _ hsame2 =>
          hsave new w2 rfl hsame2

theorem Cipher.setFavorite_returns (hc : w.db.hasCipher c.uuid = true)
    (hu : w.db.hasUser me = true) : Returns w (c.setFavorite env b me) ⊤ := by
  cases b with
  | none => exact .ret trivial
  | some =>
    refine .query ?_
    split
    · refine Returns.still User.updateUuidRevision_writes Returns.updateUuidRevision
        fun _ w1 hsame => (Returns.execGuarded rfl ?_).mono fun _ _ _ => trivial
      rw [(hsame .users).hasUser, (hsame .ciphers).hasCipher, hu, hc]
      rfl
    · exact .still User.updateUuidRevision_writes Returns.updateUuidRevision
        fun _ w1 _ => Returns.execTotal.mono fun _ _ _ => trivial
    · exact .ret trivial

/-- The marks can be written where the cipher, the user and the folder are there. -/
theorem writeUserMarks_returns {data : CipherData} (hc : w.db.hasCipher c.uuid = true)
    (hu : w.db.hasUser me = true)
    (hf : (data.folderId.all fun f => (Folder.findByUuidAndUser w.db f me).isSome) = true) :
    Returns w (writeUserMarks env c data me) ⊤ := by
  refine .andThen Cipher.moveToFolder_writes (Cipher.moveToFolder_returns hc hf) fun _ w1 _ h1 => ?_
  rw [← (h1 .ciphers (by decide)).hasCipher] at hc
  rw [← (h1 .users (by decide)).hasUser] at hu
  refine .andThen Cipher.setFavorite_writes (Cipher.setFavorite_returns hc hu) fun _ w2 _ h2 => ?_
  rw [← (h2 .ciphers (by decide)).hasCipher] at hc
  rw [← (h2 .users (by decide)).hasUser] at hu
  split
  · refine Returns.still User.updateUuidRevision_writes Returns.updateUuidRevision
      fun _ w3 h3 => (Returns.execGuarded rfl ?_).mono fun _ _ _ => trivial
    rw [(h3 .users).hasUser, (h3 .ciphers).hasCipher, hu, hc]
    rfl
  · exact .ret trivial

section
variable {c : Cipher} {ut : UpdateType}

/-- A personal item that the user may write is moved into the organization with no collection
named, and nothing else is wrong with the request. -/
def moves (env : Env) (db : Db) (me : UserId) (org : OrganizationId) (ut : UpdateType)
    (data : ShareCipherData) (c : Cipher) : Bool :=
  c.organizationUuid.isNone && c.isWriteAccessibleToUser env.toConfig db me &&
    data.collectionIds.isEmpty && data.cipher.organizationId = some org &&
    acceptable env db me c org ut data

theorem updateCipherFromData_returns {data cols}
    (h : moves env w.db me org ut data c = true) (hc : c ∈ w.db.ciphers.rows)
    (hu : w.db.hasUser me = true) : Returns w (updateCipherFromData env c data.cipher me cols ut)
      fun c' w' => w'.db.CipherIn c.uuid org ∧ c'.atype = c.atype := by
  simp only [moves, Bool.and_eq_true, decide_eq_true_eq, isNone_iff_eq_none] at h
  obtain ⟨⟨⟨⟨hnone, hwr⟩, -⟩, ho⟩, ha⟩ := h
  have hm : data.cipher.orgMismatch c = false := by simp [CipherData.orgMismatch, hnone]
  have hstore : Writes [.ciphers, .attachments] (storeCipher env c data.cipher me cols ut) := by
    refine .bind checkUpdate_writes fun _ => .bind chooseOwner_writes fun _ => ?_
    refine .bind checkFolder_writes fun _ => .bind (updateAttachments_writes.mono rfl) fun _ => ?_
    exact .bind .lift fun _ => Cipher.save_writes.mono rfl
  rw [updateCipherFromData_eq]
  refine Returns.andThen hstore (storeCipher_returns ho (.inr hwr) (hasCipher_of_mem hc) hm ha)
    fun c6 w6 ⟨hu6, hmem, ho6, ht6⟩ hsame => ?_
  have hin : w6.db.CipherIn c.uuid org := ⟨c6, hmem, hu6, ho6⟩
  refine (Returns.and_after (P := fun w' => w'.db.CipherIn c.uuid org)
    (Q := fun c' _ => c'.atype = c.atype) ?_ ?_).mono fun _ _ h => ⟨h.2, h.1⟩
  · have hmarks : Returns w6 (writeUserMarks env c6 data.cipher me) ⊤ := by
      refine writeUserMarks_returns (hasCipher_of_mem hmem) ?_ ?_
      · exact (hsame .users (by decide)).hasUser.trans hu
      · have hfolders : w6.db.folders = w.db.folders := hsame .folders (by decide)
        simp only [Folder.findByUuidAndUser, hfolders]
        exact (Bool.and_eq_true_iff.1 (Bool.and_eq_true_iff.1 ha).1).2
    refine Prog.Returns.bind hmarks fun _ _ => ?_
    exact Prog.Returns.bind (Returns.when Cipher.updateUsersRevision_returns) fun _ _ =>
      Prog.Returns.ret ht6
  · exact Db.CipherIn.of_same (updateRest_writes.after (by decide) w6) hin

/-- A cipher is answered unless its type is unknown. -/
theorem Cipher.toJson_concludes : Concludes w c.toJson fun r _ => r.toBool = c.typeKey.toBool := by
  refine Concludes.query (Prog.Concludes.bind (Returns.each fun _ _ _ => Returns.external)
    fun _ _ _ => ?_)
  cases c.typeKey <;> rfl

/-- What is answered in the end leaves the cipher in place, and is an error for an unknown type
only. -/
theorem Concludes.answered {c id} {x : Cipher}
    (h : Returns w c fun c' w' => w'.db.CipherIn id org ∧ c'.atype = x.atype) :
    Concludes w (c >>= Cipher.toJson) fun r w' =>
      w'.db.CipherIn id org ∧ (x.typeKey.toBool = true → r = .ok ()) := by
  refine .bind h fun c' ⟨hin, htype⟩ => fun hs => ⟨?_, fun hkey => ?_⟩
  · exact Db.CipherIn.of_same (Cipher.toJson_writes.still _ .ciphers) hin
  · have hkey' : c'.typeKey.toBool = true := by
      unfold Cipher.typeKey at hkey ⊢
      rw [htype]
      split <;> simp_all [Except.toBool]
    have hok := (Cipher.toJson_concludes hs).trans hkey'
    cases hr : (c'.toJson.run (c.after w)).1 with
    | error => rw [hr] at hok; cases hok
    | ok => rfl

theorem putCipher_concludes {data id} (hu : w.db.hasUser me = true)
    (hfound : Cipher.findByUuid w.db id = some c)
    (h : moves env w.db me org .syncCipherUpdate ⟨data, []⟩ c = true) :
    Concludes w (putCipher env id data me) fun r w' =>
      w'.db.CipherIn c.uuid org ∧ (c.typeKey.toBool = true → r = .ok ()) := by
  have hwr : c.isWriteAccessibleToUser env.toConfig w.db me = true := by
    simp only [moves, Bool.and_eq_true] at h
    exact h.1.1.1.2
  refine .read ?_
  rw [hfound]
  refine Concludes.query (.ensure (fun hf => absurd hwr (by simp [hf])) fun _ => ?_)
  exact .answered (updateCipherFromData_returns h (Cipher.findByUuid_eq_some hfound).1 hu)

theorem shareCipherByUuid_concludes {data id ut} (hu : w.db.hasUser me = true)
    (hfound : Cipher.findByUuid w.db id = some c)
    (h : moves env w.db me org (shareUpdateType data ut) data c = true) :
    Concludes w (shareCipherByUuid env id data me ut) fun r w' =>
      w'.db.CipherIn c.uuid org ∧ (c.typeKey.toBool = true → r = .ok ()) := by
  have hm := h
  simp only [moves, Bool.and_eq_true, Option.isNone_iff_eq_none, List.isEmpty_iff,
    decide_eq_true_eq] at hm
  obtain ⟨⟨⟨⟨hnone, hwr⟩, hcols⟩, ho⟩, -⟩ := hm
  have hlink : linkAllShared env c.uuid me data = pure [] := by
    unfold linkAllShared
    rw [ho, hcols]
    rfl
  have hmatch : data.cipher.orgMismatch c = false := by simp [CipherData.orgMismatch, hnone]
  refine .query ?_
  rw [hfound]
  refine .query (.ensure (fun hf => absurd hwr (by simp [hf])) fun _ => ?_)
  refine .ensure (fun hf => absurd hmatch (by simpa using hf)) fun _ => ?_
  rw [hlink]
  exact .answered (updateCipherFromData_returns h (Cipher.findByUuid_eq_some hfound).1 hu)

/-- A body that can be read has one of the types. -/
theorem CipherData.typeKey_of_fill {data : CipherData} {x : Cipher}
    (h : (data.fill c).toBool = true) (htype : x.atype = data.type) : x.typeKey.toBool = true := by
  cases ht : data.typeDataOpt with
  | error =>
    simp only [CipherData.fill, CipherData.typeData, ht, Bind.bind, Except.bind] at h
    cases h
  | ok =>
    unfold CipherData.typeDataOpt at ht
    unfold Cipher.typeKey
    rw [htype]
    split <;> first | rfl | simp_all

end

/-! ## When nothing enters -/

/-- The requests that store a vault item. -/
def VaultRequest.storesItem : VaultRequest → Bool
  | postCiphers _ | postCiphersCreate _ | putCipher _ _ | postCipherShare _ _
  | putCipherShareSelected _ | postCiphersImport _ => true
  | _ => false

/-- A new item is made for the organization with no collection named, and nothing else is wrong
with the request. -/
def createsAlone (env : Env) (db : Db) (me : UserId) (org : OrganizationId)
    (data : ShareCipherData) : Bool :=
  data.collectionIds.isEmpty && data.cipher.organizationId = some org &&
    acceptable env db me (Cipher.new 0 env.now data.cipher.type data.cipher.name) org
      .syncCipherCreate
      { data with cipher := { data.cipher with lastKnownRevisionDate := none } }

/-- The request brings an item into the organization without a collection. -/
def VaultRequest.entersAlone (env : Env) (db : Db) (me : UserId) (org : OrganizationId) :
    VaultRequest → Bool
  | putCipher id data =>
    (Cipher.findByUuid db id).any (moves env db me org .syncCipherUpdate ⟨data, []⟩)
  | postCipherShare id data =>
    (Cipher.findByUuid db id).any (moves env db me org (shareUpdateType data none) data)
  | postCiphersCreate data => createsAlone env db me org data
  | _ => false

/-- What is admitted without a collection is moved alone. -/
theorem moves_of_admits {db c ut data cols} (hout : Outside env db org me)
    (hcols : (cols.any fun cols => !cols.isEmpty) = false) (hnil : data.collectionIds = [])
    (hc : c.organizationUuid = none) (ho : data.cipher.organizationId = some org)
    (horg : db.hasOrganization org = true) (h : admits env db me c org cols ut data.cipher = true) :
    moves env db me org ut data c = true := by
  simp only [admits, Bool.and_eq_true, hcols, Bool.false_or] at h
  obtain ⟨⟨⟨⟨⟨-, hmay⟩, hstale⟩, hnotes⟩, hfolder⟩, hfill⟩ := h
  obtain ⟨m, hm, hwr⟩ := (any_eq_true _ _).1 hmay
  rw [hout.limited m hm, Bool.false_or] at hwr
  simp [moves, acceptable, hc, hwr, hnil, ho, hm, horg, hstale, hnotes, hfolder, hfill]

/-- The case of a cipher that is found: it is there already, or the request is refused. -/
theorem refused_of_not_moves {db c ut data cols} (hout : Outside env db org me)
    (hcols : (cols.any fun cols => !cols.isEmpty) = false) (hnil : data.collectionIds = [])
    (hc : c ∈ db.ciphers.rows) (ho : data.cipher.organizationId = some org)
    (h : moves env db me org ut data c = false) :
    db.CipherIn c.uuid org ∨ db.hasOrganization org = false ∨
      admits env db me c org cols ut data.cipher = false := by
  by_cases hin : c.organizationUuid = some org
  · exact .inl ⟨c, hc, rfl, hin⟩
  refine .inr ?_
  by_contra hnot
  simp only [not_or, Bool.not_eq_false] at hnot
  cases hco : c.organizationUuid with
  | none =>
    rw [moves_of_admits hout hcols hnil hco ho hnot.1 hnot.2] at h
    cases h
  | some =>
    have hm : data.cipher.orgMismatch c = true := by
      refine decide_eq_true ⟨by rw [hco]; rfl, ?_⟩
      rw [ho]
      exact hin
    have hadmits := hnot.2
    simp [admits, hm] at hadmits

/-- What a new item needs is known before it is stored. -/
theorem acceptable_new {w w' : World} {c c'} {data : ShareCipherData} {ut}
    (hdate : data.cipher.lastKnownRevisionDate = none)
    (hsame : ∀ t, t ∉ [Part.ciphers] → w.Same w' t) :
    acceptable env w'.db me c org ut data = acceptable env w.db me c' org ut data := by
  rw [acceptable_same fun t ht => hsame t fun h => ht (by simp_all)]
  have hfill : (data.cipher.fill c).toBool = (data.cipher.fill c').toBool := by
    rw [Bool.eq_iff_iff]
    constructor <;> intro h
    · obtain ⟨x, hx, -⟩ := CipherData.exists_fill c' h
      rw [hx]
      rfl
    · obtain ⟨x, hx, -⟩ := CipherData.exists_fill c h
      rw [hx]
      rfl
  have hstale : ∀ c : Cipher, data.cipher.isStale env ut c = false := by
    intro c
    simp [CipherData.isStale, hdate]
  simp only [acceptable, hfill, hstale]

theorem postCiphersCreate_returns {data} (hu : w.db.hasUser me = true)
    (h : createsAlone env w.db me org data = true) :
    Returns w (postCiphersCreate env data me) fun _ w' => w'.db.CipherIn ⟨w.nextUuid⟩ org := by
  simp only [createsAlone, Bool.and_eq_true, List.isEmpty_iff, decide_eq_true_eq] at h
  obtain ⟨⟨hnil, ho⟩, haccept⟩ := h
  unfold postCiphersCreate
  rw [enforcePersonalOwnershipPolicy_of_org ho]
  refine .getUuid ?_
  refine .andThen Cipher.save_writes (Cipher.save_returns hu rfl) fun c w1 ⟨hmem, hc⟩ hsame => ?_
  have hsame1 : ∀ t, t ∉ [Part.ciphers] → w.Same w1 t := fun t ht =>
    (World.Same.of_eq rfl rfl rfl t).trans (hsame t ht)
  have hfound : Cipher.findByUuid w1.db c.uuid = some c := find?_key hmem
  have hmoves : moves env w1.db me org .syncCipherCreate
      { data with cipher := { data.cipher with lastKnownRevisionDate := none } } c = true := by
    have hwr : c.isWriteAccessibleToUser env.toConfig w1.db me = true := by
      rw [hc]
      simp [Cipher.isWriteAccessibleToUser, Cipher.getAccessRestrictions, Cipher.hasFullAccess,
        Cipher.isOwnedByUser]
    have haccept1 : acceptable env w1.db me c org .syncCipherCreate
        { data with cipher := { data.cipher with lastKnownRevisionDate := none } } = true :=
      Eq.trans (acceptable_new rfl hsame1) haccept
    have hnone : c.organizationUuid = none := by rw [hc]; rfl
    refine Bool.and_eq_true_iff.2 ⟨?_, haccept1⟩
    simp [hnone, hwr, hnil, ho]
  have hu1 : w1.db.hasUser me = true := (hsame1 .users (by decide)).hasUser.trans hu
  have hkey : c.typeKey.toBool = true :=
    CipherData.typeKey_of_fill (Bool.and_eq_true_iff.1 haccept).2 (by rw [hc]; rfl)
  have hshare : Returns w1 (shareCipherByUuid env c.uuid
      { data with cipher := { data.cipher with lastKnownRevisionDate := none } } me none)
      fun _ w' => w'.db.CipherIn c.uuid org := fun hs =>
    have h := shareCipherByUuid_concludes hu1 hfound hmoves hs
    ⟨(), h.2 hkey, h.1⟩
  refine .bind hshare.catchErr ?_
  rintro r ⟨a, rfl, hin⟩
  refine .ret ?_
  rw [show (⟨w.nextUuid⟩ : CipherId) = c.uuid by rw [hc]; rfl]
  exact hin

/-- A bound on the identifiers of a list. -/
theorem exists_fresh (id : α → Nat) (rows : List α) : ∃ n, ∀ r ∈ rows, id r < n := by
  induction rows with
  | nil => exact ⟨0, nofun⟩
  | cons x rows ih =>
    obtain ⟨n, hn⟩ := ih
    refine ⟨n + id x + 1, fun r hr => ?_⟩
    rcases mem_cons.1 hr with rfl | hr
    · omega
    · have := hn r hr
      omega

section
variable {db : Db} {user : User} {request : VaultRequest}

theorem noneEntered_of_not_entersAlone (hout : Outside env w.db org user.uuid)
    (hfresh : ∀ c ∈ w.db.ciphers.rows, c.uuid.val < w.nextUuid)
    (hstores : request.storesItem = true) (h : request.entersAlone env w.db user.uuid org = false) :
    NoneEntered w.db org ((request.handle env user).after w).db := by
  have h0 : Shut w org w := .refl hfresh
  refine Shut.entered ?_
  cases request with
  | postCiphers => exact h0.postCiphers hout
  | postCiphersImport => exact h0.postCiphersImport hout
  | putCipherShareSelected => exact h0.putCipherShareSelected hout
  | putCipher =>
    refine h0.putCipher fun ho c hc => ?_
    rw [VaultRequest.entersAlone, hc] at h
    exact refused_of_not_moves hout rfl rfl (Cipher.findByUuid_eq_some hc).1 ho h
  | postCipherShare =>
    refine h0.share hout fun hnil ho c hc => ?_
    rw [VaultRequest.entersAlone, hc] at h
    exact refused_of_not_moves hout rfl hnil (Cipher.findByUuid_eq_some hc).1 ho h
  | postCiphersCreate data =>
    refine h0.postCiphersCreate hout fun hnil ho => ?_
    by_cases horg : w.db.hasOrganization org = false
    · exact .inl horg
    refine .inr fun c hc w' hsame => ?_
    by_contra hadmits
    have hout' : Outside env w'.db org user.uuid := by
      have hparts : ∀ t ∈ accessParts, t ∉ [Part.ciphers] := by decide
      exact hout.later fun t ht => hsame t (hparts t ht)
    have horg' : w'.db.hasOrganization org = true := by
      rw [(hsame .organizations (by decide)).hasOrganization]
      exact (Bool.not_eq_false _).mp horg
    have hmoves : moves env w'.db user.uuid org .syncCipherCreate
        { data with cipher := { data.cipher with lastKnownRevisionDate := none } } c = true :=
      moves_of_admits hout' rfl hnil hc ho horg' ((Bool.not_eq_false _).mp hadmits)
    have haccept : acceptable env w.db user.uuid
        (Cipher.new 0 env.now data.cipher.type data.cipher.name) org .syncCipherCreate
        { data with cipher := { data.cipher with lastKnownRevisionDate := none } } = true := by
      rw [← acceptable_new rfl hsame]
      exact (Bool.and_eq_true_iff.1 hmoves).2
    have hcreates : createsAlone env w.db user.uuid org data = true := by
      refine Bool.and_eq_true_iff.2 ⟨?_, haccept⟩
      simp [hnil, ho]
    rw [VaultRequest.entersAlone, hcreates] at h
    cases h
  | _ => cases hstores

/-- An item that has arrived was not there before. -/
theorem not_noneEntered {w' : World} {id} (hin : w'.db.CipherIn id org)
    (hnew : ∀ c ∈ db.ciphers.rows, c.uuid = id → c.organizationUuid = none) :
    ¬ NoneEntered db org w'.db := by
  intro hnone
  obtain ⟨r, hr, rfl, ho⟩ := hin
  obtain ⟨c, hc, hid, hco⟩ := hnone r hr ho
  rw [hnew c hc hid] at hco
  cases hco

theorem enters_of_entersAlone (hw : w.faults = []) (huser : w.db.hasUser user.uuid = true)
    (hfresh : ∀ c ∈ w.db.ciphers.rows, c.uuid.val < w.nextUuid)
    (h : request.entersAlone env w.db user.uuid org = true) :
    ¬ NoneEntered w.db org ((request.handle env user).after w).db := by
  have hpersonal : ∀ {c : Cipher} {ut : UpdateType} {data : ShareCipherData},
      c ∈ w.db.ciphers.rows → moves env w.db user.uuid org ut data c = true →
      ∀ x ∈ w.db.ciphers.rows, x.uuid = c.uuid → x.organizationUuid = none := by
    intro c ut data hc hmoves x hx hid
    obtain rfl := eq_of_key hx hc hid
    simp only [moves, Bool.and_eq_true, isNone_iff_eq_none] at hmoves
    exact hmoves.1.1.1.1
  cases request with
  | putCipher =>
    obtain ⟨c, hc, hmoves⟩ := (any_eq_true _ _).1 h
    have ⟨hin, _⟩ := putCipher_concludes huser hc hmoves (putCipher_writes.undisturbed hw)
    exact not_noneEntered hin (hpersonal (Cipher.findByUuid_eq_some hc).1 hmoves)
  | postCipherShare =>
    obtain ⟨c, hc, hmoves⟩ := (any_eq_true _ _).1 h
    have ⟨hin, _⟩ := shareCipherByUuid_concludes huser hc hmoves
      (shareCipherByUuid_writes.undisturbed hw)
    exact not_noneEntered hin (hpersonal (Cipher.findByUuid_eq_some hc).1 hmoves)
  | postCiphersCreate =>
    obtain ⟨_, -, hin⟩ := postCiphersCreate_returns huser h (postCiphersCreate_writes.undisturbed hw)
    refine not_noneEntered hin fun c hc hid => ?_
    have hlt := hfresh c hc
    rw [hid] at hlt
    exact absurd hlt (Nat.lt_irrefl _)
  | _ => cases h

/-- **When an item enters without permission.**  A member of the organization who has no full access
and no collection there to write to brings an item in exactly with a request that moves an item
which they may write, or a new one, and names no collection. -/
theorem noneEntered_iff (env : Env) (db : Db) (org : OrganizationId) (user : User) (m : Membership)
    (request : VaultRequest)
    (hmember : Membership.findConfirmedByUserAndOrg db user.uuid org = some m)
    (hlimited : m.hasFullAccess = false)
    (hreadOnly : ∀ k ∈ db.collections.rows, k.orgUuid = org →
      k.isWritableByUser env.toConfig db user.uuid = false)
    (huser : db.hasUser user.uuid = true) (hstores : request.storesItem = true) :
    (∀ w : World, w.db = db → (∀ c ∈ db.ciphers.rows, c.uuid.val < w.nextUuid) →
      NoneEntered db org ((request.handle env user).after w).db) ↔
    request.entersAlone env db user.uuid org = false := by
  have hout : Outside env db org user.uuid := by
    refine ⟨fun m' hm' => ?_, fun k => ?_⟩
    · rw [← Option.some.inj (hmember.symm.trans hm')]
      exact hlimited
    · rw [← Bool.not_eq_true, linkable, Option.any_eq_true]
      rintro ⟨x, hx, hwr⟩
      obtain ⟨hmem, -, horg⟩ := Collection.findByUuidAndOrg_eq_some hx
      rw [hreadOnly x hmem horg] at hwr
      cases hwr
  constructor
  · intro hall
    rw [← Bool.not_eq_true]
    intro h
    obtain ⟨n, hn⟩ := exists_fresh (fun c : Cipher => c.uuid.val) db.ciphers.rows
    exact enters_of_entersAlone (w := ⟨db, n, [], [], []⟩) rfl huser hn h (hall _ rfl hn)
  · rintro h w rfl hfresh
    exact noneEntered_of_not_entersAlone hout hfresh hstores h

end

/-! ## A member without collections -/

namespace Entry

def user : User := User.new {} 1 6 7 "member@example.com" none

/-- A login of user 1. -/
def item : Cipher := { Cipher.new 5 0 1 "login" with userUuid := some ⟨1⟩ }

def member : Membership :=
  { Membership.new 3 ⟨1⟩ ⟨2⟩ none with status := MembershipStatus.confirmed.toI32 }

/-- User 1 is a confirmed member of organization 2, whose collection is assigned to nobody. -/
def db : Db :=
  { Db.empty with
    users := .ofRows [user]
    organizations := .ofRows [⟨⟨2⟩, "org", "owner@example.com", none, none⟩]
    usersOrganizations := .ofRows [member]
    collections := .ofRows [⟨⟨4⟩, ⟨2⟩, "collection", none⟩]
    ciphers := .ofRows [item] }

/-- A login for organization 2. -/
def data : CipherData :=
  { organizationId := some ⟨2⟩, type := 1, name := "login", login := some (.object []) }

end Entry

open Entry in
/-- With a collection named the item stays out. -/
theorem noneEntered_iff_collection :
    item.organizationUuid = none ∧
    ∀ w : World, w.db = db → (∀ c ∈ db.ciphers.rows, c.uuid.val < w.nextUuid) →
      NoneEntered db ⟨2⟩
        ((VaultRequest.handle {} user (.postCipherShare ⟨5⟩ ⟨data, [⟨4⟩]⟩)).after w).db :=
  ⟨rfl, (noneEntered_iff {} db ⟨2⟩ user member (.postCipherShare ⟨5⟩ ⟨data, [⟨4⟩]⟩) (by rfl)
    (by decide) (by decide) (by decide) rfl).2 (by decide)⟩

open Entry in
/-- **A member without a collection to write to puts items into the organization**: by changing an
item of their own, by sharing it into no collection, and by making a new one. -/
theorem item_enters :
    (∀ k ∈ db.collections.rows, k.isWritableByUser {} db ⟨1⟩ = false) ∧
      ∀ request ∈ [VaultRequest.putCipher ⟨5⟩ data, .postCipherShare ⟨5⟩ ⟨data, []⟩,
          .postCiphersCreate ⟨data, []⟩],
        (db.ciphers.rows.any fun c => c.organizationUuid = some ⟨2⟩) = false ∧
        (((request.handle {} user).after ⟨db, 9, [], [], []⟩).db.ciphers.rows.any fun c =>
          c.organizationUuid = some ⟨2⟩) = true := by
  decide

end VaultServer
