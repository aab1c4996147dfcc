import VaultServer.Invariants.Sessions

/-!
# Vault requests under a pledge

The handlers on ciphers, and what they need to know to leave every link inside one organization.
Only sharing writes links before it knows that the cipher will be moved.
-/

namespace VaultServer

open Lib Table

variable {data : CipherData} {c : Cipher} {cols : Option (List CollectionId)}
  {cipherId : CipherId}

variable {env : Env} {p : Pledge} {w w' : World} {me : UserId}

/-! ## Writing a cipher -/

namespace CipherData

theorem fill_eq_ok (h : data.fill c = .ok c') :
    c'.uuid = c.uuid ∧ c'.organizationUuid = c.organizationUuid ∧ c'.userUuid = c.userUuid := by
  unfold fill at h
  cases ht : data.typeData with
  | error => rw [ht] at h; cases h
  | ok =>
    cases hf : data.cleanFields with
    | error => rw [ht, hf] at h; cases h
    | ok =>
      rw [ht, hf] at h
      obtain rfl := Except.ok.inj h
      exact ⟨rfl, rfl, rfl⟩

/-- Where the request does not contradict the copy, the organization of the request is as good. -/
theorem placed_of_not_orgMismatch
    (hm : data.orgMismatch c = false) (hc : Cipher.Placed db c) (hu : c'.uuid = c.uuid)
    (ho : c'.organizationUuid = data.organizationId) : Cipher.Placed db c' := by
  intro r hr hru
  have hm : ¬ (c.organizationUuid.isSome = true ∧ c.organizationUuid ≠ data.organizationId) :=
    of_decide_eq_false hm
  obtain h | h := hc r hr (hru.trans hu)
  · exact .inl h
  · cases hco : c.organizationUuid with
    | none => exact .inl (h.trans hco)
    | some =>
      refine .inr (h.trans ?_)
      rw [ho]
      by_contra hne
      exact hm ⟨by rw [hco]; rfl, hne⟩

end CipherData

theorem checkUpdate_safe : p.Safe w (checkUpdate env c data me ut) fun _ w' =>
      p.calm.Rel w w' ∧ data.orgMismatch c = false := by
  refine .bind enforcePersonalOwnershipPolicy_writes.silent.calm fun _ w1 _ _ hc => ?_
  refine Pledge.Safe.check <| .ensure fun hm => Pledge.Safe.ensure_last fun _ => ?_
  exact ⟨hc, by simpa using hm⟩

/-- The owner is the organization of the request, or the user. -/
theorem chooseOwner_safe (hm : data.orgMismatch c = false) :
    p.Safe w (chooseOwner env c data.organizationId me cols) fun c' w' =>
      w' = w ∧ c'.uuid = c.uuid ∧ c'.organizationUuid = data.organizationId ∧ c'.OneOwner := by
  have hm : ¬ (c.organizationUuid.isSome = true ∧ c.organizationUuid ≠ data.organizationId) :=
    of_decide_eq_false hm
  cases ho : data.organizationId with
  | none =>
    have hnone : c.organizationUuid = none := by
      cases hc : c.organizationUuid with
      | none => rfl
      | some => exact absurd ⟨by rw [hc]; rfl, by rw [hc, ho]; simp⟩ hm
    exact .ret ⟨rfl, rfl, hnone, .inr hnone⟩
  | some o =>
    refine .query ?_
    cases Membership.findConfirmedByUserAndOrg w.db me o with
    | none => exact .err
    | some =>
      exact .query (.check <| .ret ⟨rfl, rfl, rfl, .inl rfl⟩)

/-- The stored cipher is in the organization of the request when the update returns. -/
theorem updateCipherFromData_safe (hn : c.uuid.val < w.nextUuid) (hc : Cipher.Placed w.db c)
    (hp : ∀ c' : Cipher, c'.uuid = c.uuid → c'.organizationUuid = data.organizationId → p.stores c') :
    p.Safe w (updateCipherFromData env c data me cols ut) fun c' w' =>
      c'.uuid = c.uuid ∧ c'.organizationUuid = data.organizationId ∧
        ∀ o, data.organizationId = some o → w'.db.CipherIn c.uuid o := by
  refine .bind checkUpdate_safe fun _ w1 _ _ ⟨h1, hm⟩ => ?_
  refine .bind (chooseOwner_safe hm) fun c2 w2 _ _ ⟨hw2, hu2, ho2, hone⟩ => ?_
  subst hw2
  refine .bind checkFolder_writes.silent.calm fun _ w3 _ _ h3 => ?_
  refine .bind (updateAttachments_writes.quiet rfl).calm fun _ w4 _ _ h4 => ?_
  refine Pledge.Safe.lift fun c5 hfill => ?_
  obtain ⟨hu5, ho5, hme5⟩ := CipherData.fill_eq_ok hfill
  have hu : c5.uuid = c.uuid := hu5.trans hu2
  have ho : c5.organizationUuid = data.organizationId := ho5.trans ho2
  -- nothing so far has touched the stored row
  have hplaced : Cipher.Placed w4.db c5 :=
    ((CipherData.placed_of_not_orgMismatch hm (hc.later h1.2) hu ho).later h3.2).later h4.2
  have hlt : c5.uuid.val < w4.nextUuid ∧ c5.OneOwner := by
    rw [Cipher.OneOwner, hu, hme5, ho5]
    exact ⟨Nat.lt_of_lt_of_le hn (Nat.le_trans h1.1 (Nat.le_trans h3.1 h4.1)), hone⟩
  refine .bind (Cipher.save_safe (hp _ hu ho) hlt hplaced) fun c6 w6 _ _ ⟨hc6, hmem⟩ => ?_
  have hu6 : c6.uuid = c.uuid := by rw [hc6]; exact hu
  have ho6 : c6.organizationUuid = data.organizationId := by rw [hc6]; exact ho
  have hin : ∀ o, data.organizationId = some o → w6.db.CipherIn c.uuid o :=
    fun o hd => ⟨c6, hmem, hu6, ho6.trans hd⟩
  refine .bind (writeUserMarks_writes.quiet rfl).calm fun _ w7 _ _ h7 => ?_
  refine .bind (Quiet.when Cipher.updateUsersRevision_writes.silent).calm fun _ w8 _ _ h8 => ?_
  refine .ret ⟨hu6, ho6, fun o hd => ?_⟩
  exact (h8.2.keeps rfl).ciphers _ _ ((h7.2.keeps rfl).ciphers _ _ (hin o hd))

/-! ## Finding rows -/

theorem Cipher.findByUuid_eq_some {db id} (h : Cipher.findByUuid db id = some c) :
    c ∈ db.ciphers.rows ∧ c.uuid = id := by
  obtain ⟨hc, hu⟩ := mem_of_find? h
  exact ⟨hc, of_decide_eq_true hu⟩

theorem Collection.findByUuidAndOrg_eq_some {db id o k}
    (h : Collection.findByUuidAndOrg db id o = some k) :
    k ∈ db.collections.rows ∧ k.uuid = id ∧ k.orgUuid = o := by
  obtain ⟨hk, hp⟩ := mem_of_find? h
  exact ⟨hk, of_decide_eq_true hp⟩

/-! ## Sharing -/

/-- The stored cipher is in the organization already, or links into it are exempt. -/
def LinksAllowed (p : Pledge) (db : Db) (c : CipherId) (o : OrganizationId) : Prop :=
  (∀ r ∈ db.ciphers.rows, r.uuid = c → r.organizationUuid = some o) ∨ p.exempt c o

theorem LinksAllowed.later {db db' c o}
    (h : LinksAllowed p db c o) (hc : ∀ r ∈ db'.ciphers.rows, r ∈ db.ciphers.rows) :
    LinksAllowed p db' c o :=
  h.imp_left fun h r hr => h r (hc r hr)

/-- Linking touches no cipher. -/
theorem linkAllShared_safe {c data} (hp : p.grants = true)
    (hx : ∀ o, data.cipher.organizationId = some o → data.collectionIds ≠ [] →
      LinksAllowed p w.db c o) :
    p.Safe w (linkAllShared env c me data) fun _ w' =>
      w.nextUuid ≤ w'.nextUuid ∧ ∀ r ∈ w'.db.ciphers.rows, r ∈ w.db.ciphers.rows := by
  cases ho : data.cipher.organizationId with
  | none =>
    unfold linkAllShared
    rw [ho]
    exact .ret ⟨Nat.le_refl _, fun _ h => h⟩
  | some o =>
    unfold linkAllShared
    rw [ho]
    let q : Pledge := { p.calm with grants := true }
    have hsub : ∀ {w1}, q.Rel w w1 → ∀ r ∈ w1.db.ciphers.rows, r ∈ w.db.ciphers.rows :=
      fun h r hr => (h.2.ciphers r hr).elim id fun h => h.elim
    have hloop : q.Safe w (Prog.foldl data.collectionIds [] (linkShared env c o me))
        ⊤ := by
      refine .foldl trivial fun shared k hk w1 _ hr _ => ?_
      have hne : data.collectionIds ≠ [] := List.ne_nil_of_mem hk
      refine Pledge.Safe.query ?_
      cases hk : Collection.findByUuidAndOrg w1.db k o with
      | none => exact .err
      | some k' =>
        obtain ⟨hmem, -, hko⟩ := Collection.findByUuidAndOrg_eq_some hk
        refine .query (.check ?_)
        refine (CollectionCipher.save_safe rfl ⟨k', hmem, rfl, hko⟩ ?_).andThen
          fun _ _ _ _ => .ret trivial
        exact (hx o ho hne).later (hsub hr)
    refine (hloop.weaken { p.calm_le with grants := fun _ => hp }).mono fun _ w' h => ?_
    exact ⟨h.2.1, hsub h.2⟩

theorem shareCipherByUuid_safe {data ut} (hp : p.grants = true)
    (hst : ∀ c : Cipher, c.uuid = cipherId → c.organizationUuid = data.cipher.organizationId →
      p.stores c) (hx : ∀ o, data.cipher.organizationId = some o → data.collectionIds ≠ [] →
      LinksAllowed p w.db cipherId o) :
    p.Safe w (shareCipherByUuid env cipherId data me ut) fun _ w' =>
      ∀ o, data.cipher.organizationId = some o → w'.db.CipherIn cipherId o := by
  refine Prog.Ends.of_inv fun hw => Pledge.Safe.found .err fun c hc => ?_
  obtain ⟨hmem, rfl⟩ := Cipher.findByUuid_eq_some hc
  refine .query (.check <| .check ?_)
  refine .bind (linkAllShared_safe hp hx) fun _ w1 _ _ ⟨hn, hsub⟩ => ?_
  have hplaced : Cipher.Placed w1.db c := fun r hr hu => Cipher.Placed.of_mem hmem r (hsub r hr) hu
  have hlt : c.uuid.val < w1.nextUuid := Nat.lt_of_lt_of_le (hw.fresh.ciphers c hmem).1 hn
  refine .bind (updateCipherFromData_safe hlt hplaced hst) fun c' w2 _ _ ⟨_, _, hin⟩ => ?_
  exact (Quiet.calm Cipher.toJson_writes.silent).mono fun _ w3 h3 o ho =>
    (h3.2.keeps rfl).ciphers _ _ (hin o ho)

theorem putCipherShareSelected_safe {data} (hp : p.Grows) (hx : ∀ c o, p.exempt c o) :
    p.Safe w (putCipherShareSelected env data me) ⊤ := by
  refine .check <| .check <| .check ?_
  refine .each fun d _ w1 _ _ => ?_
  unfold shareSelected
  cases d.id with
  | none => exact Pledge.Safe.err
  | some id =>
    exact (shareCipherByUuid_safe hp.grants (fun c _ _ => hp.stores c)
      fun o _ _ => .inr (hx id o)).forget

/-! ## Creating, importing, changing -/

/-- A cipher under the identifier just drawn. -/
theorem updateCipherFromData_safe_new (hw : p.Inv w)
    (hp : ∀ c' : Cipher, c'.uuid.val = w.nextUuid → c'.organizationUuid = data.organizationId →
      p.stores c') :
    p.Safe { w with nextUuid := w.nextUuid + 1 }
      (updateCipherFromData env (Cipher.new w.nextUuid env.now t name) data me cols ut)
      fun c' _ => c'.organizationUuid = data.organizationId := by
  exact (updateCipherFromData_safe (Nat.lt_succ_self _) (.of_fresh hw.fresh)
    fun c' hu ho => hp c' (congrArg CipherId.val hu) ho).mono fun _ _ h => h.2.1

theorem enforcePersonalOwnershipPolicy_safe {data} :
    p.Safe w (enforcePersonalOwnershipPolicy data me) fun _ w' => w' = w := by
  unfold enforcePersonalOwnershipPolicy
  split
  · exact .query (.ensure_last fun _ => rfl)
  · exact .ret rfl

/-- The new cipher is stored under the next identifier; the share finds a state that differs from
the start in the ciphers only. -/
theorem postCiphersCreate_safe_of {data} (hp : p.Free)
    (hshare : ∀ w2, (∀ t, t ∉ [Part.ciphers] → w.Same w2 t) →
      p.Safe w2 (shareCipherByUuid env ⟨w.nextUuid⟩
        { data with cipher := { data.cipher with lastKnownRevisionDate := none } } me none)
        ⊤) : p.Safe w (postCiphersCreate env data me) ⊤ := by
  refine .bind enforcePersonalOwnershipPolicy_safe fun _ w1 _ _ hw1 => ?_
  subst hw1
  refine Pledge.Safe.getUuid fun hw _ => ?_
  let c := { Cipher.new w1.nextUuid env.now data.cipher.type data.cipher.name with
    userUuid := some me }
  have hfresh : Cipher.Placed w1.db c := .of_fresh hw.fresh
  have hsave : p.Safe { w1 with nextUuid := w1.nextUuid + 1 } (c.save env) fun c' w2 =>
      c'.uuid = ⟨w1.nextUuid⟩ ∧ ∀ t, t ∉ [Part.ciphers] → w1.Same w2 t := by
    refine Prog.Ends.and_after ?_ fun t ht =>
      World.Same.trans (.of_eq rfl rfl rfl t) (Cipher.save_writes.after ht _)
    refine (Cipher.save_safe (hp.stores _) ?_ ?_).mono fun c' _ h => ?_
    · exact ⟨Nat.lt_succ_self _, .inr rfl⟩
    · exact hfresh
    · rw [h.1]; rfl
  refine .bind hsave fun c' w2 _ _ ⟨hu, hsame⟩ => ?_
  rw [hu]
  refine Pledge.Safe.andThen (Pledge.Safe.catchErr (hshare w2 hsame)) fun outcome w3 _ _ => ?_
  cases outcome with
  | ok => exact .ret trivial
  | error => exact (Cipher.delete_safe hp.deletes).seq <| .fail

theorem postCiphersCreate_safe {data} (hp : p.Free)
    (hx : ∀ o, data.cipher.organizationId = some o → data.collectionIds ≠ [] →
      p.exempt ⟨w.nextUuid⟩ o) : p.Safe w (postCiphersCreate env data me) ⊤ := by
  refine postCiphersCreate_safe_of hp fun w2 _ => ?_
  refine (shareCipherByUuid_safe hp.grants (fun c _ _ => hp.stores c) ?_).forget
  intro o ho hne
  exact .inr (hx o ho hne)

theorem postCiphers_safe (hp : p.Grows) : p.Safe w (postCiphers env data me) ⊤ := by
  refine .getUuid fun hw _ => ?_
  exact (updateCipherFromData_safe_new hw fun c _ _ => hp.stores c).andThen
    fun _ _ _ _ => Cipher.toJson_writes.silent.safe

theorem postCiphersImport_safe {data} (hp : p.Grows) :
    p.Safe w (postCiphersImport env data me) ⊤ := by
  refine enforcePersonalOwnershipPolicy_writes.silent.safe.seq ?_
  refine validateCipherData_writes.silent.safe.seq <| .query ?_
  refine (Quiet.foldl fun _ _ => importFolder_writes.quiet rfl).safe.andThen fun folders _ _ _ => ?_
  refine .andThen (.each fun item _ w1 _ _ => ?_)
    fun _ _ _ _ => User.updateRevision_writes.silent.safe
  refine Pledge.Safe.getUuid fun hw _ => ?_
  exact (updateCipherFromData_safe_new hw fun c _ _ => hp.stores c).andThen
    fun _ _ _ _ => .ret trivial

theorem putCipher_safe (hp : p.Grows) : p.Safe w (putCipher env cipherId data me) ⊤ := by
  refine Prog.Ends.of_inv fun hw => Pledge.Safe.found .err fun c hc => ?_
  obtain ⟨hmem, -⟩ := Cipher.findByUuid_eq_some hc
  refine .query (.check ?_)
  exact (updateCipherFromData_safe (hw.fresh.ciphers c hmem).1 (.of_mem hmem)
    fun c _ _ => hp.stores c).seq <| Cipher.toJson_writes.silent.safe

/-! ## Collections of a cipher -/

/-- The cipher is in the organization, and nothing here moves it. -/
theorem updateCollections_safe (hp : p.Grows) :
    p.Safe w (updateCollections env cipherId posted me current) ⊤ := by
  refine .found .err fun c hc => ?_
  obtain ⟨hmem, -⟩ := Cipher.findByUuid_eq_some hc
  refine .query (.check ?_)
  cases ho : c.organizationUuid with
  | none => exact .err
  | some o =>
    refine .query ?_
    have hstored : ∀ r ∈ w.db.ciphers.rows, r.uuid = c.uuid → r.organizationUuid = some o := by
      intro r hr hu
      rw [eq_of_key hr hmem hu]
      exact ho
    let q : Pledge := { p.calm with grants := true }
    have hloop : q.Safe w (Prog.each (env.walk.order (symmetricDifference posted
        (current env.toConfig w.db c me))) (changeLink env c.uuid o me posted))
        ⊤ := by
      refine .each fun k _ w1 _ hr => Pledge.Safe.query ?_
      cases hk : Collection.findByUuidAndOrg w1.db k o with
      | none => exact .err
      | some k' =>
        obtain ⟨hk', -, hko⟩ := Collection.findByUuidAndOrg_eq_some hk
        refine .query ?_
        split
        · split
          · refine CollectionCipher.save_safe rfl ⟨k', hk', rfl, hko⟩ (.inl fun r hr' => ?_)
            exact hstored r ((hr.2.ciphers r hr').elim id fun h => h.elim)
          · exact CollectionCipher.delete_quiet.safe
        · exact .err
    refine (hloop.weaken { p.calm_le with grants := fun _ => hp.grants }).seq ?_
    exact Cipher.updateUsersRevision_writes.silent.safe.seq <| Cipher.toJson_writes.silent.safe

/-! ## Deleting, restoring, moving -/

theorem deleteCipherByUuid_safe (hp : p.Free) :
    p.Safe w (deleteCipherByUuid env me options cipherId) ⊤ := by
  refine Prog.Ends.of_inv fun hw => Pledge.Safe.found .err fun c hc => ?_
  obtain ⟨hmem, -⟩ := Cipher.findByUuid_eq_some hc
  refine .query (.check ?_)
  split
  · have hplaced : Cipher.Placed w.db { c with deletedAt := some env.now } :=
      fun r hr hu => Cipher.Placed.of_mem hmem r hr hu
    exact .andThen (Cipher.save_safe (hp.stores _) (hw.fresh.ciphers c hmem) hplaced)
      fun _ _ _ _ => (Quiet.when Cipher.updateUsersRevision_writes.silent).safe
  · exact (Cipher.delete_safe hp.deletes).andThen
      fun _ _ _ _ => (Quiet.when Cipher.updateUsersRevision_writes.silent).safe

theorem restoreCipherByUuid_safe (hp : p.Grows) :
    p.Safe w (restoreCipherByUuid env me multi cipherId) ⊤ := by
  refine Prog.Ends.of_inv fun hw => Pledge.Safe.found .err fun c hc => ?_
  obtain ⟨hmem, -⟩ := Cipher.findByUuid_eq_some hc
  refine .query (.check ?_)
  have hplaced : Cipher.Placed w.db { c with deletedAt := none } :=
    fun r hr hu => Cipher.Placed.of_mem hmem r hr hu
  refine .andThen
    (Cipher.save_safe (hp.stores _) (hw.fresh.ciphers c hmem) hplaced) fun _ _ _ _ => ?_
  exact (Quiet.when Cipher.updateUsersRevision_writes.silent).safe.andThen
    fun _ _ _ _ => Cipher.toJson_writes.silent.safe

theorem moveCipherSelected_quiet : Quiet (moveCipherSelected env folder ids me) :=
  .bind checkFolder_writes.silent fun _ => .bind .query fun _ =>
    .bind (.each fun _ _ => Cipher.moveToFolder_writes.quiet rfl) fun _ => .ensure

theorem purgeOrgVault_safe {o data user} (hp : p.Free) :
    p.Safe w (purgeOrgVault env o data user) ⊤ := by
  refine (PasswordOrOtpData.validate_writes.quiet rfl).safe.seq ?_
  exact .query (.check <| Cipher.deleteAllByOrganization_safe hp.deletes)

theorem purgePersonalVault_safe {data user} (hp : p.Free) :
    p.Safe w (purgePersonalVault env data user) ⊤ := by
  refine (PasswordOrOtpData.validate_writes.quiet rfl).safe.seq <| .query ?_
  refine .andThen (.each fun _ _ _ _ _ => Cipher.delete_safe hp.deletes) fun _ _ _ _ => .query ?_
  exact (Quiet.each fun _ _ => Folder.delete_writes.quiet rfl).safe.andThen
    fun _ _ _ _ => User.updateRevision_writes.silent.safe

end VaultServer
