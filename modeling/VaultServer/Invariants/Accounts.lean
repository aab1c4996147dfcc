import VaultServer.Invariants.Changes
import VaultServer.Invariants.Members

/-!
# Guards and account requests under a pledge

A guard that lets a request through has only read. One that refuses may have cleared an exception
that had expired. The requests of an account about itself write the row that the guard loaded.
-/

namespace VaultServer

open Lib List Table Pledge

variable {caller : Caller} {org : OrganizationId}

variable {env : Env} {p : Pledge} {change : Option (UserId × StampChange)} {w w' : World}
  {headers : Headers}

/-! ## Saving a row that moved -/

namespace User

theorem findByUuid_eq_some {db uuid u} (h : findByUuid db uuid = some u) :
    u ∈ db.users.rows ∧ u.uuid = uuid := by
  obtain ⟨hmem, hu⟩ := mem_of_find? h
  exact ⟨hmem, of_decide_eq_true hu⟩

/-- A copy `u` of the stored row was moved to `u'`, and `u'` is saved. -/
theorem save_changes {u u'} (hu : w.db.HoldsUser u) (hid : u'.uuid = u.uuid)
    (hm : RowMoved env change u u') : p.Changes env change w (u'.save env) fun _ w' =>
      { u' with updatedAt := env.now } ∈ w'.db.users.rows := by
  obtain ⟨r, hr, hru, hk⟩ := hu
  refine .check ?_
  have hx := w.exec_cases (saveStmt { u' with updatedAt := env.now })
  refine .call (V := fun a b => a = b) (U := p.MovesBy env change) ?_ ?_ ?_
  · intro w' h h'
    rw [← h']; exact h
  · intro hw
    obtain ⟨-, hx⟩ | ⟨db', -, hs, hx⟩ := hx
    · rw [hx]
      exact ⟨⟨hw.boundary, hw.links, hw.fresh, hw.base⟩, .refl⟩
    · rw [hx]
      obtain ⟨hc, rfl⟩ := saveStmt_eq_some hs
      refine ⟨⟨⟨hw.boundary.1, hw.boundary.2, hw.boundary.3⟩, hw.links, ?_, hw.base⟩,
        Nat.le_refl _, ⟨fun r' hr' => ?_, fun d hd => .inl ⟨d, hd, rfl⟩⟩⟩
      · refine { hw.fresh with users := forall_putRows hw.fresh.users ?_ }
        show u'.uuid.val < w.nextUuid
        rw [hid, ← hru]
        exact hw.fresh.users r hr
      · rcases mem_putRows.1 hr' with rfl | ⟨hr', -⟩
        · exact .inl ⟨r, hr, hru.trans hid.symm, (hm.of_kept hk hru).kept ⟨rfl, rfl, rfl⟩⟩
        · exact .inl ⟨r', hr', rfl, .inl (.refl r')⟩
  · obtain ⟨hr, -⟩ | ⟨db', hr, hs, hx⟩ := hx
    · show Prog.Ends p.Inv _ _ ((if w.refuses _ then err _ else pure ()) >>= _) _
      rw [hr]; exact .fail rfl
    · show Prog.Ends p.Inv _ _ ((if w.refuses _ then err _ else pure ()) >>= _) _
      rw [hr, hx]
      obtain ⟨hc, rfl⟩ := saveStmt_eq_some hs
      exact .ret rfl (mem_putRows.2 (.inl rfl))

/-- A new stamp, and a new secret for each device of the account. -/
theorem resetSecurityStamp_safe {u : User} : p.Safe w (u.resetSecurityStamp env) fun u' _ =>
      u'.uuid = u.uuid ∧ u'.enabled = u.enabled ∧ u'.stampException = u.stampException := by
  refine .getUuid fun _ _ => ?_
  refine Device.rotateRefreshTokensByUser_quiet.safe.seq ?_
  exact .ret ⟨rfl, rfl, rfl⟩

/-- The exception a password is set with. -/
def exceptionFor (env : Env) (u : User) (routes : Option (List String)) :
    Option UserStampException :=
  (routes.map fun rs => ⟨rs, u.securityStamp, env.now + 120⟩).or u.stampException

theorem withPassword_spec (env : Env) (u : User) (password : String) (key : Option String)
    (routes : Option (List String)) :
    (u.withPassword env password key routes).uuid = u.uuid ∧
    (u.withPassword env password key routes).enabled = u.enabled ∧
    (u.withPassword env password key routes).securityStamp = u.securityStamp ∧
    (u.withPassword env password key routes).stampException = u.exceptionFor env routes := by
  cases routes <;> cases key <;> exact ⟨rfl, rfl, rfl, rfl⟩

theorem setPassword_safe {u : User} {password key reset routes} :
    p.Safe w (u.setPassword env password key reset routes) fun u' _ =>
      u'.uuid = u.uuid ∧ u'.enabled = u.enabled ∧
      (reset = false → u'.securityStamp = u.securityStamp) ∧
      u'.stampException = u.exceptionFor env routes := by
  obtain ⟨h1, h2, h3, h4⟩ := u.withPassword_spec env password key routes
  cases reset with
  | false => exact .ret ⟨h1, h2, fun _ => h3, h4⟩
  | true =>
    refine resetSecurityStamp_safe.mono fun u' _ ⟨hu, he, hx⟩ => ?_
    exact ⟨hu.trans h1, he.trans h2, nofun, hx.trans h4⟩

end User

theorem setKdfData_safe {u data} :
    p.Safe w (setKdfData u data) fun u' _ => u'.uuid = u.uuid ∧ RowKept u u' := by
  refine .check ?_
  refine .andThen (Quiet.when (.bind .ensure fun _ => .bind .ensure fun _ =>
    .bind .ensure fun _ => .bind .ensure fun _ => .ensure)).safe fun _ _ _ _ => ?_
  exact .ret ⟨rfl, rfl, rfl, rfl⟩

/-! ## Guards -/

/-- The stored exception lets the stamp through on the route. -/
def User.Excepts (env : Env) (u : User) (route : Option String) (sstamp : Secret) : Prop :=
  ∃ x r, u.stampException = some x ∧ route = some r ∧ env.now ≤ x.expire ∧ r ∈ x.routes ∧
    x.securityStamp = sstamp

theorem checkStampException_changes (hu : user ∈ w.db.users.rows) :
    p.Changes env change w (checkStampException env user route sstamp) fun _ w' =>
      w' = w ∧ user.Excepts env route sstamp := by
  unfold checkStampException
  split
  · exact .err
  · exact .err
  · next x r hx =>
    split
    · have hsave : p.Changes env change w (user.resetStampException.save env) ⊤ :=
        Prog.Ends.mono (User.save_changes (.of_mem hu) rfl (.inr (.inl ⟨rfl, rfl, rfl⟩)))
          fun _ _ _ => trivial
      exact .finish hsave.attempt fun _ _ _ => .fail rfl
    · next halive =>
      refine .ensure fun hroute => .ensure_last fun hstamp => ⟨rfl, ?_⟩
      exact ⟨x, r, hx, rfl, Int.not_lt.1 halive, contains_iff_mem.1 hroute,
        of_decide_eq_true hstamp⟩

/-- What a guard that let the request through has found. -/
structure Headers.Found (env : Env) (w : World) (caller : Caller) (h : Headers) : Prop where
  user : h.user ∈ w.db.users.rows
  device : h.device ∈ w.db.devices.rows
  sub : h.user.uuid = caller.token.claims.sub
  owner : h.device.userUuid = caller.token.claims.sub
  stamp : h.user.securityStamp = caller.token.claims.sstamp ∨
    h.user.Excepts env caller.route caller.token.claims.sstamp

theorem Headers.fromRequest_changes : p.Changes env change w (Headers.fromRequest env caller)
      fun h w' => w' = w ∧ h.Found env w caller := by
  unfold Headers.fromRequest
  split
  · exact .err
  · next claims hclaims =>
    obtain rfl := decodeLogin_eq_some hclaims
    refine .found .err fun device hd => ?_
    obtain ⟨hdmem, hd⟩ := mem_of_find? hd
    have hd := of_decide_eq_true hd
    refine .found .err fun user hu => ?_
    obtain ⟨humem, hu⟩ := User.findByUuid_eq_some hu
    refine .guard (P := fun _ =>
      user.securityStamp = caller.token.claims.sstamp ∨
        user.Excepts env caller.route caller.token.claims.sstamp) ?_
      fun _ hstamp => .ret ⟨rfl, humem, hdmem, hu, hd.2, hstamp⟩
    unfold Prog.when
    split
    · exact (checkStampException_changes humem).mono fun _ _ h => ⟨h.1, .inr h.2⟩
    · next hne => exact .ret ⟨rfl, .inl (by simpa using hne)⟩

structure OrgHeaders.Found (w : World) (org : OrganizationId) (h : OrgHeaders) : Prop where
  user : h.user ∈ w.db.users.rows
  membership : h.membership ∈ w.db.usersOrganizations.rows
  userUuid : h.membership.userUuid = h.user.uuid
  orgUuid : h.membership.orgUuid = org

theorem OrgHeaders.fromRequest_changes :
    p.Changes env change w (OrgHeaders.fromRequest env caller org)
      fun h w' => w' = w ∧ h.Found w org := by
  refine .guard Headers.fromRequest_changes fun headers hf => .found .err fun membership hm => ?_
  obtain ⟨hmem, hu, ho⟩ := Membership.findByUserAndOrg_eq_some hm
  dsimp only
  split
  · exact .err
  · exact .ret ⟨rfl, hf.user, hmem, hu, ho⟩

theorem OrgHeaders.requiring_changes :
    p.Changes env change w (OrgHeaders.requiring env caller org ok message)
      fun h w' => w' = w ∧ h.Found w org :=
  Changes.guard OrgHeaders.fromRequest_changes fun _ hf => .check <| .ret ⟨rfl, hf⟩

theorem OrgRequest.guard_changes {request : OrgRequest} :
    p.Changes env change w (request.guard env caller org) fun h w' => w' = w ∧ h.Found w org := by
  have hmanager : ∀ k v, p.Changes env change w
      (ManagerHeaders.fromRequest env caller org (some k) v)
      fun h w' => w' = w ∧ h.Found w org := fun _ _ =>
    Changes.guard OrgHeaders.requiring_changes fun _ hf =>
      Changes.query (.check <| .ret ⟨rfl, hf⟩)
  cases request with
  | postOrganizationCollectionUpdate k v => exact hmanager k v
  | deleteOrganizationCollection k v => exact hmanager k v
  | _ => exact OrgHeaders.requiring_changes

/-! ## Passwords and stamps -/

theorem Db.HoldsUser.copy {db : Db} {u u' : User} (h : db.HoldsUser u) (hid : u'.uuid = u.uuid)
    (hk : RowKept u u') : db.HoldsUser u' := by
  obtain ⟨r, hr, hru, hr'⟩ := h
  exact ⟨r, hr, hru.trans hid.symm, hr'.trans hk⟩

section
variable {β : Type} {R : β → World → Prop} {u : User} {password : String} {key : Option String}
  (hu : w.db.HoldsUser u)
include hu

/-- A password is set, and the rest of the program goes on with the copy. -/
theorem User.setPassword_changes (hc : change = some (u.uuid, c))
    (hm : ∀ u' : User, u'.enabled = u.enabled → (reset = false → u'.securityStamp = u.securityStamp) →
      u'.stampException = u.exceptionFor env routes → c.Moves env u u')
    (hk : ∀ u' w', w'.db.HoldsUser u → u'.uuid = u.uuid → RowMoved env change u u' →
      p.Changes env change w' (k u') R) :
    p.Changes env change w (u.setPassword env password key reset routes >>= k) R := by
  refine .after_safe (User.setPassword_safe (p := p.calm)) p.calm_le rfl ?_
  intro u' w' _ h ⟨hid, he, hs, hx⟩
  exact hk u' w' (hu.later h.2 rfl rfl) hid (.inr (.inr ⟨c, hc, hm u' he hs hx⟩))

theorem User.resetPassword_changes (hc : change = some (u.uuid, .reset))
    (hk : ∀ u' w', w'.db.HoldsUser u → u'.uuid = u.uuid → RowMoved env change u u' →
      p.Changes env change w' (k u') R) :
    p.Changes env change w (u.setPassword env password key true none >>= k) R :=
  User.setPassword_changes hu hc (fun _ he _ hx => ⟨he, hx⟩) hk

end

theorem Quiet.acceptIdentifiedOrg {u org} : Quiet (acceptIdentifiedOrg env u org) := by
  cases org with
  | none => exact .ret
  | some =>
    intro p w
    refine .found .err fun _ _ => ?_
    refine .found .err fun m hm => ?_
    exact acceptOrgInvite_safe (.of_mem (Membership.findByUserAndOrg_eq_some hm).1)

section
variable (hu : headers.user ∈ w.db.users.rows)
include hu

theorem postSetPassword_changes {data}
    (hc : change = some (headers.user.uuid, .allow ["revision_date"])) :
    p.Changes env change w (postSetPassword env data headers) ⊤ := by
  refine .check <| .check ?_
  refine .after_safe (setKdfData_safe (p := p.calm)) p.calm_le rfl ?_
  intro u w1 _ h₁ ⟨hid, hk⟩
  have hu1 := ((Db.HoldsUser.of_mem hu).later h₁.2 rfl rfl).copy hid hk
  rw [← hid] at hc
  refine User.setPassword_changes hu1 hc (fun u' he hs hx => ⟨he, hs rfl, hx⟩) ?_
  intro u' w2 hu2 hid' hm
  refine .after_quiet Quiet.acceptIdentifiedOrg fun _ w3 _ h₃ => ?_
  refine .after_quiet (.ite .external Membership.acceptUserInvitations_quiet) fun _ w4 _ h₄ => ?_
  have hu4 := (hu2.later h₃.2 rfl rfl).later h₄.2 rfl rfl
  refine .discard (User.save_changes hu4 ?_ ?_)
  · cases data.keys <;> exact hid'
  · refine hm.kept ?_
    cases data.keys <;> exact ⟨rfl, rfl, rfl⟩

theorem postPassword_changes (hc : change = some (headers.user.uuid, .resetAllow passwordRoutes)) :
    p.Changes env change w (postPassword env data headers) ⊤ := by
  refine .check <| .check ?_
  have hu : w.db.HoldsUser { headers.user with
    passwordHint := cleanPasswordHint data.masterPasswordHint } := ⟨_, hu, rfl, rfl, rfl, rfl⟩
  refine User.setPassword_changes hu hc (fun u' he _ hx => ⟨he, hx⟩) fun u' w1 hu1 hid hm => ?_
  exact (User.save_changes hu1 hid hm).discard

variable (hc : change = some (headers.user.uuid, .reset))
include hc

theorem postKdf_changes {data} : p.Changes env change w (postKdf env data headers) ⊤ := by
  refine .check <| .check <| .check ?_
  refine .after_safe (setKdfData_safe (p := p.calm)) p.calm_le rfl ?_
  intro u w1 _ h₁ ⟨hid, hk⟩
  have hu1 := ((Db.HoldsUser.of_mem hu).later h₁.2 rfl rfl).copy hid hk
  rw [← hid] at hc
  refine User.resetPassword_changes hu1 hc fun u' w2 hu2 hid' hm => ?_
  exact (User.save_changes hu2 hid' hm).discard

theorem postEmail_changes {data} : p.Changes env change w (postEmail env data headers) ⊤ := by
  refine .check <| .check <| .query (.check <| .ensure fun _ =>
    .check ?_)
  refine .after_quiet (.when (.bind .ensure fun _ => .ensure)) fun _ w1 _ h₁ => ?_
  have hu1 := (Db.HoldsUser.of_mem hu).later h₁.2 rfl rfl
  refine User.resetPassword_changes ?_ hc fun u' w2 hu2 hid hm => ?_
  · exact hu1.copy rfl ⟨rfl, rfl, rfl⟩
  exact (User.save_changes hu2 hid hm).discard

theorem postSstamp_changes (hp : p.dropsDevices = true) :
    p.Changes env change w (postSstamp env data headers) ⊤ := by
  refine .after_quiet (PasswordOrOtpData.validate_writes.quiet rfl) fun _ w1 _ h₁ => ?_
  refine .after_safe (User.resetSecurityStamp_safe (p := p.calm)) p.calm_le rfl ?_
  intro u w2 _ h₂ ⟨hid, hm⟩
  have hu2 := ((Db.HoldsUser.of_mem hu).later h₁.2 rfl rfl).later h₂.2 rfl rfl
  refine (User.save_changes hu2 hid (.inr (.inr ⟨.reset, hc, hm⟩))).catchErr.andThen ?_ ?_
  · rw [hc]; exact fun _ h => nomatch h
  · intro saved w3 _ _ _
    refine (Device.deleteAllByUser_safe hp).andThen fun _ w4 _ _ => ?_
    exact .lift fun _ _ => .ret trivial

end

/-! ## Key rotation -/

/-- Whatever is stored under the identifier of the cipher belongs to an account. -/
def Personal (w : World) (c : Cipher) : Prop :=
  c.uuid.val < w.nextUuid ∧ ∀ r ∈ w.db.ciphers.rows, r.uuid = c.uuid → r.organizationUuid = none

theorem Personal.later (h : Personal w c)
    (hp : ∀ c, p.stores c → c.organizationUuid = none) (hr : p.Rel w w') : Personal w' c := by
  refine ⟨Nat.lt_of_lt_of_le h.1 hr.1, fun r hr' hu => ?_⟩
  obtain hold | hnew := hr.2.ciphers r hr'
  · exact h.2 r hold hu
  · exact hp r hnew

theorem rotateCipher_safe
    (hp : ∀ c, p.stores c ↔ c.organizationUuid = none) (hj : ∀ c ∈ ciphers, Personal w c) :
    p.Safe w (rotateCipher env me ciphers d) fun cs w' => ∀ c ∈ cs, Personal w' c := by
  unfold rotateCipher
  split
  · exact .ret hj
  · next hnone =>
    have hnone : d.organizationId = none := by simpa using hnone
    split
    · exact .err
    · exact .fail
    · split
      · exact .err
      · next c hc =>
        have hc := hj c (mem_of_find?_eq_some hc)
        refine .bind (updateCipherFromData_safe hc.1 (fun r hr hu => .inl (hc.2 r hr hu))
          fun c' _ ho => (hp c').2 (ho.trans hnone)) fun c' w' _ hr ⟨hu, _⟩ => ?_
        refine .ret fun x hx => ?_
        have hlater : ∀ y, Personal w y → Personal w' y := fun y hy =>
          hy.later (fun c => (hp c).1) hr
        obtain ⟨y, hy, rfl⟩ := mem_map.1 hx
        split
        · unfold Personal
          rw [hu]
          exact hlater c hc
        · exact hlater y (hj y hy)

theorem rotateMembership_safe (hm : ∀ m ∈ members, w.db.MembershipOf m.uuid m.userUuid m.orgUuid) :
    p.Safe w (rotateMembership env members d) ⊤ := by
  unfold rotateMembership
  split
  · exact .err
  · next m h => exact Membership.save_safe (hm m (mem_of_find?_eq_some h))

theorem postRotatekey_changes {data} (hp : p.Grows) (hu : headers.user ∈ w.db.users.rows)
    (hc : change = some (headers.user.uuid, .reset)) :
    p.Changes env change w (postRotatekey env data headers) ⊤ := by
  refine .check <| .after_quiet validateCipherData_writes.silent fun _ w1 hw1 h₁ => .query ?_
  have hmembers : ∀ m ∈ (RotatedRows.load w1.db headers.user.uuid).memberships,
      w1.db.MembershipOf m.uuid m.userUuid m.orgUuid := fun m hm =>
    .of_mem (mem_filter.1 (mem_filter.1 hm).1).1
  have hciphers : ∀ c ∈ (RotatedRows.load w1.db headers.user.uuid).ciphers, Personal w1 c := by
    intro c hc
    obtain ⟨hmem, hown⟩ := mem_filter.1 hc
    refine ⟨(hw1.fresh.ciphers c hmem).1, fun r hr hu => ?_⟩
    rw [eq_of_key hr hmem hu]
    exact (of_decide_eq_true hown).2
  refine .after_quiet (validateKeydata_writes (S := []) |>.quiet rfl) fun _ w2 _ h₂ => ?_
  refine .after_quiet (.each fun _ _ => rotateFolder_writes.quiet rfl) fun _ w3 _ h₃ => ?_
  refine .after_quiet (.each fun _ _ => rotateEmergencyAccess_writes.quiet rfl) fun _ w4 _ h₄ => ?_
  have h14 := p.calm.guarantee.trans (p.calm.guarantee.trans h₂ h₃) h₄
  refine .after_safe (q := p.calm) (.each fun _ _ w' _ h => rotateMembership_safe ?_)
    p.calm_le rfl fun _ w5 _ h5 _ => ?_
  · exact fun m hm => ((hmembers m hm).mono (h14.2.keeps rfl)).mono (h.2.keeps rfl)
  refine .after_quiet (.foldl fun _ _ => rotateSend_writes.quiet rfl) fun _ w6 _ h6 => ?_
  -- the loop only stores personal ciphers, so the copies it goes on with stay good
  let q : Pledge := { p.calm with stores := fun c => c.organizationUuid = none }
  have hq : q.Le p := { p.calm_le with stores := fun c _ => hp.stores c }
  have h16 := p.calm.guarantee.trans (p.calm.guarantee.trans h14 h5) h6
  refine .after_safe (q := q) (.foldl (J := fun cs w' => ∀ c ∈ cs, Personal w' c)
    (fun c hc => Personal.later (p := p.calm) (hciphers c hc) (fun _ h => h.elim) h16)
    fun cs d _ w' _ _ hj => rotateCipher_safe (fun _ => .rfl) hj) hq rfl fun _ w7 _ h7 _ => ?_
  have hu7 := (((Db.HoldsUser.of_mem hu).later h₁.2 rfl rfl).later h16.2 rfl rfl).later h7.2 rfl rfl
  refine User.resetPassword_changes ?_ hc fun u' w8 hu8 hid hm => ?_
  · exact hu7.copy rfl ⟨rfl, rfl, rfl⟩
  exact (User.save_changes hu8 hid hm).discard

/-! ## Requests that leave the sessions alone -/

theorem kdfUpgrade_safe {u : User} {password} (hu : w.db.HoldsUser u) :
    p.Safe w (kdfUpgrade env u password) fun u' _ => u'.uuid = u.uuid ∧ RowKept u u' := by
  unfold kdfUpgrade
  split
  · refine .bind (User.setPassword_safe.weaken p.calm_le) fun u' w1 _ _ ⟨hset, h₁⟩ => ?_
    obtain ⟨hid, he, hs, hx⟩ := hset
    have hkept : RowKept u u' := ⟨he, hs rfl, hx⟩
    have hsave : p.Safe w1 (u'.save env) _ :=
      User.save_safe ((hu.later h₁.2 rfl rfl).copy hid hkept)
    refine .bind hsave.catchErr fun r w2 _ _ hr => ?_
    match r with
    | .ok saved =>
      refine .ret ?_
      rw [hr saved rfl]
      exact ⟨hid, hkept⟩
    | .error e => exact .ret ⟨hid, hkept⟩
  · exact .ret ⟨rfl, .refl u⟩

/-- A change of the copy that is not about the sessions. -/
theorem User.save_discard {u u' : User} (hu : u ∈ w.db.users.rows) (hid : u'.uuid = u.uuid)
    (hk : RowKept u u') : p.Safe w (do let _ ← u'.save env) ⊤ :=
  (User.save_safe ((Db.HoldsUser.of_mem hu).copy hid hk)).seq <| .ret trivial

theorem postEmailToken_safe {data} (hu : headers.user ∈ w.db.users.rows) :
    p.Safe w (postEmailToken env data headers) ⊤ := by
  have hmail : Quiet (Prog.when env.mailEnabled do let _ ← (external "mail").attempt : Cmd Unit) :=
    .when (.bind (.attempt .external) fun _ => .ret)
  refine .check <| .check <| .query ?_
  split
  · exact hmail.safe.seq <| .err
  · refine .check <| .getUuid fun _ _ => ?_
    have hu : w.db.HoldsUser headers.user := .of_mem hu
    refine .bind hmail.calm fun _ w1 _ _ h₁ => ?_
    have hu1 := hu.later h₁.2 rfl rfl
    refine Safe.andThen (User.save_safe ?_) fun _ _ _ _ => .ret trivial
    exact hu1.copy rfl ⟨rfl, rfl, rfl⟩

theorem postVerifyEmailToken_safe {u token} : p.Safe w (postVerifyEmailToken env u token) ⊤ := by
  refine Safe.found .err fun user hu => ?_
  have hu := (User.findByUuid_eq_some hu).1
  refine .bind (Quiet.catchErr decodeJwt_writes.silent).calm fun r w1 _ _ h₁ => ?_
  have hu1 := (Db.HoldsUser.of_mem hu).later h₁.2 rfl rfl
  match r with
  | .error _ => exact Safe.err
  | .ok claims =>
    refine Safe.check ?_
    refine .andThen (Prog.Ends.attempt (User.save_safe ?_)) fun _ _ _ _ =>
      Prog.Safe.ret trivial
    exact hu1.copy rfl ⟨rfl, rfl, rfl⟩

theorem postDeleteRecoverToken_safe {u token} (hp : p.Free) :
    p.Safe w (postDeleteRecoverToken env u token) ⊤ := by
  refine (Quiet.catchErr decodeJwt_writes.silent).safe.andThen fun r w1 _ _ => ?_
  match r with
  | .error _ => exact .err
  | .ok claims =>
    refine .found .err fun _ _ => ?_
    exact .check <| User.delete_safe hp.deletes hp.dropsUsers hp.dropsDevices

theorem updateApiKey_safe {data rotate} (hu : headers.user ∈ w.db.users.rows) :
    p.Safe w (updateApiKey env data rotate headers) ⊤ := by
  refine .bind (PasswordOrOtpData.validate_writes.quiet rfl).calm fun _ w1 _ _ h₁ => ?_
  have hu1 := (Db.HoldsUser.of_mem hu).later h₁.2 rfl rfl
  refine Safe.when fun _ => .getUuid fun _ _ => ?_
  refine .andThen (Prog.Ends.attempt (User.save_safe ?_)) fun r _ _ _ => ?_
  · exact hu1.copy rfl ⟨rfl, rfl, rfl⟩
  · match r with
    | .ok _ => exact .ret trivial
    | .error _ => exact .fail

/-! ## Devices -/

theorem registerPushDevice_safe (hd : w.db.HasDevice d.userUuid) :
    p.Safe w (registerPushDevice env d) fun d' w' =>
      d'.userUuid = d.userUuid ∧ w'.db.HasDevice d.userUuid := by
  unfold registerPushDevice
  split
  · exact .ret ⟨rfl, hd⟩
  · refine .bind (Quiet.calm ?_) fun pushUuid w1 _ _ h₁ => ?_
    · cases d.pushUuid with
      | none => exact .getUuid
      | some => exact .ret
    · refine .bind Quiet.external.calm fun _ w2 _ _ h₂ => ?_
      have hd2 := (hd.later h₁.2 rfl).later h₂.2 rfl
      have hsave : p.Safe w2 (Device.save env true { d with pushUuid := some pushUuid }) _ :=
        Device.save_safe (.inl hd2)
      refine .bind hsave.catchErr fun r w3 _ _ hr => ?_
      match r with
      | .ok d' => exact .ret ⟨(hr d' rfl).1, (hr d' rfl).2.2⟩
      | .error _ => exact Safe.err

theorem putDeviceToken_safe : p.Safe w (putDeviceToken env device token headers) ⊤ := by
  refine Safe.found .err fun d hd => ?_
  obtain ⟨hmem, -⟩ := mem_of_find? hd
  show p.Safe w (if d.pushToken = some token then pure () else _) _
  split
  · exact .ret trivial
  · have hsave : p.Safe w (Device.save env true { d with pushToken := some token }) _ :=
      Device.save_safe (.inl ⟨d, hmem, rfl⟩)
    refine .bind hsave.catchErr fun r w1 _ _ hr => ?_
    match r with
    | .error _ => exact Safe.err
    | .ok d' =>
      obtain ⟨hu, -, hdev⟩ := hr d' rfl
      refine Safe.andThen (registerPushDevice_safe ?_) fun _ _ _ _ => .ret trivial
      rw [hu]; exact hdev

theorem putClearDeviceToken_quiet : Quiet (putClearDeviceToken env device) := by
  unfold putClearDeviceToken
  split
  · exact .ret
  · refine .bind .query fun d => ?_
    split
    · exact .ret
    · exact .bind Quiet.updateDevices fun _ => .when .external

theorem AccountRequest.handle_changes {request : AccountRequest} (hp : p.Free)
    (hf : headers.Found env w caller)
    (hc : change = request.change.map fun c => (caller.token.claims.sub, c)) :
    p.Changes env change w (request.handle env headers) ⊤ := by
  rw [← hf.sub] at hc
  have hu := hf.user
  cases request with
  | postSetPassword => exact postSetPassword_changes hu hc
  | postPassword => exact postPassword_changes hu hc
  | postKdf => exact postKdf_changes hu hc
  | postRotatekey => exact postRotatekey_changes hp.toGrows hu hc
  | postSstamp => exact postSstamp_changes hu hc hp.dropsDevices
  | postEmail => exact postEmail_changes hu hc
  | postProfile => exact .of_safe (.check <| User.save_discard hu rfl ⟨rfl, rfl, rfl⟩)
  | putAvatar => exact .of_safe (.check <| User.save_discard hu rfl ⟨rfl, rfl, rfl⟩)
  | postKeys => exact .of_safe (User.save_discard hu rfl ⟨rfl, rfl, rfl⟩)
  | postSettingsDomains => exact .of_safe (User.save_discard hu rfl ⟨rfl, rfl, rfl⟩)
  | verifyPassword =>
    exact .of_safe (.check <| (kdfUpgrade_safe (.of_mem hu)).andThen fun _ _ _ _ => .ret trivial)
  | postEmailToken => exact .of_safe (postEmailToken_safe hu)
  | deleteAccount =>
    exact .of_safe ((PasswordOrOtpData.validate_writes.quiet rfl).safe.andThen fun _ _ _ _ =>
      User.delete_safe hp.deletes hp.dropsUsers hp.dropsDevices)
  | updateApiKey => exact .of_safe (updateApiKey_safe hu)
  | putDeviceToken => exact .of_safe putDeviceToken_safe
  | putAuthRequest => exact .of_safe (putAuthRequest_writes.quiet rfl).safe
  | createOrganization => exact .of_safe (createOrganization_safe hp.toGrows)
  | acceptInvite => exact .of_safe acceptInvite_safe

end VaultServer
