import VaultServer.Invariants.Copies
import VaultServer.Invariants.Runs

/-!
# Who may set a master password

The hash of an account is written by ten handlers, each behind checks of its own: registration, the
account's own session, a login, an organization that may recover the account, and a contact with
approved emergency access. Everything else that saves an account saves the hash that it has read.
The address of an account is followed through the same walk.
-/

namespace VaultServer

open Lib PartInvariant List Table Bool

variable {u : User} {password : String} {key : Option String} {routes : Option (List String)}

/-! ## What counts as a change -/

/-- The row has a hash that the account did not have in this state, a new account none at all. -/
def User.HashChanged (w : World) (row : User) : Prop :=
  (∀ old ∈ w.db.users.rows, old.uuid = row.uuid → old.passwordHash ≠ row.passwordHash) ∧
    ((∃ old ∈ w.db.users.rows, old.uuid = row.uuid) ∨ row.passwordHash ≠ "")

instance (w : World) (row : User) : Decidable (row.HashChanged w) :=
  inferInstanceAs (Decidable (_ ∧ _))

/-- The stamp was drawn by the request that this state is handed to. -/
def User.Restamped (w : World) (row : User) : Prop := w.nextUuid ≤ row.securityStamp

instance (w : World) (row : User) : Decidable (row.Restamped w) :=
  inferInstanceAs (Decidable (w.nextUuid ≤ row.securityStamp))

/-! ## The permitted changes -/

/-- The guard lets the request through as one of the account's own sessions. -/
def Caller.InSession (caller : Caller) (env : Env) (w : World) (user : User) : Prop :=
  ∃ device, (Headers.fromRequest env caller).run w = (.ok ⟨device, user⟩, w)

/-- The token is one of the server's and within its time. -/
def Signed.Accepted {α : Type} (token : Signed α) (env : Env) : Prop :=
  token.genuine = true ∧ env.now - 30 ≤ token.exp ∧ token.nbf ≤ env.now + 30

/-- An invitation to emergency access: a waiting one, or the token that was mailed for it. -/
def RegisterData.EmergencyInvited (data : RegisterData) (env : Env) (w : World) : Prop :=
  env.emergencyAccessAllowed = true ∧
    ((EmergencyAccess.findInvitedByGranteeEmail w.db (toLowercase data.email)).isSome = true ∨
      ∃ token, data.acceptEmergencyAccessInviteToken = some token ∧ token.Accepted env ∧
        token.claims.email = data.email ∧ data.acceptEmergencyAccessId = some token.claims.emerId)

/-- What lets an address register. -/
def RegisterData.Admitted (data : RegisterData) (env : Env) (w : World) : Prop :=
  (∃ token, data.orgInviteToken = some token ∧ token.Accepted env ∧
      token.claims.email = toLowercase data.email) ∨
    (Invitation.findByMail w.db (toLowercase data.email)).isSome = true ∨
    env.isSignupAllowed (toLowercase data.email) = true ∨ data.EmergencyInvited env w

/-- The registration is for the address of the account, which has no password so far. -/
structure RegisterData.Registers (data : RegisterData) (env : Env) (w : World) (u : UserId)
    (email : String) : Prop where
  mail : email = toLowercase data.email
  without : ∀ old ∈ w.db.users.rows, old.uuid = u → old.email = email ∧ old.passwordHash = ""
  admitted : data.Admitted env w

/-- The password shown is that of the account, before and after. -/
def User.Rehashed (env : Env) (old : User) (password : String) (row : User) : Prop :=
  old.checkValidPassword env password = true ∧ row.checkValidPassword env password = true

/-- What a session of `old` has to show for its request. -/
def AccountRequest.MaySet (env : Env) (w : World) (old row : User) : AccountRequest → Prop
  | postSetPassword _ => old.privateKey = none
  | postPassword data =>
    old.checkValidPassword env data.masterPasswordHash = true ∧ row.Restamped w
  | postKdf data => old.checkValidPassword env data.masterPasswordHash = true ∧ row.Restamped w
  | postRotatekey data =>
    old.checkValidPassword env data.oldMasterKeyAuthenticationHash = true ∧ row.Restamped w
  | postEmail data => old.checkValidPassword env data.masterPasswordHash = true ∧ row.Restamped w
  | verifyPassword password => old.Rehashed env password row
  | _ => False

/-- The caller is a confirmed owner, or a confirmed admin where the account is no owner, of an
organization that recovers passwords, and the account is confirmed there and enrolled. -/
structure RecoversAccount (env : Env) (w : World) (caller : Caller) (org : OrganizationId)
    (target : MembershipId) (u : UserId) : Prop where
  role : ∃ user m, caller.InSession env w user ∧
    Membership.findByUserAndOrg w.db user.uuid org = some m ∧ m.hasStatus .confirmed = true ∧
    (m.atype = .owner ∨ m.atype = .admin ∧ ∀ x ∈ w.db.usersOrganizations.rows,
      x.userUuid = u → x.orgUuid = org → x.atype ≠ .owner)
  policy : ∃ p, OrgPolicy.findByOrgAndType w.db org .resetPassword = some p ∧ p.enabled = true
  enrolled : ∃ x ∈ w.db.usersOrganizations.rows, x.uuid = target ∧ x.userUuid = u ∧
    x.orgUuid = org ∧ x.hasStatus .confirmed = true ∧ x.resetPasswordKey.isSome = true

/-- The caller has an approved takeover of the account. -/
def TakesOver (env : Env) (w : World) (caller : Caller) (id : Nat) (u : UserId) : Prop :=
  ∃ user, caller.InSession env w user ∧ ∃ ea ∈ w.db.emergencyAccess.rows, ea.uuid = id ∧
    ea.grantorUuid = u ∧ ea.granteeUuid = some user.uuid ∧ ea.atype = .takeover ∧
    ea.status = .recoveryApproved

/-- The login shows the name and the password of `old`. -/
def ConnectData.ShowsPassword (data : ConnectData) (env : Env) (old row : User) : Prop :=
  ∃ name password, data.username = some name ∧ old.email = toLowercase (trimText name) ∧
    data.password = some password ∧ data.authRequest = none ∧ old.Rehashed env password row

/-- The request may leave this row, whose hash is another one than in the state it is made in. -/
def Request.MaySetPassword (env : Env) (w : World) (row : User) : Request → Prop
  | anyone (.register data _) => data.Registers env w row.uuid row.email ∧ row.Restamped w
  | account caller request =>
    ∃ old ∈ w.db.users.rows, caller.InSession env w old ∧ old.uuid = row.uuid ∧
      request.MaySet env w old row
  | login .password data _ =>
    ∃ old ∈ w.db.users.rows, old.uuid = row.uuid ∧ data.ShowsPassword env old row
  | organization caller org (.recoverAccount member _) =>
    RecoversAccount env w caller org member row.uuid ∧ row.Restamped w
  | emergency caller (.passwordEmergencyAccess id _) =>
    TakesOver env w caller id row.uuid ∧ row.Restamped w
  | _ => False

/-- The address of a row with another hash: one of the state, or the one that was sent. -/
def Request.Addresses (w : World) (row : User) : Request → Prop
  | anyone (.register data _) => row.email = toLowercase data.email
  | account _ (.postEmail data) => row.email = data.newEmail
  | _ => ∃ old ∈ w.db.users.rows, old.email = row.email

/-! ## Rows -/

/-- The account is one of the state, or a new one without a password. -/
def User.Kept (w : World) (u : User) : Prop :=
  (∃ old ∈ w.db.users.rows, old.identity = u.identity) ∨
    (w.nextUuid ≤ u.uuid.val ∧ u.passwordHash = "" ∧ toLowercase u.email = u.email)

theorem User.Kept.copy {w} {u' : User} (h : u.Kept w) (he : u'.identity = u.identity) :
    u'.Kept w := by
  obtain ⟨old, hold, hid⟩ | ⟨hn, hp, hlow⟩ := h
  · exact .inl ⟨old, hold, hid.trans he.symm⟩
  · have hid : u'.uuid = u.uuid := congrArg (fun i => i.1) he
    have hmail : u'.email = u.email := congrArg (fun i => i.2.1) he
    have hhash : u'.passwordHash = u.passwordHash := congrArg (fun i => i.2.2.1) he
    exact .inr ⟨hid ▸ hn, hhash ▸ hp, hmail ▸ hlow⟩

theorem User.checkValidPassword_copy {env} {u' : User} (he : u'.identity = u.identity) :
    u'.checkValidPassword env password = u.checkValidPassword env password := by
  have hhash : u'.passwordHash = u.passwordHash := congrArg (fun i => i.2.2.1) he
  have hsalt : u'.salt = u.salt := congrArg (fun i => i.2.2.2.1) he
  have hiter : u'.passwordIterations = u.passwordIterations := congrArg (fun i => i.2.2.2.2) he
  rw [User.checkValidPassword, User.checkValidPassword, hhash, hsalt, hiter]

theorem User.Kept.not_hashChanged {w} (h : u.Kept w)
    (hfresh : ∀ old ∈ w.db.users.rows, old.uuid.val < w.nextUuid) : ¬ u.HashChanged w := by
  rintro ⟨hother, hset⟩
  obtain ⟨old, hold, hid⟩ | ⟨hn, hp, -⟩ := h
  · exact hother old hold (congrArg (fun i => i.1) hid) (congrArg (fun i => i.2.2.1) hid)
  · rcases hset with ⟨old, hold, hid⟩ | hset
    · have hlt := hfresh old hold
      rw [hid] at hlt
      omega
    · exact hset hp

/-- The row without its revision, which others may move. -/
def User.undated (u : User) : User := { u with updatedAt := 0 }

/-- Every row satisfies `K`, whatever its revision, and identifiers are still drawn upwards. -/
def rowsSince (w0 : World) (K : User → Prop) : PartInvariant where
  parts := [.users]
  holds w := w0.nextUuid ≤ w.nextUuid ∧ ∀ u ∈ w.db.users.rows, K u.undated
  of_same {w w'} h hle hw := by
    refine ⟨Nat.le_trans hw.1 hle, fun v hv => ?_⟩
    obtain ⟨r, hr, hrv⟩ := Db.exists_of_accounts (h .users mem_cons_self) hv
    have hrv : r.undated = v.undated := hrv
    exact hrv ▸ hw.2 r hr

section
variable {w0 : World} {K : User → Prop} {env : Env}

theorem rowsSince_store {w db'} (hw : (rowsSince w0 K).holds w)
    (hu : K u.undated) (hs : u.saveStmt w.db = some db') :
    (rowsSince w0 K).holds { w with db := db' } := by
  obtain ⟨t, ht, rfl⟩ := Option.map_eq_some_iff.1 hs
  obtain ⟨_, rfl⟩ := upsert?_eq_some ht
  refine ⟨hw.1, fun v hv => ?_⟩
  exact forall_putRows hw.2 hu v hv

theorem rowsSince_ofAccounts (hK : ∀ {u u' : User}, K u → u'.identity = u.identity → K u') :
    (rowsSince w0 K).OfAccounts K where
  parts := rfl
  read hw u hu := hK (hw.2 u hu) rfl
  store hw hu hs := rowsSince_store hw (hK hu rfl) hs
  remove hw hs := by
    obtain ⟨-, rfl⟩ := Db.guarded_eq_some hs
    exact ⟨hw.1, fun v hv => hw.2 v (mem_deleteWhere.1 hv).1⟩
  copy hu he := hK hu he

theorem rowsSince_save (h : K u.undated) :
    (rowsSince w0 K).Keeps (u.save env) fun u' => K u'.undated := by
  have hdated : K { u with updatedAt := env.now }.undated := h
  exact .check <| (Keeps.exec fun _ _ hw hs => rowsSince_store hw hdated hs).bind fun _ _ =>
    .ret hdated

theorem rowsSince_mono (hK : ∀ u, K u → K' u) {w} (h : (rowsSince w0 K).holds w) :
    (rowsSince w0 K').holds w :=
  ⟨h.1, fun u hu => hK _ (h.2 u hu)⟩

theorem kept_start {w} : (rowsSince w (User.Kept w)).holds w :=
  ⟨Nat.le_refl _, fun u hu => .inl ⟨u, hu, rfl⟩⟩

theorem kept_ofAccounts : (rowsSince w0 (User.Kept w0)).OfAccounts (User.Kept w0) :=
  rowsSince_ofAccounts User.Kept.copy

theorem kept_admitsNew : (rowsSince w0 (User.Kept w0)).AdmitsNew (User.Kept w0) :=
  fun hw => .inr ⟨hw.1, rfl, toLowercase_toLowercase _⟩

/-! ## Setting a password -/

theorem User.withPassword_identity :
    (u.withPassword env password key routes).identity = (u.uuid, u.email,
      env.hashPassword password u.salt u.passwordIterations, u.salt, u.passwordIterations) := by
  unfold User.withPassword
  split <;> split <;> rfl

/-- The row of the same account with a stamp of this request. -/
structure User.Reissued (w : World) (u u' : User) : Prop where
  uuid : u'.uuid = u.uuid
  email : u'.email = u.email
  stamp : u'.Restamped w

theorem User.setPassword_reissued :
    (rowsSince w0 K).Keeps (u.setPassword env password key true routes) (User.Reissued w0 u) := by
  refine .getUuid fun w hw => .past Device.rotateRefreshTokensByUser_writes rfl <| .ret ?_
  have hid : (u.withPassword env password key routes).identity = _ := User.withPassword_identity
  exact ⟨congrArg (fun i => i.1) hid, congrArg (fun i => i.2.1) hid, hw.1⟩

/-- A password is set and the copy saved last. -/
theorem setPasswordAndSave_rows (h : ∀ u', u.Reissued w0 u' → K u'.undated) :
    (rowsSince w0 K).Keeps (do
      let user ← u.setPassword env password key true routes
      let _ ← user.save env) ⊤ :=
  User.setPassword_reissued.bind fun _ hu => (rowsSince_save (h _ hu)).bind fun _ _ => .ret trivial

theorem setKdfData_rows {data} :
    (rowsSince w0 K).Keeps (setKdfData u data) fun u' => u'.identity = u.identity := by
  refine .check <| .skip (.when ?_) <| .ret rfl
  exact .bind .ensure fun _ => .bind .ensure fun _ => .bind .ensure fun _ => .bind .ensure fun _ =>
    .ensure

/-- The upgraded copy goes by the same password. -/
theorem kdfUpgrade_rows (hI : (rowsSince w0 K).OfAccounts K) (hu : K u)
    (h : ∀ u', u'.uuid = u.uuid → u'.email = u.email →
      u'.checkValidPassword env password = true → K u') :
    (rowsSince w0 K).Keeps (kdfUpgrade env u password) K := by
  refine .ite ?_ (.ret hu)
  have hnew : K (User.withPassword env { u with passwordIterations := env.passwordIterations }
      password none none) := h _ rfl rfl (decide_eq_true rfl)
  refine Keeps.bind (Q := K) (.ret hnew) fun u' hu' => ?_
  refine (hI.save hu').catchErr.bind fun r hr => ?_
  cases r with
  | ok saved => exact .ret (hr saved rfl)
  | error => exact .ret hu'

/-! ## Sessions -/

/-- A guard that lets a request through has changed nothing. -/
theorem Headers.fromRequest_run {caller w headers}
    (h : ((Headers.fromRequest env caller).run w).1 = .ok headers) :
    (Headers.fromRequest env caller).run w = (.ok headers, w) ∧ headers.user ∈ w.db.users.rows := by
  have hyields : Yields w (Headers.fromRequest env caller) fun headers w' =>
      w' = w ∧ headers.user ∈ w.db.users.rows := by
    unfold Headers.fromRequest
    split
    · exact .err
    · refine .found .err fun _ _ => ?_
      refine Yields.found .err fun user huser => ?_
      have hmem := User.mem_of_findByUuid huser
      refine Prog.Yields.bind (Q := fun _ w' => w' = w) ?_ fun _ hw' => Prog.Yields.ret ⟨hw', hmem⟩
      unfold Prog.when
      split
      · unfold checkStampException
        split
        · exact Yields.err
        · exact Yields.err
        · split
          · -- an expired exception ends the request
            exact Prog.Yields.bind (Q := ⊤) (fun _ _ => trivial) fun _ _ => Yields.err
          · exact Yields.ensure fun _ => Yields.ensure_last fun _ => rfl
      · exact .ret rfl
  obtain ⟨hsame, hmem⟩ := hyields headers h
  exact ⟨Prod.ext h hsame, hmem⟩

/-- A request of a session: where the guard stops it, no password is touched. -/
theorem inSession_after {caller : Caller} {k : Headers → Cmd α}
    (hkept : ∀ u, User.Kept w0 u → K u)
    (hk : ∀ headers, caller.InSession env w0 headers.user → headers.user ∈ w0.db.users.rows →
      (rowsSince w0 K).holds ((k headers).after w0)) :
    (rowsSince w0 K).holds ((Headers.fromRequest env caller >>= k).after w0) := by
  refine Prog.after_bind_or ?_ fun headers hr => ?_
  · exact rowsSince_mono hkept (kept_ofAccounts.headers.after kept_start)
  · obtain ⟨hrun, hmem⟩ := Headers.fromRequest_run hr
    have hsame : (Headers.fromRequest env caller).after w0 = w0 := congrArg Prod.snd hrun
    rw [hsame]
    exact hk headers ⟨headers.device, hrun⟩ hmem

/-! ## Requests of the account -/

/-- The rows that the request may leave. -/
def Request.leaves (env : Env) (w : World) (request : Request) : PartInvariant :=
  rowsSince w fun u => u.Kept w ∨ request.MaySetPassword env w u ∧ request.Addresses w u

section
variable {caller : Caller} {headers : Headers} (hs : caller.InSession env w0 headers.user)
  (hmem : headers.user ∈ w0.db.users.rows) {request : AccountRequest}
include hs hmem

/-- A row of the account of the session that the request may store. -/
theorem MaySetPassword.of_session {row : User} (hid : row.uuid = headers.user.uuid)
    (h : request.MaySet env w0 headers.user row.undated)
    (hmail : (Request.account caller request).Addresses w0 row.undated) :
    row.undated.Kept w0 ∨ (Request.account caller request).MaySetPassword env w0 row.undated ∧
      (Request.account caller request).Addresses w0 row.undated :=
  .inr ⟨⟨headers.user, hmem, hs, hid.symm, h⟩, hmail⟩

theorem postSetPassword_leaves {data} :
    ((Request.account caller (.postSetPassword data)).leaves env w0).Keeps
      (postSetPassword env data headers) ⊤ := by
  refine .ensure fun hkey => .check <| setKdfData_rows.bind fun u hu => ?_
  have hid : u.uuid = headers.user.uuid := congrArg (fun i => i.1) hu
  have hmail : u.email = headers.user.email := congrArg (fun i => i.2.1) hu
  refine Keeps.bind (Q := fun u' => u'.uuid = headers.user.uuid ∧ u'.email = headers.user.email)
    (.ret ?_) fun u' hu' => ?_
  · have hset : (u.withPassword env data.masterPasswordHash (some data.key)
        (some ["revision_date"])).identity = _ := User.withPassword_identity
    exact ⟨(congrArg (fun i => i.1) hset).trans hid, (congrArg (fun i => i.2.1) hset).trans hmail⟩
  refine .past acceptIdentifiedOrg_writes rfl <| .pass (S := joinParts) ?_ rfl fun _ => ?_
  · exact .ite .external (Membership.acceptUserInvitations_writes.mono rfl)
  · refine (rowsSince_save (MaySetPassword.of_session hs hmem ?_ ?_ ?_)).bind fun _ _ => .ret trivial
    · cases data.keys <;> exact hu'.1
    · exact Option.isNone_iff_eq_none.1 hkey
    · refine ⟨_, hmem, ?_⟩
      cases data.keys <;> exact hu'.2.symm

theorem postRotatekey_leaves {data} :
    ((Request.account caller (.postRotatekey data)).leaves env w0).Keeps
      (postRotatekey env data headers) ⊤ := by
  refine .ensure fun hp => .skip validateCipherData_writes <| .still .query fun rows => ?_
  refine .skip validateKeydata_writes <| .past (.each fun _ => rotateFolder_writes) rfl ?_
  refine .past (.each fun _ => rotateEmergencyAccess_writes) rfl ?_
  refine .past (.each fun _ => rotateMembership_writes) rfl ?_
  refine .past (.foldl fun _ _ => rotateSend_writes) rfl ?_
  refine .past (.foldl fun _ _ => rotateCipher_writes) rfl ?_
  exact setPasswordAndSave_rows fun u' hu' =>
    MaySetPassword.of_session hs hmem hu'.uuid ⟨hp, hu'.stamp⟩ ⟨_, hmem, hu'.email.symm⟩

theorem postEmail_leaves {data} : ((Request.account caller (.postEmail data)).leaves env w0).Keeps
      (postEmail env data headers) ⊤ := by
  refine .check <| .ensure fun hp => .skip .query <| .check ?_
  refine .ensure fun _ => .ensure fun _ => .still (.when (.bind .ensure fun _ => .ensure)) fun _ => ?_
  exact setPasswordAndSave_rows fun u' hu' =>
    MaySetPassword.of_session hs hmem hu'.uuid ⟨hp, hu'.stamp⟩ hu'.email

theorem verifyPassword_leaves :
    ((Request.account caller (.verifyPassword password)).leaves env w0).Keeps
      (verifyPassword env password headers) ⊤ := by
  refine .ensure fun hp => ?_
  have hI : ((Request.account caller (.verifyPassword password)).leaves env w0).OfAccounts
      fun u => u.Kept w0 ∨
        (Request.account caller (.verifyPassword password)).MaySetPassword env w0 u ∧
        (Request.account caller (.verifyPassword password)).Addresses w0 u := by
    refine rowsSince_ofAccounts fun {u u'} hu he => ?_
    rcases hu with hu | ⟨⟨old, hold, hsession, hid, hvalid, hrow⟩, other, hother, hmail⟩
    · exact .inl (hu.copy he)
    · refine .inr ⟨⟨old, hold, hsession, hid.trans (congrArg (fun i => i.1) he).symm, hvalid, ?_⟩,
        other, hother, hmail.trans (congrArg (fun i => i.2.1) he).symm⟩
      rw [User.checkValidPassword_copy he]
      exact hrow
  refine (kdfUpgrade_rows hI (.inl (.inl ⟨_, hmem, rfl⟩)) fun u' hid hmail hvalid => ?_).bind
    fun _ _ => .ret trivial
  exact .inr ⟨⟨headers.user, hmem, hs, hid.symm, hp, hvalid⟩, _, hmem, hmail.symm⟩

theorem AccountRequest.handle_leaves (hr : request.setsPassword = true) :
    ((Request.account caller request).leaves env w0).Keeps (request.handle env headers) ⊤ := by
  cases request with
  | postSetPassword => exact postSetPassword_leaves hs hmem
  | postPassword =>
    refine .ensure fun hp => .check <| setPasswordAndSave_rows fun u' hu' => ?_
    exact MaySetPassword.of_session hs hmem hu'.uuid ⟨hp, hu'.stamp⟩ ⟨_, hmem, hu'.email.symm⟩
  | postKdf =>
    refine .ensure fun hp => .check <| .check <| setKdfData_rows.bind fun u hu => ?_
    refine setPasswordAndSave_rows fun u' hu' => ?_
    have hid : u.uuid = headers.user.uuid := congrArg (fun i => i.1) hu
    have hmail : u.email = headers.user.email := congrArg (fun i => i.2.1) hu
    exact MaySetPassword.of_session hs hmem (hu'.uuid.trans hid) ⟨hp, hu'.stamp⟩
      ⟨_, hmem, (hu'.email.trans hmail).symm⟩
  | verifyPassword => exact verifyPassword_leaves hs hmem
  | postRotatekey => exact postRotatekey_leaves hs hmem
  | postEmail => exact postEmail_leaves hs hmem
  | _ => cases hr

end

/-! ## Logging in -/

section
variable {data : ConnectData} {ip : String}

/-- The account is one of the state, or one that the login has upgraded. -/
def ConnectData.Upgrades (data : ConnectData) (env : Env) (w : World) (u : User) : Prop :=
  ∃ old ∈ w.db.users.rows, old.identity = u.identity ∨
    (old.uuid = u.uuid ∧ old.email = u.email ∧ data.ShowsPassword env old u)

theorem upgrades_ofAccounts :
    (rowsSince w0 (data.Upgrades env w0)).OfAccounts (data.Upgrades env w0) := by
  refine rowsSince_ofAccounts fun {u u'} hu he => ?_
  have hid : u'.uuid = u.uuid := congrArg (fun i => i.1) he
  have hmail : u'.email = u.email := congrArg (fun i => i.2.1) he
  obtain ⟨old, hold, hsame | ⟨hid', hmail', name, password, hname, hlow, hp, ha, hvalid, hrow⟩⟩ := hu
  · exact ⟨old, hold, .inl (hsame.trans he.symm)⟩
  · refine ⟨old, hold, .inr ⟨hid'.trans hid.symm, hmail'.trans hmail.symm, name, password, hname,
      hlow, hp, ha, hvalid, ?_⟩⟩
    rw [User.checkValidPassword_copy he]
    exact hrow

theorem checkLogin_upgrades (hname : data.username = some name)
    (hmail : u.email = toLowercase (trimText name)) (hp : data.password = some password)
    (hu : data.Upgrades env w0 u) :
    (rowsSince w0 (data.Upgrades env w0)).Keeps (checkLogin env u ip password data.authRequest)
      (data.Upgrades env w0) := by
  cases hauth : data.authRequest with
  | some =>
    refine .skip (.bind .query fun found => ?_) <| .ret hu
    split
    · exact .err
    · exact .ensure
  | none =>
    refine .ensure fun hvalid => kdfUpgrade_rows upgrades_ofAccounts hu fun u' hid hmail' hrow => ?_
    -- the account shows the same password in the state, however often it was upgraded since
    have hold : ∃ old ∈ w0.db.users.rows, old.uuid = u.uuid ∧ old.email = u.email ∧
        old.checkValidPassword env password = true := by
      obtain ⟨old, hold, hsame | ⟨hid', hmail', _, password', _, _, hp', _, hvalid', _⟩⟩ := hu
      · refine ⟨old, hold, congrArg (fun i => i.1) hsame, congrArg (fun i => i.2.1) hsame, ?_⟩
        rw [User.checkValidPassword_copy hsame]
        exact hvalid
      · rw [hp] at hp'
        obtain rfl := Option.some.inj hp'
        exact ⟨old, hold, hid', hmail', hvalid'⟩
    obtain ⟨old, hmem, hid0, hmail0, hvalid0⟩ := hold
    exact ⟨old, hmem, .inr ⟨hid0.trans hid.symm, hmail0.trans hmail'.symm, name, password, hname,
      hmail0.trans hmail, hp, hauth, hvalid0, hrow⟩⟩

theorem passwordLogin_upgrades :
    (rowsSince w0 (data.Upgrades env w0)).Keeps (passwordLogin env data ip) ⊤ := by
  have hI : (rowsSince w0 (data.Upgrades env w0)).OfAccounts (data.Upgrades env w0) :=
    upgrades_ofAccounts
  refine .skip AuthMethod.checkScope_writes <| .skip .external ?_
  refine .unwrap fun name hname => .found .err fun w u hw hfound => ?_
  obtain ⟨hmem, hmail⟩ := mem_of_find? hfound
  refine .check <| .unwrap fun password hp => ?_
  refine (checkLogin_upgrades hname (of_decide_eq_true hmail) hp (hI.read hw u hmem)).bind
    fun u' hu' => (Keeps.when (hI.remindToVerify hu')).bind fun _ _ => ?_
  refine hI.pass getDevice_writes rfl fun d => (hI.twofactorAuth hu').bind fun r _ => ?_
  exact hI.of_writes authenticatedResponse_writes rfl

/-- **A login leaves the hashes, or raises the iterations of the password it was shown.** -/
theorem login_leaves : ((Request.login .password data ip).leaves env w0).holds
      ((Request.login .password data ip).serve env |>.after w0) := by
  have hkeeps : (rowsSince w0 (data.Upgrades env w0)).Keeps
      ((Request.login .password data ip).serve env) ⊤ := by
    refine Keeps.bind (Q := ⊤) ?_ fun _ _ => .ret trivial
    refine .check <| .check <| .check <| .check <| .check ?_
    exact .skip checkDevice_writes <| passwordLogin_upgrades
  have hstart : (rowsSince w0 (data.Upgrades env w0)).holds w0 :=
    ⟨Nat.le_refl _, fun u hu => ⟨u, hu, .inl rfl⟩⟩
  refine rowsSince_mono (fun u hu => ?_) (hkeeps.after hstart)
  obtain ⟨old, hold, hsame | ⟨hid, hmail, hshown⟩⟩ := hu
  · exact .inl (.inl ⟨old, hold, hsame⟩)
  · exact .inr ⟨⟨old, hold, hid, hshown⟩, old, hold, hmail⟩

end

/-! ## Recovery by an organization -/

section
variable {caller : Caller} {org : OrganizationId} {target : MembershipId} {w : World}

/-- What the guard of an admin has found. -/
structure OrgHeaders.Admits (h : OrgHeaders) (caller : Caller) (env : Env) (w : World)
    (org : OrganizationId) : Prop where
  session : caller.InSession env w h.user
  membership : Membership.findByUserAndOrg w.db h.user.uuid org = some h.membership
  type : h.membershipType = h.membership.atype
  confirmed : h.membership.hasStatus .confirmed = true

theorem MembershipStatus.hasStatus_of_fromI32 {m : Membership}
    (h : MembershipStatus.fromI32 m.status = some .confirmed) : m.hasStatus .confirmed = true := by
  unfold MembershipStatus.fromI32 at h
  split at h
  · cases h
  · split at h
    · cases h
    · split at h
      · next hs => exact decide_eq_true hs
      · cases h

theorem OrgHeaders.fromRequest_yields {P : User → Prop}
    (hguard : Yields w (Headers.fromRequest env caller) fun h w' => w' = w ∧ P h.user) :
    Yields w (OrgHeaders.fromRequest env caller org) fun h w' => w' = w ∧ P h.user ∧
      Membership.findByUserAndOrg w.db h.user.uuid org = some h.membership ∧
      h.membershipType = h.membership.atype ∧
      MembershipStatus.fromI32 h.membership.status = some h.membershipStatus := by
  refine Prog.Yields.bind hguard fun h ⟨hw, hs⟩ => ?_
  rw [hw]
  refine Yields.found .err fun m hm => ?_
  dsimp only
  split
  · exact Yields.err
  · next status hstatus => exact Prog.Yields.ret ⟨rfl, hs, hm, rfl, hstatus⟩

theorem AdminHeaders.fromRequest_yields :
    Yields w (AdminHeaders.fromRequest env caller org) fun h w' =>
      w' = w ∧ h.Admits caller env w org := by
  have hguard : Yields w (Headers.fromRequest env caller) fun h w' =>
      w' = w ∧ caller.InSession env w h.user := by
    intro h hr
    have hrun := (Headers.fromRequest_run hr).1
    exact ⟨congrArg Prod.snd hrun, h.device, hrun⟩
  refine Prog.Yields.bind (OrgHeaders.fromRequest_yields hguard) fun h hfound => ?_
  obtain ⟨hw, hs, hm, htype, hstatus⟩ := hfound
  refine Yields.ensure fun hok => Prog.Yields.ret ⟨hw, hs, hm, htype, ?_⟩
  have hok := (of_decide_eq_true hok).1
  rw [hok] at hstatus
  exact MembershipStatus.hasStatus_of_fromI32 hstatus

/-- The check of the policy and of the roles. -/
theorem checkResetPassword_yields :
    Yields w (checkResetPasswordApplicableAndPermissions env org target h) fun _ w' => w' = w ∧
      (∃ p, OrgPolicy.findByOrgAndType w.db org .resetPassword = some p ∧ p.enabled = true) ∧
      ∀ x, Membership.findByUuidAndOrg w.db target org = some x →
        h.membershipType = .owner ∨ h.membershipType = .admin ∧ x.atype ≠ .owner := by
  have hpolicy : Yields w (checkResetPasswordApplicable env org) fun _ w' => w' = w ∧
      ∃ p, OrgPolicy.findByOrgAndType w.db org .resetPassword = some p ∧ p.enabled = true := by
    refine .ensure fun _ => .found .err fun p hp => ?_
    exact Yields.ensure_last fun hon => ⟨rfl, p, hp, hon⟩
  refine Prog.Yields.bind hpolicy fun _ ⟨hw, hp⟩ => ?_
  rw [hw]
  refine Yields.found .err fun x hx => ?_
  refine .ensure_last fun hrole => ⟨rfl, hp, fun y hy => ?_⟩
  obtain rfl := Option.some.inj (hx.symm.trans hy)
  refine (of_decide_eq_true hrole).imp_right fun ⟨hadmin, hle⟩ => ⟨hadmin, fun howner => ?_⟩
  rw [howner] at hle
  exact absurd hle (by decide)

/-- **Only those who may recover the account set its password.** -/
theorem recoverAccount_leaves {request} :
    ((Request.organization caller org (.recoverAccount target request)).leaves env w0).holds
      ((Request.organization caller org (.recoverAccount target request)).serve env |>.after w0) := by
  have hw0 : ((Request.organization caller org (.recoverAccount target request)).leaves env w0).holds
      w0 := rowsSince_mono (fun _ hu => .inl hu) kept_start
  have hguard : (rowsSince w0 (User.Kept w0)).Keeps (AdminHeaders.fromRequest env caller org)
      ⊤ := kept_ofAccounts.orgHeaders.bind fun _ _ => .check <| .ret trivial
  refine Prog.Yields.after_bind AdminHeaders.fromRequest_yields ?_ fun h ⟨hw, hadmits⟩ => ?_
  · exact rowsSince_mono (fun _ hu => .inl hu) (hguard.after kept_start)
  rw [hw, Prog.after_bind_pure]
  refine after_ensure hw0 fun _ => ?_
  rw [after_query]
  refine after_ensure hw0 fun _ => ?_
  rw [after_query]
  cases hfound : Membership.findByUuidAndOrg w0.db target org with
  | none => exact hw0
  | some x =>
    obtain ⟨hx, hkey⟩ := mem_of_find? hfound
    obtain ⟨hid, horg⟩ := of_decide_eq_true hkey
    dsimp only
    rw [after_loadUser]
    cases huser : User.findByUuid w0.db x.userUuid with
    | none => exact hw0
    | some user =>
      obtain ⟨hmem, hu⟩ := mem_of_find? huser
      have hu : user.uuid = x.userUuid := of_decide_eq_true hu
      refine Prog.Yields.after_bind checkResetPassword_yields ?_ fun _ ⟨hw, hpolicy, hrole⟩ => ?_
      · exact (Keeps.idle checkResetPasswordApplicableAndPermissions_writes).after hw0
      rw [hw]
      refine after_ensure hw0 fun henrolled => after_ensure hw0 fun hconfirmed => ?_
      refine Keeps.after (.skip .external <| setPasswordAndSave_rows fun u' hu' => ?_) hw0
      refine .inr ⟨⟨⟨⟨h.user, h.membership, hadmits.session, hadmits.membership, hadmits.confirmed,
        ?_⟩, hpolicy, x, hx, hid, ?_, horg, hconfirmed, henrolled⟩, hu'.stamp⟩, user, hmem,
        hu'.email.symm⟩
      · rw [← hadmits.type]
        refine (hrole x hfound).imp_right fun ⟨hadmin, hno⟩ => ⟨hadmin, fun y hy hyu hyo => ?_⟩
        -- an account has one membership in the organization
        have hsame : y.userOrg = x.userOrg :=
          Prod.ext (hyu.trans (hu'.uuid.trans hu)) (hyo.trans horg.symm)
        rw [eq_of_uniq hy hx hsame]
        exact hno
      · exact (hu'.uuid.trans hu).symm

end

/-! ## Emergency access -/

/-- **Only a contact with an approved takeover sets the password.** -/
theorem passwordEmergencyAccess_leaves {caller} {id : Nat} {data} :
    ((Request.emergency caller (.passwordEmergencyAccess id data)).leaves env w0).holds
      ((Request.emergency caller (.passwordEmergencyAccess id data)).serve env |>.after w0) := by
  have hw0 : ((Request.emergency caller (.passwordEmergencyAccess id data)).leaves env w0).holds
      w0 := rowsSince_mono (fun _ hu => .inl hu) kept_start
  refine inSession_after (fun _ hu => .inl hu) fun h hs _ => ?_
  rw [Prog.after_bind_pure]
  refine after_ensure hw0 fun _ => ?_
  rw [after_query]
  cases hfound : EmergencyAccess.findByUuidAndGranteeUuid w0.db id h.user.uuid with
  | none => exact hw0
  | some ea =>
    obtain ⟨hmem, hkey⟩ := mem_of_find? hfound
    obtain ⟨hid, -⟩ := of_decide_eq_true hkey
    refine after_ensure hw0 fun hvalid => ?_
    obtain ⟨hgrantee, hstatus, htype⟩ := of_decide_eq_true hvalid
    rw [after_loadUser]
    cases huser : User.findByUuid w0.db ea.grantorUuid with
    | none => exact hw0
    | some user =>
      obtain ⟨hrow, hu⟩ := mem_of_find? huser
      have hu : user.uuid = ea.grantorUuid := of_decide_eq_true hu
      refine Keeps.after (Q := ⊤) (User.setPassword_reissued.bind fun u' hu' => ?_) hw0
      refine (rowsSince_save (.inr ⟨⟨⟨h.user, hs, ea, hmem, hid, ?_, hgrantee, htype, hstatus⟩,
        hu'.stamp⟩, user, hrow, hu'.email.symm⟩)).bind fun _ _ =>
        .past TwoFactor.deleteAllByUser_writes rfl ?_
      · exact .skip .query <| .of_writes (.each fun _ => .ite Membership.delete_writes .ret) rfl
      · exact (hu'.uuid.trans hu).symm

/-! ## Registration -/

section
variable {data : RegisterData}

/-- No account has a password more, no invitation was added, and the emergency contacts are those of
the state. -/
def registering (w0 : World) : PartInvariant where
  parts := [.users, .invitations, .emergencyAccess]
  holds w := (rowsSince w0 (User.Kept w0)).holds w ∧
    (∀ i ∈ w.db.invitations.rows, i ∈ w0.db.invitations.rows) ∧
    w.db.emergencyAccess = w0.db.emergencyAccess
  of_same {w w'} h hle hw := by
    have hi : w'.db.invitations = w.db.invitations := h .invitations (by decide)
    have he : w'.db.emergencyAccess = w.db.emergencyAccess := h .emergencyAccess (by decide)
    refine ⟨(rowsSince w0 _).of_same (fun t ht => h t ?_) hle hw.1, ?_, he.trans hw.2.2⟩
    · exact mem_of_mem_head? (mem_singleton.1 ht ▸ rfl)
    · rw [hi]
      exact hw.2.1

theorem Invitation.take_registering {email} :
    (registering w0).Keeps (Invitation.take email) fun taken =>
      taken = true → (Invitation.findByMail w0.db email).isSome = true := by
  refine .query fun w hw => ?_
  cases hfound : Invitation.findByMail w.db email with
  | none => exact .ret nofun
  | some i =>
    have hthere : (Invitation.findByMail w0.db email).isSome = true := by
      obtain ⟨hmem, hmail⟩ := mem_of_find? hfound
      exact find?_isSome.2 ⟨i, hw.2.1 i hmem, hmail⟩
    refine Keeps.bind (Q := ⊤) ?_ fun r _ => ?_
    · refine Keeps.mono (Keeps.attempt (Keeps.execTotal fun w hw => ?_)) fun _ _ => trivial
      exact ⟨hw.1, fun x hx => hw.2.1 x (mem_deleteWhere.1 hx).1, hw.2.2⟩
    · cases r with
      | ok _ => exact .ret fun _ => hthere
      | error => exact .ret nofun

theorem decodeJwt_keeps {α β : Type} {I : PartInvariant} {token : Signed α} {k : α → Cmd β}
    {R : β → Prop} (hk : token.Accepted env → I.Keeps (k token.claims) R) :
    I.Keeps (decodeJwt env token >>= k) R := by
  unfold decodeJwt
  split
  · exact .err
  · next hg =>
    split
    · exact .err
    · next hexp =>
      split
      · exact .err
      · next hnbf => exact hk ⟨by simpa using hg, Int.not_lt.1 hexp, Int.not_lt.1 hnbf⟩

/-- The account that a registration fills in has no password, and its address is admitted. -/
structure RegisterData.Fills (data : RegisterData) (env : Env) (w : World) (u : User) : Prop where
  kept : u.Kept w
  email : u.email = toLowercase data.email
  empty : u.passwordHash = ""
  admitted : data.Admitted env w

theorem registrationUser_fills {verified pending : Bool}
    (hpending : pending = true → data.EmergencyInvited env w0) : (registering w0).Keeps
      (registrationUser env data (toLowercase data.email) verified pending)
      fun r => data.Fills env w0 r.1 := by
  refine .loadUser fun w hw => ?_
  cases hfound : User.findByMail w.db (toLowercase data.email) with
  | some u =>
    obtain ⟨hmem, hmail⟩ := mem_of_find? hfound
    have hkept : u.Kept w0 := kept_ofAccounts.read hw.1 u hmem
    have hmail : u.email = toLowercase data.email :=
      (of_decide_eq_true hmail).trans (toLowercase_toLowercase _)
    refine .ensure fun hempty => ?_
    have hfills : data.Admitted env w0 → data.Fills env w0 u := fun h =>
      ⟨hkept, hmail, String.isEmpty_iff.1 hempty, h⟩
    split
    · next token htoken =>
      refine decodeJwt_keeps fun haccepted => .ensure fun hclaim => .ret (hfills ?_)
      exact .inl ⟨token, htoken, haccepted, of_decide_eq_true hclaim⟩
    · refine Invitation.take_registering.bind fun taken htaken => ?_
      cases taken with
      | true =>
        exact .pass Membership.acceptUserInvitations_writes rfl fun _ =>
          .ret (hfills (.inr (.inl (htaken rfl))))
      | false =>
        refine .query fun w hw => .ensure fun hok => .ret (hfills (.inr (.inr ?_)))
        rw [or_eq_true, and_eq_true] at hok
        refine hok.imp_right fun ⟨hon, hinvited⟩ => ⟨hon, .inl ?_⟩
        unfold EmergencyAccess.findInvitedByGranteeEmail at hinvited ⊢
        rw [← hw.2.2]
        exact hinvited
  | none =>
    refine Invitation.take_registering.bind fun taken htaken => .ensure fun hok => ?_
    have hadmitted : data.Admitted env w0 := by
      rw [or_eq_true, or_eq_true] at hok
      rcases hok with (htake | hallowed) | hwaits
      · exact .inr (.inl (htaken htake))
      · exact .inr (.inr (.inl hallowed))
      · exact .inr (.inr (.inr (hpending hwaits)))
    refine Keeps.bind (Q := data.Fills env w0) ?_ fun u hu => .ret hu
    refine .getUuid fun w hw => .skip .getUuid <| .skip .getUuid <| .ret ?_
    have hlow := toLowercase_toLowercase (toLowercase data.email)
    exact ⟨.inr ⟨hw.1.1, rfl, hlow⟩, toLowercase_toLowercase _, rfl, hadmitted⟩

/-- A waiting emergency contact shows the token of their invitation. -/
theorem verifyTokens_keeps {I : PartInvariant} {w} :
    I.Keeps (data.verifyTokens env) fun r => r.2.2 = true → data.EmergencyInvited env w := by
  unfold RegisterData.verifyTokens
  split
  · exact decodeJwt_keeps fun _ => .check <| .ret nofun
  · next emerId token _ hid htoken _ _ =>
    refine .ensure fun hon => decodeJwt_keeps fun haccepted => .ensure fun hmail => .ensure fun he => ?_
    refine .ret fun _ => ⟨hon, .inr ⟨token, htoken, haccepted, of_decide_eq_true hmail, ?_⟩⟩
    rw [hid, of_decide_eq_true he]
  · exact decodeJwt_keeps fun _ => .check <| .check <| .ret nofun
  · exact .err

/-- **A registration sets the first password of an address that is admitted.** -/
theorem register_leaves {verification}
    (hfresh : ∀ old ∈ w0.db.users.rows, old.uuid.val < w0.nextUuid) :
    ((Request.anyone (.register data verification)).leaves env w0).holds
      ((Request.anyone (.register data verification)).serve env |>.after w0) := by
  have hE : ∀ w, (registering w0).holds w →
      ((Request.anyone (.register data verification)).leaves env w0).holds w := fun _ hw =>
    rowsSince_mono (fun _ hu => .inl hu) hw.1
  have hw0 : (registering w0).holds w0 := ⟨kept_start, fun _ h => h, rfl⟩
  show PartInvariant.holds _ (Prog.after (register env data verification >>= fun _ => pure none) w0)
  rw [Prog.after_bind_pure]
  refine after_ensure (hE _ hw0) fun _ => ?_
  have htokens : (registering w0).Keeps
      (if verification then data.verifyTokens env else pure (data.name, false, false))
      fun r => r.2.2 = true → data.EmergencyInvited env w0 :=
    .ite verifyTokens_keeps (.ret nofun)
  refine htokens.handOver hE hw0 fun r hr w hw => ?_
  refine after_ensure (hE _ hw) fun _ => after_ensure (hE _ hw) fun _ => ?_
  refine (registrationUser_fills hr).handOver hE hw fun r hr w hw => ?_
  obtain ⟨user, verified⟩ := r
  refine Keeps.after (Q := ⊤) ?_ (hE w hw)
  refine .past Invitation.take_writes rfl <| setKdfData_rows.bind fun u hu => ?_
  refine User.setPassword_reissued.bind fun u' hu' => .pass sendWelcome_writes rfl fun _ => ?_
  have hid : u'.uuid = user.uuid := hu'.uuid.trans (congrArg (fun i => i.1) hu)
  have hmail : u'.email = user.email := hu'.email.trans (congrArg (fun i => i.2.1) hu)
  have hregisters : data.Registers env w0 u'.uuid u'.email := by
    refine ⟨hmail.trans hr.email, fun old hold hold' => ?_, hr.admitted⟩
    obtain ⟨old', hmem, hsame⟩ | ⟨hn, -⟩ := hr.kept
    · have hkey : old.uuid = old'.uuid :=
        (hold'.trans hid).trans (congrArg (fun i => i.1) hsame).symm
      rw [eq_of_key hold hmem hkey, hmail]
      exact ⟨congrArg (fun i => i.2.1) hsame, (congrArg (fun i => i.2.2.1) hsame).trans hr.empty⟩
    · have hlt := hfresh old hold
      rw [hold', hid] at hlt
      exact absurd hn (Nat.not_le.2 hlt)
  refine (rowsSince_save (.inr ⟨⟨?_, ?_⟩, ?_⟩)).bind fun _ _ =>
    .of_writes (S := [.emergencyAccess]) (.ite ?_ .ret) rfl
  · refine .bind .query fun _ => .each fun _ => ?_
    exact .bind (.attempt EmergencyAccess.acceptInvite_writes) fun _ => .ret
  · cases data.keys <;> exact hregisters
  · cases data.keys <;> exact hu'.stamp
  · cases data.keys <;> exact hregisters.mail

end

/-! ## Every request -/

/-- **Every request leaves the rows that it may.** -/
theorem Request.serve_leaves {request : Request}
    (hfresh : ∀ old ∈ w0.db.users.rows, old.uuid.val < w0.nextUuid) :
    (request.leaves env w0).holds ((request.serve env).after w0) := by
  cases hset : request.setsPassword with
  | false =>
    exact rowsSince_mono (fun _ hu => .inl hu) (kept_ofAccounts.serve kept_admitsNew hset kept_start)
  | true =>
    unfold Request.setsPassword at hset
    split at hset
    · refine inSession_after (fun _ hu => .inl hu) fun headers hs hmem => ?_
      refine Keeps.after (Q := ⊤) ?_ (rowsSince_mono (fun _ hu => .inl hu) kept_start)
      exact (AccountRequest.handle_leaves hs hmem hset).bind fun _ _ => .ret trivial
    · exact recoverAccount_leaves
    · exact passwordEmergencyAccess_leaves
    · exact register_leaves hfresh
    · exact login_leaves
    · cases hset

end

/-- **Who may set a master password.**  In every state that a run reaches, a request that leaves an
account with another password hash is one of those that may: with each request atomic, whatever its
outcome. -/
theorem hashChanged_maySetPassword (faults : List Bool) (run : List Event) (env : Env)
    (request : Request) (row : User)
    (hrow : row ∈ (((World.initial faults).after run).after [⟨env, request⟩]).db.users.rows)
    (hchanged : row.HashChanged ((World.initial faults).after run)) :
    request.MaySetPassword env ((World.initial faults).after run) row := by
  have hsound : ((World.initial faults).after run).Sound anyLink := World.sound_initial.run run
  have hfresh := hsound.fresh.users
  have hleaves : (request.leaves env ((World.initial faults).after run)).holds
      ((request.serve env).after ((World.initial faults).after run)) := request.serve_leaves hfresh
  rcases hleaves.2 row hrow with hkept | ⟨hmay, -⟩
  · have hkept : row.Kept ((World.initial faults).after run) := hkept.copy rfl
    exact absurd hchanged (hkept.not_hashChanged hfresh)
  · exact hmay

namespace PasswordRuns

def signedIn : World := (World.initial []).after Client.signedIn

def newPassword : Request :=
  .account Client.session (.postPassword ⟨"hash", "other", none, "key"⟩)

/-- The client asks whether a password is right. -/
def showPassword : Request := .account Client.session (.verifyPassword "hash")

/-- A server whose hashes depend on the iterations. -/
def iterated (iterations : Nat) : Env :=
  { passwordIterations := iterations
    hashPassword := fun password _ n => if n < 700000 then password else password ++ password }

/-- The iterations are raised after the account has signed in. -/
def signedInBefore : World :=
  (World.initial []).after (Client.signedIn.map fun e => ⟨iterated 600000, e.request⟩)

end PasswordRuns

open PasswordRuns in
theorem hashChanged_maySetPassword_newPassword :
    ∃ row ∈ (signedIn.after [⟨{}, newPassword⟩]).db.users.rows,
      row.passwordHash = "other" ∧ newPassword.MaySetPassword {} signedIn row := by
  have hchanged : ∃ row ∈ (signedIn.after [⟨{}, newPassword⟩]).db.users.rows,
      row.passwordHash = "other" ∧ row.HashChanged signedIn := by decide
  obtain ⟨row, hrow, hhash, hchanged⟩ := hchanged
  exact ⟨row, hrow, hhash, hashChanged_maySetPassword [] _ {} newPassword row hrow hchanged⟩

/-- The handlers that are there to set a password, and the logins. -/
def Request.isSetterOrLogin : Request → Bool
  | anyone (.register _ _) | login _ _ _ | organization _ _ (.recoverAccount _ _)
  | emergency _ (.passwordEmergencyAccess _ _) => true
  | account _ request => match request with
    | .postSetPassword _ | .postPassword _ | .postKdf _ | .postRotatekey _ | .postEmail _ => true
    | _ => false
  | _ => false

open PasswordRuns in
/-- **Asking whether a password is right may store another hash of it**: neither a login nor one of
the handlers that set a password, and the stamp stays. -/
theorem verifyPassword_rehashes :
    showPassword.isSetterOrLogin = false ∧
      ∃ row ∈ (signedInBefore.after [⟨iterated 700000, showPassword⟩]).db.users.rows,
        row.HashChanged signedInBefore ∧ ¬ row.Restamped signedInBefore := by
  decide

end VaultServer
