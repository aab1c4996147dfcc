import VaultServer.Invariants.TwoFactors

/-!
# The token endpoint under a pledge

Every grant that answers with a session leaves a device of the account behind: it finds one, or it
stores one for an account it has seen to be enabled. Nothing else looks at whether an account is
enabled.
-/

namespace VaultServer

open Lib Table Pledge

variable {d : Device} {provider : ProviderTokens} {u : User} {token ip : String}
  {data : ConnectData} {ids : List TwoFactorType} {info : OIDCAuthenticatedUser}

variable {env : Env} {p : Pledge} {w w' : World}

/-- The account of a session has a device. -/
def TokenResponse.Backed (db : Db) : TokenResponse → Prop
  | session accessClaims _ _ => db.HasDevice accessClaims.sub
  | organization _ => True

/-! ## Refreshing -/

theorem createAuthTokens_safe :
    p.Safe w (createAuthTokens env d u provider) fun t _ => t.accessClaims.sub = u.uuid := by
  unfold createAuthTokens
  split
  · exact .ret rfl
  · split
    · exact .ret rfl
    · exact .ret rfl
    · exact .err

theorem exchangeRefreshToken_safe {exp token} :
    p.Safe w (exchangeRefreshToken env provider d u exp token)
      fun t _ => t.accessClaims.sub = u.uuid := by
  match token with
  | some (.refresh rt) => exact Safe.external.seq <| createAuthTokens_safe
  | some (.access t) =>
    exact .check <| Safe.external.seq <| .ret rfl
  | none => exact .err

theorem tokensFor_safe {token} : p.Safe w (tokensFor env provider d u token) fun r _ =>
      r.1.userUuid = d.userUuid ∧ r.2.accessClaims.sub = u.uuid := by
  unfold tokensFor
  split
  · split
    · exact .ret ⟨rfl, rfl⟩
    · split
      · refine .bind exchangeRefreshToken_safe fun t _ _ _ ht => ?_
        exact .ret ⟨rfl, ht⟩
      · exact .err
  · split
    · exact .err
    · refine .bind Device.rotateRefreshTokenIfMatches_safe fun r _ _ _ hr => ?_
      cases r with
      | none => exact Safe.err
      | some d' => exact .ret ⟨(hr d' rfl).1, rfl⟩
  · exact .err

theorem refreshTokens_safe {token} : p.calm.Safe w (refreshTokens env provider token) fun r w' =>
      r.2.accessClaims.sub = r.1.userUuid ∧ w'.db.HasDevice r.1.userUuid := by
  refine .check <| Safe.found .err fun d hd => ?_
  obtain ⟨hmem, -⟩ := mem_of_find? hd
  have hsaved : p.calm.Safe w
      (if token.claims.sub = .sso then d.save env true else pure d) fun d' w' =>
        w'.db.HasDevice d'.userUuid := by
    split
    · refine (Device.save_safe (.inl ⟨d, hmem, rfl⟩)).mono fun d' _ h => ?_
      rw [h.1]; exact h.2.2
    · exact .ret ⟨d, hmem, rfl⟩
  refine .bind hsaved fun d' w1 _ _ hd' => Safe.found .err fun u hu => ?_
  obtain ⟨-, hu⟩ := User.findByUuid_eq_some hu
  refine tokensFor_safe.conseq (fun _ h => h) fun r w2 ⟨hr, hs⟩ h2 => ?_
  rw [hr]
  exact ⟨hs.trans hu, hd'.later h2.2 rfl⟩

theorem refreshLogin_safe :
    p.calm.Safe w (refreshLogin env provider data) fun r w' => r.Backed w'.db := by
  unfold refreshLogin
  split
  · exact .err
  · refine .bind refreshTokens_safe.catchErr fun r w1 _ _ hr => ?_
    match r with
    | .error (.err _) => exact Safe.err
    | .error (.invalid _) => exact .fail
    | .error (.panic _) => exact .fail
    | .ok (d, tokens) =>
      obtain ⟨hs, hd⟩ := hr _ rfl
      refine .bind (Device.save_safe (.inl hd)) fun d' w2 _ _ h2 => .ret ?_
      show w2.db.HasDevice tokens.accessClaims.sub
      rw [hs]; exact h2.2.2

/-! ## The device -/

theorem newDevice_safe {uuid u name atype} :
    p.Safe w (newDevice env uuid u name atype) fun d w' => d.userUuid = u ∧ w'.db = w.db :=
  Safe.getUuid fun _ _ => .getUuid fun _ _ => .ret ⟨rfl, rfl⟩

theorem getDevice_safe (hu : DeviceAllowed p w.db u.uuid) :
    p.Safe w (getDevice env data u) fun d w' =>
      d.userUuid = u.uuid ∧ w'.db.HasDevice u.uuid := by
  refine .unwrap fun uuid _ => .unwrap fun name _ => .loadDevice ?_
  split
  · next d hd =>
    obtain ⟨hmem, hd⟩ := mem_of_find? hd
    have hd : d.uuid = uuid ∧ d.userUuid = u.uuid := of_decide_eq_true hd
    exact .ret ⟨hd.2, d, hmem, hd.2⟩
  · refine .bind newDevice_safe fun d w1 _ _ ⟨hd, hdb⟩ => ?_
    rw [← hd, ← hdb] at hu
    rw [← hd]
    exact (Device.save_safe hu).mono fun d' _ h => ⟨h.1, h.2.2⟩

theorem authenticatedResponse_safe (hd : w.db.HasDevice d.userUuid)
    (hs : tokens.accessClaims.sub = d.userUuid) :
    p.Safe w (authenticatedResponse env d tokens note) fun r w' => r.Backed w'.db := by
  refine .bind sendNewDeviceLoggedIn_writes.silent.calm fun _ w1 _ _ h1 => ?_
  have hd1 := hd.later h1.2 rfl
  have hpush : p.Safe w1 (if d.isNew then pure d else registerPushDevice env d)
      fun d' w' => d'.userUuid = d.userUuid ∧ w'.db.HasDevice d.userUuid := by
    split
    · exact .ret ⟨rfl, hd1⟩
    · exact registerPushDevice_safe hd1
  refine .bind hpush fun d' w2 _ _ ⟨hu, hd2⟩ => ?_
  rw [← hu] at hd2
  refine .bind (Device.save_safe (.inl hd2)) fun _ w3 _ _ h3 => .ret ?_
  show w3.db.HasDevice tokens.accessClaims.sub
  rw [hs, ← hu]; exact h3.2.2

/-! ## The second factor -/

theorem useRecoveryCode_safe (hu : w.db.HoldsUser u) :
    p.Safe w (useRecoveryCode env u token) fun u' _ => u'.uuid = u.uuid ∧ RowKept u u' := by
  refine .check ?_
  refine .bind (TwoFactor.deleteAllByUser_writes.quiet rfl).calm fun _ w1 _ _ h1 => ?_
  refine .bind enforce2faPolicy_quiet.calm fun _ w2 _ _ h2 => ?_
  have hu2 := (hu.later h1.2 rfl rfl).later h2.2 rfl rfl
  refine (User.save_safe ?_).mono fun u' _ h => ?_
  · exact hu2.copy rfl ⟨rfl, rfl, rfl⟩
  · rw [h]; exact ⟨rfl, rfl, rfl, rfl⟩

theorem refuseTwofactor_safe {message Q} :
    p.Safe w (refuseTwofactor env ids u data message : Cmd α) Q :=
  (Quiet.each fun _ _ => describeProvider_writes.quiet rfl).safe.seq <| .err

theorem checkRemember_safe (hd : w.db.HasDevice d.userUuid) :
    p.Safe w (checkRemember env ids u data d token) ⊤ := by
  unfold checkRemember
  split
  · exact .ret trivial
  · refine .andThen (.when fun _ => ?_) fun _ _ _ _ =>
      refuseTwofactor_safe
    refine .andThen (Device.save_safe ?_) fun _ _ _ _ => .ret trivial
    exact .inl hd

theorem checkSecondFactor_safe (hu : w.db.HoldsUser u) (hd : w.db.HasDevice d.userUuid) :
    p.Safe w (checkSecondFactor env u data d ip ids selected row token) fun u' _ =>
      u'.uuid = u.uuid ∧ RowKept u u' := by
  unfold checkSecondFactor
  split
  · exact (checkRemember_safe hd).seq <| .ret ⟨rfl, .refl u⟩
  · exact useRecoveryCode_safe hu
  · exact (validateProvider_writes.quiet rfl).safe.seq <| .ret ⟨rfl, .refl u⟩
  · exact .err

theorem twofactorAuth_safe (hu : w.db.HoldsUser u) (hd : w.db.HasDevice d.userUuid) :
    p.Safe w (twofactorAuth env u data d ip) fun r _ =>
      r.1.uuid = u.uuid ∧ RowKept u r.1 ∧ r.2.1.userUuid = d.userUuid := by
  refine .query ?_
  split
  · exact enforce2faPolicy_quiet.safe.seq <| .ret ⟨rfl, .refl u, rfl⟩
  · refine .bind (TwoFactorIncomplete.markIncomplete_writes.quiet rfl).calm fun _ w1 _ _ h1 => ?_
    dsimp only
    split
    · exact Safe.err
    · split
      · exact refuseTwofactor_safe
      · split
        · exact refuseTwofactor_safe
        · refine .bind (checkSecondFactor_safe (hu.later h1.2 rfl rfl) (hd.later h1.2 rfl))
            fun u' w2 _ _ ⟨hid, hk⟩ => ?_
          refine (TwoFactorIncomplete.markComplete_writes.quiet rfl).safe.andThen fun _ w3 _ _ => ?_
          split
          · exact .ret ⟨hid, hk, rfl⟩
          · exact .ret ⟨hid, hk, rfl⟩

/-! ## Grants -/

theorem checkAuthRequest_quiet {password id} : Quiet (checkAuthRequest env u ip password id) := by
  refine .bind .query fun r => ?_
  split
  · exact .err
  · exact .ensure

theorem checkLogin_safe (hu : w.db.HoldsUser u) :
    p.Safe w (checkLogin env u ip password request) fun u' _ => u'.uuid = u.uuid ∧ RowKept u u' := by
  cases request with
  | none => exact .check <| kdfUpgrade_safe hu
  | some =>
    exact checkAuthRequest_quiet.safe.seq <| .ret ⟨rfl, .refl u⟩

theorem remindToVerify_safe (hu : w.db.HoldsUser u) : p.Safe w (remindToVerify env u) ⊤ := by
  refine .andThen (.when fun _ => ?_) fun _ _ _ _ => .err
  refine .andThen (.attempt (User.save_safe ?_)) fun _ _ _ _ => ?_
  · exact hu.copy rfl ⟨rfl, rfl, rfl⟩
  · exact (Quiet.bind (.attempt .external) fun _ => .ret).safe

/-- A device may be stored for an account that is enabled. -/
theorem DeviceAllowed.of_enabled (hu : u ∈ db.users.rows) (hon : u.enabled = true) :
    DeviceAllowed p db u.uuid := by
  refine .inr (.inl fun r hr hru => ?_)
  rw [eq_of_key hr hu hru]
  exact hon

theorem checkScope_quiet {method : AuthMethod} : Quiet (method.checkScope scope) := by
  cases scope with
  | none => exact .err
  | some => exact .ensure

theorem passwordLogin_safe :
    p.calm.Safe w (passwordLogin env data ip) fun r w' => r.Backed w'.db := by
  refine checkScope_quiet.safe.andThen fun _ w1 _ _ => ?_
  refine Safe.external.andThen fun _ w2 _ _ => ?_
  refine Safe.unwrap fun username _ => Safe.found .err fun u hu => ?_
  have hu := (mem_of_find? hu).1
  refine .ensure fun hon => Safe.unwrap fun password _ => ?_
  have hallowed := DeviceAllowed.of_enabled (p := p.calm) hu hon
  refine .bind (checkLogin_safe (.of_mem hu)) fun u' w3 _ h3 ⟨hid, hk⟩ => ?_
  have hu3 := ((Db.HoldsUser.of_mem hu).later h3.2 rfl rfl).copy hid hk
  refine Safe.andThen (.when fun _ => remindToVerify_safe hu3) fun _ w4 _ h4 => ?_
  have hallowed4 := (hallowed.later h3.2 rfl).later h4.2 rfl
  rw [← hid] at hallowed4
  refine .bind (getDevice_safe hallowed4) fun d w5 _ h5 ⟨hdu, hd⟩ => ?_
  rw [← hdu] at hd
  refine .bind (twofactorAuth_safe ((hu3.later h4.2 rfl rfl).later h5.2 rfl rfl) hd)
    fun r w6 _ h6 ⟨hru, _, hrd⟩ => ?_
  obtain ⟨u'', d', note⟩ := r
  refine authenticatedResponse_safe ?_ ?_
  · rw [hrd]; exact hd.later h6.2 rfl
  · rw [hrd, hdu]; exact hru

theorem userApiKeyLogin_safe :
    p.calm.Safe w (userApiKeyLogin env data) fun r w' => r.Backed w'.db := by
  unfold userApiKeyLogin
  split
  · refine .found .err fun u hu => ?_
    have hu := (User.findByUuid_eq_some hu).1
    refine .ensure fun hon => .check ?_
    refine .bind (getDevice_safe (.of_enabled hu hon)) fun d w1 _ _ ⟨hdu, hd⟩ => ?_
    rw [← hdu] at hd
    refine sendNewDeviceLoggedIn_writes.silent.safe.andThen fun _ w2 _ h2 => ?_
    refine .bind (Device.save_safe (.inl (hd.later h2.2 rfl))) fun _ w3 _ _ h3 => ?_
    refine .ret ?_
    show w3.db.HasDevice u.uuid
    rw [← hdu]; exact h3.2.2
  · exact .err

theorem apiKeyLogin_safe : p.calm.Safe w (apiKeyLogin env data) fun r w' => r.Backed w'.db := by
  refine Safe.external.andThen fun _ w1 _ _ => ?_
  split
  · exact userApiKeyLogin_safe
  · split
    · unfold organizationApiKeyLogin
      split
      · refine .found .err fun _ _ => ?_
        exact .check <| .ret trivial
      · exact .err
    · exact .err

/-! ## Single sign-on -/

theorem SsoUser.mem_of_findByIdentifier {db identifier link}
    (h : SsoUser.findByIdentifier db identifier = some (u, link)) : u ∈ db.users.rows := by
  obtain ⟨u', hu', _, -, -, heq⟩ := mem_innerJoin.1 (List.mem_of_find?_eq_some h)
  rw [(Prod.mk.inj heq).1]
  exact hu'

theorem SsoUser.mem_of_findByMail
    (h : SsoUser.findByMail db mail = some (u, link)) : u ∈ db.users.rows := by
  unfold SsoUser.findByMail at h
  cases hu : User.findByMail db mail with
  | none => rw [hu] at h; cases h
  | some =>
    rw [hu] at h
    rw [← (Prod.mk.inj (Option.some.inj h)).1]
    exact (mem_of_find? hu).1

theorem ssoAccount_safe : p.Safe w (ssoAccount env info) fun r w' =>
      w' = w ∧ ∀ u link, r = some (u, link) → u ∈ w.db.users.rows := by
  refine .loadUser ?_
  split
  · next u link h =>
    refine .ret ⟨rfl, fun x _ hx => ?_⟩
    rw [← (Prod.mk.inj (Option.some.inj hx)).1]
    exact SsoUser.mem_of_findByIdentifier h
  · refine .loadUser ?_
    split
    · exact .ret ⟨rfl, fun _ _ h => nomatch h⟩
    · exact .err
    · next u h =>
      refine .check <| .check <| .check ?_
      refine .ret ⟨rfl, fun x _ hx => ?_⟩
      rw [← (Prod.mk.inj (Option.some.inj hx)).1]
      exact SsoUser.mem_of_findByMail h

theorem ssoSignup_safe (hp : p.inserts = true) :
    p.Safe w (ssoSignup env info) fun u _ => p.base ≤ u.uuid.val := by
  refine Prog.Ends.of_inv fun hw => ?_
  refine Safe.check <| .check <| .check ?_
  refine .bind User.fresh_safe fun u w1 _ _ ⟨hu, hlt, he, _⟩ => ?_
  have hb : p.base ≤ u.uuid.val := hu ▸ hw.base
  refine (User.save_safe_new hp ?_ ?_ ?_).mono fun u' _ h => ?_
  · exact hb
  · exact hlt
  · exact he
  · rw [h]; exact hb

theorem redeem_safe :
    p.Safe w (redeem env d u link s info) fun t _ => t.accessClaims.sub = u.uuid := by
  refine ((SsoAuth.delete_writes rfl rfl).quiet rfl).safe.seq ?_
  refine (Quiet.when (SsoUser.save_writes.quiet rfl)).safe.seq <| createAuthTokens_safe

theorem ssoFillStub_safe (hu : w.db.HoldsUser u) :
    p.Safe w (ssoFillStub env u info) fun u' _ => u'.uuid = u.uuid := by
  unfold ssoFillStub
  split
  · refine (User.save_safe ?_).mono fun u' _ h => ?_
    · exact hu.copy rfl ⟨rfl, rfl, rfl⟩
    · rw [h]
  · exact .ret rfl

theorem ssoLoginAs_safe (hp : p.inserts = true) (hdrop : p.dropsDevices = false) :
    p.Safe w (ssoLoginAs env data ip s info) fun r w' => r.Backed w'.db := by
  refine .bind ssoAccount_safe fun r w4 _ _ ⟨hw, hr⟩ => ?_
  subst hw
  match r with
  | none =>
    refine .bind (ssoSignup_safe hp) fun u w5 _ _ hu => ?_
    refine .bind (getDevice_safe (.inr (.inr hu))) fun d w6 _ _ ⟨hdu, hd⟩ => ?_
    refine .bind redeem_safe fun tokens w7 _ h7 ht => ?_
    refine authenticatedResponse_safe ?_ ?_
    · rw [hdu]; exact hd.later h7.2 hdrop
    · rw [hdu]; exact ht
  | some (u, link) =>
    have hu := hr u link rfl
    refine Safe.ensure fun hon => ?_
    -- from here on no account is stored, so the copy stays good
    refine (Safe.weaken (p := p.calm) ?_ p.calm_le).mono fun _ _ h => h.1
    refine .bind (getDevice_safe (.of_enabled hu hon)) fun d w5 _ h5 ⟨hdu, hd⟩ => ?_
    rw [← hdu] at hd
    have hu5 := (Db.HoldsUser.of_mem hu).later h5.2 rfl rfl
    refine .bind (twofactorAuth_safe hu5 hd) fun r w6 _ h6 ⟨hru, hk, hrd⟩ => ?_
    obtain ⟨u', d', note⟩ := r
    have hu6 := (hu5.later h6.2 rfl rfl).copy hru hk
    refine .bind (ssoFillStub_safe hu6) fun u'' w7 _ h7 hid => ?_
    refine (Quiet.when .external).safe.andThen fun _ w8 _ h8 => ?_
    refine .bind redeem_safe fun tokens w9 _ h9 ht => ?_
    refine authenticatedResponse_safe ?_ ?_
    · rw [hrd]
      exact (((hd.later h6.2 rfl).later h7.2 rfl).later h8.2 rfl).later h9.2 rfl
    · rw [hrd, hdu, ← hru, ← hid]; exact ht

theorem ssoLogin_safe {answer} (hp : p.inserts = true) (hdrop : p.dropsDevices = false) :
    p.Safe w (ssoLogin env data ip answer) fun r w' => r.Backed w'.db := by
  refine checkScope_quiet.safe.andThen fun _ w1 _ _ => ?_
  refine Safe.external.andThen fun _ w2 _ _ => ?_
  split
  · exact .err
  · exact .err
  · exact (exchangeCode_writes.quiet rfl).safe.seq <| ssoLoginAs_safe hp hdrop

/-- **Whoever is answered with a session has a device.** -/
theorem login_safe (hp : p.inserts = true) (hdrop : p.dropsDevices = false) :
    p.Safe w (login env grantType data ip) fun r w' => r.Backed w'.db := by
  have hcalm : ∀ {c : Cmd TokenResponse} {w : World},
      p.calm.Safe w c (fun r w' => r.Backed w'.db) → p.Safe w c fun r w' => r.Backed w'.db :=
    fun h => (h.weaken p.calm_le).mono fun _ _ h => h.1
  have hdevice : Quiet (checkDevice data) := .bind .ensure fun _ => .bind .ensure fun _ => .ensure
  cases grantType with
  | refreshToken => exact .check <| hcalm refreshLogin_safe
  | password =>
    refine .check <| .check <| .check ?_
    refine .check <| .check ?_
    exact hdevice.safe.seq <| hcalm passwordLogin_safe
  | clientCredentials =>
    refine .check <| .check <| .check ?_
    exact hdevice.safe.seq <| hcalm apiKeyLogin_safe
  | authorizationCode =>
    refine .check <| .check <| .check ?_
    refine .check <| hdevice.safe.seq <| ssoLogin_safe hp hdrop
  | other => exact .err

end VaultServer
