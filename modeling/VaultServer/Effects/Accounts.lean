import VaultServer.Effects.Organizations

/-!
# What the requests of an account write

The guards, the sessions, the account's own requests and its second factors, the logins, emergency
access and the admin page.
-/

namespace VaultServer

open Lib

variable {u : User} {caller : Caller} {org : OrganizationId} {message token ip : String}
  {d : Device} {p : ProviderTokens} {data : ConnectData} {atype : TwoFactorType}
  {ids : List TwoFactorType} {info : OIDCAuthenticatedUser}

variable {env : Env} {S : List Part} {headers : Headers}

/-! ## Guards -/

theorem checkStampException_writes : Writes [.users] (checkStampException env u route sstamp) := by
  unfold checkStampException
  split
  · exact .err
  · exact .err
  · refine .ite ?_ (.check .ensure)
    exact .seq (.attempt User.save_writes) .err

theorem Headers.fromRequest_writes : Writes [.users] (Headers.fromRequest env caller) := by
  unfold Headers.fromRequest
  split
  · exact .err
  · refine .maybe .query .err ?_
    refine .maybe (.loadUser rfl) .err ?_
    exact .seq (.when checkStampException_writes) .ret

theorem OrgHeaders.fromRequest_writes :
    Writes [.users] (OrgHeaders.fromRequest env caller org) := by
  refine .seq Headers.fromRequest_writes <| .maybe .query .err fun {_} => ?_
  dsimp only
  split
  · exact .err
  · exact .ret

theorem OrgHeaders.requiring_writes :
    Writes [.users] (OrgHeaders.requiring env caller org ok message) :=
  .seq OrgHeaders.fromRequest_writes <| .check .ret

theorem OrgRequest.guard_writes {request : OrgRequest} :
    Writes [.users] (request.guard env caller org) := by
  have hmanager : ∀ k v,
      Writes [.users] (ManagerHeaders.fromRequest env caller org (some k) v) := fun _ _ =>
    .seq OrgHeaders.requiring_writes <| .seq .query <| .check .ret
  cases request with
  | postOrganizationCollectionUpdate k v => exact hmanager k v
  | deleteOrganizationCollection k v => exact hmanager k v
  | _ => exact OrgHeaders.requiring_writes

theorem PublicToken.fromRequest_writes {token} : Writes S (PublicToken.fromRequest env token) := by
  refine .bind (.catchErr decodeJwt_writes) fun r => ?_
  split
  · exact .err
  · refine .check <| .check ?_
    split
    · refine .maybe .query .err ?_
      exact .check <| .check .ret
    · exact .err

/-! ## Sessions -/

theorem Device.rotateRefreshTokenIfMatches_writes :
    Writes deviceParts (d.rotateRefreshTokenIfMatches env expected) := by
  refine .bind .getUuid fun new =>
    ⟨.exec (fun w db' hs t ht => ?_) rfl rfl, fun w => Writes.ite .err (.ite .ret .ret)⟩
  rw [← Option.some.inj hs]
  exact .of_without (by rfl) ht

theorem Device.rotateRefreshTokensByUser_writes {u} :
    Writes deviceParts (Device.rotateRefreshTokensByUser env u) :=
  .seq (.read rfl fun _ ht => Option.some.inj ht ▸ (by decide)) <|
    .each fun _ => .seq .getUuid <| .seq Device.save_writes .ret

theorem User.resetSecurityStamp_writes : Writes deviceParts (u.resetSecurityStamp env) :=
  .seq .getUuid <| .seq Device.rotateRefreshTokensByUser_writes .ret

theorem User.setPassword_writes :
    Writes deviceParts (u.setPassword env password key reset routes) :=
  .ite User.resetSecurityStamp_writes .ret

theorem AuthMethod.checkScope_writes {method : AuthMethod} {scope} :
    Writes S (method.checkScope scope) := by
  cases scope with
  | none => exact .err
  | some => exact .ensure

theorem createAuthTokens_writes : Writes S (createAuthTokens env d u p) := by
  refine .ite .ret ?_
  split
  · exact .ret
  · exact .ret
  · exact .err

theorem tokensFor_writes {token} : Writes deviceParts (tokensFor env p d u token) := by
  unfold tokensFor
  split
  · refine .ite .ret (.ite (.seq ?_ .ret) .err)
    unfold exchangeRefreshToken
    split
    · exact .seq .external createAuthTokens_writes
    · exact .check <| .seq .external .ret
    · exact .err
  · refine .ite .err (.bind Device.rotateRefreshTokenIfMatches_writes fun r => ?_)
    split
    · exact .err
    · exact .ret
  · exact .err

theorem refreshTokens_writes {token} : Writes deviceParts (refreshTokens env p token) := by
  refine .check <| .maybe (.loadDevice rfl) .err ?_
  refine .seq (.ite Device.save_writes .ret) <| .maybe .query .err ?_
  exact tokensFor_writes

/-! ## Second factors -/

theorem generateRecoverCode_writes : Writes [.users] (generateRecoverCode env u) :=
  .ite (.seq .getUuid <| .seq (.attempt User.save_writes) .ret) .ret

theorem enforce2faPolicy_writes {u} : Writes [.usersOrganizations] (enforce2faPolicy env u) := by
  refine .seq .query <| .each fun m => .ite (.seq (.when ?_) ?_) .ret
  · exact .seq .query <| .seq .unwrap .external
  · exact Membership.save_writes

theorem enforceIfNoneLeft_writes {u} : Writes [.usersOrganizations] (enforceIfNoneLeft env u) :=
  .seq .query <| .when enforce2faPolicy_writes

theorem sendToken_writes {u} : Writes [.twofactor, .mailed] (sendToken env u) := by
  refine .maybe .query .err ?_
  refine .seq .getUuid <| .seq .lift ?_
  exact .past TwoFactor.save_writes rfl <| .mailToken (by decide)

theorem validateEmailCodeStr_writes {u data} :
    Writes [.twofactor] (validateEmailCodeStr env u token data ip) := by
  refine .seq .lift <| .maybe .query .err fun {_} => ?_
  dsimp only
  split
  · exact .err
  · exact .ite (.seq TwoFactor.save_writes .ensure) (.seq TwoFactor.save_writes .err)

theorem validateTotpCode_writes {u code secret} :
    Writes [.twofactor] (validateTotpCode env u code secret ip) := by
  unfold validateTotpCode
  split
  · exact .err
  · refine .bind (.bind (.read rfl fun _ ht => ?_) fun found => ?_) fun tf => ?_
    · exact Option.some.inj ht ▸ List.mem_singleton_self _
    · split
      · exact .ret
      · exact .seq .getUuid .ret
    · split
      · exact .err
      · exact .ite TwoFactor.save_writes .err

theorem validateTotpCodeStr_writes {u code data} :
    Writes [.twofactor] (validateTotpCodeStr env u code data ip) := by
  refine .check ?_
  split
  · exact validateTotpCode_writes
  · exact .err

theorem verifyYubikeyOtp_writes : Writes S (verifyYubikeyOtp cfg message) := .check .external

theorem getWebauthnRegistrations_writes {u} : Writes S (getWebauthnRegistrations u) := by
  refine .bind .query fun found => ?_
  split
  · exact .ret
  · exact .lift

theorem saveChallenge_writes {u} : Writes [.twofactor] (saveChallenge u atype) :=
  .seq .getUuid <| .seq .getUuid TwoFactor.save_writes

theorem takeChallenge_writes {u missing} : Writes [.twofactor] (takeChallenge u atype missing) := by
  refine .maybe .query .err fun {_} => ?_
  dsimp only
  split
  · exact .seq TwoFactor.delete_writes .ret
  · exact .err

theorem saveRegistrations_writes {u rs} : Writes [.twofactor] (saveRegistrations u rs) :=
  .seq .getUuid TwoFactor.save_writes

/-- The tables the second-factor requests write. -/
def factorParts : List Part := [.users, .twofactor, .usersOrganizations]

theorem disableTwofactor_writes {data type} :
    Writes [.twofactor, .usersOrganizations] (disableTwofactor env data type headers) := by
  refine .past PasswordOrOtpData.validate_writes rfl <| .bind .query fun found => ?_
  cases found with
  | some => exact .past TwoFactor.delete_writes rfl <| enforceIfNoneLeft_writes.mono rfl
  | none => exact enforceIfNoneLeft_writes.mono rfl

theorem sendEmail_writes {email data} : Writes [.twofactor] (sendEmail env email data headers) := by
  refine .past PasswordOrOtpData.validate_writes rfl <| .check ?_
  refine .bind .query fun found => ?_
  cases found with
  | some =>
    exact .past TwoFactor.delete_writes rfl <| .seq .getUuid <| .seq .getUuid <|
      .past TwoFactor.save_writes rfl .external
  | none =>
    exact .seq .getUuid <| .seq .getUuid <| .past TwoFactor.save_writes rfl .external

theorem verifyEmail_writes {data} : Writes factorParts (verifyEmail env token data headers) := by
  refine .past PasswordOrOtpData.validate_writes rfl <| .maybe .query .err ?_
  refine .seq .lift <| .check <| .check ?_
  exact .past TwoFactor.save_writes rfl <| generateRecoverCode_writes.mono rfl

theorem activateAuthenticator_writes {data} :
    Writes factorParts (activateAuthenticator env data ip headers) := by
  refine .bind (PasswordOrOtpData.validate_writes.mono rfl) fun _ => ?_
  split
  · exact .err
  · exact .check <| .past validateTotpCode_writes rfl <| generateRecoverCode_writes.mono rfl

theorem disableAuthenticator_writes {data} :
    Writes [.twofactor, .usersOrganizations] (disableAuthenticator env data headers) := by
  refine .check <| .bind .query fun found => ?_
  cases found with
  | none => exact enforceIfNoneLeft_writes.mono rfl
  | some =>
    exact .check <| .past TwoFactor.delete_writes rfl <| enforceIfNoneLeft_writes.mono rfl

theorem yubikeyRow_writes {u} : Writes S (yubikeyRow u) := by
  refine .bind .query fun found => ?_
  split
  · exact .ret
  · exact .seq .getUuid .ret

theorem activateYubikey_writes {data} : Writes factorParts (activateYubikey env data headers) := by
  refine .past PasswordOrOtpData.validate_writes rfl <| .seq yubikeyRow_writes ?_
  refine .check <| .seq (.each fun _ => .when verifyYubikeyOtp_writes) ?_
  exact .past TwoFactor.save_writes rfl <| generateRecoverCode_writes.mono rfl

theorem activateDuo_writes {data} : Writes factorParts (activateDuo env data headers) := by
  unfold activateDuo
  refine .bind (PasswordOrOtpData.validate_writes.mono rfl) fun _ => ?_
  have hrest : ∀ stored, Writes factorParts (do
      let uuid ← getUuid
      TwoFactor.save (.new uuid headers.user.uuid .duo stored)
      generateRecoverCode env headers.user) := fun _ =>
    .seq .getUuid <| .past TwoFactor.save_writes rfl <| generateRecoverCode_writes.mono rfl
  cases checkDuoFieldsCustom data.duo with
  | true => exact .bind (.seq .external .ret) hrest
  | false => exact hrest _

theorem generateWebauthnChallenge_writes {data} :
    Writes [.twofactor] (generateWebauthnChallenge env data headers) := by
  exact .past PasswordOrOtpData.validate_writes rfl <|
    .seq getWebauthnRegistrations_writes <| saveChallenge_writes.mono rfl

theorem activateWebauthn_writes {data} :
    Writes factorParts (activateWebauthn env data headers) := by
  refine .past PasswordOrOtpData.validate_writes rfl <|
    .bind (takeChallenge_writes.mono rfl) fun _ => ?_
  split
  · exact .err
  · exact .seq getWebauthnRegistrations_writes <| .past saveRegistrations_writes rfl <|
      generateRecoverCode_writes.mono rfl

theorem deleteWebauthn_writes {id hash} :
    Writes [.twofactor] (deleteWebauthn env id hash headers) := by
  refine .check <| .maybe .query .err ?_
  refine .bind .lift fun _ => ?_
  split
  · exact .err
  · refine .past TwoFactor.save_writes rfl <| .bind .query fun found => ?_
    split
    · exact .ret
    · split
      · exact TwoFactor.save_writes.mono rfl
      · exact .err

theorem showSettings_writes {available b data} :
    Writes [.twofactor] (showSettings env available message b data headers) :=
  .check PasswordOrOtpData.validate_writes

theorem SettingsPage.show_writes {page : SettingsPage} {data} :
    Writes [.twofactor] (page.show env data headers) := by
  cases page with
  | yubikey => exact .check showSettings_writes
  | _ => exact showSettings_writes

theorem requestOtp_writes : Writes [.twofactor] (requestOtp env headers) := by
  refine .check <| .bind .query fun found => ?_
  have hrest : Writes [.twofactor] (do
      let token ← getUuid
      let uuid ← getUuid
      TwoFactor.save (.new uuid headers.user.uuid .protectedActions
        (.protectedAction (.new env (toString token))))
      external "mail") :=
    .seq .getUuid <| .seq .getUuid <| .seq TwoFactor.save_writes .external
  cases found with
  | none => exact hrest
  | some =>
    exact .seq .lift <| .check <| .seq TwoFactor.delete_writes hrest

theorem verifyOtp_writes : Writes [.twofactor] (verifyOtp env otp headers) :=
  .check validateProtectedActionOtp_writes

theorem TwoFactorRequest.handle_writes {request : TwoFactorRequest} :
    Writes factorParts (request.handle env headers) := by
  cases request with
  | disableTwofactor => exact disableTwofactor_writes.mono rfl
  | sendEmail => exact sendEmail_writes.mono rfl
  | verifyEmail => exact verifyEmail_writes
  | activateAuthenticator => exact activateAuthenticator_writes
  | disableAuthenticator => exact disableAuthenticator_writes.mono rfl
  | activateYubikey => exact activateYubikey_writes
  | activateDuo => exact activateDuo_writes
  | generateWebauthnChallenge => exact generateWebauthnChallenge_writes.mono rfl
  | activateWebauthn => exact activateWebauthn_writes
  | deleteWebauthn => exact deleteWebauthn_writes.mono rfl
  | showSettings => exact SettingsPage.show_writes.mono rfl
  | requestOtp => exact requestOtp_writes.mono rfl
  | verifyOtp => exact verifyOtp_writes.mono rfl

/-! ## Logging in -/

theorem newDevice_writes {uuid u name atype} : Writes S (newDevice env uuid u name atype) :=
  .seq .getUuid <| .seq .getUuid .ret

theorem getDevice_writes : Writes deviceParts (getDevice env data u) := by
  refine .seq .unwrap <| .seq .unwrap <| .bind (.loadDevice rfl) fun found => ?_
  split
  · exact .ret
  · exact .seq newDevice_writes Device.save_writes

theorem sendNewDeviceLoggedIn_writes : Writes S (sendNewDeviceLoggedIn env d) := by
  refine .ite (.bind (.attempt .external) fun r => ?_) .ret
  split
  · exact .ret
  · exact .ensure

theorem describeProvider_writes :
    Writes [.twofactor, .mailed] (describeProvider env ids u b atype) := by
  unfold describeProvider
  split
  · exact .when (.seq getWebauthnRegistrations_writes <| .check <| (saveChallenge_writes.mono rfl))
  · exact .external
  · refine .maybe .query .err fun {_} => ?_
    dsimp only
    split
    · exact .ret
    · exact .err
  · refine .maybe .query .err ?_
    exact .seq (.when sendToken_writes) <| .seq .lift .ret
  · exact .ret

theorem refuseTwofactor_writes :
    Writes [.twofactor, .mailed] (refuseTwofactor env ids u data message : Cmd α) :=
  .seq (.each fun _ => describeProvider_writes) .err

theorem validateProvider_writes :
    Writes [.twofactor] (validateProvider env u token ip row atype) := by
  have hyubi : ∀ data, Writes [.twofactor] (validateYubikeyLogin env.toConfig token data) := by
    intro data
    unfold validateYubikeyLogin
    split
    · exact .check <| .check verifyYubikeyOtp_writes
    · exact .check .fail
  unfold validateProvider
  split
  · exact .seq .lift validateTotpCodeStr_writes
  · refine .seq takeChallenge_writes <| .bind getWebauthnRegistrations_writes fun _ => ?_
    split
    · exact .err
    · refine .check ?_
      split
      · exact saveRegistrations_writes
      · exact .ret
  · exact .seq .lift <| hyubi _
  · exact .external
  · exact .seq .lift validateEmailCodeStr_writes
  · exact .err

theorem useRecoveryCode_writes : Writes factorParts (useRecoveryCode env u token) :=
  .check <| .past TwoFactor.deleteAllByUser_writes rfl <|
    .past enforce2faPolicy_writes rfl <| User.save_writes.mono rfl

/-- The tables a second factor writes, the account apart. -/
def factorLoginParts : List Part :=
  [.twofactor, .twofactorIncomplete, .usersOrganizations, .mailed] ++ deviceParts

/-- The tables a login with a password writes. -/
def passwordParts : List Part := .users :: factorLoginParts

/-- The tables a login writes. -/
def loginParts : List Part := [.ssoUsers, .ssoAuth] ++ passwordParts

theorem checkRemember_writes :
    Writes ([.twofactor, .mailed] ++ deviceParts) (checkRemember env ids u data d token) := by
  refine .ite .ret (.seq (.when ?_) <| (refuseTwofactor_writes.mono rfl))
  exact .past Device.save_writes rfl .ret

theorem checkSecondFactor_writes :
    Writes passwordParts (checkSecondFactor env u data d ip ids selected row token) := by
  unfold checkSecondFactor
  split
  · exact .past checkRemember_writes rfl .ret
  · exact useRecoveryCode_writes.mono rfl
  · exact .past validateProvider_writes rfl .ret
  · exact .err

theorem twofactorAuth_writes : Writes passwordParts (twofactorAuth env u data d ip) := by
  refine .bind .query fun factors => .ite (.past enforce2faPolicy_writes rfl .ret) ?_
  refine .past TwoFactorIncomplete.markIncomplete_writes rfl ?_
  generalize usableProviders env.toConfig factors = ids
  cases ids with
  | nil => exact .err
  | cons =>
    refine .ite (refuseTwofactor_writes.mono rfl) ?_
    split
    · exact refuseTwofactor_writes.mono rfl
    · exact .seq checkSecondFactor_writes <|
        .past TwoFactorIncomplete.markComplete_writes rfl <| .ite .ret .ret

theorem registerPushDevice_writes : Writes deviceParts (registerPushDevice env d) := by
  refine .ite .ret <| .bind ?_ fun id => ?_
  · split
    · exact .ret
    · exact .getUuid
  · refine .seq .external <| .bind (.catchErr Device.save_writes) fun r => ?_
    split
    · exact .ret
    · exact .err

theorem authenticatedResponse_writes :
    Writes deviceParts (authenticatedResponse env d tokens note) :=
  .seq sendNewDeviceLoggedIn_writes <| .seq (.ite .ret registerPushDevice_writes) <|
    .seq Device.save_writes .ret

theorem kdfUpgrade_writes : Writes [.users] (kdfUpgrade env u password) := by
  refine .ite (.seq .ret <| .bind (.catchErr User.save_writes) fun r => ?_) .ret
  split
  · exact .ret
  · exact .ret

theorem checkLogin_writes {password id} : Writes [.users] (checkLogin env u ip password id) := by
  cases id with
  | some =>
    refine .seq (.bind .query fun found => ?_) .ret
    split
    · exact .err
    · exact .ensure
  | none => exact .check kdfUpgrade_writes

theorem remindToVerify_writes : Writes [.users] (remindToVerify env u) :=
  .seq (.when (.seq (.attempt User.save_writes) <| .seq (.attempt .external) .ret)) .err

theorem passwordLogin_writes : Writes passwordParts (passwordLogin env data ip) := by
  refine .seq AuthMethod.checkScope_writes <| .seq .external ?_
  refine .seq .unwrap <| .maybe (.loadUser rfl) .err ?_
  refine .check <| .seq .unwrap <| .past checkLogin_writes rfl ?_
  refine .seq (.when (remindToVerify_writes.mono rfl)) <| .past getDevice_writes rfl ?_
  exact .seq twofactorAuth_writes <| authenticatedResponse_writes.mono rfl

theorem apiKeyLogin_writes : Writes deviceParts (apiKeyLogin env data) := by
  refine .seq .external <| .ite ?_ (.ite ?_ .err)
  · unfold userApiKeyLogin
    split
    · refine .maybe .query .err ?_
      refine .check <| .check <| .seq getDevice_writes ?_
      exact .seq sendNewDeviceLoggedIn_writes <| .seq Device.save_writes .ret
    · exact .err
  · unfold organizationApiKeyLogin
    split
    · refine .maybe .query .err ?_
      exact .check .ret
    · exact .err

theorem refreshLogin_writes : Writes deviceParts (refreshLogin env p data) := by
  unfold refreshLogin
  split
  · exact .err
  · refine .bind (.catchErr refreshTokens_writes) fun r => ?_
    split
    · exact .err
    · exact .fail
    · exact .seq Device.save_writes .ret

theorem ssoAccount_writes : Writes [.users] (ssoAccount env info) := by
  refine .bind (.loadUser rfl) fun found => ?_
  split
  · exact .ret
  · refine .bind (.loadUser rfl) fun found => ?_
    split
    · exact .ret
    · exact .err
    · exact .check <| .check <| .check .ret

theorem ssoSignup_writes : Writes [.users] (ssoSignup env info) :=
  .check <| .check <| .check <| .past User.fresh_writes rfl User.save_writes

theorem redeem_writes : Writes [.ssoUsers, .ssoAuth] (redeem env d u link s info) :=
  .seq ((SsoAuth.delete_writes rfl rfl).mono rfl) <|
    .seq (.when (SsoUser.save_writes.mono rfl)) createAuthTokens_writes

theorem ssoFillStub_writes : Writes [.users] (ssoFillStub env u info) :=
  .ite User.save_writes .ret

theorem exchangeCode_writes : Writes [.ssoAuth] (exchangeCode env answer code codeVerifier) := by
  refine .bind (.read rfl fun _ ht => Option.some.inj ht ▸ List.mem_cons_self) fun found => ?_
  split
  · exact .err
  · split
    · exact .ret
    · split
      · exact .seq (SsoAuth.delete_writes rfl rfl) .err
      · exact .seq (SsoAuth.delete_writes rfl rfl) .err
      · refine .seq .external <| .seq ?_ <| .seq .external ?_
        · exact .check <| .seq .external .ensure
        · split
          · exact .err
          · exact .seq SsoAuth.save_writes .ret

theorem ssoLoginAs_writes : Writes loginParts (ssoLoginAs env data ip s info) := by
  refine .bind (ssoAccount_writes.mono rfl) fun found => ?_
  split
  · refine .past ssoSignup_writes rfl <| .past getDevice_writes rfl ?_
    exact .past redeem_writes rfl <| authenticatedResponse_writes.mono rfl
  · refine .check <| .past getDevice_writes rfl ?_
    refine .past twofactorAuth_writes rfl <| .past ssoFillStub_writes rfl ?_
    refine .seq (.when .external) <| .past redeem_writes rfl ?_
    exact authenticatedResponse_writes.mono rfl

theorem ssoLogin_writes {answer} : Writes loginParts (ssoLogin env data ip answer) := by
  refine .seq AuthMethod.checkScope_writes <| .bind .external fun _ => ?_
  split
  · exact .err
  · exact .err
  · exact .past exchangeCode_writes rfl ssoLoginAs_writes

theorem checkDevice_writes : Writes S (checkDevice data) := .check <| .check .ensure

theorem login_writes : Writes loginParts (login env grantType data ip) := by
  cases grantType with
  | refreshToken => exact .check <| refreshLogin_writes.mono rfl
  | password =>
    refine .check <| .check <| .check ?_
    refine .check <| .check <| .seq checkDevice_writes ?_
    exact passwordLogin_writes.mono rfl
  | clientCredentials =>
    refine .check <| .check <| .check ?_
    exact .seq checkDevice_writes <| apiKeyLogin_writes.mono rfl
  | authorizationCode =>
    refine .check <| .check <| .check <| .check ?_
    exact .seq checkDevice_writes ssoLogin_writes
  | other => exact .err

end VaultServer
