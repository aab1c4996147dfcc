import VaultServer.Effects.Accounts

/-!
# What each request writes

The remaining handlers, and for every request the list of the parts it may write, guard included.
-/

namespace VaultServer

open Lib List

variable {u : UserId} {data : RegisterData} {email : String} {password : Option String}
  {org : OrganizationId}

variable {env : Env} {S : List Part} {headers : Headers}

/-! ## Accounts -/

theorem setKdfData_writes {u data} : Writes S (setKdfData u data) := by
  refine .check <| .seq (.when ?_) .ret
  exact .check <| .check <| .check <| .check .ensure

theorem EmergencyAccess.acceptInvite_writes {ea : EmergencyAccess} :
    Writes [.emergencyAccess] (ea.acceptInvite env u email) :=
  .check <| .check EmergencyAccess.save_writes

theorem RegisterData.verifyTokens_writes : Writes S (data.verifyTokens env) := by
  unfold RegisterData.verifyTokens
  split
  · exact .seq decodeJwt_writes <| .check .ret
  · exact .check <| .seq decodeJwt_writes <| .check <| .check .ret
  · exact .seq decodeJwt_writes <| .check <| .check .ret
  · exact .err

theorem registrationUser_writes : Writes [.users, .invitations, .usersOrganizations]
      (registrationUser env data email verified pending) := by
  refine .bind (.loadUser rfl) fun found => ?_
  split
  · refine .check ?_
    split
    · exact .seq decodeJwt_writes <| .check .ret
    · refine .bind (Invitation.take_writes.mono rfl) fun taken => .ite ?_ ?_
      · exact .past Membership.acceptUserInvitations_writes rfl .ret
      · exact .seq .query <| .check .ret
  · exact .past Invitation.take_writes rfl <| .check <| .past User.fresh_writes rfl .ret

theorem sendWelcome_writes {u verified} : Writes [.twofactor] (sendWelcome env data u verified) :=
  .ite (.seq (.attempt .external) <| .seq .query <|
    .ite (.seq (.attempt activateEmail2fa_writes) .ret) .ret) .ret

/-- The tables a registration writes. -/
def registerParts : List Part :=
  [.users, .invitations, .usersOrganizations, .twofactor, .emergencyAccess] ++ deviceParts

theorem register_writes {verification} : Writes registerParts (register env data verification) := by
  refine .check <| .seq (.ite RegisterData.verifyTokens_writes .ret) ?_
  refine .check <| .check <| .past registrationUser_writes rfl ?_
  refine .past Invitation.take_writes rfl <| .seq setKdfData_writes ?_
  refine .past User.setPassword_writes rfl <| .past sendWelcome_writes rfl ?_
  refine .past User.save_writes rfl <| .ite (.seq .query <| .each fun _ => ?_) .ret
  exact .seq (.attempt (EmergencyAccess.acceptInvite_writes.mono rfl)) .ret

theorem acceptIdentifiedOrg_writes {id} : Writes joinParts (acceptIdentifiedOrg env u id) := by
  cases id with
  | none => exact .ret
  | some =>
    refine .maybe .query .err ?_
    refine .maybe .query .err ?_
    exact acceptOrgInvite_writes

theorem postSetPassword_writes {data} :
    Writes (.users :: joinParts) (postSetPassword env data headers) := by
  refine .check <| .check <| .seq setKdfData_writes ?_
  refine .seq .ret <| .past acceptIdentifiedOrg_writes rfl <| .seq ?_ ?_
  · exact .ite .external (Membership.acceptUserInvitations_writes.mono rfl)
  · exact .past User.save_writes rfl .ret

theorem postProfile_writes : Writes [.users] (postProfile env name headers) :=
  .check <| .seq User.save_writes .ret

theorem putAvatar_writes : Writes [.users] (putAvatar env color headers) :=
  .check <| .seq User.save_writes .ret

theorem postKeys_writes {data} : Writes [.users] (postKeys env data headers) :=
  .seq User.save_writes .ret

theorem postSettingsDomains_writes {data} :
    Writes [.users] (postSettingsDomains env data headers) :=
  .seq User.save_writes .ret

theorem postPassword_writes {data} :
    Writes (.users :: deviceParts) (postPassword env data headers) :=
  .check <| .check <| .past User.setPassword_writes rfl <|
    .past User.save_writes rfl .ret

theorem postKdf_writes {data} : Writes (.users :: deviceParts) (postKdf env data headers) :=
  .check <| .check <| .check <| .seq setKdfData_writes <|
    .past User.setPassword_writes rfl <| .past User.save_writes rfl .ret

theorem verifyPassword_writes {hash} : Writes [.users] (verifyPassword env hash headers) :=
  .check <| .seq kdfUpgrade_writes .ret

/-! ## Sends -/

theorem enforceDisableSendPolicy_writes : Writes S (enforceDisableSendPolicy env headers) :=
  .seq .query .ensure

theorem enforceDisableHideEmailPolicy_writes {data} :
    Writes S (enforceDisableHideEmailPolicy env data headers) :=
  .when (.seq .query .ensure)

theorem createSend_writes {data} : Writes S (createSend env data u) :=
  .seq .lift <| .check <| .check <| .seq .getUuid <| .seq .lift Send.setPassword_writes

theorem sendSizeLimit_writes : Writes S (sendSizeLimit env u) := by
  unfold sendSizeLimit
  split
  · exact .ret
  · refine .check <| .maybe .query .err ?_
    exact .check <| .check .ret

theorem updateSendFromData_writes {send data notify} :
    Writes [.sends] (updateSendFromData env send data headers notify) := by
  refine .check <| .check <| .check <| .seq ?_ ?_
  · refine .ite ?_ .ret
    split
    · exact .ret
    · exact .err
  · exact .seq .lift <| .seq (.ite Send.setPassword_writes .ret) <|
      .seq Send.save_writes <| .seq (.when Send.updateUsersRevision_writes) .ret

theorem postSendFileV2_writes {data} : Writes [.sends] (postSendFileV2 env data headers) := by
  refine .seq enforceDisableSendPolicy_writes <| .check <|
    .bind enforceDisableHideEmailPolicy_writes fun _ => ?_
  split
  · exact .err
  · exact .seq .lift <| .check <| .seq sendSizeLimit_writes <|
      .check <| .seq createSend_writes <| .seq .getUuid <| .seq Send.save_writes .ret

theorem SendRequest.handle_writes {request : SendRequest} :
    Writes [.sends] (request.handle env headers) := by
  cases request with
  | postSend =>
    exact .seq enforceDisableSendPolicy_writes <|
      .seq enforceDisableHideEmailPolicy_writes <| .check <|
        .seq createSend_writes <| .seq Send.save_writes Send.updateUsersRevision_writes
  | postSendFile =>
    refine .seq enforceDisableSendPolicy_writes <| .check <|
      .check <| .seq enforceDisableHideEmailPolicy_writes ?_
    exact .seq sendSizeLimit_writes <| .check <| .seq createSend_writes <|
      .check <| .seq .getUuid <| .seq .external <|
        .seq Send.save_writes Send.updateUsersRevision_writes
  | postSendFileV2 => exact postSendFileV2_writes
  | putSend =>
    refine .seq enforceDisableSendPolicy_writes <|
      .seq enforceDisableHideEmailPolicy_writes <| .maybe .query .err ?_
    exact .check <| .seq updateSendFromData_writes .ret
  | deleteSend =>
    refine .maybe .query .err ?_
    exact .seq Send.delete_writes Send.updateUsersRevision_writes
  | putRemovePassword =>
    refine .seq enforceDisableSendPolicy_writes <| .maybe .query .err ?_
    exact .seq Send.setPassword_writes <| .seq Send.save_writes Send.updateUsersRevision_writes

theorem checkSendAccess_writes : Writes S (checkSendAccess env send password messages) := by
  refine .check <| .check <| .when ?_
  split
  · exact .ensure
  · exact .err

theorem generateTokens_writes : Writes [.sends] (generateTokens env accessId password ip) := by
  unfold generateTokens
  split
  · exact .err
  · refine .maybe .query .err ?_
    exact .seq checkSendAccess_writes <| .seq Send.registerAccess_writes <| .check .ret

theorem sendAccessLogin_writes :
    Writes [.sends] (sendAccessLogin env clientId sendId passwordHash ip) := by
  refine .seq .external <| .check ?_
  split
  · exact .err
  · exact .seq generateTokens_writes .ret

theorem postAccessLegacy_writes : Writes [.sends] (postAccessLegacy env accessId password) := by
  refine .seq .external <| .maybe .query .err ?_
  refine .seq checkSendAccess_writes <| .ite ?_ ?_
  · exact .seq Send.registerAccess_writes <| .check Send.updateUsersRevision_writes
  · exact .seq Send.save_writes Send.updateUsersRevision_writes

theorem postAccessFileLegacy_writes {id} :
    Writes [.sends] (postAccessFileLegacy env id password) := by
  refine .seq .external <| .maybe .query .err ?_
  exact .seq checkSendAccess_writes <| .seq Send.registerAccess_writes <|
    .check <| .seq Send.updateUsersRevision_writes .external

/-! ## The keys of an account -/

/-- The tables a key rotation writes. -/
def rotationParts : List Part :=
  [.users, .usersOrganizations, .emergencyAccess, .folders, .sends] ++ deviceParts ++ updateParts

theorem rotateSend_writes : Writes [.sends] (rotateSend env headers sends d) := by
  unfold rotateSend
  split
  · exact .err
  · exact .fail
  · split
    · exact .err
    · exact .seq updateSendFromData_writes .ret

theorem rotateCipher_writes : Writes updateParts (rotateCipher env me cs d) := by
  refine .ite .ret ?_
  split
  · exact .err
  · exact .fail
  · split
    · exact .err
    · exact .seq updateCipherFromData_writes .ret

theorem rotateFolder_writes : Writes [.folders] (rotateFolder env folders d) := by
  unfold rotateFolder
  split
  · exact .ret
  · split
    · exact .err
    · exact Folder.save_writes

theorem rotateEmergencyAccess_writes :
    Writes [.emergencyAccess] (rotateEmergencyAccess env contacts d) := by
  unfold rotateEmergencyAccess
  split
  · exact .err
  · exact EmergencyAccess.save_writes

theorem rotateMembership_writes :
    Writes [.usersOrganizations] (rotateMembership env members d) := by
  unfold rotateMembership
  split
  · exact .err
  · exact Membership.save_writes

theorem validateKeydata_writes {data rows u} : Writes S (validateKeydata data rows u) :=
  .check <| .check <| .check <| .check <| .check <| .check .ensure

theorem postRotatekey_writes {data} : Writes rotationParts (postRotatekey env data headers) := by
  refine .check <| .seq validateCipherData_writes <| .seq .query ?_
  refine .seq validateKeydata_writes ?_
  refine .seq (.each fun _ => (rotateFolder_writes.mono rfl)) ?_
  refine .seq (.each fun _ => (rotateEmergencyAccess_writes.mono rfl)) ?_
  refine .seq (.each fun _ => (rotateMembership_writes.mono rfl)) ?_
  refine .seq (.foldl fun _ _ => (rotateSend_writes.mono rfl)) ?_
  refine .seq (.foldl fun _ _ => (rotateCipher_writes.mono rfl)) ?_
  exact .past User.setPassword_writes rfl <| .past User.save_writes rfl .ret

theorem postSstamp_writes {data} :
    Writes (.users :: .twofactor :: deviceParts) (postSstamp env data headers) :=
  .past PasswordOrOtpData.validate_writes rfl <|
    .past User.resetSecurityStamp_writes rfl <|
    .seq (.catchErr (User.save_writes.mono rfl)) <| .past Device.deleteAllByUser_writes rfl <|
      .seq .lift .ret

theorem postEmailToken_writes {data} : Writes [.users] (postEmailToken env data headers) := by
  refine .check <| .check <| .bind .query fun found => ?_
  split
  · exact .seq (.when (.seq (.attempt .external) .ret)) .err
  · exact .check <| .seq .getUuid <| .seq (.when (.seq (.attempt .external) .ret)) <|
        .seq User.save_writes .ret

theorem postEmail_writes {data} : Writes (.users :: deviceParts) (postEmail env data headers) := by
  refine .check <| .check <| .seq .query <| .check ?_
  refine .check <| .check ?_
  refine .seq (.when (.check .ensure)) ?_
  exact .past User.setPassword_writes rfl <| .past User.save_writes rfl .ret

theorem postVerifyEmailToken_writes : Writes [.users] (postVerifyEmailToken env u token) := by
  refine .maybe (.loadUser rfl) .err ?_
  refine .bind (.catchErr decodeJwt_writes) fun r => ?_
  split
  · exact .err
  · exact .check <| .seq (.attempt User.save_writes) .ret

theorem postDeleteRecoverToken_writes :
    Writes accountParts (postDeleteRecoverToken env u token) := by
  refine .bind (.catchErr decodeJwt_writes) fun r => ?_
  split
  · exact .err
  · refine .maybe .query .err ?_
    exact .check User.delete_writes

theorem updateApiKey_writes {data rotate} :
    Writes [.users, .twofactor] (updateApiKey env data rotate headers) := by
  refine .past PasswordOrOtpData.validate_writes rfl <| .when (.seq .getUuid ?_)
  refine .bind (.attempt (User.save_writes.mono rfl)) fun r => ?_
  split
  · exact .ret
  · exact .fail

theorem putDeviceToken_writes : Writes deviceParts (putDeviceToken env device token headers) := by
  refine .maybe (.loadDevice rfl) .err ?_
  refine .ite .ret (.bind (.catchErr Device.save_writes) fun r => ?_)
  split
  · exact .err
  · exact .seq registerPushDevice_writes .ret

/-- Clearing a push token keeps every secret. -/
theorem Db.sessions_clearPushToken : (clearPushTokenStmt device db).sessions = db.sessions := by
  unfold Db.sessions clearPushTokenStmt Table.updateWhere
  rw [map_map]
  refine map_congr_left fun d _ => ?_
  by_cases hd : d.uuid = device <;> simp [Function.comp, hd, Device.key]

theorem putClearDeviceToken_writes : Writes [.devices] (putClearDeviceToken env device) := by
  refine .ite .ret (.bind .query fun found => ?_)
  split
  · exact .ret
  · refine .seq (.execTotal fun w t ht => ?_) <| .when .external
    cases t with
    | devices => exact (ht (by decide)).elim
    | userIds => exact List.Subset.refl _
    | sessions => exact fun _ hx => Db.sessions_clearPushToken ▸ hx
    | _ => rfl

theorem AuthRequest.save_writes {a : AuthRequest} : Writes [.authRequests] a.save :=
  .guarded fun _ => rfl

theorem AuthRequest.purgeExpiredAuthRequests_writes :
    Writes [.authRequests] (AuthRequest.purgeExpiredAuthRequests env) :=
  .seq .query <| .each fun _ => .seq (.attempt (.total fun _ => rfl)) .ret

theorem postAuthRequest_writes {data deviceType ip} :
    Writes [.authRequests] (postAuthRequest env data deviceType ip) := by
  refine .maybe .query .err ?_
  exact .seq .query <| .check <| .seq .getUuid <| .seq AuthRequest.save_writes .ret

theorem putAuthRequest_writes {id data} :
    Writes [.authRequests] (putAuthRequest id data headers) := by
  refine .maybe .query .err ?_
  exact .check <| .check <| .ite AuthRequest.save_writes <| .total fun _ => rfl

theorem checkResetPasswordApplicableAndPermissions_writes {m headers} :
    Writes S (checkResetPasswordApplicableAndPermissions env org m headers) := by
  refine .seq checkResetPasswordApplicable_writes <| .maybe .query .err ?_
  exact .ensure

theorem recoverAccount_writes {headers m r} :
    Writes (.users :: deviceParts) (recoverAccount env org m r headers) := by
  refine .check <| .seq .query <| .check ?_
  refine .maybe .query .err ?_
  refine .maybe (.loadUser rfl) .err ?_
  refine .seq checkResetPasswordApplicableAndPermissions_writes <| .check ?_
  exact .check <| .seq .external <| .past User.setPassword_writes rfl <|
    .past User.save_writes rfl .ret

theorem apiKey_writes {headers data rotate} :
    Writes [.organizationApiKey, .twofactor] (apiKey env org data rotate headers) := by
  have hsave : ∀ k : OrganizationApiKey, Writes [.organizationApiKey, .twofactor] k.save :=
    fun _ => .guarded fun _ => rfl
  refine .check <| .past PasswordOrOtpData.validate_writes rfl ?_
  refine .bind .query fun found => ?_
  split
  · refine .when (.seq .getUuid <| .bind (.attempt (hsave _)) fun r => ?_)
    split
    · exact .ret
    · exact .fail
  · refine .seq .getUuid <| .seq .getUuid <| .bind (.attempt (hsave _)) fun r => ?_
    split
    · exact .ret
    · exact .fail

/-! ## Emergency access -/

namespace Emergency

theorem grantee_writes : Writes [.users, .invitations] (grantee env email) := by
  refine .bind .query fun found => ?_
  split
  · exact .ret
  · exact .check <| .check <| .seq (.when (Invitation.save_writes.mono rfl)) <|
      .past createUser_writes rfl .ret

/-- The tables an invitation of a contact writes. -/
def inviteParts : List Part := [.users, .invitations, .emergencyAccess]

theorem sendInvite_writes {data} : Writes inviteParts (sendInvite env data headers) := by
  refine .check ?_
  split
  · exact .err
  · refine .check <| .past grantee_writes rfl <| .seq .query ?_
    refine .check <| .seq .getUuid <| .bind (EmergencyAccess.save_writes.mono rfl) ?_
    exact fun _ => .ite .external (.ite (EmergencyAccess.acceptInvite_writes.mono rfl) .ret)

theorem advance_writes (h : ∀ ea, Writes [.emergencyAccess] (checks ea)) :
    Writes [.emergencyAccess] (advance env found ok checks change) := by
  unfold advance
  split
  · exact .err
  · exact .check <| .seq (h _) <| .seq EmergencyAccess.save_writes <| .when .external

theorem checkAccount_writes {u missing} : Writes S (checkAccount u missing) := .seq .query .ensure

theorem resendInvite_writes {id} :
    Writes [.invitations, .emergencyAccess] (resendInvite env id headers) := by
  refine .check <| .maybe .query .err ?_
  refine .check ?_
  split
  · exact .err
  · refine .maybe .query .err ?_
    exact .seq .query <| .ite .external (.ite (EmergencyAccess.acceptInvite_writes.mono rfl)
      (.ite (Invitation.save_writes.mono rfl) .ret))

theorem acceptInvite_writes {id token} :
    Writes [.invitations, .emergencyAccess] (acceptInvite env id token headers) := by
  refine .check <| .seq decodeJwt_writes <| .check ?_
  refine .maybe .query .err ?_
  refine .past Invitation.take_writes rfl <| .maybe .query .err ?_
  refine .maybe .query .err ?_
  exact .check <| .past EmergencyAccess.acceptInvite_writes rfl <| .when .external

theorem postEmergencyAccess_writes {id data} :
    Writes [.emergencyAccess] (postEmergencyAccess env id data headers) := by
  refine .check <| .maybe .query .err fun {_} => ?_
  dsimp only
  split
  · exact .err
  · exact EmergencyAccess.save_writes

theorem deleteEmergencyAccess_writes {id} :
    Writes [.emergencyAccess] (deleteEmergencyAccess env id headers) := by
  refine .check <| .seq .query <| .bind .query fun _ => ?_
  split
  · exact EmergencyAccess.delete_writes
  · exact EmergencyAccess.delete_writes
  · exact .err

theorem viewEmergencyAccess_writes {id} : Writes S (viewEmergencyAccess env id headers) := by
  refine .check <| .maybe .query .err ?_
  exact .check <| .seq .query .ret

theorem takeoverEmergencyAccess_writes {id} :
    Writes S (takeoverEmergencyAccess env id headers) := by
  refine .check <| .maybe .query .err ?_
  refine .check <| .maybe .query .err ?_
  exact .ret

theorem findAccounts_writes : Writes S (findAccounts ea) := by
  have hfind : ∀ {u : UserId} {missing : String}, Writes S (findAccount u missing) :=
    .seq .query <| .ite .fail .ret
  refine .seq hfind ?_
  split
  · exact .fail
  · exact hfind

theorem mailTimedOut_writes : Writes S (mailTimedOut env ea) :=
  .when <| .seq findAccounts_writes <| .seq (.expectOk .external) <| .expectOk .external

theorem mailReminder_writes : Writes S (mailReminder env ea) :=
  .when <| .seq findAccounts_writes <| .expectOk .external

theorem eachWaiting_writes {due write tell message} (hwrite : ∀ {ea}, Writes S (write ea))
    (htell : ∀ {ea}, Writes S (tell ea)) : Writes S (eachWaiting env due write tell message) :=
  .when <| .seq .query <| .each fun _ => .seq .unwrap <| .seq .lift <| .when <|
    .seq (.expectOk hwrite) htell

theorem emergencyRequestTimeoutJob_writes :
    Writes [.emergencyAccess] (emergencyRequestTimeoutJob env) :=
  eachWaiting_writes EmergencyAccess.updateAccessStatusAndSave_writes mailTimedOut_writes

theorem emergencyNotificationReminderJob_writes :
    Writes [.emergencyAccess] (emergencyNotificationReminderJob env) :=
  eachWaiting_writes EmergencyAccess.updateLastNotificationDateAndSave_writes mailReminder_writes

/-- The tables a takeover writes. -/
def takeoverParts : List Part := [.users, .twofactor] ++ deviceParts ++ memberParts

theorem passwordEmergencyAccess_writes {id data} :
    Writes takeoverParts (passwordEmergencyAccess env id data headers) := by
  refine .check <| .maybe .query .err ?_
  refine .check <| .maybe (.loadUser rfl) .err ?_
  refine .past User.setPassword_writes rfl <| .past User.save_writes rfl ?_
  refine .past TwoFactor.deleteAllByUser_writes rfl <| .seq .query ?_
  exact .each fun _ => .ite (Membership.delete_writes.mono rfl) .ret

end Emergency

def EmergencyRequest.parts : EmergencyRequest → List Part
  | sendInvite _ | resendInvite _ | acceptInvite _ _ => Emergency.inviteParts
  | passwordEmergencyAccess _ _ => Emergency.takeoverParts
  | _ => [.emergencyAccess]

theorem EmergencyRequest.handle_writes {request : EmergencyRequest} :
    Writes request.parts (request.handle env headers) := by
  have hboth : ∀ ea, Writes [.emergencyAccess] (do
      Emergency.checkGrantor ea
      Emergency.checkGrantee ea) := fun _ =>
    .seq Emergency.checkAccount_writes Emergency.checkAccount_writes
  have hone : ∀ (u : Option UserId) m, Writes [.emergencyAccess] (Emergency.checkAccount u m) :=
    fun _ _ => Emergency.checkAccount_writes
  cases request with
  | sendInvite => exact Emergency.sendInvite_writes
  | resendInvite => exact Emergency.resendInvite_writes.mono rfl
  | acceptInvite => exact Emergency.acceptInvite_writes.mono rfl
  | confirmEmergencyAccess =>
    exact .check <| .seq .query <| Emergency.advance_writes hboth
  | initiateEmergencyAccess =>
    exact .check <| .seq .query <| Emergency.advance_writes fun _ => hone _ _
  | approveEmergencyAccess =>
    exact .check <| .seq .query <| Emergency.advance_writes hboth
  | rejectEmergencyAccess =>
    exact .check <| .seq .query <| Emergency.advance_writes fun _ => hone _ _
  | postEmergencyAccess => exact Emergency.postEmergencyAccess_writes
  | deleteEmergencyAccess => exact Emergency.deleteEmergencyAccess_writes
  | viewEmergencyAccess => exact .seq Emergency.viewEmergencyAccess_writes .ret
  | takeoverEmergencyAccess => exact .seq Emergency.takeoverEmergencyAccess_writes .ret
  | passwordEmergencyAccess => exact Emergency.passwordEmergencyAccess_writes

/-! ## The admin page -/

namespace Admin

theorem getUserOr404_writes : Writes [.users] (getUserOr404 u) := by
  refine .bind (.loadUser rfl) fun found => ?_
  split
  · exact .ret
  · exact .err

theorem inviteUser_writes : Writes [.users, .invitations] (inviteUser env email) :=
  .seq .query <| .check <| .past User.fresh_writes rfl <|
    .seq (.ite .external (Invitation.save_writes.mono rfl)) <| .past User.save_writes rfl <|
      .ret

theorem deauthUser_writes : Writes (.users :: deviceParts) (deauthUser env u) := by
  refine .past getUserOr404_writes rfl <| .seq (.ite ?_ .ret) ?_
  · exact .seq .query <| .each fun _ => .seq (.attempt .external) .ret
  · exact .past Device.deleteAllByUser_writes rfl <|
      .past User.resetSecurityStamp_writes rfl <| .past User.save_writes rfl .ret

theorem disableUser_writes : Writes (.users :: deviceParts) (disableUser env u) :=
  .past getUserOr404_writes rfl <| .past User.resetSecurityStamp_writes rfl <|
    .seq (.catchErr (User.save_writes.mono rfl)) <| .past Device.deleteAllByUser_writes rfl <|
      .seq .lift .ret

theorem remove2fa_writes : Writes factorParts (remove2fa env u) :=
  .past getUserOr404_writes rfl <| .past TwoFactor.deleteAllByUser_writes rfl <|
    .past enforce2faPolicy_writes rfl <| .past User.save_writes rfl .ret

theorem updateMembershipType_writes {data} :
    Writes [.usersOrganizations, .twofactor] (updateMembershipType env data) := by
  refine .maybe .query .err fun {_} => ?_
  dsimp only
  split
  · exact .err
  · exact .seq .query <| .check <|
      .past OrgPolicy.checkUserAllowed_writes rfl <| Membership.save_writes.mono rfl

end Admin

def AdminRequest.parts : AdminRequest → List Part
  | inviteUser _ => [.users, .invitations]
  | deleteUser _ => accountParts
  | deleteSsoUser _ => [.ssoUsers]
  | deauthUser _ | disableUser _ => .users :: deviceParts
  | enableUser _ => [.users]
  | remove2fa _ => factorParts
  | updateMembershipType _ => [.usersOrganizations, .twofactor]
  | updateRevisionUsers => []
  | deleteOrganization _ => organizationParts

theorem AdminRequest.handle_writes {request : AdminRequest} :
    Writes request.parts (request.handle env) := by
  cases request with
  | inviteUser => exact Admin.inviteUser_writes
  | deleteUser => exact .past Admin.getUserOr404_writes rfl User.delete_writes
  | deleteSsoUser => exact SsoUser.delete_writes
  | deauthUser => exact Admin.deauthUser_writes
  | disableUser => exact Admin.disableUser_writes
  | enableUser =>
    exact .seq Admin.getUserOr404_writes <| .seq User.save_writes .ret
  | remove2fa => exact Admin.remove2fa_writes
  | updateMembershipType => exact Admin.updateMembershipType_writes
  | updateRevisionUsers =>
    refine .execTotal fun w t _ => ?_
    cases t with
    | users => exact Db.accounts_updateWhere
    | userIds => exact Db.userIds_updateWhere
    | sessions => exact List.Subset.refl _
    | _ => rfl
  | deleteOrganization =>
    refine .maybe .query .err ?_
    exact Organization.delete_writes

/-! ## The other requests -/

def AccountRequest.parts : AccountRequest → List Part
  | postSetPassword _ => .users :: joinParts
  | postProfile _ | putAvatar _ | postKeys _ | postSettingsDomains _ | verifyPassword _
  | postEmailToken _ => [.users]
  | updateApiKey _ _ => [.users, .twofactor]
  | postPassword _ | postKdf _ | postEmail _ => .users :: deviceParts
  | postSstamp _ => .users :: .twofactor :: deviceParts
  | postRotatekey _ => rotationParts
  | deleteAccount _ => accountParts
  | putDeviceToken _ _ => deviceParts
  | putAuthRequest _ _ => [.authRequests]
  | createOrganization _ => [.organizations, .usersOrganizations, .collections]
  | acceptInvite _ _ _ _ => joinParts

theorem AccountRequest.handle_writes {request : AccountRequest} :
    Writes request.parts (request.handle env headers) := by
  cases request with
  | postSetPassword => exact postSetPassword_writes
  | postProfile => exact postProfile_writes
  | putAvatar => exact putAvatar_writes
  | postKeys => exact postKeys_writes
  | postSettingsDomains => exact postSettingsDomains_writes
  | postPassword => exact postPassword_writes
  | postKdf => exact postKdf_writes
  | verifyPassword => exact verifyPassword_writes
  | postRotatekey => exact postRotatekey_writes
  | postSstamp => exact postSstamp_writes
  | postEmailToken => exact postEmailToken_writes
  | postEmail => exact postEmail_writes
  | deleteAccount => exact .past PasswordOrOtpData.validate_writes rfl User.delete_writes
  | updateApiKey => exact updateApiKey_writes
  | putDeviceToken => exact putDeviceToken_writes
  | putAuthRequest => exact putAuthRequest_writes
  | createOrganization => exact createOrganization_writes
  | acceptInvite => exact acceptInvite_writes

def OrgRequest.parts : OrgRequest → List Part
  | deleteOrganization _ => .twofactor :: organizationParts
  | leaveOrganization => memberParts
  | postOrganization _ _ => [.organizations]
  | postOrganizationCollections _ | postBulkAccessCollections _
  | postOrganizationCollectionUpdate .. => assignmentParts
  | deleteOrganizationCollection .. | bulkDeleteOrganizationCollections _ => collectionParts
  | postOrgImport _ => .collections :: cipherParts
  | sendInvite _ => accountParts
  | reinviteMember _ | bulkReinviteMembers _ => [.usersOrganizations, .invitations]
  | confirmInvite _ _ | bulkConfirmInvite _ => joinParts
  | editMember _ _ => .twofactor :: memberParts
  | deleteMember _ | bulkDeleteMember _ => .invitations :: memberParts
  | revokeMember _ | bulkRevokeMembers _ => [.usersOrganizations]
  | restoreMember _ | bulkRestoreMembers _ | putResetPasswordEnrollment _ _ =>
    [.usersOrganizations, .twofactor]
  | postGroups _ | putGroup _ _ | deleteGroup _ | bulkDeleteGroups _ => groupParts
  | putGroupMembers _ _ | postDeleteGroupMember _ _ => [.groupsUsers]
  | putPolicy _ _ => [.usersOrganizations, .orgPolicies]
  | recoverAccount _ _ => .users :: deviceParts
  | apiKey _ _ => [.organizationApiKey, .twofactor]

theorem OrgRequest.handle_writes {headers} {request : OrgRequest} :
    Writes request.parts (request.handle env org headers) := by
  cases request with
  | deleteOrganization => exact deleteOrganization_writes
  | leaveOrganization => exact leaveOrganization_writes
  | postOrganization => exact postOrganization_writes
  | postOrganizationCollections => exact postOrganizationCollections_writes
  | postBulkAccessCollections => exact postBulkAccessCollections_writes
  | postOrganizationCollectionUpdate => exact postOrganizationCollectionUpdate_writes
  | deleteOrganizationCollection => exact deleteOrganizationCollectionImpl_writes
  | bulkDeleteOrganizationCollections => exact bulkDeleteOrganizationCollections_writes
  | postOrgImport => exact postOrgImport_writes
  | sendInvite => exact sendInvite_writes
  | reinviteMember => exact .check reinviteMemberImpl_writes
  | bulkReinviteMembers =>
    exact .check <| forAll_writes fun _ => reinviteMemberImpl_writes
  | confirmInvite => exact confirmInviteImpl_writes
  | bulkConfirmInvite => exact bulkConfirmInvite_writes
  | editMember => exact editMember_writes
  | deleteMember => exact deleteMemberImpl_writes
  | bulkDeleteMember =>
    exact .check <| forAll_writes fun _ => deleteMemberImpl_writes
  | revokeMember => exact revokeMemberImpl_writes
  | bulkRevokeMembers =>
    exact .check <| forAll_writes fun _ => revokeMemberImpl_writes
  | restoreMember => exact restoreMemberImpl_writes
  | bulkRestoreMembers =>
    exact .check <| forAll_writes fun _ => restoreMemberImpl_writes
  | putResetPasswordEnrollment => exact putResetPasswordEnrollment_writes
  | postGroups => exact postGroups_writes
  | putGroup => exact putGroup_writes
  | deleteGroup => exact deleteGroupImpl_writes
  | bulkDeleteGroups => exact bulkDeleteGroups_writes
  | putGroupMembers => exact putGroupMembers_writes
  | postDeleteGroupMember => exact postDeleteGroupMember_writes
  | putPolicy => exact putPolicy_writes
  | recoverAccount => exact recoverAccount_writes
  | apiKey => exact apiKey_writes

def OpenRequest.parts : OpenRequest → List Part
  | register _ _ => registerParts
  | postVerifyEmailToken _ _ => [.users]
  | postDeleteRecoverToken _ _ => accountParts
  | putClearDeviceToken _ => [.devices]
  | postAuthRequest _ _ _ => [.authRequests]
  | sendEmailLogin _ _ _ => [.twofactor, .mailed]
  | websocketsHub _ _ | closeConnection _ => [.hub]
  | sendAccessLogin _ _ _ _ | postAccessLegacy _ _ | postAccessFileLegacy _ _ => [.sends]
  | authorize _ | oidcsignin _ _ _ | oidcsigninError _ _ _ _ => [.ssoAuth]

theorem emailLoginUser_writes {data deviceType ip} :
    Writes S (emailLoginUser env data deviceType ip) := by
  unfold emailLoginUser
  split
  · refine .check <| .maybe .query .err ?_
    exact .ret
  · refine .maybe .query .err fun {_} => ?_
    dsimp only
    split
    · exact .check .ret
    · refine .maybe .query .err ?_
      exact .check <| .check .ret
    · exact .err

/-- A change of the channels alone. -/
theorem hubCall_writes (h : ∀ w, ∃ hub, update w = { w with hub := hub }) :
    Writes [.hub] (.call .external update fun _ => pure () : Cmd Unit) := by
  refine ⟨⟨nofun, fun w => ?_, fun w => ?_⟩, fun _ => trivial⟩
  · obtain ⟨hub, hx⟩ := h w
    rw [hx]
    refine ⟨suffix_rfl, fun t ht => ?_⟩
    cases t <;> first | rfl | cases ht (by decide) | exact fun _ h => h
  · obtain ⟨hub, hx⟩ := h w
    rw [hx]
    rfl

theorem websocketsHub_writes {query header} : Writes [.hub] (websocketsHub env query header) := by
  unfold websocketsHub
  split
  · exact .err
  · split
    · exact .err
    · exact .seq .getUuid <| hubCall_writes fun w => ⟨_, rfl⟩

theorem authorize_writes {data} : Writes [.ssoAuth] (authorize env data) :=
  .check <| .seq .getUuid <| .seq .lift <| .seq .external <| .seq .getUuid SsoAuth.save_writes

theorem oidcsigninRedirect_writes :
    Writes [.ssoAuth] (oidcsigninRedirect env state code error cookie) := by
  unfold oidcsigninRedirect
  split
  · exact .err
  · refine .maybe .query .err ?_
    exact .check <| .seq SsoAuth.save_writes .ensure

theorem OpenRequest.handle_writes {request : OpenRequest} :
    Writes request.parts (request.handle env) := by
  cases request with
  | register => exact register_writes
  | postVerifyEmailToken => exact postVerifyEmailToken_writes
  | postDeleteRecoverToken => exact postDeleteRecoverToken_writes
  | putClearDeviceToken => exact putClearDeviceToken_writes
  | postAuthRequest => exact .seq postAuthRequest_writes .ret
  | sendEmailLogin =>
    exact .check <| .seq .external <| .seq emailLoginUser_writes sendToken_writes
  | websocketsHub => exact websocketsHub_writes
  | closeConnection => exact hubCall_writes fun w => ⟨_, rfl⟩
  | authorize => exact authorize_writes
  | oidcsignin => exact oidcsigninRedirect_writes
  | oidcsigninError => exact oidcsigninRedirect_writes
  | sendAccessLogin => exact sendAccessLogin_writes
  | postAccessLegacy => exact postAccessLegacy_writes
  | postAccessFileLegacy => exact postAccessFileLegacy_writes

def Job.parts : Job → List Part
  | purgeSends => [.sends]
  | purgeAuthRequests => [.authRequests]
  | purgeSsoAuth => [.ssoAuth]
  | emergencyRequestTimeout | emergencyNotificationReminder => [.emergencyAccess]

theorem Job.handle_writes {job : Job} : Writes job.parts (job.handle env) := by
  cases job with
  | purgeSends => exact Send.purge_writes
  | purgeAuthRequests => exact AuthRequest.purgeExpiredAuthRequests_writes
  | purgeSsoAuth => exact SsoAuth.deleteExpired_writes
  | emergencyRequestTimeout => exact Emergency.emergencyRequestTimeoutJob_writes
  | emergencyNotificationReminder => exact Emergency.emergencyNotificationReminderJob_writes

/-! ## All requests -/

/-- The parts a request may write; a guard may write the account it looks up. -/
def Request.parts : Request → List Part
  | vault _ _ => .users :: vaultParts
  | organization _ _ request => .users :: request.parts
  | account _ request => .users :: request.parts
  | twoFactor _ _ => factorParts
  | emergency _ request => .users :: request.parts
  | send _ _ => [.users, .sends]
  | admin request => request.parts
  | directory _ _ => accountParts ++ groupParts
  | login _ _ _ => loginParts
  | anyone request => request.parts
  | job task => task.parts

/-- **No request writes outside its parts**, at any of its calls and whatever they are interleaved
with. -/
theorem Request.serve_writes {request : Request} : Writes request.parts (request.serve env) := by
  have hhead : ∀ S : List Part, ∀ t ∈ [Part.users], t ∈ Part.users :: S := fun _ t ht =>
    mem_singleton.1 ht ▸ mem_cons_self
  cases request with
  | vault =>
    exact .seq (Headers.fromRequest_writes.subset (hhead _)) <|
      .seq VaultRequest.handle_writes.cons .ret
  | organization =>
    exact .seq (OrgRequest.guard_writes.subset (hhead _)) <| .seq OrgRequest.handle_writes.cons .ret
  | account =>
    exact .seq (Headers.fromRequest_writes.subset (hhead _)) <|
      .seq AccountRequest.handle_writes.cons .ret
  | twoFactor =>
    exact .seq (Headers.fromRequest_writes.subset (hhead _)) <|
      .seq TwoFactorRequest.handle_writes .ret
  | emergency =>
    exact .seq (Headers.fromRequest_writes.subset (hhead _)) <|
      .seq EmergencyRequest.handle_writes.cons .ret
  | send =>
    exact .seq (Headers.fromRequest_writes.subset (hhead _)) <|
      .seq SendRequest.handle_writes.cons .ret
  | admin => exact .seq AdminRequest.handle_writes .ret
  | directory =>
    exact .seq PublicToken.fromRequest_writes <| .seq ldapImport_writes .ret
  | login => exact .seq login_writes .ret
  | anyone => exact .seq OpenRequest.handle_writes .ret
  | job => exact .seq Job.handle_writes .ret

end VaultServer
