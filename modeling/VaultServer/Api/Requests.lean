import VaultServer.Api.Admin
import VaultServer.Api.Attachments
import VaultServer.Api.Emergency
import VaultServer.Api.Groups

/-!
# Requests and runs

The requests that write, with their guard: the guard ends the request or hands what it established
to the handler. Left out are folders, events, the keys of an organization, the contexts of Duo, an
invitation that the admin repeats, and the jobs for trashed ciphers and incomplete logins. A run is a
sequence of requests, each executed to its end, whatever that is.
-/

namespace VaultServer

open Lib List

variable {ok : World → Event → Prop} {run : List Event} {w : World}

/-! ## Live connections -/

variable (env : Env) (headers : Headers)

/-- `websockets_hub` of `api/notifications.rs`: the token comes with the query or the header, and
its signature and times are all that is looked at. -/
def websocketsHub (query header : Option AccessToken) : Cmd Unit :=
  match query.or header with
  | none => err "Invalid claim"
  | some token =>
    match decodeLogin env token with
    | none => err "Invalid token"
    | some claims => do
      let entry ← getUuid
      .call .external (fun w => { w with hub := w.hub ++ [⟨claims.sub, entry⟩] }) fun _ => pure ()

/-- The channels `send_update` writes a message for the user to. -/
def sendUpdate (hub : List Connection) (user : UserId) : List Nat :=
  (hub.filter fun c => c.user = user).map fun c => c.entry

/-- The guard object of a connection removes its entry. -/
def closeConnection (entry : Nat) : Cmd Unit :=
  .call .external (fun w => { w with hub := w.hub.filter fun c => c.entry ≠ entry }) fun _ => pure ()

/-! ## Requests by guard -/

/-- The requests on vault items; all run as the account of the token. -/
inductive VaultRequest where
  | postCipherShare (cipher : CipherId) (data : ShareCipherData)
  | putCipherShareSelected (data : ShareSelectedCipherData)
  | postCiphersCreate (data : ShareCipherData)
  | postCiphers (data : CipherData)
  | postCiphersImport (data : ImportData)
  | putCipher (cipher : CipherId) (data : CipherData)
  | putCipherPartial (cipher : CipherId) (folder : Option FolderId) (favorite : Bool)
  | postCollectionsUpdate (cipher : CipherId) (collections : List CollectionId)
  | postCollectionsAdmin (cipher : CipherId) (collections : List CollectionId)
  | deleteCipher (cipher : CipherId) (options : CipherDeleteOptions)
  | deleteMultipleCiphers (ciphers : List CipherId) (options : CipherDeleteOptions)
  | restoreCipher (cipher : CipherId)
  | restoreMultipleCiphers (ciphers : List CipherId)
  | moveCipherSelected (folder : Option FolderId) (ciphers : List CipherId)
  | setArchived (cipher : CipherId) (archived multi : Bool)
  | purgeOrgVault (org : OrganizationId) (data : PasswordOrOtpData)
  | purgePersonalVault (data : PasswordOrOtpData)
  | postBulkCollections (data : BulkCollectionsData)
  | postAttachmentV2 (cipher : CipherId) (data : AttachmentRequestData)
  | postAttachmentV2Data (cipher : CipherId) (attachment : String) (data : UploadData)
  | postAttachment (cipher : CipherId) (data : UploadData)
  | postAttachmentShare (cipher : CipherId) (attachment : String) (data : UploadData)
  | deleteAttachment (cipher : CipherId) (attachment : String)

def VaultRequest.handle (user : User) : VaultRequest → Cmd Unit
  | postCipherShare cipher data => VaultServer.postCipherShare env cipher data user.uuid
  | putCipherShareSelected data => VaultServer.putCipherShareSelected env data user.uuid
  | postCiphersCreate data => VaultServer.postCiphersCreate env data user.uuid
  | postCiphers data => VaultServer.postCiphers env data user.uuid
  | postCiphersImport data => VaultServer.postCiphersImport env data user.uuid
  | putCipher cipher data => VaultServer.putCipher env cipher data user.uuid
  | putCipherPartial cipher folder favorite =>
    VaultServer.putCipherPartial env cipher folder favorite user.uuid
  | postCollectionsUpdate cipher collections =>
    VaultServer.postCollectionsUpdate env cipher collections user.uuid
  | postCollectionsAdmin cipher collections =>
    VaultServer.postCollectionsAdmin env cipher collections user.uuid
  | deleteCipher cipher options => deleteCipherByUuid env user.uuid options cipher
  | deleteMultipleCiphers ciphers options =>
    VaultServer.deleteMultipleCiphers env ciphers user.uuid options
  | restoreCipher cipher => restoreCipherByUuid env user.uuid false cipher
  | restoreMultipleCiphers ciphers => VaultServer.restoreMultipleCiphers env ciphers user.uuid
  | moveCipherSelected folder ciphers =>
    VaultServer.moveCipherSelected env folder ciphers user.uuid
  | setArchived cipher archived multi => VaultServer.setArchived env user.uuid archived multi cipher
  | purgeOrgVault org data => VaultServer.purgeOrgVault env org data user
  | purgePersonalVault data => VaultServer.purgePersonalVault env data user
  | postBulkCollections data => VaultServer.postBulkCollections env data user.uuid
  | postAttachmentV2 cipher data => VaultServer.postAttachmentV2 env cipher data user.uuid
  | postAttachmentV2Data cipher attachment data =>
    VaultServer.postAttachmentV2Data env cipher attachment data user.uuid
  | postAttachment cipher data => VaultServer.postAttachment env cipher data user.uuid
  | postAttachmentShare cipher attachment data =>
    VaultServer.postAttachmentShare env cipher attachment data user.uuid
  | deleteAttachment cipher attachment =>
    deleteCipherAttachmentById env cipher attachment user.uuid

/-- The requests on an organization, whose guards ask for a role in it. -/
inductive OrgRequest where
  | deleteOrganization (data : PasswordOrOtpData)
  | leaveOrganization
  | postOrganization (name billingEmail : String)
  | postOrganizationCollections (data : FullCollectionData)
  | postBulkAccessCollections (data : BulkCollectionAccessData)
  /-- `queryValue` is what the client may add as `collectionId`; the route itself asks for an
  identifier in the path. -/
  | postOrganizationCollectionUpdate (collection : CollectionId) (queryValue : Option CollectionId)
      (data : FullCollectionData)
  | deleteOrganizationCollection (collection : CollectionId) (queryValue : Option CollectionId)
  | bulkDeleteOrganizationCollections (collections : List CollectionId)
  | postOrgImport (data : OrgImportData)
  | sendInvite (data : InviteData)
  | reinviteMember (member : MembershipId)
  | bulkReinviteMembers (members : List MembershipId)
  | confirmInvite (member : MembershipId) (key : String)
  | bulkConfirmInvite (keys : List ConfirmData)
  | editMember (member : MembershipId) (data : EditUserData)
  | deleteMember (member : MembershipId)
  | bulkDeleteMember (members : List MembershipId)
  | revokeMember (member : MembershipId)
  | bulkRevokeMembers (members : List MembershipId)
  | restoreMember (member : MembershipId)
  | bulkRestoreMembers (members : List MembershipId)
  | putResetPasswordEnrollment (user : UserId) (request : EnrollmentRequest)
  | postGroups (request : GroupRequest)
  | putGroup (group : GroupId) (request : GroupRequest)
  | deleteGroup (group : GroupId)
  | bulkDeleteGroups (groups : List GroupId)
  | putGroupMembers (group : GroupId) (members : List MembershipId)
  | postDeleteGroupMember (group : GroupId) (member : MembershipId)
  | putPolicy (policyType : Int) (data : PolicyData)
  | recoverAccount (member : MembershipId) (request : OrganizationUserRecoverAccountRequest)
  | apiKey (data : PasswordOrOtpData) (rotate : Bool)

def OrgRequest.guard (caller : Caller) (org : OrganizationId) : OrgRequest → Cmd OrgHeaders
  | deleteOrganization _ | postOrganization _ _ => OwnerHeaders.fromRequest env caller org
  | leaveOrganization | postOrgImport _ | putResetPasswordEnrollment _ _ =>
    OrgMemberHeaders.fromRequest env caller org
  | postOrganizationCollections _ | postBulkAccessCollections _
  | bulkDeleteOrganizationCollections _ => ManagerHeadersLoose.fromRequest env caller org
  | postOrganizationCollectionUpdate collection queryValue _
  | deleteOrganizationCollection collection queryValue =>
    ManagerHeaders.fromRequest env caller org (some collection) queryValue
  | _ => AdminHeaders.fromRequest env caller org

def OrgRequest.handle (org : OrganizationId) (headers : OrgHeaders) : OrgRequest → Cmd Unit
  | deleteOrganization data => VaultServer.deleteOrganization env org data headers
  | leaveOrganization => VaultServer.leaveOrganization env org headers
  | postOrganization name billingEmail =>
    VaultServer.postOrganization env org name billingEmail headers
  | postOrganizationCollections data =>
    VaultServer.postOrganizationCollections env org data headers
  | postBulkAccessCollections data => VaultServer.postBulkAccessCollections env org data headers
  | postOrganizationCollectionUpdate collection _ data =>
    VaultServer.postOrganizationCollectionUpdate env org collection data headers
  | deleteOrganizationCollection collection _ =>
    deleteOrganizationCollectionImpl env org headers collection
  | bulkDeleteOrganizationCollections collections =>
    VaultServer.bulkDeleteOrganizationCollections env org collections headers
  | postOrgImport data => VaultServer.postOrgImport env org data headers
  | sendInvite data => VaultServer.sendInvite env org data headers
  | reinviteMember member => VaultServer.reinviteMember env org member headers
  | bulkReinviteMembers members => VaultServer.bulkReinviteMembers env org members headers
  | confirmInvite member key => confirmInviteImpl env org headers member key
  | bulkConfirmInvite keys => VaultServer.bulkConfirmInvite env org keys headers
  | editMember member data => VaultServer.editMember env org member data headers
  | deleteMember member => deleteMemberImpl env org headers member
  | bulkDeleteMember members => VaultServer.bulkDeleteMember env org members headers
  | revokeMember member => revokeMemberImpl env org headers member
  | bulkRevokeMembers members => VaultServer.bulkRevokeMembers env org members headers
  | restoreMember member => restoreMemberImpl env org headers member
  | bulkRestoreMembers members => VaultServer.bulkRestoreMembers env org members headers
  | putResetPasswordEnrollment user request =>
    VaultServer.putResetPasswordEnrollment env org user request headers
  | postGroups request => VaultServer.postGroups env org request headers
  | putGroup group request => VaultServer.putGroup env org group request headers
  | deleteGroup group => deleteGroupImpl env org headers group
  | bulkDeleteGroups groups => VaultServer.bulkDeleteGroups env org groups headers
  | putGroupMembers group members => VaultServer.putGroupMembers env org group members headers
  | postDeleteGroupMember group member =>
    VaultServer.postDeleteGroupMember env org group member headers
  | putPolicy policyType data => VaultServer.putPolicy env org policyType data headers
  | recoverAccount member request => VaultServer.recoverAccount env org member request headers
  | apiKey data rotate => VaultServer.apiKey env org data rotate headers

/-- The requests of an account about itself, and those that bring it into an organization. -/
inductive AccountRequest where
  | postSetPassword (data : SetPasswordData)
  | postProfile (name : String)
  | putAvatar (avatarColor : Option String)
  | postKeys (data : KeysData)
  | postSettingsDomains (data : EquivDomainData)
  | postPassword (data : ChangePassData)
  | postKdf (data : ChangeKdfData)
  | verifyPassword (masterPasswordHash : String)
  | postRotatekey (data : KeyData)
  | postSstamp (data : PasswordOrOtpData)
  | postEmailToken (data : EmailTokenData)
  | postEmail (data : ChangeEmailData)
  | deleteAccount (data : PasswordOrOtpData)
  | updateApiKey (data : PasswordOrOtpData) (rotate : Bool)
  | putDeviceToken (device : DeviceId) (pushToken : String)
  | putAuthRequest (id : Nat) (data : AuthResponseRequest)
  | createOrganization (data : OrgData)
  | acceptInvite (org : OrganizationId) (member : Option MembershipId)
      (token : Signed InviteJwtClaims) (resetPasswordKey : Option String)

def AccountRequest.handle : AccountRequest → Cmd Unit
  | postSetPassword data => VaultServer.postSetPassword env data headers
  | postProfile name => VaultServer.postProfile env name headers
  | putAvatar avatarColor => VaultServer.putAvatar env avatarColor headers
  | postKeys data => VaultServer.postKeys env data headers
  | postSettingsDomains data => VaultServer.postSettingsDomains env data headers
  | postPassword data => VaultServer.postPassword env data headers
  | postKdf data => VaultServer.postKdf env data headers
  | verifyPassword hash => VaultServer.verifyPassword env hash headers
  | postRotatekey data => VaultServer.postRotatekey env data headers
  | postSstamp data => VaultServer.postSstamp env data headers
  | postEmailToken data => VaultServer.postEmailToken env data headers
  | postEmail data => VaultServer.postEmail env data headers
  | deleteAccount data => VaultServer.deleteAccount env data headers
  | updateApiKey data rotate => VaultServer.updateApiKey env data rotate headers
  | putDeviceToken device pushToken => VaultServer.putDeviceToken env device pushToken headers
  | putAuthRequest id data => VaultServer.putAuthRequest id data headers
  | createOrganization data => VaultServer.createOrganization env data headers.user
  | acceptInvite org member token key =>
    VaultServer.acceptInvite env org member token key headers.user

/-- The requests of an account about its second factors. -/
inductive TwoFactorRequest where
  | disableTwofactor (data : PasswordOrOtpData) (type : Int)
  | sendEmail (email : String) (data : PasswordOrOtpData)
  | verifyEmail (token : String) (data : PasswordOrOtpData)
  | activateAuthenticator (data : EnableAuthenticatorData) (ip : String)
  | disableAuthenticator (data : DisableAuthenticatorData)
  | activateYubikey (data : EnableYubikeyData)
  | activateDuo (data : EnableDuoData)
  | generateWebauthnChallenge (data : PasswordOrOtpData)
  | activateWebauthn (data : EnableWebauthnData)
  | deleteWebauthn (id : Int) (masterPasswordHash : String)
  | showSettings (page : SettingsPage) (data : PasswordOrOtpData)
  | requestOtp
  | verifyOtp (otp : String)

def TwoFactorRequest.handle : TwoFactorRequest → Cmd Unit
  | disableTwofactor data type => VaultServer.disableTwofactor env data type headers
  | sendEmail email data => VaultServer.sendEmail env email data headers
  | verifyEmail token data => VaultServer.verifyEmail env token data headers
  | activateAuthenticator data ip => VaultServer.activateAuthenticator env data ip headers
  | disableAuthenticator data => VaultServer.disableAuthenticator env data headers
  | activateYubikey data => VaultServer.activateYubikey env data headers
  | activateDuo data => VaultServer.activateDuo env data headers
  | generateWebauthnChallenge data => VaultServer.generateWebauthnChallenge env data headers
  | activateWebauthn data => VaultServer.activateWebauthn env data headers
  | deleteWebauthn id hash => VaultServer.deleteWebauthn env id hash headers
  | showSettings page data => page.show env data headers
  | requestOtp => VaultServer.requestOtp env headers
  | verifyOtp otp => VaultServer.verifyOtp env otp headers

inductive EmergencyRequest where
  | sendInvite (data : Emergency.EmergencyAccessInviteData)
  | resendInvite (id : Nat)
  | acceptInvite (id : Nat) (token : Signed EmergencyAccessInviteJwtClaims)
  | confirmEmergencyAccess (id : Nat) (key : String)
  | initiateEmergencyAccess (id : Nat)
  | approveEmergencyAccess (id : Nat)
  | rejectEmergencyAccess (id : Nat)
  | postEmergencyAccess (id : Nat) (data : Emergency.EmergencyAccessUpdateData)
  | deleteEmergencyAccess (id : Nat)
  | viewEmergencyAccess (id : Nat)
  | takeoverEmergencyAccess (id : Nat)
  | passwordEmergencyAccess (id : Nat) (data : Emergency.EmergencyAccessPasswordData)

def EmergencyRequest.handle : EmergencyRequest → Cmd Unit
  | sendInvite data => Emergency.sendInvite env data headers
  | resendInvite id => Emergency.resendInvite env id headers
  | acceptInvite id token => Emergency.acceptInvite env id token headers
  | confirmEmergencyAccess id key => Emergency.confirmEmergencyAccess env id key headers
  | initiateEmergencyAccess id => Emergency.initiateEmergencyAccess env id headers
  | approveEmergencyAccess id => Emergency.approveEmergencyAccess env id headers
  | rejectEmergencyAccess id => Emergency.rejectEmergencyAccess env id headers
  | postEmergencyAccess id data => Emergency.postEmergencyAccess env id data headers
  | deleteEmergencyAccess id => Emergency.deleteEmergencyAccess env id headers
  | viewEmergencyAccess id => do
    let _ ← Emergency.viewEmergencyAccess env id headers
  | takeoverEmergencyAccess id => do
    let _ ← Emergency.takeoverEmergencyAccess env id headers
  | passwordEmergencyAccess id data => Emergency.passwordEmergencyAccess env id data headers

/-- The admin page has its own login. -/
inductive AdminRequest where
  | inviteUser (email : String)
  | deleteUser (user : UserId)
  | deleteSsoUser (user : UserId)
  | deauthUser (user : UserId)
  | disableUser (user : UserId)
  | enableUser (user : UserId)
  | remove2fa (user : UserId)
  | updateMembershipType (data : Admin.MembershipTypeData)
  | updateRevisionUsers
  | deleteOrganization (org : OrganizationId)

def AdminRequest.handle : AdminRequest → Cmd Unit
  | inviteUser email => Admin.inviteUser env email
  | deleteUser user => Admin.deleteUser env user
  | deleteSsoUser user => Admin.deleteSsoUser user
  | deauthUser user => Admin.deauthUser env user
  | disableUser user => Admin.disableUser env user
  | enableUser user => Admin.enableUser env user
  | remove2fa user => Admin.remove2fa env user
  | updateMembershipType data => Admin.updateMembershipType env data
  | updateRevisionUsers => Admin.updateRevisionUsers env
  | deleteOrganization org => Admin.deleteOrganization env org

/-- The requests anyone may make. -/
inductive OpenRequest where
  | register (data : RegisterData) (emailVerification : Bool)
  | postVerifyEmailToken (user : UserId) (token : Signed BasicJwtClaims)
  | postDeleteRecoverToken (user : UserId) (token : Signed BasicJwtClaims)
  | putClearDeviceToken (device : DeviceId)
  | postAuthRequest (data : AuthRequestRequest) (deviceType : Int) (ip : String)
  | sendEmailLogin (data : SendEmailLoginData) (deviceType : Int) (ip : String)
  | websocketsHub (query header : Option AccessToken)
  | closeConnection (entry : Nat)
  | authorize (data : AuthorizeData)
  | oidcsignin (code state : String) (cookie : Option String)
  | oidcsigninError (state error : String) (errorDescription cookie : Option String)
  | sendAccessLogin (clientId sendId passwordHash : Option String) (ip : String)
  | postAccessLegacy (accessId : String) (password : Option String)
  | postAccessFileLegacy (id : SendId) (password : Option String)

def OpenRequest.handle : OpenRequest → Cmd Unit
  | register data emailVerification => VaultServer.register env data emailVerification
  | postVerifyEmailToken user token => VaultServer.postVerifyEmailToken env user token
  | postDeleteRecoverToken user token => VaultServer.postDeleteRecoverToken env user token
  | putClearDeviceToken device => VaultServer.putClearDeviceToken env device
  | postAuthRequest data deviceType ip => do
    let _ ← VaultServer.postAuthRequest env data deviceType ip
  | sendEmailLogin data deviceType ip => VaultServer.sendEmailLogin env data deviceType ip
  | websocketsHub query header => VaultServer.websocketsHub env query header
  | closeConnection entry => VaultServer.closeConnection entry
  | authorize data => VaultServer.authorize env data
  | oidcsignin code state cookie => VaultServer.oidcsignin env code state cookie
  | oidcsigninError state error description cookie =>
    VaultServer.oidcsigninError env state error description cookie
  | sendAccessLogin clientId sendId passwordHash ip =>
    VaultServer.sendAccessLogin env clientId sendId passwordHash ip
  | postAccessLegacy accessId password => VaultServer.postAccessLegacy env accessId password
  | postAccessFileLegacy id password => VaultServer.postAccessFileLegacy env id password

/-- What the server does by itself from time to time. -/
inductive Job where
  | purgeSends
  | purgeAuthRequests
  | purgeSsoAuth
  | emergencyRequestTimeout
  | emergencyNotificationReminder

def Job.handle : Job → Cmd Unit
  | purgeSends => Send.purge env
  | purgeAuthRequests => AuthRequest.purgeExpiredAuthRequests env
  | purgeSsoAuth => SsoAuth.deleteExpired env
  | emergencyRequestTimeout => Emergency.emergencyRequestTimeoutJob env
  | emergencyNotificationReminder => Emergency.emergencyNotificationReminderJob env

/-! ## Requests and runs -/

inductive Request where
  | vault (caller : Caller) (request : VaultRequest)
  /-- The guard and the handler read the organization from the same part of the request. -/
  | organization (caller : Caller) (org : OrganizationId) (request : OrgRequest)
  | account (caller : Caller) (request : AccountRequest)
  | twoFactor (caller : Caller) (request : TwoFactorRequest)
  | emergency (caller : Caller) (request : EmergencyRequest)
  | send (caller : Caller) (request : SendRequest)
  | admin (request : AdminRequest)
  | directory (token : Signed OrgApiKeyLoginJwtClaims) (data : DirectoryData)
  | login (grantType : GrantType) (data : ConnectData) (ip : String)
  | anyone (request : OpenRequest)
  | job (job : Job)

/-- The whole request; only a login answers with tokens. -/
def Request.serve : Request → Cmd (Option TokenResponse)
  | vault caller request => do
    let headers ← Headers.fromRequest env caller
    request.handle env headers.user
    pure none
  | organization caller org request => do
    let headers ← request.guard env caller org
    request.handle env org headers
    pure none
  | account caller request => do
    let headers ← Headers.fromRequest env caller
    request.handle env headers
    pure none
  | twoFactor caller request => do
    let headers ← Headers.fromRequest env caller
    request.handle env headers
    pure none
  | emergency caller request => do
    let headers ← Headers.fromRequest env caller
    request.handle env headers
    pure none
  | send caller request => do
    let headers ← Headers.fromRequest env caller
    request.handle env headers
    pure none
  | admin request => do
    request.handle env
    pure none
  | directory token data => do
    let org ← PublicToken.fromRequest env token
    ldapImport env org data
    pure none
  | login grantType data ip => do
    let answer ← VaultServer.login env grantType data ip
    pure (some answer)
  | anyone request => do
    request.handle env
    pure none
  | job j => do
    j.handle env
    pure none

/-- One request of a run, with the settings and the clock it meets. -/
structure Event where
  env : Env
  request : Request

def Event.prog (e : Event) : Cmd (Option TokenResponse) := e.request.serve e.env

namespace Client

/-- A registration as the web client sends it. -/
def signUp (mail : String) : Request := .anyone (.register
  { email := mail
    compat := .registerDataOld ⟨0, 600000, none, none⟩ "key" "hash"
    keys := none
    masterPasswordHint := none
    name := none
    organizationUserId := none
    emailVerificationToken := none
    acceptEmergencyAccessId := none
    acceptEmergencyAccessInviteToken := none
    orgInviteToken := none } false)

def signIn (mail : String) (device : DeviceId) : Request := .login .password
  { clientId := some (.client "web")
    password := some "hash"
    scope := some "api offline_access"
    username := some mail
    deviceIdentifier := some device
    deviceName := some "browser"
    deviceType := some "9" } "ip"

/-- A token of the first two hours, with the stamp of the account. -/
def caller (user : UserId) (stamp : Secret) (device : DeviceId) : Caller :=
  ⟨⟨⟨0, 7200, user, stamp, device⟩, true⟩, none⟩

/-- An account signs up and signs in on a device. -/
def signedIn : List Event := [⟨{}, signUp "a@example.com"⟩, ⟨{}, signIn "a@example.com" ⟨7⟩⟩]

def session : Caller := caller ⟨0⟩ 3 ⟨7⟩

end Client

/-- The world after the requests, each run to its end. -/
def World.after (w : World) (run : List Event) : World := run.foldl (fun w e => e.prog.after w) w

@[simp] theorem World.after_nil (w : World) : w.after [] = w := rfl

@[simp] theorem World.after_cons (w : World) (e : Event) (run : List Event) :
    w.after (e :: run) = (e.prog.after w).after run := rfl

theorem World.after_append (w : World) (run run' : List Event) :
    w.after (run ++ run') = (w.after run).after run' :=
  foldl_append

/-- Every request of the run meets the condition in the state it finds. -/
def World.Each (ok : World → Event → Prop) : World → List Event → Prop
  | _, [] => True
  | w, e :: run => ok w e ∧ World.Each ok (e.prog.after w) run

theorem World.each_of_forall {ok : Event → Prop} (h : ∀ e ∈ run, ok e)
    (w : World) : w.Each (fun _ e => ok e) run := by
  induction run generalizing w with
  | nil => trivial
  | cons e run ih =>
    exact ⟨h e mem_cons_self, ih (fun x hx => h x (mem_cons_of_mem _ hx)) _⟩

/-- Some request of the run meets the condition in the state it finds. -/
def World.Happens (occurs : World → Event → Prop) : World → List Event → Prop
  | _, [] => False
  | w, e :: run => occurs w e ∨ World.Happens occurs (e.prog.after w) run

theorem World.happens_append_singleton :
    w.Happens occurs (run ++ [e]) ↔ w.Happens occurs run ∨ occurs (w.after run) e := by
  induction run generalizing w with
  | nil => simp [World.Happens]
  | cons f run ih => simp only [cons_append, World.Happens, ih, World.after_cons, or_assoc]

theorem World.Happens.append (h : w.Happens occurs run) : w.Happens occurs (run ++ run') := by
  induction run generalizing w with
  | nil => exact h.elim
  | cons e run ih => exact h.imp_right ih

theorem World.each_append_singleton :
    w.Each ok (run ++ [e]) ↔ w.Each ok run ∧ ok (w.after run) e := by
  induction run generalizing w with
  | nil => simp [World.Each]
  | cons f run ih => simp only [cons_append, World.Each, ih, World.after_cons, and_assoc]

/-- An invariant of every admitted request is an invariant of the run. -/
theorem World.after_induction {P : World → Prop} (step : ∀ w e, P w → ok w e → P (e.prog.after w))
    (hok : w.Each ok run) (hw : P w) : P (w.after run) := by
  induction run generalizing w with
  | nil => exact hw
  | cons e run ih => exact ih hok.2 (step w e hw hok.1)

/-- The same where the invariant speaks of the requests so far. -/
theorem World.after_history {P : List Event → World → Prop}
    (step : ∀ before e, P before (w.after before) → ok (w.after before) e →
      P (before ++ [e]) (e.prog.after (w.after before))) (hok : w.Each ok run)
    (hw : P [] w) : P run (w.after run) := by
  have hfrom : ∀ todo before, (w.after before).Each ok todo → P before (w.after before) →
      P (before ++ todo) (w.after (before ++ todo)) := by
    intro todo
    induction todo with
    | nil =>
      intro before _ h
      rw [append_nil]
      exact h
    | cons e todo ih =>
      intro before hok h
      have hnext := step before e h hok.1
      rw [← singleton_append, ← append_assoc]
      refine ih (before ++ [e]) ?_ ?_
      · rw [World.after_append]; exact hok.2
      · rw [World.after_append]; exact hnext
  exact hfrom run [] hok hw

end VaultServer
