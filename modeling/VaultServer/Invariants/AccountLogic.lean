import VaultServer.Effects.Invariant
import VaultServer.Invariants.Logins

/-!
# Rules for copies of account rows

A handler that changes an account reads its row, changes a copy and saves all of it. What can be
said of the rows that are saved is said in several ways: as an invariant of the table, or as a
condition on the handler's own accesses when it takes turns with others. The walk through the
handlers is the same, so that it is made once, over any rules that know which copies a program may
save. It covers the requests that leave the identity, the stamp and the lock of an account alone.
-/

namespace VaultServer

open Lib

/-- The columns that a request leaves alone unless it is made to set a password. -/
def User.identity (u : User) : UserId × String × String × Secret × Nat :=
  (u.uuid, u.email, u.passwordHash, u.salt, u.passwordIterations)

theorem User.mem_of_findByUuid {db id u} (h : User.findByUuid db id = some u) : u ∈ db.users.rows :=
  (Table.mem_of_find? h).1

/-- The requests of an account that are made to set its password, or raise its iterations. -/
def AccountRequest.setsPassword : AccountRequest → Bool
  | postSetPassword _ | postPassword _ | postKdf _ | verifyPassword _ | postRotatekey _
  | postEmail _ => true
  | _ => false

/-- The requests that are made to set a password, or raise its iterations. -/
def Request.setsPassword : Request → Bool
  | account _ request => request.setsPassword
  | organization _ _ (.recoverAccount _ _) => true
  | emergency _ (.passwordEmergencyAccess _ _) => true
  | anyone (.register _ _) => true
  | login .password _ _ => true
  | _ => false

/-- The request is not made to set a password, a stamp or the lock of an account, and it removes no
account. -/
def Request.keepsCredentials : Request → Bool
  | account _ request => match request with
    | .postSetPassword _ | .postPassword _ | .postKdf _ | .postRotatekey _ | .postSstamp _
    | .postEmail _ | .deleteAccount _ => false
    | _ => true
  | organization _ _ request => match request with
    | .sendInvite _ | .recoverAccount _ _ => false
    | _ => true
  | emergency _ request => match request with
    | .passwordEmergencyAccess _ _ => false
    | _ => true
  | admin request => match request with
    | .deleteUser _ | .deauthUser _ | .disableUser _ | .enableUser _ => false
    | _ => true
  | anyone request => match request with
    | .register _ _ | .postDeleteRecoverToken _ _ => false
    | _ => true
  | directory _ _ => false
  | vault _ _ | twoFactor _ _ | send _ _ | login _ _ _ | job _ => true

/-- The request leaves the identity, the stamp and the lock of an account alone. -/
def AccountRequest.isMild : AccountRequest → Bool
  | postSetPassword _ | postPassword _ | postKdf _ | verifyPassword _ | postRotatekey _
  | postEmail _ | postSstamp _ | deleteAccount _ => false
  | _ => true

def Request.isMild : Request → Bool
  | account _ request => request.isMild
  | request => request.keepsCredentials && !request.setsPassword

/-! ## The rules -/

/-- What is known of a program may grow while it runs; `Mine` are the rows that it may save. -/
structure CopyLogic where
  Knowledge : Type
  Holds : ∀ {α : Type}, Knowledge → Cmd α → (Knowledge → α → Prop) → Prop
  Mine : Knowledge → User → Prop
  ret : ∀ {α : Type} {k : Knowledge} {a : α} {Q : Knowledge → α → Prop}, Q k a → Holds k (pure a) Q
  fail : ∀ {α : Type} {k : Knowledge} {e : Failure} {Q : Knowledge → α → Prop}, Holds k (.fail e) Q
  mono : ∀ {α : Type} {k : Knowledge} {c : Cmd α} {Q Q' : Knowledge → α → Prop}, Holds k c Q →
    (∀ k' a, Q k' a → Q' k' a) → Holds k c Q'
  bind : ∀ {α β : Type} {k : Knowledge} {c : Cmd α} {f : α → Cmd β} {Q : Knowledge → α → Prop}
    {R : Knowledge → β → Prop}, Holds k c Q → (∀ k' a, Q k' a → Holds k' (f a) R) →
    Holds k (c >>= f) R
  quiet : ∀ {α : Type} {k : Knowledge} {c : Cmd α} {S : List Part}, Writes S c →
    S.contains .users = false → Holds k c fun k' _ => ∀ u, Mine k u → Mine k' u
  save : ∀ {k : Knowledge} {env : Env} {u : User}, Mine k u → Holds k (u.save env) Mine
  attempt : ∀ {k : Knowledge} {env : Env} {u : User}, Mine k u →
    Holds k (u.save env).attempt fun k' _ => ∀ v, Mine k v → Mine k' v
  copy : ∀ {k : Knowledge} {u u' : User}, Mine k u → u'.identity = u.identity →
    u'.securityStamp = u.securityStamp → u'.enabled = u.enabled → Mine k u'

/-- Rules under which every account that is read may be saved. -/
structure AccountLogic extends CopyLogic where
  loads : ∀ {α β : Type} {k : Knowledge} {f : Db → α} {g : α → Cmd β} {R : Knowledge → β → Prop},
    (∀ k' db, (∀ u ∈ db.users.rows, Mine k' u) → Holds k' (g (f db)) R) →
    Holds k (loadUser f >>= g) R

/-- A new account may be saved. -/
def CopyLogic.AdmitsNew (L : CopyLogic) : Prop :=
  ∀ {k : L.Knowledge} {env : Env} {email : String} {name : Option String},
    L.Holds k (User.fresh env email name) L.Mine

namespace CopyLogic

variable {L : CopyLogic} {k : L.Knowledge} {α β : Type} {c : Cmd α} {Q : L.Knowledge → α → Prop}
  {R : L.Knowledge → β → Prop} {S : List Part} {env : Env} {u : User}

namespace Holds

theorem err : L.Holds k (VaultServer.err message : Cmd α) Q := L.fail

theorem ite {b : Prop} [Decidable b] (hc : L.Holds k c Q) (hd : L.Holds k d Q) :
    L.Holds k (if b then c else d) Q := by
  split
  · exact hc
  · exact hd

theorem ensure (hf : b = true → L.Holds k (f ()) R) :
    L.Holds k (VaultServer.ensure b message >>= f) R := by
  cases b with
  | false => exact L.fail
  | true => exact hf rfl

theorem check (hf : L.Holds k (f ()) R) :
    L.Holds k (VaultServer.ensure b message >>= f) R := ensure fun _ => hf

/-- A part of a program that leaves the accounts alone is passed over. -/
theorem pass (h : Writes S c) (hs : S.contains .users = false)
    (hf : ∀ k' a, (∀ u, L.Mine k u → L.Mine k' u) → L.Holds k' (f a) R) : L.Holds k (c >>= f) R :=
  L.bind (L.quiet h hs) hf

/-- The same for the steps that write nothing. -/
theorem still (h : Writes [] c)
    (hf : ∀ k' a, (∀ u, L.Mine k u → L.Mine k' u) → L.Holds k' (f a) R) : L.Holds k (c >>= f) R :=
  pass h rfl hf

theorem of_writes (h : Writes S c) (hs : S.contains .users = false) : L.Holds k c ⊤ :=
  L.mono (L.quiet h hs) fun _ _ _ => trivial

end Holds

/-- The copy is saved last, and the outcome handed on. -/
theorem saveLast (h : L.Mine k u) : L.Holds k (do let _ ← u.save env) ⊤ :=
  L.bind (L.save h) fun _ _ _ => L.ret trivial

theorem attemptLast (h : L.Mine k u) : L.Holds k (do let _ ← (u.save env).attempt) ⊤ :=
  L.bind (L.attempt h) fun _ _ _ => L.ret trivial

/-! ## Second factors -/

/-- The last step of every activation of a second factor. -/
theorem generateRecoverCode (h : L.Mine k u) :
    L.Holds k (VaultServer.generateRecoverCode env u) ⊤ := by
  refine .ite (.still .getUuid fun k' code hk => ?_) (L.ret trivial)
  have hcopy : L.Mine k' { u with totpRecover := some (toString code) } := L.copy (hk u h) rfl rfl rfl
  exact attemptLast hcopy

theorem twoFactorRequest {request : TwoFactorRequest} {headers : Headers}
    (h : L.Mine k headers.user) : L.Holds k (request.handle env headers) ⊤ := by
  cases request with
  | verifyEmail =>
    refine .pass PasswordOrOtpData.validate_writes rfl fun _ _ h0 => ?_
    refine .still .query fun _ found h1 => ?_
    split
    · exact .err
    · refine .still .lift fun _ _ h2 => .check <| .check ?_
      refine .pass TwoFactor.save_writes rfl fun _ _ h3 => ?_
      exact generateRecoverCode (h3 _ (h2 _ (h1 _ (h0 _ h))))
  | activateAuthenticator =>
    refine .pass PasswordOrOtpData.validate_writes rfl fun _ _ h0 => ?_
    split
    · exact .err
    · refine .check <| .pass validateTotpCode_writes rfl fun _ _ h1 => ?_
      exact generateRecoverCode (h1 _ (h0 _ h))
  | activateYubikey =>
    refine .pass PasswordOrOtpData.validate_writes rfl fun _ _ h0 => ?_
    refine .still yubikeyRow_writes fun _ _ h1 => .ensure fun _ => ?_
    refine .still (.each fun _ => .when verifyYubikeyOtp_writes) fun _ _ h2 => ?_
    refine .pass TwoFactor.save_writes rfl fun _ _ h3 => ?_
    exact generateRecoverCode (h3 _ (h2 _ (h1 _ (h0 _ h))))
  | activateDuo data =>
    show L.Holds k (VaultServer.activateDuo env data headers) _
    unfold VaultServer.activateDuo
    refine .pass PasswordOrOtpData.validate_writes rfl fun k0 _ h0 => ?_
    have hrest : ∀ k' stored, L.Mine k' headers.user → L.Holds k' (do
        let uuid ← getUuid
        TwoFactor.save (.new uuid headers.user.uuid .duo stored)
        VaultServer.generateRecoverCode env headers.user) ⊤ := fun _ _ h' =>
      .still .getUuid fun _ _ h2 => .pass TwoFactor.save_writes rfl fun _ _ h3 =>
        generateRecoverCode (h3 _ (h2 _ h'))
    cases checkDuoFieldsCustom data.duo with
    | true => exact .still (.bind .external fun _ => .ret) fun _ _ h1 => hrest _ _ (h1 _ (h0 _ h))
    | false => exact hrest _ _ (h0 _ h)
  | activateWebauthn =>
    refine .pass PasswordOrOtpData.validate_writes rfl fun _ _ h0 => ?_
    refine .pass takeChallenge_writes rfl fun _ _ h1 => ?_
    split
    · exact .err
    · refine .still getWebauthnRegistrations_writes fun _ _ h2 => ?_
      refine .pass saveRegistrations_writes rfl fun _ _ h3 => ?_
      exact generateRecoverCode (h3 _ (h2 _ (h1 _ (h0 _ h))))
  | disableTwofactor => exact .of_writes disableTwofactor_writes rfl
  | sendEmail => exact .of_writes sendEmail_writes rfl
  | disableAuthenticator => exact .of_writes disableAuthenticator_writes rfl
  | generateWebauthnChallenge => exact .of_writes generateWebauthnChallenge_writes rfl
  | deleteWebauthn => exact .of_writes deleteWebauthn_writes rfl
  | showSettings => exact .of_writes SettingsPage.show_writes rfl
  | requestOtp => exact .of_writes requestOtp_writes rfl
  | verifyOtp => exact .of_writes verifyOtp_writes rfl

/-- The copy that a second factor hands back is the one it was given, or the one it saved for a
recovery code. -/
theorem twofactorAuth {data d ip} (h : L.Mine k u) :
    L.Holds k (VaultServer.twofactorAuth env u data d ip) fun k' r => L.Mine k' r.1 := by
  have hrefuse : ∀ k' ids message, L.Holds k'
      (refuseTwofactor env ids u data message : Cmd (User × Device × Option String))
      fun k' r => L.Mine k' r.1 := fun _ _ _ =>
    .pass (.each fun _ => describeProvider_writes) rfl fun _ _ _ => .err
  have hcheck : ∀ {k' ids selected row token}, L.Mine k' u →
      L.Holds k' (checkSecondFactor env u data d ip ids selected row token) L.Mine := by
    intro k' ids selected row token h
    unfold checkSecondFactor
    split
    · exact .pass checkRemember_writes rfl fun _ _ hs => L.ret (hs _ h)
    · refine .check <| .pass TwoFactor.deleteAllByUser_writes rfl fun _ _ h1 => ?_
      refine .pass enforce2faPolicy_writes rfl fun k2 _ h2 => ?_
      have hcopy : L.Mine k2 { u with totpRecover := none } := L.copy (h2 _ (h1 _ h)) rfl rfl rfl
      exact L.save hcopy
    · exact .pass validateProvider_writes rfl fun _ _ hs => L.ret (hs _ h)
    · exact .err
  refine .still .query fun _ factors h0 => ?_
  split
  · exact .pass enforce2faPolicy_writes rfl fun _ _ hs => L.ret (hs _ (h0 _ h))
  · refine .pass TwoFactorIncomplete.markIncomplete_writes rfl fun _ _ h1 => ?_
    generalize usableProviders env.toConfig factors = ids
    cases ids with
    | nil => exact .err
    | cons =>
      dsimp only
      split
      · exact hrefuse _ _ _
      · split
        · exact hrefuse _ _ _
        · refine L.bind (hcheck (h1 _ (h0 _ h))) fun _ u' hu' => ?_
          refine .pass TwoFactorIncomplete.markComplete_writes rfl fun _ _ h3 => ?_
          exact .ite (L.ret (h3 _ hu')) (L.ret (h3 _ hu'))

theorem remindToVerify (h : L.Mine k u) :
    L.Holds k (VaultServer.remindToVerify env u) fun k' _ => ∀ v, L.Mine k v → L.Mine k' v := by
  refine L.bind (Q := ⊤) (.ite ?_ (L.ret trivial)) fun _ _ _ => .err
  have hcopy : L.Mine k { u with
      lastVerifyingAt := some env.now
      loginVerifyCount := u.loginVerifyCount + 1 } := L.copy h rfl rfl rfl
  refine L.bind (L.attempt hcopy) fun _ _ _ => ?_
  exact .of_writes (S := []) (.bind (.attempt .external) fun _ => .ret) rfl

/-! ## New accounts -/

section
variable (hnew : L.AdmitsNew)
include hnew

theorem createUser : L.Holds k (VaultServer.createUser env email) L.Mine :=
  L.bind hnew fun _ _ hu => L.save hu

theorem emergencyInvite {data headers} : L.Holds k (Emergency.sendInvite env data headers) ⊤ := by
  refine .check ?_
  split
  · exact .err
  · refine .check <| L.bind (Q := ⊤) (.still .query fun _ found _ => ?_) fun _ _ _ => ?_
    · split
      · exact L.ret trivial
      · exact .check <| .check <| .pass (.when Invitation.save_writes) rfl
          fun _ _ _ => L.bind (createUser hnew) fun _ _ _ => L.ret trivial
    · refine .still .query fun _ _ _ => .check <| .still .getUuid fun _ _ _ => ?_
      refine .pass EmergencyAccess.save_writes rfl fun _ _ _ => ?_
      exact .of_writes (S := [.emergencyAccess])
        (.ite .external (.ite EmergencyAccess.acceptInvite_writes .ret)) rfl

theorem inviteUser : L.Holds k (Admin.inviteUser env email) ⊤ := by
  refine .still .query fun _ _ _ => .check <| L.bind hnew fun _ u hu => ?_
  exact .pass (S := [.invitations]) (.ite .external Invitation.save_writes) rfl fun _ _ h =>
    saveLast (h u hu)

end

end CopyLogic

namespace AccountLogic

open CopyLogic

variable {L : AccountLogic} {k : L.Knowledge} {β : Type} {R : L.Knowledge → β → Prop} {env : Env}
  {u : User} {caller : Caller}

/-- An account that is found may be saved. -/
theorem found (hf : ∀ db u, f db = some u → u ∈ db.users.rows)
    (h : ∀ k' r, (∀ u, r = some u → L.Mine k' u) → L.Holds k' (g r) R) :
    L.Holds k (VaultServer.loadUser f >>= g) R :=
  L.loads fun k' db hdb => h k' (f db) fun u hu => hdb u (hf db u hu)

/-! ## Guards -/

theorem checkStampException (h : L.Mine k u) :
    L.Holds k (VaultServer.checkStampException env u route sstamp)
      fun k' _ => ∀ v, L.Mine k v → L.Mine k' v := by
  unfold VaultServer.checkStampException
  split
  · exact .err
  · exact .err
  · refine .ite ?_ (.check <| L.quiet (S := []) .ensure rfl)
    have hcopy : L.Mine k u.resetStampException := L.copy h rfl rfl rfl
    exact L.bind (L.attempt hcopy) fun _ _ _ => .err

theorem headers : L.Holds k (Headers.fromRequest env caller) fun k' h => L.Mine k' h.user := by
  unfold Headers.fromRequest
  split
  · exact .err
  · refine .still .query fun _ found _ => ?_
    split
    · exact .err
    · refine L.found (fun _ _ => User.mem_of_findByUuid) fun k1 r hr => ?_
      split
      · exact .err
      · next u =>
        have hu := hr u rfl
        refine L.bind (Q := fun k' _ => ∀ v, L.Mine k1 v → L.Mine k' v)
          (.ite (checkStampException hu) (L.ret fun _ h => h)) fun _ _ h2 => L.ret (h2 _ hu)

theorem orgHeaders : L.Holds k (OrgHeaders.fromRequest env caller org) ⊤ := by
  refine L.bind headers fun _ _ _ => .still .query fun _ found _ => ?_
  split
  · exact .err
  · split
    · exact .err
    · exact L.ret trivial

theorem orgGuard {request : OrgRequest} : L.Holds k (request.guard env caller org) ⊤ := by
  have hrequiring : ∀ ok message,
      L.Holds k (OrgHeaders.requiring env caller org ok message) ⊤ := fun _ _ =>
    L.bind orgHeaders fun _ _ _ => .check <| L.ret trivial
  have hmanager : ∀ c v,
      L.Holds k (ManagerHeaders.fromRequest env caller org (some c) v) ⊤ := fun _ _ =>
    L.bind (hrequiring _ _) fun _ _ _ => .still .query fun _ _ _ => .check <| L.ret trivial
  cases request with
  | postOrganizationCollectionUpdate c v => exact hmanager c v
  | deleteOrganizationCollection c v => exact hmanager c v
  | _ => exact hrequiring _ _

theorem getUserOr404 {id} : L.Holds k (Admin.getUserOr404 id) L.Mine := by
  refine L.found (fun _ _ => User.mem_of_findByUuid) fun _ r hr => ?_
  split
  · next u => exact L.ret (hr u rfl)
  · exact .err

theorem remove2fa {id} : L.Holds k (Admin.remove2fa env id) ⊤ := by
  refine L.bind getUserOr404 fun _ u hu => ?_
  refine .pass TwoFactor.deleteAllByUser_writes rfl fun _ _ h1 => ?_
  refine .pass enforce2faPolicy_writes rfl fun k2 _ h2 => ?_
  have hcopy : L.Mine k2 { u with totpRecover := none } := L.copy (h2 _ (h1 _ hu)) rfl rfl rfl
  exact saveLast hcopy

theorem postVerifyEmailToken {id token} :
    L.Holds k (VaultServer.postVerifyEmailToken env id token) ⊤ := by
  refine L.found (fun _ _ => User.mem_of_findByUuid) fun _ r hr => ?_
  split
  · exact .err
  · next u =>
    refine .still (.catchErr decodeJwt_writes) fun k1 r h1 => ?_
    split
    · exact .err
    · have hcopy : L.Mine k1 { u with
          verifiedAt := some env.now
          lastVerifyingAt := none
          loginVerifyCount := 0 } := L.copy (h1 u (hr u rfl)) rfl rfl rfl
      exact .check <| attemptLast hcopy

/-! ## Requests of the account -/

section
variable {headers : Headers} (h : L.Mine k headers.user)
include h

theorem postEmailToken {data} : L.Holds k (VaultServer.postEmailToken env data headers) ⊤ := by
  refine .check <| .check <| .still .query fun _ found h0 => ?_
  cases found with
  | some => exact .still (.when (.bind (.attempt .external) fun _ => .ret)) fun _ _ _ => .err
  | none =>
    refine .check <| .still .getUuid fun _ token h1 => ?_
    refine .still (.when (.bind (.attempt .external) fun _ => .ret)) fun k2 _ h2 => ?_
    have hcopy : L.Mine k2 { headers.user with
        emailNew := some data.newEmail
        emailNewToken := some (toString token) } :=
      L.copy (h2 _ (h1 _ (h0 _ h))) rfl rfl rfl
    exact saveLast hcopy

theorem updateApiKey {data rotate} :
    L.Holds k (VaultServer.updateApiKey env data rotate headers) ⊤ := by
  refine .pass PasswordOrOtpData.validate_writes rfl fun _ _ h0 => .ite ?_ (L.ret trivial)
  refine .still .getUuid fun k1 key h1 => ?_
  have hcopy : L.Mine k1 { headers.user with apiKey := some key } :=
    L.copy (h1 _ (h0 _ h)) rfl rfl rfl
  refine L.bind (L.attempt hcopy) fun _ r _ => ?_
  cases r with
  | ok => exact L.ret trivial
  | error => exact L.fail

theorem accountRequest {request : AccountRequest} (hr : request.isMild = true) :
    L.Holds k (request.handle env headers) ⊤ := by
  cases request with
  | postProfile name =>
    have hcopy : L.Mine k { headers.user with name := name } := L.copy h rfl rfl rfl
    exact .check <| saveLast hcopy
  | putAvatar color =>
    have hcopy : L.Mine k { headers.user with avatarColor := color } := L.copy h rfl rfl rfl
    exact .check <| saveLast hcopy
  | postKeys data =>
    have hcopy : L.Mine k (headers.user.withKeys (some data)) := L.copy h rfl rfl rfl
    exact saveLast hcopy
  | postSettingsDomains data =>
    have hcopy : L.Mine k { headers.user with
        excludedGlobals := data.excludedGlobalEquivalentDomains.getD []
        equivalentDomains := data.equivalentDomains.getD [] } := L.copy h rfl rfl rfl
    exact saveLast hcopy
  | postEmailToken => exact postEmailToken h
  | updateApiKey => exact updateApiKey h
  | putDeviceToken _ _ | putAuthRequest _ _ | createOrganization _ | acceptInvite _ _ _ _ =>
    exact .of_writes AccountRequest.handle_writes rfl
  | _ => cases hr

end

/-! ## Logging in -/

section
variable {data : ConnectData} {ip : String} {info : OIDCAuthenticatedUser}

theorem passwordLogin
    (hupgrade : ∀ k' u password, L.Mine k' u → u.checkValidPassword env password = true →
      L.Holds k' (kdfUpgrade env u password) L.Mine) :
    L.Holds k (VaultServer.passwordLogin env data ip) ⊤ := by
  have hcheck : ∀ {k' u password id}, L.Mine k' u →
      L.Holds k' (checkLogin env u ip password id) L.Mine := by
    intro k' u password id h
    cases id with
    | some =>
      refine .still (.bind .query fun found => ?_) fun _ _ hs => L.ret (hs _ h)
      split
      · exact .err
      · exact .ensure
    | none => exact .ensure fun hp => hupgrade k' u password h hp
  refine .still AuthMethod.checkScope_writes fun _ _ _ => .still .external fun _ _ _ => ?_
  refine .still .unwrap fun _ name _ => ?_
  refine L.found (fun _ _ h => (Table.mem_of_find? h).1) fun _ r hr => ?_
  split
  · exact .err
  · next u =>
    refine .check <| .still .unwrap fun _ password h1 => ?_
    refine L.bind (hcheck (h1 _ (hr u rfl))) fun k2 u' hu' => ?_
    refine L.bind (Q := fun k' _ => ∀ v, L.Mine k2 v → L.Mine k' v)
      (.ite (CopyLogic.remindToVerify hu') (L.ret fun _ h => h)) fun _ _ h3 => ?_
    refine .pass getDevice_writes rfl fun _ d h4 => ?_
    refine L.bind (CopyLogic.twofactorAuth (h4 _ (h3 _ hu'))) fun _ r _ => ?_
    exact .of_writes authenticatedResponse_writes rfl

theorem ssoAccount : L.Holds k (VaultServer.ssoAccount env info) fun k' r =>
      ∀ u link, r = some (u, link) → L.Mine k' u := by
  refine L.loads fun _ db hdb => ?_
  cases hfound : SsoUser.findByIdentifier db info.identifier with
  | some =>
    refine L.ret fun u link he => ?_
    obtain ⟨rfl, -⟩ := Prod.mk.inj (Option.some.inj he)
    exact hdb _ (SsoUser.mem_of_findByIdentifier hfound)
  | none =>
    refine L.loads fun _ db1 hdb1 => ?_
    cases hmail : SsoUser.findByMail db1 info.email with
    | none => exact L.ret fun _ _ he => nomatch he
    | some found =>
      obtain ⟨u, link⟩ := found
      cases link with
      | some => exact .err
      | none =>
        refine .check <| .check <| .check <| L.ret fun u' link' he => ?_
        obtain ⟨rfl, -⟩ := Prod.mk.inj (Option.some.inj he)
        exact hdb1 _ (SsoUser.mem_of_findByMail hmail)

variable (hnew : L.AdmitsNew)
include hnew

theorem ssoLoginAs : L.Holds k (VaultServer.ssoLoginAs env data ip a info) ⊤ := by
  refine L.bind ssoAccount fun _ r hr => ?_
  match r with
  | none =>
    refine L.bind (Q := L.Mine) ?_ fun _ u _ => .pass getDevice_writes rfl fun _ d _ => ?_
    · exact .check <| .check <| .check <| L.bind hnew fun _ u hu =>
        L.save (L.copy hu rfl rfl rfl)
    · exact .pass redeem_writes rfl fun _ _ _ => .of_writes authenticatedResponse_writes rfl
  | some (u, link) =>
    refine .check <| .pass getDevice_writes rfl fun _ d h1 => ?_
    refine L.bind (CopyLogic.twofactorAuth (h1 _ (hr u link rfl))) fun _ r hr => ?_
    refine L.bind (Q := L.Mine) (.ite (L.save (L.copy hr rfl rfl rfl)) (L.ret hr)) fun _ _ _ => ?_
    refine .still (.when .external) fun _ _ _ => .pass redeem_writes rfl fun _ _ _ => ?_
    exact .of_writes authenticatedResponse_writes rfl

theorem ssoLogin : L.Holds k (VaultServer.ssoLogin env data ip answer) ⊤ := by
  refine .still AuthMethod.checkScope_writes fun _ _ _ => .still .external fun _ _ _ => ?_
  split
  · exact .err
  · exact .err
  · exact .pass exchangeCode_writes rfl fun _ _ _ => ssoLoginAs hnew

/-- Of the grants only that of a password is left open. -/
theorem login (hpassword : grantType = .password → ∀ k',
      L.Holds k' (VaultServer.passwordLogin env data ip) ⊤) :
    L.Holds k (VaultServer.login env grantType data ip) ⊤ := by
  cases grantType with
  | refreshToken => exact .check <| .of_writes refreshLogin_writes rfl
  | password =>
    refine .check <| .check <| .check <| .check <| .check ?_
    exact .still checkDevice_writes fun _ _ _ => hpassword rfl _
  | clientCredentials =>
    refine .check <| .check <| .check ?_
    exact .still checkDevice_writes fun _ _ _ => .of_writes apiKeyLogin_writes rfl
  | authorizationCode =>
    refine .check <| .check <| .check <| .check ?_
    exact .still checkDevice_writes fun _ _ _ => ssoLogin hnew
  | other => exact .err

end

/-! ## Requests -/

/-- **What these requests save is theirs to save.** -/
theorem prog (hnew : L.AdmitsNew) {e : Event} (he : e.request.isMild = true) :
    L.Holds k e.prog ⊤ := by
  obtain ⟨env, request⟩ := e
  cases request with
  | vault =>
    exact L.bind headers fun _ _ _ => .pass VaultRequest.handle_writes rfl fun _ _ _ => L.ret trivial
  | organization caller org request =>
    refine L.bind orgGuard fun _ _ _ => L.bind (Q := ⊤) ?_ fun _ _ _ => L.ret trivial
    cases request with
    | sendInvite => cases he
    | recoverAccount => cases he
    | _ => exact .of_writes OrgRequest.handle_writes rfl
  | account =>
    exact L.bind headers fun _ _ h => L.bind (accountRequest h he) fun _ _ _ => L.ret trivial
  | twoFactor =>
    exact L.bind headers fun _ _ h => L.bind (twoFactorRequest h) fun _ _ _ => L.ret trivial
  | emergency caller request =>
    refine L.bind headers fun _ _ _ => L.bind (Q := ⊤) ?_ fun _ _ _ => L.ret trivial
    cases request with
    | sendInvite => exact emergencyInvite hnew
    | resendInvite => exact .of_writes Emergency.resendInvite_writes rfl
    | acceptInvite => exact .of_writes Emergency.acceptInvite_writes rfl
    | passwordEmergencyAccess => cases he
    | _ => exact .of_writes EmergencyRequest.handle_writes rfl
  | send =>
    exact L.bind headers fun _ _ _ => .pass SendRequest.handle_writes rfl fun _ _ _ => L.ret trivial
  | admin request =>
    refine L.bind (Q := ⊤) ?_ fun _ _ _ => L.ret trivial
    cases request with
    | inviteUser => exact inviteUser hnew
    | remove2fa => exact remove2fa
    | deleteSsoUser _ | updateMembershipType _ | updateRevisionUsers | deleteOrganization _ =>
      exact .of_writes AdminRequest.handle_writes rfl
    | _ => cases he
  | directory => cases he
  | login =>
    refine L.bind (login hnew fun hg => ?_) fun _ _ _ => L.ret trivial
    subst hg
    cases he
  | anyone request =>
    refine L.bind (Q := ⊤) ?_ fun _ _ _ => L.ret trivial
    cases request with
    | register _ _ | postDeleteRecoverToken _ _ => cases he
    | postVerifyEmailToken => exact postVerifyEmailToken
    | _ => exact .of_writes OpenRequest.handle_writes rfl
  | job task => cases task <;> exact .of_writes Request.serve_writes rfl

end AccountLogic

end VaultServer
