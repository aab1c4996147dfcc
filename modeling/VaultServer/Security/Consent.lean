import VaultServer.Effects.Invariant
import VaultServer.Lib.Checked
import VaultServer.Security.Emergency

/-!
# Emergency access waits for consent or time

The contact of an emergency access gets at the vault when the status is `RecoveryApproved`. The
table of the accesses is written by the two sides, by the job, by a key rotation, by a registration
and by the removal of an account. What each of them does to a row is said once, and what a row's
status tells about the requests so far follows by induction over the run.
-/

namespace VaultServer.Emergency

open Lib PartInvariant List Table Bool

variable {headers : Headers} {request : EmergencyRequest}

variable {env : Env} {w : World} {e : Event} {id : Nat}

/-! ## What a request does to a row -/

/-- The same access at the same stage; its kind, waiting time and key may have been edited. -/
structure Edited (b a : EmergencyAccess) : Prop where
  uuid : a.uuid = b.uuid
  status : a.status = b.status
  initiatedAt : a.recoveryInitiatedAt = b.recoveryInitiatedAt

theorem Edited.refl (a : EmergencyAccess) : Edited a a := ⟨rfl, rfl, rfl⟩

/-- The job may approve the access. -/
def Due (now : Time) (b : EmergencyAccess) : Prop :=
  b.status = .recoveryInitiated ∧
    ∃ t, b.recoveryInitiatedAt = some t ∧ t + b.waitTimeDays * 86400 ≤ now

/-- How a row came about in a request. -/
inductive Step (w : World) (e : Event) (a : EmergencyAccess) : Prop
  | kept (b : EmergencyAccess) (hb : b ∈ w.db.emergencyAccess.rows) (h : Edited b a)
  | young (h : a.status = .invited ∨ a.status = .accepted)
  | confirmed (caller : Caller) (key : String) (b : EmergencyAccess)
      (hb : b ∈ w.db.emergencyAccess.rows)
      (hr : e.request = .emergency caller (.confirmEmergencyAccess b.uuid key))
      (hgrantor : b.grantorUuid = caller.token.claims.sub)
      (ha : a = { b with status := .confirmed, keyEncrypted := some key, email := none })
  | initiated (caller : Caller) (b : EmergencyAccess) (hb : b ∈ w.db.emergencyAccess.rows)
      (hr : e.request = .emergency caller (.initiateEmergencyAccess b.uuid))
      (hgrantee : b.granteeUuid = some caller.token.claims.sub) (hs : b.status = .confirmed)
      (ha : a = { b with
        status := .recoveryInitiated
        recoveryInitiatedAt := some e.env.now
        lastNotificationAt := some e.env.now })
  | approved (caller : Caller) (b : EmergencyAccess) (hb : b ∈ w.db.emergencyAccess.rows)
      (hr : e.request = .emergency caller (.approveEmergencyAccess b.uuid))
      (hgrantor : b.grantorUuid = caller.token.claims.sub) (hs : b.status = .recoveryInitiated)
      (ha : a = { b with status := .recoveryApproved })
  | rejected (caller : Caller) (b : EmergencyAccess) (hb : b ∈ w.db.emergencyAccess.rows)
      (hr : e.request = .emergency caller (.rejectEmergencyAccess b.uuid))
      (hs : b.status = .recoveryInitiated ∨ b.status = .recoveryApproved)
      (ha : a = { b with status := .confirmed })
  | timedOut (b : EmergencyAccess) (hb : b ∈ w.db.emergencyAccess.rows)
      (hr : e.request = .job .emergencyRequestTimeout) (hdue : Due e.env.now b)
      (ha : a = { b with status := .recoveryApproved })

/-- Every row of the table satisfies `P`. -/
def accessRows (P : EmergencyAccess → Prop) : PartInvariant where
  parts := [.emergencyAccess]
  holds w := ∀ a ∈ w.db.emergencyAccess.rows, P a
  of_same {w1 w2} h _ hw := by
    have hrows : w2.db.emergencyAccess = w1.db.emergencyAccess := h .emergencyAccess mem_cons_self
    exact fun a ha => hw a (hrows ▸ ha)

section
variable {P : EmergencyAccess → Prop} {ea : EmergencyAccess}

theorem save_keeps (h : P ea) : (accessRows P).Keeps (ea.save env) ⊤ := by
  refine .skip User.updateUuidRevision_writes <| .exec fun w db' hw hs => ?_
  obtain ⟨-, rfl⟩ := Db.guarded_eq_some hs
  intro a ha
  exact forall_putRows hw h a ha

theorem delete_keeps : (accessRows P).Keeps (ea.delete env) ⊤ := by
  refine .skip User.updateUuidRevision_writes <| .execTotal fun w hw a ha => ?_
  exact hw a (mem_deleteWhere.1 ha).1

theorem userDelete_keeps {u : User} : (accessRows P).Keeps (u.delete env) ⊤ := by
  have heach : ∀ rows : List EmergencyAccess,
      (accessRows P).Keeps (Prog.each rows fun ea => ea.delete env) ⊤ := fun _ =>
    .each fun _ _ => delete_keeps
  refine .skip .query <| .check <| .past Send.deleteAllByUser_writes rfl ?_
  refine .bind (.skip .query <| (heach _).bind fun _ _ => .skip .query <| heach _) ?_
  refine fun _ _ => .bind (.skip .query <| heach _) fun _ _ => ?_
  refine .past Membership.deleteAllByUser_writes rfl ?_
  refine .past Cipher.deleteAllByUser_writes rfl ?_
  refine .past Favorite.deleteWhere_writes rfl ?_
  refine .past Folder.deleteAllByUser_writes rfl ?_
  refine .past Device.deleteAllByUser_writes rfl ?_
  refine .past TwoFactor.deleteAllByUser_writes rfl ?_
  refine .past TwoFactorIncomplete.deleteAllByUser_writes rfl ?_
  refine .past Invitation.take_writes rfl <| .exec fun w db' hw hs => ?_
  obtain ⟨-, rfl⟩ := Db.guarded_eq_some hs
  exact hw

/-- An invitation that is accepted stays below the stages of a recovery. -/
theorem rowAcceptInvite_keeps {grantee email}
    (h : ∀ a : EmergencyAccess, a.status = .accepted → P a) :
    (accessRows P).Keeps (ea.acceptInvite env grantee email) ⊤ :=
  .check <| .check <| save_keeps (h _ rfl)

/-- The rows of `w` and what became of those that passed the check of a stage. -/
def Moved (w : World) (L : EmergencyAccess → Prop) (ok : EmergencyAccessStatus → Bool)
    (change : EmergencyAccess → EmergencyAccess) (a : EmergencyAccess) : Prop :=
  a ∈ w.db.emergencyAccess.rows ∨
    ∃ b ∈ w.db.emergencyAccess.rows, L b ∧ ok b.status = true ∧ a = change b

/-- A row that a stage has moved does not pass its check again. -/
theorem advance_keeps (hstill : ∀ ea, Writes [] (checks ea))
    (hno : ∀ b, ok (change b).status = false)
    (hfound : ∀ b, found = some b → L b ∧ Moved w L ok change b) :
    (accessRows (Moved w L ok change)).Keeps (advance env found ok checks change) ⊤ := by
  unfold advance
  split
  · exact .err
  · next ea =>
    obtain ⟨hL, hmoved⟩ := hfound ea rfl
    refine .ensure fun hok => .still (hstill ea) fun _ => ?_
    have hold : ea ∈ w.db.emergencyAccess.rows := by
      rcases hmoved with hold | ⟨b, -, -, -, rfl⟩
      · exact hold
      · rw [hno] at hok
        cases hok
    refine (save_keeps (.inr ⟨ea, hold, hL, hok, rfl⟩)).bind fun _ _ => ?_
    exact .idle (.when .external)

/-- A stage, on the row that `f` finds. -/
theorem stage_keeps
    (hf : ∀ db b, f db = some b → b ∈ db.emergencyAccess.rows ∧ L b)
    (hstill : ∀ ea, Writes [] (checks ea)) (hno : ∀ b, ok (change b).status = false) :
    (accessRows (Moved w L ok change)).Keeps (do
      checkEmergencyAccessEnabled env
      let found ← query f
      advance env found ok checks change) ⊤ := by
  refine .check <| .query fun w' hw' => advance_keeps hstill hno fun b hb => ?_
  obtain ⟨hmem, hL⟩ := hf _ _ hb
  exact ⟨hL, hw' b hmem⟩

theorem sendInvite_keeps
    (h : ∀ a : EmergencyAccess, a.status = .invited ∨ a.status = .accepted → P a) :
    (accessRows P).Keeps (sendInvite env data headers) ⊤ := by
  refine .check ?_
  split
  · exact .err
  · refine .check <| .pass grantee_writes rfl fun contact => .skip .query ?_
    refine .check <| .still .getUuid fun uuid => ?_
    refine (save_keeps (h _ (.inl rfl))).bind fun _ _ => .ite (.idle .external) (.ite ?_ (.ret trivial))
    exact rowAcceptInvite_keeps fun a ha => h a (.inr ha)

theorem resendInvite_keeps (h : ∀ a : EmergencyAccess, a.status = .accepted → P a) :
    (accessRows P).Keeps (resendInvite env id headers) ⊤ := by
  refine .check <| .still .query fun found => ?_
  split
  · exact .err
  · refine .check ?_
    split
    · exact .err
    · refine .still .query fun found => ?_
      split
      · exact .err
      · refine .skip .query <| .ite (.idle .external) (.ite (rowAcceptInvite_keeps h) ?_)
        exact .ite (.of_writes Invitation.save_writes rfl) (.ret trivial)

theorem acceptInvite_keeps (h : ∀ a : EmergencyAccess, a.status = .accepted → P a) :
    (accessRows P).Keeps (acceptInvite env id token headers) ⊤ := by
  refine .check <| .skip decodeJwt_writes <| .check <| .still .query fun found => ?_
  split
  · exact .err
  · refine .past Invitation.take_writes rfl <| .still .query fun found => ?_
    split
    · exact .err
    · refine .still .query fun found => ?_
      split
      · exact .err
      · refine .check <| (rowAcceptInvite_keeps h).bind fun _ _ => ?_
        exact .idle (.when .external)

theorem deleteEmergencyAccess_keeps :
    (accessRows P).Keeps (deleteEmergencyAccess env id headers) ⊤ := by
  refine .check <| .skip .query <| .still .query fun _ => ?_
  split
  · exact delete_keeps
  · exact delete_keeps
  · exact .err

theorem register_keeps {data verification} (h : ∀ a : EmergencyAccess, a.status = .accepted → P a) :
    (accessRows P).Keeps (register env data verification) ⊤ := by
  refine .check <| .skip (.ite RegisterData.verifyTokens_writes .ret) ?_
  refine .check <| .check <| .past registrationUser_writes rfl ?_
  refine .past Invitation.take_writes rfl <| .skip setKdfData_writes ?_
  refine .past User.setPassword_writes rfl <| .past sendWelcome_writes rfl ?_
  refine .past User.save_writes rfl <| .ite ?_ (.ret trivial)
  refine .still .query fun invites => .each fun ea _ => ?_
  exact (rowAcceptInvite_keeps h).attempt.bind fun _ _ => .ret trivial

/-- The rows of `w`, as far as they are there, with edits that do not concern their stage. -/
def EditedFrom (w : World) (a : EmergencyAccess) : Prop :=
  ∃ b ∈ w.db.emergencyAccess.rows, Edited b a

theorem postEmergencyAccess_keeps :
    (accessRows (EditedFrom w)).Keeps (postEmergencyAccess env id data headers) ⊤ := by
  refine .check <| .query fun w' hw' => ?_
  split
  · exact .err
  · next ea hfound =>
    split
    · exact .err
    · obtain ⟨b, hb, hedited⟩ := hw' ea (mem_of_find? hfound).1
      exact save_keeps ⟨b, hb, hedited.uuid, hedited.status, hedited.initiatedAt⟩

theorem postRotatekey_keeps :
    (accessRows (EditedFrom w)).Keeps (postRotatekey env data headers) ⊤ := by
  refine .check <| .skip validateCipherData_writes <| .query fun w' hw' => ?_
  refine .skip validateKeydata_writes <| .past (.each fun _ => rotateFolder_writes) rfl ?_
  refine .bind (Q := ⊤) (.each fun d _ => ?_) fun _ _ => ?_
  · unfold rotateEmergencyAccess
    split
    · exact .err
    · next ea hfound =>
      have hmem := (mem_filter.1 (mem_of_find?_eq_some hfound)).1
      obtain ⟨b, hb, hedited⟩ := hw' ea hmem
      exact save_keeps ⟨b, hb, hedited.uuid, hedited.status, hedited.initiatedAt⟩
  · refine .past (.each fun _ => rotateMembership_writes) rfl ?_
    refine .past (.foldl fun _ _ => rotateSend_writes) rfl ?_
    refine .past (.foldl fun _ _ => rotateCipher_writes) rfl ?_
    exact .past User.setPassword_writes rfl <| .past User.save_writes rfl <| .ret trivial

/-- The rows of `w` and those that the job has approved. -/
def TimedOutFrom (w : World) (now : Time) (a : EmergencyAccess) : Prop :=
  a ∈ w.db.emergencyAccess.rows ∨
    ∃ b ∈ w.db.emergencyAccess.rows, Due now b ∧ a = { b with status := .recoveryApproved }

theorem updateStatus_keeps {ea} (hea : ea ∈ w.db.emergencyAccess.rows) (hdue : Due env.now ea) :
    (accessRows (TimedOutFrom w env.now)).Keeps
      (ea.updateAccessStatusAndSave env .recoveryApproved) ⊤ := by
  unfold EmergencyAccess.updateAccessStatusAndSave
  split
  · exact .fail
  · refine .skip User.updateUuidRevision_writes <| .exec fun w' db' hw' hs a ha => ?_
    obtain rfl := Option.some.inj hs
    obtain ⟨x, hx, rfl⟩ := mem_map.1 ha
    split
    · next hid =>
      -- the row that is updated is the one that was read, or was approved before
      have hid : x.uuid = ea.uuid := of_decide_eq_true hid
      rcases hw' x hx with hold | ⟨b, hb, hb', rfl⟩
      · obtain rfl := eq_of_key hold hea hid
        exact .inr ⟨x, hold, hdue, rfl⟩
      · exact .inr ⟨b, hb, hb', rfl⟩
    · exact hw' x hx

theorem recoveryAllowed_eq_ok {ea t b} : recoveryAllowed env ea t = .ok b ↔
    InCalendar (t + ea.waitTimeDays * 86400) ∧
      b = decide (t + ea.waitTimeDays * 86400 ≤ env.now) := by
  simp only [recoveryAllowed, addDays, bind_eq_ok_iff, ite_eq_ok, pure_eq_ok]
  simp [eq_comm]

theorem timeoutJob_keeps :
    (accessRows (TimedOutFrom w env.now)).Keeps (emergencyRequestTimeoutJob env) ⊤ := by
  refine .when (.query fun w' hw' => .each fun ea hmem => ?_)
  obtain ⟨hrow, hwaits⟩ := mem_filter.1 hmem
  simp only [Bool.decide_and, and_eq_true, decide_eq_true_eq] at hwaits
  have hea : ea ∈ w.db.emergencyAccess.rows := by
    rcases hw' ea hrow with hold | ⟨b, -, -, rfl⟩
    · exact hold
    · cases hwaits.1
  obtain ⟨t, ht⟩ := Option.isSome_iff_exists.1 hwaits.2
  rw [attend, ht]
  show (accessRows _).Keeps (lift (recoveryAllowed env ea t) >>= _) _
  cases hr : recoveryAllowed env ea t with
  | error => exact .fail
  | ok isDue =>
    cases isDue with
    | false => exact .ret trivial
    | true =>
      have hdue := of_decide_eq_true (recoveryAllowed_eq_ok.1 hr).2.symm
      exact (updateStatus_keeps hea ⟨hwaits.1, t, ht, hdue⟩).expectOk.bind fun _ _ =>
        .idle mailTimedOut_writes

theorem reminderJob_keeps :
    (accessRows (EditedFrom w)).Keeps (emergencyNotificationReminderJob env) ⊤ := by
  refine .when (.query fun _ _ => .each fun ea _ => .skip .unwrap <| .skip .lift <| .when ?_)
  have hwrite : (accessRows (EditedFrom w)).Keeps (ea.updateLastNotificationDateAndSave env)
      ⊤ := by
    refine .execTotal fun w' hw' a ha => ?_
    obtain ⟨x, hx, rfl⟩ := mem_map.1 ha
    obtain ⟨b, hb, hedited⟩ := hw' x hx
    split
    · exact ⟨b, hb, hedited.uuid, hedited.status, hedited.initiatedAt⟩
    · exact ⟨b, hb, hedited⟩
  exact hwrite.expectOk.bind fun _ _ => .idle mailReminder_writes

end

theorem findByGrantor_some {db u b}
    (h : EmergencyAccess.findByUuidAndGrantorUuid db id u = some b) :
    b ∈ db.emergencyAccess.rows ∧ b.uuid = id ∧ b.grantorUuid = u := by
  obtain ⟨hmem, hkey⟩ := mem_of_find? h
  simp only [Bool.decide_and, and_eq_true, decide_eq_true_eq] at hkey
  exact ⟨hmem, hkey⟩

theorem findByGrantee_some {db u b}
    (h : EmergencyAccess.findByUuidAndGranteeUuid db id u = some b) :
    b ∈ db.emergencyAccess.rows ∧ b.uuid = id ∧ b.granteeUuid = some u := by
  obtain ⟨hmem, hkey⟩ := mem_of_find? h
  simp only [Bool.decide_and, and_eq_true, decide_eq_true_eq] at hkey
  exact ⟨hmem, hkey⟩

/-- The rows after a request of a session, from what its handler does to them. -/
theorem session_step {P : UserId → EmergencyAccess → Prop} (hr : e.request = .emergency caller request)
    (hw : ∀ a ∈ w.db.emergencyAccess.rows, P caller.token.claims.sub a) (h : ∀ headers : Headers,
      (accessRows (P headers.user.uuid)).Keeps (request.handle e.env headers) ⊤) :
    ∀ a ∈ (e.prog.after w).db.emergencyAccess.rows, P caller.token.claims.sub a := by
  have hkeeps : (accessRows (P caller.token.claims.sub)).Keeps e.prog ⊤ := by
    unfold Event.prog
    rw [hr]
    refine (Keeps.headers rfl).bind fun headers hsub => ?_
    exact (hsub ▸ h headers).bind fun _ _ => .ret trivial
  exact hkeeps.after hw

/-- What a request of one of the two sides does to the rows. -/
theorem emergency_step (hr : e.request = .emergency caller request) :
    ∀ a ∈ (e.prog.after w).db.emergencyAccess.rows, Step w e a := by
  have hkept : ∀ a ∈ w.db.emergencyAccess.rows, Step w e a := fun a ha => .kept a ha (.refl a)
  have hboth : ∀ ea, Writes [] (do
      checkGrantor ea
      checkGrantee ea) := fun _ => .bind checkAccount_writes fun _ => checkAccount_writes
  have hone : ∀ (u : Option UserId) m, Writes [] (checkAccount u m) := fun _ _ => checkAccount_writes
  cases request with
  | sendInvite =>
    exact session_step (P := fun _ => Step w e) hr hkept fun _ => sendInvite_keeps fun _ => .young
  | resendInvite =>
    exact session_step (P := fun _ => Step w e) hr hkept fun _ =>
      resendInvite_keeps fun _ h => .young (.inr h)
  | acceptInvite =>
    exact session_step (P := fun _ => Step w e) hr hkept fun _ =>
      acceptInvite_keeps fun _ h => .young (.inr h)
  | deleteEmergencyAccess =>
    exact session_step (P := fun _ => Step w e) hr hkept fun _ => deleteEmergencyAccess_keeps
  | viewEmergencyAccess =>
    exact session_step (P := fun _ => Step w e) hr hkept fun _ =>
      .idle (.bind viewEmergencyAccess_writes fun _ => .ret)
  | takeoverEmergencyAccess =>
    exact session_step (P := fun _ => Step w e) hr hkept fun _ =>
      .idle (.bind takeoverEmergencyAccess_writes fun _ => .ret)
  | passwordEmergencyAccess =>
    exact session_step (P := fun _ => Step w e) hr hkept fun _ =>
      .of_writes passwordEmergencyAccess_writes rfl
  | postEmergencyAccess =>
    intro a ha
    obtain ⟨b, hb, hedited⟩ := session_step (P := fun _ => EditedFrom w) hr
      (fun a ha => ⟨a, ha, .refl a⟩) (fun _ => postEmergencyAccess_keeps) a ha
    exact .kept b hb hedited
  | confirmEmergencyAccess id key =>
    intro a ha
    rcases session_step (P := fun u => Moved w (fun b => b.uuid = id ∧ b.grantorUuid = u) _ _) hr
      (fun _ => .inl) (fun _ => stage_keeps (fun _ _ => findByGrantor_some) hboth fun _ => rfl) a ha
      with hold | ⟨b, hb, ⟨rfl, hgrantor⟩, -, rfl⟩
    · exact hkept a hold
    · exact .confirmed caller key b hb hr hgrantor rfl
  | initiateEmergencyAccess id =>
    intro a ha
    rcases session_step (P := fun u => Moved w (fun b => b.uuid = id ∧ b.granteeUuid = some u) _ _) hr
      (fun _ => .inl) (fun _ => stage_keeps (fun _ _ => findByGrantee_some) (fun _ => hone _ _)
        fun _ => rfl) a ha with hold | ⟨b, hb, ⟨rfl, hgrantee⟩, hok, rfl⟩
    · exact hkept a hold
    · exact .initiated caller b hb hr hgrantee (of_decide_eq_true hok) rfl
  | approveEmergencyAccess id =>
    intro a ha
    rcases session_step (P := fun u => Moved w (fun b => b.uuid = id ∧ b.grantorUuid = u) _ _) hr
      (fun _ => .inl) (fun _ => stage_keeps (fun _ _ => findByGrantor_some) hboth fun _ => rfl) a ha
      with hold | ⟨b, hb, ⟨rfl, hgrantor⟩, hok, rfl⟩
    · exact hkept a hold
    · exact .approved caller b hb hr hgrantor (of_decide_eq_true hok) rfl
  | rejectEmergencyAccess id =>
    intro a ha
    rcases session_step (P := fun u => Moved w (fun b => b.uuid = id ∧ b.grantorUuid = u) _ _) hr
      (fun _ => .inl) (fun _ => stage_keeps (fun _ _ => findByGrantor_some) (fun _ => hone _ _)
        fun _ => rfl) a ha with hold | ⟨b, hb, ⟨rfl, -⟩, hok, rfl⟩
    · exact hkept a hold
    · exact .rejected caller b hb hr (of_decide_eq_true hok) rfl

/-- **What any request does to an emergency access.** -/
theorem step_of_mem {a} (ha : a ∈ (e.prog.after w).db.emergencyAccess.rows) : Step w e a := by
  have hw : (accessRows (Step w e)).holds w := fun a ha => .kept a ha (.refl a)
  have hstill : ∀ {S : List Part}, Writes S e.prog → [Part.emergencyAccess].any S.contains = false →
      Step w e a := fun h hs => PartInvariant.Keeps.after (.of_writes h hs) hw a ha
  have hremoving : e.request.removesAccounts = true → Step w e a := fun hr =>
    Request.serve_removing (I := accessRows (Step w e)) (E := (accessRows (Step w e)).holds)
      (fun _ h => h) (.of_apart rfl rfl)
      (fun u => Prog.Until.of_under (fun _ h => h) userDelete_keeps) hr hw a ha
  obtain ⟨env, request⟩ := e
  cases request with
  | emergency => exact emergency_step rfl a ha
  | organization caller org request =>
    cases request with
    | sendInvite => exact hremoving rfl
    | _ => exact hstill Request.serve_writes rfl
  | account caller request =>
    cases request with
    | deleteAccount => exact hremoving rfl
    | postRotatekey data =>
      have hkeeps : (accessRows (EditedFrom w)).Keeps
          (Event.prog ⟨env, .account caller (.postRotatekey data)⟩) ⊤ :=
        .pass Headers.fromRequest_writes rfl fun headers =>
          postRotatekey_keeps.bind fun _ _ => .ret trivial
      obtain ⟨b, hb, hedited⟩ := hkeeps.after (fun a ha => ⟨a, ha, .refl a⟩) a ha
      exact .kept b hb hedited
    | _ => exact hstill Request.serve_writes rfl
  | admin request =>
    cases request with
    | deleteUser => exact hremoving rfl
    | _ => exact hstill Request.serve_writes rfl
  | directory => exact hremoving rfl
  | anyone request =>
    cases request with
    | postDeleteRecoverToken => exact hremoving rfl
    | register data verification =>
      have hkeeps : (accessRows (Step w ⟨env, .anyone (.register data verification)⟩)).Keeps
          (Event.prog ⟨env, .anyone (.register data verification)⟩) ⊤ :=
        (register_keeps fun _ h => .young (.inr h)).bind fun _ _ => .ret trivial
      exact hkeeps.after hw a ha
    | _ => exact hstill Request.serve_writes rfl
  | job task =>
    cases task with
    | emergencyRequestTimeout =>
      have hkeeps : (accessRows (TimedOutFrom w env.now)).Keeps
          (Event.prog ⟨env, .job .emergencyRequestTimeout⟩) ⊤ :=
        timeoutJob_keeps.bind fun _ _ => .ret trivial
      rcases hkeeps.after (fun _ => .inl) a ha with hold | ⟨b, hb, hdue, rfl⟩
      · exact hw a hold
      · exact .timedOut b hb rfl hdue rfl
    | emergencyNotificationReminder =>
      have hkeeps : (accessRows (EditedFrom w)).Keeps
          (Event.prog ⟨env, .job .emergencyNotificationReminder⟩) ⊤ :=
        reminderJob_keeps.bind fun _ _ => .ret trivial
      obtain ⟨b, hb, hedited⟩ := hkeeps.after (fun a ha => ⟨a, ha, .refl a⟩) a ha
      exact .kept b hb hedited
    | _ => exact hstill Request.serve_writes rfl
  | _ => exact hstill Request.serve_writes rfl

/-! ## What a status tells about the requests so far -/

/-- The access `id` goes from one status to another. -/
def Goes (w : World) (e : Event) (id : Nat) (L : EmergencyAccess → Prop)
    (R : EmergencyAccess → Prop) : Prop :=
  (∃ b ∈ w.db.emergencyAccess.rows, b.uuid = id ∧ L b) ∧
    ∃ a ∈ (e.prog.after w).db.emergencyAccess.rows, a.uuid = id ∧ R a

/-- The grantor confirms the access and hands over a key. -/
def Confirms (w : World) (e : Event) (id : Nat) : Prop :=
  ∃ caller key, e.request = .emergency caller (.confirmEmergencyAccess id key) ∧
    Goes w e id (fun b => b.grantorUuid = caller.token.claims.sub)
      fun a => a.status = .confirmed ∧ a.keyEncrypted = some key

/-- The contact asks for the access. -/
def Initiates (w : World) (e : Event) (id : Nat) : Prop :=
  ∃ caller, e.request = .emergency caller (.initiateEmergencyAccess id) ∧
    Goes w e id (fun b => b.granteeUuid = some caller.token.claims.sub ∧ b.status = .confirmed)
      fun a => a.status = .recoveryInitiated

/-- The grantor agrees. -/
def Approves (w : World) (e : Event) (id : Nat) : Prop :=
  ∃ caller, e.request = .emergency caller (.approveEmergencyAccess id) ∧
    Goes w e id
      (fun b => b.grantorUuid = caller.token.claims.sub ∧ b.status = .recoveryInitiated)
      fun a => a.status = .recoveryApproved

/-- The grantor refuses, and the request is served. -/
def Rejects (w : World) (e : Event) (id : Nat) : Prop :=
  ∃ caller answer, e.request = .emergency caller (.rejectEmergencyAccess id) ∧
    (e.prog.run w).1 = .ok answer

/-- The job runs when the waiting time that is stored then has passed since `since`. -/
def TimesOut (w : World) (e : Event) (id : Nat) (since : Time) : Prop :=
  e.request = .job .emergencyRequestTimeout ∧
    ∃ b ∈ w.db.emergencyAccess.rows, b.uuid = id ∧ since + b.waitTimeDays * 86400 ≤ e.env.now

/-- A recovery that is under way: the grantor had confirmed the access, `i` is the last request by
which the contact has asked for it, and the grantor has not refused since. -/
structure Recovery (w0 : World) (id : Nat) (before : List Event) (i : Event) (later : List Event) :
    Prop where
  confirmed : w0.Happens (fun w e => Confirms w e id) before
  initiated : Initiates (w0.after before) i id
  undisturbed : (i.prog.after (w0.after before)).Each
    (fun w e => ¬ Initiates w e id ∧ ¬ Rejects w e id) later

/-- The grantor has agreed since, or the waiting time was over when the job ran. -/
def Granted (w0 : World) (id : Nat) (before : List Event) (i : Event) (later : List Event) : Prop :=
  (i.prog.after (w0.after before)).Happens
    (fun w e => Approves w e id ∨ TimesOut w e id i.env.now) later

/-- What the status of a row tells about the run that has led to it. -/
def Story (w0 : World) (run : List Event) (a : EmergencyAccess) : Prop :=
  match a.status with
  | .invited | .accepted => True
  | .confirmed => w0.Happens (fun w e => Confirms w e a.uuid) run
  | .recoveryInitiated => ∃ before i later, run = before ++ i :: later ∧
      Recovery w0 a.uuid before i later ∧ a.recoveryInitiatedAt = some i.env.now
  | .recoveryApproved => ∃ before i later, run = before ++ i :: later ∧
      Recovery w0 a.uuid before i later ∧ Granted w0 a.uuid before i later

section
variable {w0 : World} {run before later : List Event} {i : Event} {a b : EmergencyAccess}

theorem rejectEmergencyAccess_yields :
    Yields w (rejectEmergencyAccess env id headers) fun _ w' => Rejected id w' := by
  refine .ensure fun _ => .found .err fun b hfound => ?_
  obtain ⟨-, hid, -⟩ := findByGrantor_some hfound
  refine Yields.ensure fun _ => Yields.still checkAccount_writes fun _ w1 _ => ?_
  refine Prog.Yields.bind (Q := fun _ w' => Rejected id w') ?_ fun {_} h => ?_
  · refine Yields.still User.updateUuidRevision_writes fun _ w2 _ => Yields.exec.mono ?_
    intro _ w' hs
    obtain ⟨-, hdb⟩ := Db.guarded_eq_some hs
    unfold Rejected
    rw [hdb]
    exact ⟨_, mem_upsert.2 (.inl rfl), hid, rfl⟩
  · intro _ _
    have hmail : Writes [] (Prog.when env.mailEnabled (external "mail")) := .when .external
    have hsame := hmail.after (t := .emergencyAccess) not_mem_nil
    unfold Rejected
    rw [show _ = _ from hsame _]
    exact h

/-- A rejection that is served leaves the access confirmed. -/
theorem Rejects.status (h : Rejects w e a.uuid)
    (ha : a ∈ (e.prog.after w).db.emergencyAccess.rows) : a.status = .confirmed := by
  obtain ⟨caller, answer, hr, hok⟩ := h
  have hyields : Yields w (Request.serve e.env (.emergency caller (.rejectEmergencyAccess a.uuid)))
      fun _ w' => Rejected a.uuid w' := by
    refine .pass Headers.fromRequest_writes fun headers w1 _ => ?_
    exact .bind rejectEmergencyAccess_yields fun _ h => .ret h
  unfold Event.prog at hok ha
  rw [hr] at hok ha
  obtain ⟨x, hx, hid, hstatus⟩ := hyields answer hok
  obtain rfl := eq_of_key hx ha hid
  exact hstatus

theorem Initiates.status (h : Initiates w e b.uuid) (hb : b ∈ w.db.emergencyAccess.rows) :
    b.status = .confirmed := by
  obtain ⟨caller, -, ⟨x, hx, hid, -, hstatus⟩, -⟩ := h
  obtain rfl := eq_of_key hx hb hid
  exact hstatus

theorem Recovery.snoc (h : Recovery w0 id before i later)
    (he : ¬ Initiates (w0.after (before ++ i :: later)) e id ∧
      ¬ Rejects (w0.after (before ++ i :: later)) e id) :
    Recovery w0 id before i (later ++ [e]) := by
  refine ⟨h.confirmed, h.initiated, World.each_append_singleton.2 ⟨h.undisturbed, ?_⟩⟩
  rw [World.after_append] at he
  exact he

theorem Recovery.confirmed_run (h : Recovery w0 id before i later) :
    w0.Happens (fun w e => Confirms w e id) (before ++ i :: later) :=
  World.Happens.append h.confirmed

/-- The stages of a recovery go on while nothing happens to the row. -/
theorem Story.kept (h : Story w0 run b) (hb : b ∈ (w0.after run).db.emergencyAccess.rows)
    (ha : a ∈ (e.prog.after (w0.after run)).db.emergencyAccess.rows) (hedited : Edited b a) :
    Story w0 (run ++ [e]) a := by
  have hquiet : b.status ≠ .confirmed → ¬ Initiates (w0.after run) e a.uuid ∧
      ¬ Rejects (w0.after run) e a.uuid := by
    intro hne
    refine ⟨fun hi => hne ?_, fun hr => hne ?_⟩
    · rw [hedited.uuid] at hi
      exact hi.status hb
    · rw [← hedited.status]
      exact hr.status ha
  obtain ⟨huuid, hstatus, hat⟩ := hedited
  unfold Story at h ⊢
  rw [hstatus, huuid, hat]
  rw [huuid] at hquiet
  revert h
  cases hs : b.status with
  | invited => exact id
  | accepted => exact id
  | confirmed => exact fun h => World.Happens.append h
  | recoveryInitiated =>
    rintro ⟨before, i, later, rfl, hrecovery, hsince⟩
    refine ⟨before, i, later ++ [e], by simp, hrecovery.snoc (hquiet ?_), hsince⟩
    rw [hs]
    exact nofun
  | recoveryApproved =>
    rintro ⟨before, i, later, rfl, hrecovery, hgranted⟩
    refine ⟨before, i, later ++ [e], by simp, hrecovery.snoc (hquiet ?_), ?_⟩
    · rw [hs]
      exact nofun
    · exact World.Happens.append hgranted

/-- Consent and time only come to a recovery that is under way. -/
theorem Story.granted (h : Story w0 run b) (hb : b ∈ (w0.after run).db.emergencyAccess.rows)
    (hs : b.status = .recoveryInitiated) (hnot : ¬ Rejects (w0.after run) e b.uuid)
    (hgrants : ∀ since, b.recoveryInitiatedAt = some since →
      Approves (w0.after run) e b.uuid ∨ TimesOut (w0.after run) e b.uuid since) :
    Story w0 (run ++ [e]) { b with status := .recoveryApproved } := by
  unfold Story at h
  rw [hs] at h
  obtain ⟨before, i, later, rfl, hrecovery, hsince⟩ := h
  have hnew : ¬ Initiates (w0.after (before ++ i :: later)) e b.uuid := by
    intro hi
    have hconfirmed := hi.status hb
    rw [hs] at hconfirmed
    cases hconfirmed
  refine ⟨before, i, later ++ [e], by simp, hrecovery.snoc ⟨hnew, hnot⟩, ?_⟩
  refine World.happens_append_singleton.2 (.inr ?_)
  have hgrant := hgrants _ hsince
  rw [World.after_append] at hgrant
  exact hgrant

theorem Story.step (h : ∀ b ∈ (w0.after run).db.emergencyAccess.rows, Story w0 run b)
    (ha : a ∈ (e.prog.after (w0.after run)).db.emergencyAccess.rows) : Story w0 (run ++ [e]) a := by
  cases step_of_mem ha with
  | kept b hb hedited => exact (h b hb).kept hb ha hedited
  | young hyoung =>
    unfold Story
    rcases hyoung with hs | hs
    · rw [hs]
      trivial
    · rw [hs]
      trivial
  | confirmed caller key b hb hr hgrantor ha' =>
    subst ha'
    refine World.happens_append_singleton.2 (.inr ⟨caller, key, hr, ⟨b, hb, rfl, hgrantor⟩, ?_⟩)
    exact ⟨_, ha, rfl, rfl, rfl⟩
  | initiated caller b hb hr hgrantee hs ha' =>
    subst ha'
    have hconfirmed := h b hb
    unfold Story at hconfirmed
    rw [hs] at hconfirmed
    refine ⟨run, e, [], rfl, ⟨hconfirmed, ?_, trivial⟩, rfl⟩
    exact ⟨caller, hr, ⟨b, hb, rfl, hgrantee, hs⟩, _, ha, rfl, rfl⟩
  | approved caller b hb hr hgrantor hs ha' =>
    subst ha'
    refine (h b hb).granted hb hs ?_ fun since _ => .inl ?_
    · rintro ⟨caller', answer, hr', -⟩
      rw [hr] at hr'
      cases hr'
    · exact ⟨caller, hr, ⟨b, hb, rfl, hgrantor, hs⟩, _, ha, rfl, rfl⟩
  | rejected caller b hb hr hs ha' =>
    subst ha'
    have hrecovery := h b hb
    unfold Story at hrecovery
    rcases hs with hs | hs
    · rw [hs] at hrecovery
      obtain ⟨before, i, later, rfl, hrecovery, -⟩ := hrecovery
      exact World.Happens.append hrecovery.confirmed_run
    · rw [hs] at hrecovery
      obtain ⟨before, i, later, rfl, hrecovery, -⟩ := hrecovery
      exact World.Happens.append hrecovery.confirmed_run
  | timedOut b hb hr hdue ha' =>
    subst ha'
    obtain ⟨hs, t, ht, hpassed⟩ := hdue
    refine (h b hb).granted hb hs ?_ fun since hsince => .inr ⟨hr, b, hb, rfl, ?_⟩
    · rintro ⟨caller', answer, hr', -⟩
      rw [hr] at hr'
      cases hr'
    · obtain rfl := Option.some.inj (ht.symm.trans hsince)
      exact hpassed

theorem story_run (run : List Event) :
    ∀ a ∈ ((World.initial faults).after run).db.emergencyAccess.rows,
      Story (World.initial faults) run a :=
  World.after_history
    (P := fun before w => ∀ a ∈ w.db.emergencyAccess.rows, Story (World.initial faults) before a)
    (fun _ _ h _ _ ha => Story.step h ha) (World.each_of_forall (fun _ _ => trivial) _)
    fun _ h => nomatch h

end

/-! ## Using the access -/

/-- The access that a request makes use of, and in which way. -/
def use : EmergencyRequest → Option (Nat × EmergencyAccessType)
  | .viewEmergencyAccess id => some (id, .view)
  | .takeoverEmergencyAccess id => some (id, .takeover)
  | .passwordEmergencyAccess id _ => some (id, .takeover)
  | _ => none

/-- The row that a request for the use of an access has found. -/
def Usable (w : World) (u : UserId) (id : Nat) (access : EmergencyAccessType)
    (a : EmergencyAccess) : Prop :=
  a ∈ w.db.emergencyAccess.rows ∧ a.uuid = id ∧ a.granteeUuid = some u ∧ a.atype = access ∧
    a.status = .recoveryApproved

/-- Whatever follows, the check has been passed. -/
theorem usable_yields {k : EmergencyAccess → Cmd α} :
    Yields w (do
      checkEmergencyAccessEnabled env
      match ← query (EmergencyAccess.findByUuidAndGranteeUuid · id headers.user.uuid) with
      | none => err notValidMessage
      | some ea =>
        ensure (isValidRequest ea headers.user.uuid access) notValidMessage
        k ea) fun _ _ => ∃ a, Usable w headers.user.uuid id access a := by
  refine .ensure fun _ => .found .err fun a hfound => ?_
  obtain ⟨hmem, hid, -⟩ := findByGrantee_some hfound
  refine .ensure fun hvalid _ _ => ?_
  simp only [isValidRequest, decide_eq_true_eq] at hvalid
  exact ⟨a, hmem, hid, hvalid.1, hvalid.2.2, hvalid.2.1⟩

theorem use_usable (hr : e.request = .emergency caller request)
    (huse : use request = some (id, access)) (hok : (e.prog.run w).1 = .ok answer) :
    ∃ a, Usable w caller.token.claims.sub id access a := by
  have hhandle : ∀ (headers : Headers) (w : World), Yields w (request.handle e.env headers)
      fun _ _ => ∃ a, Usable w headers.user.uuid id access a := by
    intro headers w
    unfold use at huse
    split at huse
    · obtain ⟨rfl, rfl⟩ := Prod.mk.inj (Option.some.inj huse)
      exact .bind usable_yields fun _ h => .ret h
    · obtain ⟨rfl, rfl⟩ := Prod.mk.inj (Option.some.inj huse)
      exact .bind usable_yields fun _ h => .ret h
    · obtain ⟨rfl, rfl⟩ := Prod.mk.inj (Option.some.inj huse)
      exact usable_yields
    · cases huse
  have hyields : Yields w (Request.serve e.env (.emergency caller request))
      fun _ _ => ∃ a, Usable w caller.token.claims.sub id access a := by
    have hguard : nothing.Keeps (Headers.fromRequest e.env caller) fun h =>
        h.user.uuid = caller.token.claims.sub := Keeps.headers rfl
    have hguard := hguard.yields (w := w) trivial
    refine .andThen Headers.fromRequest_writes hguard fun headers w1 hsub hsame => ?_
    refine .bind (hhandle headers w1) fun _ ⟨a, ha⟩ => .ret ⟨a, ?_⟩
    have hrows : w1.db.emergencyAccess = w.db.emergencyAccess := hsame .emergencyAccess (by decide)
    rw [← hsub.2]
    exact ⟨hrows ▸ ha.1, ha.2⟩
  unfold Event.prog at hok
  rw [hr] at hok
  exact hyields answer hok

/-- **Emergency access waits for consent or time.**  A request that views or takes over a vault and
is served comes from the contact, for the kind of access that is stored; the grantor had confirmed
the access with a key before the contact asked for it last, has not refused since, and has agreed or
let the waiting time pass until the job ran. -/
theorem use_waits (faults : List Bool) (run : List Event) (e : Event) (caller : Caller)
    (request : EmergencyRequest) (id : Nat) (access : EmergencyAccessType)
    (answer : Option TokenResponse) (hr : e.request = .emergency caller request)
    (huse : use request = some (id, access))
    (hok : (e.prog.run ((World.initial faults).after run)).1 = .ok answer) :
    ∃ a ∈ ((World.initial faults).after run).db.emergencyAccess.rows, a.uuid = id ∧
      a.granteeUuid = some caller.token.claims.sub ∧ a.atype = access ∧
      ∃ before i later, run = before ++ i :: later ∧
        Recovery (World.initial faults) id before i later ∧
        Granted (World.initial faults) id before i later := by
  obtain ⟨a, ha, rfl, hgrantee, htype, hstatus⟩ := use_usable hr huse hok
  have hstory := story_run run a ha
  unfold Story at hstory
  rw [hstatus] at hstory
  exact ⟨a, ha, rfl, hgrantee, htype, hstory⟩

/-- The contact looks at the vault when the job has run. -/
def look : Event :=
  ⟨EmergencyRuns.nextDay, .emergency ⟨⟨⟨86400, 93600, ⟨6⟩, 9, ⟨8⟩⟩, true⟩, none⟩
    (.viewEmergencyAccess 12)⟩

open EmergencyRuns in
theorem use_waits_look :
    ∃ a ∈ ((World.initial []).after
        (asked ++ [⟨nextDay, .job .emergencyRequestTimeout⟩])).db.emergencyAccess.rows,
      a.uuid = 12 ∧ a.granteeUuid = some ⟨6⟩ ∧ a.atype = .view ∧
      ∃ before i later, asked ++ [⟨nextDay, .job .emergencyRequestTimeout⟩] = before ++ i :: later ∧
        Recovery (World.initial []) 12 before i later ∧
        Granted (World.initial []) 12 before i later :=
  use_waits [] (asked ++ [⟨nextDay, .job .emergencyRequestTimeout⟩]) look _
    (.viewEmergencyAccess 12) 12 .view none rfl rfl (by rfl)

end VaultServer.Emergency
