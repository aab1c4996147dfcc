import VaultServer.Effects.Requests
import VaultServer.Lib.Interleave

/-!
# Emergency access

The status of an emergency access is moved by the two sides and, when the grantor does not answer,
by a job. The job reads the accesses that wait and then writes one status after the other without
looking again, so that a rejection in between is overwritten.
-/

namespace VaultServer

open Lib List Table

variable {env : Env} {id : Nat}

/-! ## A rejection and the job -/

/-- The access is back where it was before the contact asked. -/
def Rejected (id : Nat) (w : World) : Prop :=
  ∃ a ∈ w.db.emergencyAccess.rows, a.uuid = id ∧ a.status = .confirmed

/-- A call that leaves a rejection alone, or the job's update. -/
def Call.SparesRejection (id : Nat) (l : Call) (u : World → World) : Prop :=
  match l with
  | .timeoutEmergencyAccess x =>
    u = World.exec fun db => some (EmergencyAccess.updateStatusStmt x .recoveryApproved db)
  | _ => ∀ w, Rejected id w → Rejected id (u w)

theorem Writes.sparesRejection {S} {c : Cmd α} (h : Writes S c)
    (hs : Part.emergencyAccess ∉ S) : c.Each (Call.SparesRejection id) := by
  refine Prog.Each.mono (fun l u hu => ?_) h
  have hsame : ∀ w : World, (u w).db.emergencyAccess = w.db.emergencyAccess := fun w =>
    (hu.keeps w).2 _ hs
  have hkeeps : ∀ w, Rejected id w → Rejected id (u w) := by
    intro w hw
    unfold Rejected
    rw [hsame w]
    exact hw
  cases l with
  | timeoutEmergencyAccess => exact absurd (hu.part _ rfl) hs
  | _ => exact hkeeps

theorem EmergencyAccess.updateAccessStatusAndSave_spares {ea : EmergencyAccess} :
    (ea.updateAccessStatusAndSave env .recoveryApproved).Each (Call.SparesRejection id) := by
  unfold EmergencyAccess.updateAccessStatusAndSave
  split
  · trivial
  · refine Prog.Each.bind (Writes.sparesRejection (S := []) User.updateUuidRevision_writes
      not_mem_nil) fun _ => ⟨rfl, fun w => ?_⟩
    dsimp only
    split <;> trivial

theorem expectOk_each {c : Cmd α} (h : c.Each P) : (expectOk c message).Each P := by
  refine Prog.Each.bind (Prog.Each.bind h.attempt fun r => ?_) fun r => ?_
  · split <;> trivial
  · split <;> trivial

theorem Emergency.timeoutJob_spares :
    (Emergency.emergencyRequestTimeoutJob env).Each (Call.SparesRejection id) := by
  have hstill : ∀ {α : Type} {c : Cmd α}, Writes [] c → c.Each (Call.SparesRejection id) := fun h =>
    h.sparesRejection not_mem_nil
  unfold Emergency.emergencyRequestTimeoutJob Emergency.eachWaiting Prog.when
  split
  · refine Prog.Each.bind (hstill .query) fun list => Prog.Each.each fun ea _ => ?_
    refine Prog.Each.bind (hstill .unwrap) fun initiatedAt => ?_
    refine Prog.Each.bind (hstill .lift) fun isDue => ?_
    cases isDue with
    | false => trivial
    | true =>
      refine Prog.Each.bind (expectOk_each EmergencyAccess.updateAccessStatusAndSave_spares) ?_
      exact fun _ => hstill Emergency.mailTimedOut_writes
  · trivial

section
variable {before : List (Access World Call)} {α β : Type} {S : List Part}

/-- The calls of the rejecting request, with what is known of them when it returns. -/
def SparesRejection (id : Nat) (before : List (Access World Call)) (c : Cmd α)
    (Q : List (Access World Call) → α → Prop) : Prop :=
  Prog.Traced (fun _ => Call.SparesRejection id) Q (fun _ => True) before c

theorem SparesRejection.of_writes {c : Cmd α} (h : Writes S c) (hs : Part.emergencyAccess ∉ S) :
    SparesRejection id before c fun s _ => before <:+ s := by
  have hcalls : SparesRejection id before c ⊤ := .of_each (h.sparesRejection hs) fun _ _ _ hu => hu
  exact (Prog.Traced.onward suffix_rfl hcalls).mono (fun _ _ h => h.2) fun _ h => h

theorem SparesRejection.pass {c : Cmd α} {k : α → Cmd β} {R : List (Access World Call) → β → Prop}
    (h : Writes S c) (hs : Part.emergencyAccess ∉ S)
    (hk : ∀ s a, SparesRejection id s (k a) R) : SparesRejection id before (c >>= k) R :=
  (of_writes h hs).bind fun s a _ => hk s a

theorem EmergencyAccess.exec_save_rejected {ea : EmergencyAccess} {w : World} (hid : ea.uuid = id)
    (hstatus : ea.status = .confirmed) (hw : w.refuses ea.saveStmt = false ∨ Rejected id w) :
    Rejected id (w.exec ea.saveStmt) := by
  obtain ⟨hr, hx⟩ | ⟨db', -, hs, hx⟩ := w.exec_cases ea.saveStmt
  · rw [hx]
    rcases hw with hw | hw
    · rw [hr] at hw
      cases hw
    · exact hw
  · rw [hx]
    obtain ⟨-, rfl⟩ := Db.guarded_eq_some hs
    exact ⟨ea, mem_upsert.2 (.inl rfl), hid, hstatus⟩

/-- **A rejection that returns has been stored.** -/
theorem Emergency.rejectEmergencyAccess_spares {headers : Headers} :
    SparesRejection id before (Emergency.rejectEmergencyAccess env id headers) fun s _ =>
      ∃ a ∈ s, Rejected id a.post := by
  refine .pass (S := []) .ensure not_mem_nil fun s1 _ => ?_
  refine Prog.Traced.read (fun _ h => h) fun w => ?_
  dsimp only
  cases hfound : EmergencyAccess.findByUuidAndGrantorUuid w.db id headers.user.uuid with
  | none => trivial
  | some ea =>
    obtain ⟨-, hkey⟩ := mem_of_find? hfound
    simp only [Bool.decide_and, Bool.and_eq_true, decide_eq_true_eq] at hkey
    refine SparesRejection.pass (S := []) .ensure not_mem_nil fun s2 _ => ?_
    refine SparesRejection.pass (S := []) Emergency.checkAccount_writes not_mem_nil fun s3 _ => ?_
    refine Prog.Traced.bind (Q := fun s _ => ∃ a ∈ s, Rejected id a.post) ?_ fun s5 _ h5 => ?_
    · refine SparesRejection.pass (S := []) User.updateUuidRevision_writes not_mem_nil fun s4 _ => ?_
      refine ⟨fun w' h => EmergencyAccess.exec_save_rejected hkey.1 rfl (.inr h), fun w' => ?_⟩
      dsimp only
      cases hr : w'.refuses (EmergencyAccess.saveStmt { ea with status := .confirmed }) with
      | true => trivial
      | false =>
        refine ⟨_, mem_cons_self, ?_⟩
        exact EmergencyAccess.exec_save_rejected hkey.1 rfl (.inl hr)
    · refine (SparesRejection.of_writes (S := []) (.when .external) not_mem_nil).mono ?_
        fun _ h => h
      intro s _ hs
      obtain ⟨a, ha, hrejected⟩ := h5
      exact ⟨a, hs.subset ha, hrejected⟩

end

/-! ### In every order -/

/-- The job and the rejection of one access, one call at a time in the given order. -/
def timeoutAndReject (w : World) (jobEnv env : Env) (caller : Caller) (id : Nat)
    (schedule : List Nat) : Pool World Call Failure (Option TokenResponse) :=
  (Pool.start [Event.prog ⟨jobEnv, .job .emergencyRequestTimeout⟩,
    Event.prog ⟨env, .emergency caller (.rejectEmergencyAccess id)⟩] w).run schedule

/-- The job's update finds the access still waiting. -/
def approvesWaiting (t : Turn World Call) : Bool :=
  match t.label with
  | .timeoutEmergencyAccess x =>
    t.pre.db.emergencyAccess.rows.any fun a => a.uuid = x ∧ a.status = .recoveryInitiated
  | _ => true

theorem EmergencyAccess.exec_update_rejected (hx : x ≠ id) (hw : Rejected id w) :
    Rejected id (w.exec fun db => some (EmergencyAccess.updateStatusStmt x .recoveryApproved db)) := by
  obtain ⟨a, ha, rfl, hstatus⟩ := hw
  obtain ⟨-, he⟩ | ⟨db', -, hs, he⟩ :=
    w.exec_cases fun db => some (EmergencyAccess.updateStatusStmt x .recoveryApproved db)
  · rw [he]
    exact ⟨a, ha, rfl, hstatus⟩
  · rw [he]
    obtain rfl := Option.some.inj hs
    refine ⟨a, mem_map.2 ⟨a, ha, ?_⟩, rfl, hstatus⟩
    exact if_neg fun h => hx (of_decide_eq_true h).symm

/-- A turn that finds a rejection leaves it. -/
theorem Rejected.turn
    (hm : Pool.Made (fun _ _ => Call.SparesRejection id) past t) (hok : approvesWaiting t = true)
    (hpre : Rejected id t.pre) : Rejected id t.post := by
  obtain ⟨u, hu, hcall⟩ := hm
  rw [hu]
  unfold approvesWaiting at hok
  revert hok hcall
  cases t.label with
  | timeoutEmergencyAccess =>
    rintro hok rfl
    obtain ⟨a, ha, hwaits⟩ := any_eq_true.1 hok
    simp only [Bool.decide_and, Bool.and_eq_true, decide_eq_true_eq] at hwaits
    refine EmergencyAccess.exec_update_rejected ?_ hpre
    -- an access that is rejected does not wait
    rintro rfl
    obtain ⟨b, hb, hid, hstatus⟩ := hpre
    obtain rfl := eq_of_key ha hb (hwaits.1.trans hid.symm)
    rw [hstatus] at hwaits
    cases hwaits.2
  | _ => exact fun _ hkeeps => hkeeps t.pre hpre

theorem timeoutAndReject_keeps :
    (timeoutAndReject w jobEnv env caller id schedule).Keeps (fun _ _ => Call.SparesRejection id)
      (fun i s _ => i = 1 → ∃ a ∈ s, Rejected id a.post) w := by
  refine Pool.run_traced schedule fun i c hc => ?_
  match i with
  | 0 =>
    obtain rfl := Option.some.inj hc
    have hjob : (Event.prog ⟨jobEnv, .job .emergencyRequestTimeout⟩).Each (Call.SparesRejection id) :=
      Prog.Each.bind Emergency.timeoutJob_spares fun _ => trivial
    have hcalls : SparesRejection id [] (Event.prog ⟨jobEnv, .job .emergencyRequestTimeout⟩)
        ⊤ := .of_each hjob fun _ _ _ h => h
    exact hcalls.mono (fun _ _ _ h => nomatch h) fun _ h => h
  | 1 =>
    obtain rfl := Option.some.inj hc
    refine SparesRejection.pass Headers.fromRequest_writes (by decide) fun s headers => ?_
    exact Emergency.rejectEmergencyAccess_spares.bind fun s _ h _ => h
  | _ + 2 => cases hc

/-- **A rejection stands, where the job approves only what still waits.** -/
theorem rejected_of_approvesWaiting {w : World} {jobEnv : Env} {caller : Caller}
    {schedule : List Nat}
    (hok : ∀ t ∈ (timeoutAndReject w jobEnv env caller id schedule).past, approvesWaiting t = true)
    (hreturned : (timeoutAndReject w jobEnv env caller id schedule).hasReturned 1 = true) :
    Rejected id (timeoutAndReject w jobEnv env caller id schedule).state := by
  obtain ⟨answer, hthread⟩ := Pool.exists_of_hasReturned hreturned
  have hkeeps : (timeoutAndReject w jobEnv env caller id schedule).Keeps
      (fun _ _ => Call.SparesRejection id) (fun i s _ => i = 1 → ∃ a ∈ s, Rejected id a.post) w :=
    timeoutAndReject_keeps
  obtain ⟨hchain, hmade, hthreads⟩ := hkeeps
  obtain ⟨a, ha, hrejected⟩ := hthreads 1 _ hthread rfl
  obtain ⟨t, ht, -, rfl⟩ := mem_own.1 ha
  obtain ⟨later, earlier, hpast⟩ := append_of_mem ht
  rw [hpast] at hchain hmade hok
  refine (hchain.stays hrejected fun l x e hlater hpre => ?_).1
  rw [hlater, append_assoc, cons_append] at hmade hok
  exact hpre.turn hmade.suffix.1 (hok x (by simp))

namespace EmergencyRuns

/-- Two accounts, the first of which trusts the second, who has asked for the vault. -/
def asked : List Event := Client.signedIn ++
  [⟨{}, Client.signUp "b@example.com"⟩, ⟨{}, Client.signIn "b@example.com" ⟨8⟩⟩,
    ⟨{}, .emergency Client.session (.sendInvite ⟨"b@example.com", "0", 1⟩)⟩,
    ⟨{}, .emergency Client.session (.confirmEmergencyAccess 12 "key")⟩,
    ⟨{}, .emergency (Client.caller ⟨6⟩ 9 ⟨8⟩) (.initiateEmergencyAccess 12)⟩]

/-- The clock of the job when the grantor has let a day pass. -/
def nextDay : Env := { now := 86400 }

def grantor : Caller := Client.session

/-- The job is over before the rejection begins. -/
def jobFirst : List Nat := [0, 0, 0] ++ List.replicate 6 1

/-- The job has its list when the rejection begins, and goes on when that is over. -/
def jobAround : List Nat := [0] ++ List.replicate 6 1 ++ [0, 0]

end EmergencyRuns

open EmergencyRuns in
theorem rejected_of_approvesWaiting_jobFirst :
    Rejected 12 (timeoutAndReject ((World.initial []).after asked) nextDay {} grantor 12
      jobFirst).state :=
  rejected_of_approvesWaiting (by decide +kernel) (by decide +kernel)

open EmergencyRuns in
/-- **The job overwrites a rejection**: both have returned, and the contact has the access that the
grantor has refused. -/
theorem rejection_undone :
    (((World.initial []).after asked).db.emergencyAccess.rows.any fun a =>
        a.uuid = 12 ∧ a.status = .recoveryInitiated) = true ∧
      (timeoutAndReject ((World.initial []).after asked) nextDay {} grantor 12 jobAround).hasReturned
        0 = true ∧
      (timeoutAndReject ((World.initial []).after asked) nextDay {} grantor 12 jobAround).hasReturned
        1 = true ∧
      ∀ a ∈ (timeoutAndReject ((World.initial []).after asked) nextDay {} grantor 12
        jobAround).state.db.emergencyAccess.rows, a.uuid = 12 ∧ a.status = .recoveryApproved := by
  decide +kernel

end VaultServer
