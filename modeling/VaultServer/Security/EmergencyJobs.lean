import VaultServer.Security.Consent

/-!
# One waiting time stops the emergency access jobs

Both jobs walk over the recoveries that wait and add a number of days that the grantor has chosen
to a date. A date outside the calendar is a panic, and it ends the walk: the rows behind it are not
approved, and their grantors are not reminded, in this run of the job or in any later one.
-/

namespace VaultServer.Emergency

open Lib List Option

variable {env : Env} {w w' : World} {ea : EmergencyAccess}

/-! ## The walk -/

section
variable {due due' done : EmergencyAccess → Prop} {f : EmergencyAccess → EmergencyAccess}

/-- What a round does to the table: the row is written, unless it is not due. -/
def Rewrites (due : EmergencyAccess → Prop) (f : EmergencyAccess → EmergencyAccess)
    (ea : EmergencyAccess) (w w' : World) : Prop :=
  (¬ due ea ∧ w'.db.emergencyAccess.rows = w.db.emergencyAccess.rows) ∨
    w'.db.emergencyAccess.rows =
      w.db.emergencyAccess.rows.map fun x => if x.uuid = ea.uuid then f x else x

/-- The access is stored, and written if it is due. -/
def Served (due done : EmergencyAccess → Prop) (ea : EmergencyAccess) (w : World) : Prop :=
  ∃ a ∈ w.db.emergencyAccess.rows, a.uuid = ea.uuid ∧ (due ea → done a)

theorem Rewrites.served (h : Rewrites due' f ea w w') (hkey : ∀ r, (f r).uuid = r.uuid)
    (hdone : ∀ r, done (f r)) (hx : Served due done x w) : Served due done x w' := by
  obtain ⟨a, ha, hid, hd⟩ := hx
  rcases h with ⟨-, hrows⟩ | hrows
  · exact ⟨a, hrows ▸ ha, hid, hd⟩
  · refine ⟨if a.uuid = ea.uuid then f a else a, hrows ▸ mem_map_of_mem ha, ?_⟩
    split
    · exact ⟨(hkey a).trans hid, fun _ => hdone a⟩
    · exact ⟨hid, hd⟩

theorem Rewrites.serves (h : Rewrites due f ea w w') (hkey : ∀ r, (f r).uuid = r.uuid)
    (hdone : ∀ r, done (f r)) (hx : Served (fun _ => False) done ea w) : Served due done ea w' := by
  obtain ⟨a, ha, hid, -⟩ := hx
  rcases h with ⟨hdue, hrows⟩ | hrows
  · exact ⟨a, hrows ▸ ha, hid, fun h => absurd h hdue⟩
  · refine ⟨f a, hrows ▸ ?_, (hkey a).trans hid, fun _ => hdone a⟩
    exact mem_map.2 ⟨a, ha, if_pos hid⟩

end

/-! ## Both jobs -/

theorem expectOk_returns {c : Cmd Unit} {message Q} (h : Returns w c Q) :
    Returns w (expectOk c message) Q := by
  refine Prog.Returns.bind (Returns.catchErr h) fun r hr => ?_
  obtain ⟨a, rfl, hq⟩ := hr
  exact .ret hq

/-- The job comes to its end, and what was due is done. -/
def Finishes (job : Cmd Unit) (due done : EmergencyAccess → Prop) (w : World) : Prop :=
  (job.run w).1 = .ok () ∧ ∀ ea ∈ w.db.emergencyAccess.rows, due ea →
    ∃ a ∈ (job.after w).db.emergencyAccess.rows, a.uuid = ea.uuid ∧ done a

/-- The job comes to a verdict on the row, and can write it if need be. -/
def GetsPast (judge : EmergencyAccess → Time → Except Failure Bool)
    (writable : EmergencyAccess → Prop) (ea : EmergencyAccess) : Prop :=
  ∃ t b, ea.recoveryInitiatedAt = some t ∧ judge ea t = .ok b ∧ (b = true → writable ea)

section
variable {judge : EmergencyAccess → Time → Except Failure Bool}
  {write tell : EmergencyAccess → Cmd Unit} {message : String}
  {writable due done : EmergencyAccess → Prop} {f : EmergencyAccess → EmergencyAccess}

theorem attend_stops (h : ¬ GetsPast judge writable ea)
    (hrefuse : ¬ writable ea → ∃ m, write ea = .fail (.panic m)) :
    ∃ e, attend judge write tell message ea = .fail e := by
  unfold attend
  cases ht : ea.recoveryInitiatedAt with
  | none => exact ⟨_, rfl⟩
  | some t =>
    show ∃ e, lift (judge ea t) >>= _ = _
    cases hj : judge ea t with
    | error e => exact ⟨e, rfl⟩
    | ok b =>
      have hno : b = true ∧ ¬ writable ea := by
        by_contra hno
        exact h ⟨t, b, ht, hj, fun hb => by_contra fun hwr => hno ⟨hb, hwr⟩⟩
      obtain ⟨rfl, hno⟩ := hno
      obtain ⟨m, hm⟩ := hrefuse hno
      refine ⟨.panic m, ?_⟩
      show expectOk (write ea) message >>= _ = _
      rw [hm]
      rfl

theorem attend_returns (h : GetsPast judge writable ea) (htell : tell ea = pure ())
    (hwrite : writable ea → Returns w (write ea) fun _ w' => w'.db.emergencyAccess.rows =
      w.db.emergencyAccess.rows.map fun x => if x.uuid = ea.uuid then f x else x)
    (hdue : due ea → ∃ t, ea.recoveryInitiatedAt = some t ∧ judge ea t ≠ .ok false) :
    Returns w (attend judge write tell message ea) fun _ w' => Rewrites due f ea w w' := by
  obtain ⟨t, b, ht, hj, hwr⟩ := h
  unfold attend
  rw [ht]
  show Returns w (lift (judge ea t) >>= _) _
  rw [hj, htell]
  cases b with
  | false =>
    refine .ret (.inl ⟨fun hd => ?_, rfl⟩)
    obtain ⟨t', ht', hb⟩ := hdue hd
    obtain rfl := Option.some.inj (ht.symm.trans ht')
    exact hb hj
  | true =>
    show Returns w (expectOk (write ea) message >>= fun _ => pure ()) _
    exact Prog.Returns.bind (expectOk_returns (hwrite (hwr rfl))) fun _ h => .ret (.inr h)

theorem finishes_iff (hs : undisturbed (eachWaiting env judge write tell message) w = true)
    (hkey : ∀ r, (f r).uuid = r.uuid) (hdone : ∀ r, done (f r)) (htell : ∀ ea, tell ea = pure ())
    (hwrite : ∀ ea w, writable ea → Returns w (write ea) fun _ w' =>
      w'.db.emergencyAccess.rows =
        w.db.emergencyAccess.rows.map fun x => if x.uuid = ea.uuid then f x else x)
    (hrefuse : ∀ ea, ¬ writable ea → ∃ m, write ea = .fail (.panic m))
    (hdue : ∀ ea, due ea → ea.status = .recoveryInitiated ∧ ¬ done ea ∧
      ∃ t, ea.recoveryInitiatedAt = some t ∧ judge ea t ≠ .ok false) :
    Finishes (eachWaiting env judge write tell message) due done w ↔
      if env.emergencyAccessAllowed
        then ∀ ea ∈ EmergencyAccess.findAllRecoveriesInitiated w.db, GetsPast judge writable ea
        else ∀ ea ∈ w.db.emergencyAccess.rows, ¬ due ea := by
  unfold eachWaiting at hs ⊢
  cases hallowed : env.emergencyAccessAllowed with
  | false =>
    constructor
    · rintro ⟨-, h⟩ ea hea hd
      obtain ⟨a, ha, hid, hda⟩ := h ea hea hd
      obtain rfl := Table.eq_of_key ha hea hid
      exact (hdue a hd).2.1 hda
    · exact fun h => ⟨rfl, fun ea hea hd => absurd hd (h ea hea)⟩
  | true =>
    rw [hallowed] at hs
    constructor
    · rintro ⟨hok, -⟩ ea hea
      by_contra h
      obtain ⟨e, he⟩ := attend_stops h (hrefuse ea)
      exact Prog.each_stops he hea hok
    · intro h
      have hreturns : Returns w (Prog.each _ (attend judge write tell message)) _ :=
        Prog.Returns.collect (J := fun w' =>
          ∀ ea ∈ EmergencyAccess.findAllRecoveriesInitiated w.db, Served (fun _ => False) done ea w')
        (D := Served due done) (fun ea hea => ⟨ea, (mem_filter.1 hea).1, rfl, nofun⟩)
        fun ea hea w' hw' => (attend_returns (h ea hea) (htell ea) (hwrite ea w') fun hd =>
          (hdue ea hd).2.2).mono fun _ w'' h =>
          ⟨fun x hx => h.served hkey hdone (hw' x hx), h.serves hkey hdone (hw' ea hea),
            fun x hx => h.served hkey hdone hx⟩
      obtain ⟨_, hok, -, hserved, -⟩ := hreturns (Bool.and_eq_true_iff.1 hs).2
      refine ⟨hok, fun ea hea hd => ?_⟩
      obtain ⟨hs, -, t, ht, -⟩ := hdue ea hd
      have hlisted : ea ∈ EmergencyAccess.findAllRecoveriesInitiated w.db := by
        simp [EmergencyAccess.findAllRecoveriesInitiated, hea, hs, ht]
      obtain ⟨a, ha, hid, hda⟩ := hserved ea hlisted
      exact ⟨a, ha, hid, hda hd⟩

end

/-! ## When they finish -/

/-- The timeout job gets past the row. -/
def Approvable (now : Time) (ea : EmergencyAccess) : Prop :=
  ∃ t, ea.recoveryInitiatedAt = some t ∧ InCalendar (t + ea.waitTimeDays * 86400) ∧
    (t + ea.waitTimeDays * 86400 ≤ now → ea.granteeUuid.isSome = true)

theorem approvable_iff : Approvable env.now ea ↔
    GetsPast (recoveryAllowed env) (fun ea => ea.granteeUuid.isSome = true) ea := by
  constructor
  · rintro ⟨t, ht, hcal, hgrantee⟩
    exact ⟨t, _, ht, recoveryAllowed_eq_ok.2 ⟨hcal, rfl⟩, fun h => hgrantee (of_decide_eq_true h)⟩
  · rintro ⟨t, b, ht, hb, hgrantee⟩
    obtain ⟨hcal, rfl⟩ := recoveryAllowed_eq_ok.1 hb
    exact ⟨t, ht, hcal, fun h => hgrantee (decide_eq_true h)⟩

/-- The grantor is to be reminded. -/
def ReminderDue (now : Time) (ea : EmergencyAccess) : Prop :=
  ea.status = .recoveryInitiated ∧
    (∃ t, ea.recoveryInitiatedAt = some t ∧ t + (ea.waitTimeDays - 1) * 86400 ≤ now) ∧
    ∀ last ∈ ea.lastNotificationAt, last + 86400 ≤ now

/-- The reminder job gets past the row. -/
def Remindable (ea : EmergencyAccess) : Prop :=
  -2147483648 ≤ ea.waitTimeDays - 1 ∧
    (∃ t, ea.recoveryInitiatedAt = some t ∧ InCalendar (t + (ea.waitTimeDays - 1) * 86400)) ∧
    ∀ last ∈ ea.lastNotificationAt, InCalendar (last + 86400)

theorem reminderDue_eq_ok : reminderDue env ea t = .ok b ↔
    -2147483648 ≤ ea.waitTimeDays - 1 ∧ InCalendar (t + (ea.waitTimeDays - 1) * 86400) ∧
      (∀ last ∈ ea.lastNotificationAt, InCalendar (last + 86400)) ∧
      b = (decide (t + (ea.waitTimeDays - 1) * 86400 ≤ env.now) &&
        decide (∀ last ∈ ea.lastNotificationAt, last + 86400 ≤ env.now)) := by
  simp only [reminderDue, dayBefore, addDays, bind_eq_ok_iff, ite_eq_ok, pure_eq_ok]
  cases ea.lastNotificationAt with
  | none => simp [eq_comm]
  | some =>
    simp only [elim_some, ite_eq_ok]
    simp [eq_comm]

theorem remindable_iff (env : Env) : Remindable ea ↔ GetsPast (reminderDue env) ⊤ ea := by
  constructor
  · rintro ⟨hmin, ⟨t, ht, hcal⟩, hlast⟩
    exact ⟨t, _, ht, reminderDue_eq_ok.2 ⟨hmin, hcal, hlast, rfl⟩, fun _ => trivial⟩
  · rintro ⟨t, b, ht, hb, -⟩
    obtain ⟨hmin, hcal, hlast, -⟩ := reminderDue_eq_ok.1 hb
    exact ⟨hmin, ⟨t, ht, hcal⟩, hlast⟩

section
variable (hmail : env.mailEnabled = false) (hf : w.faults = [])
include hmail hf

theorem timeoutJob_finishes_iff : Finishes (emergencyRequestTimeoutJob env) (Due env.now)
        (fun a => a.status = .recoveryApproved) w ↔
      if env.emergencyAccessAllowed
        then ∀ ea ∈ EmergencyAccess.findAllRecoveriesInitiated w.db, Approvable env.now ea
        else ∀ ea ∈ w.db.emergencyAccess.rows, ¬ Due env.now ea := by
  simp only [approvable_iff]
  refine finishes_iff (f := fun x => { x with status := .recoveryApproved })
    (emergencyRequestTimeoutJob_writes.undisturbed hf) (fun _ => rfl) (fun _ => rfl) ?_ ?_ ?_ ?_
  · intro ea
    rw [mailTimedOut, hmail]
    rfl
  · intro ea w hg
    obtain ⟨grantee, hg⟩ := isSome_iff_exists.1 hg
    unfold EmergencyAccess.updateAccessStatusAndSave
    rw [hg]
    refine Returns.still User.updateUuidRevision_writes .updateUuidRevision fun _ w' hsame => ?_
    have hrows : w'.db.emergencyAccess = w.db.emergencyAccess := hsame .emergencyAccess
    refine Prog.Returns.mono (Returns.exec rfl rfl) fun _ w'' h => ?_
    rw [h, ← hrows]
    simp [EmergencyAccess.updateStatusStmt, Table.updateWhere]
  · intro ea hg
    unfold EmergencyAccess.updateAccessStatusAndSave
    rw [not_isSome_iff_eq_none.1 hg]
    exact ⟨_, rfl⟩
  · rintro ea ⟨hs, t, ht, hle⟩
    refine ⟨hs, by simp [hs], t, ht, fun hno => ?_⟩
    simp [recoveryAllowed_eq_ok, hle] at hno

theorem reminderJob_finishes_iff :
    Finishes (emergencyNotificationReminderJob env) (ReminderDue env.now)
        (fun a => a.lastNotificationAt = some env.now) w ↔
      if env.emergencyAccessAllowed
        then ∀ ea ∈ EmergencyAccess.findAllRecoveriesInitiated w.db, Remindable ea
        else ∀ ea ∈ w.db.emergencyAccess.rows, ¬ ReminderDue env.now ea := by
  simp only [remindable_iff env]
  refine finishes_iff (f := fun x => { x with lastNotificationAt := some env.now })
    (emergencyNotificationReminderJob_writes.undisturbed hf) (fun _ => rfl) (fun _ => rfl) ?_ ?_
    (fun _ h => absurd trivial h) ?_
  · intro ea
    rw [mailReminder, hmail]
    rfl
  · intro ea w _
    refine Prog.Returns.mono Returns.execTotal fun _ w' h => ?_
    rw [h]
    simp [Table.updateWhere]
  · rintro ea ⟨hs, ⟨t, ht, hle⟩, hnext⟩
    refine ⟨hs, fun hnow => ?_, t, ht, fun hno => ?_⟩
    · exact Int.not_lt.2 (hnext _ hnow) (Int.lt_add_of_pos_right env.now (by decide))
    · rw [reminderDue_eq_ok, decide_eq_true hle, decide_eq_true hnext] at hno
      cases hno.2.2.2

end

/-- **The jobs finish exactly when every waiting time of a recovery that waits leads to a date**, the
day before is a date too, and the grantee of what is due is known. Switched off, they do nothing. -/
theorem jobsFinish_iff (env : Env) (w : World) (hmail : env.mailEnabled = false)
    (hf : w.faults = []) :
    (Finishes (emergencyRequestTimeoutJob env) (Due env.now)
        (fun a => a.status = .recoveryApproved) w ∧
      Finishes (emergencyNotificationReminderJob env) (ReminderDue env.now)
        (fun a => a.lastNotificationAt = some env.now) w) ↔
      if env.emergencyAccessAllowed
        then ∀ ea ∈ EmergencyAccess.findAllRecoveriesInitiated w.db,
          Approvable env.now ea ∧ Remindable ea
        else ∀ ea ∈ w.db.emergencyAccess.rows, ¬ Due env.now ea ∧ ¬ ReminderDue env.now ea := by
  rw [timeoutJob_finishes_iff hmail hf, reminderJob_finishes_iff hmail hf]
  cases env.emergencyAccessAllowed with
  | false => exact forall₂_and.symm
  | true => exact forall₂_and.symm

namespace JobRuns

/-- Two accounts, the first of which trusts the second after `days` days; they ask for the vault. -/
def waiting (days : Int) : World :=
  (World.initial []).after (EmergencyRuns.asked.map fun e => match e.request with
    | .emergency caller (.sendInvite data) =>
      { e with request := .emergency caller (.sendInvite { data with waitTimeDays := days }) }
    | _ => e)

end JobRuns

open JobRuns EmergencyRuns in
theorem jobsFinish_iff_oneDay :
    (waiting 1).faults = [] ∧
      Finishes (emergencyRequestTimeoutJob nextDay) (Due nextDay.now)
        (fun a => a.status = .recoveryApproved) (waiting 1) ∧
      Finishes (emergencyNotificationReminderJob nextDay) (ReminderDue nextDay.now)
        (fun a => a.lastNotificationAt = some nextDay.now) (waiting 1) := by
  have hf : (waiting 1).faults = [] := by decide +kernel
  have hlist : EmergencyAccess.findAllRecoveriesInitiated (waiting 1).db =
      [⟨12, ⟨0⟩, some ⟨6⟩, none, some "key", .view, .recoveryInitiated, 1, some 0, some 0⟩] := by
    decide +kernel
  refine ⟨hf, (jobsFinish_iff nextDay (waiting 1) rfl hf).2 ?_⟩
  rw [hlist]
  intro ea hea
  obtain rfl := mem_singleton.1 hea
  exact ⟨⟨0, rfl, by decide, fun _ => rfl⟩, by decide, ⟨0, rfl, by decide⟩, by decide⟩

open JobRuns in
/-- **The largest waiting time ends the timeout job with a panic.** -/
theorem job_panics_on_long_wait :
    ((emergencyRequestTimeoutJob EmergencyRuns.nextDay).run (waiting 2147483647)).1 =
      .error (.panic "`NaiveDateTime + TimeDelta` overflowed") := by
  decide +kernel

end VaultServer.Emergency
