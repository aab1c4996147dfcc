import VaultServer.Effects.Requests
import VaultServer.Effects.Traces

/-!
# The access limit of a send

An access is counted by one statement that also looks at the limit. The requests that change a
send write its whole row from a copy, the count included, so that accesses which were counted since
the copy was read are forgotten and the limit can be passed.
-/

namespace VaultServer

open Lib List Table

variable {w : World} {password : Option String}

variable {env : Env} {id : SendId} {m n : Int}

/-! ## The stored count -/

/-- The send is stored with the limit `m` and with `n` accesses counted. -/
def Limited (id : SendId) (m n : Int) (w : World) : Prop :=
  ∃ s ∈ w.db.sends.rows, s.uuid = id ∧ s.maxAccessCount = some m ∧ s.accessCount = n

theorem Limited.of_mem {s} (h : Limited id m n w) (hs : s ∈ w.db.sends.rows) (hid : s.uuid = id) :
    s.maxAccessCount = some m ∧ s.accessCount = n := by
  obtain ⟨s', hs', hid', hmax, hcount⟩ := h
  obtain rfl := eq_of_key hs hs' (hid.trans hid'.symm)
  exact ⟨hmax, hcount⟩

theorem Limited.of_sends (heq : w'.db.sends = w.db.sends) (h : Limited id m n w) :
    Limited id m n w' := by
  unfold Limited
  rw [heq]
  exact h

/-- A saved copy with the limit and the count of the stored row changes neither. -/
theorem Limited.save {row : Send} (h : Limited id m n w)
    (hrow : row.uuid = id → row.maxAccessCount = some m ∧ row.accessCount = n) :
    Limited id m n (w.exec row.saveStmt) := by
  obtain ⟨-, hx⟩ | ⟨db', -, hs, hx⟩ := w.exec_cases row.saveStmt
  · rw [hx]
    exact h
  · rw [hx]
    obtain ⟨-, rfl⟩ := Db.guarded_eq_some hs
    by_cases hid : row.uuid = id
    · exact ⟨row, mem_upsert.2 (.inl rfl), hid, hrow hid⟩
    · obtain ⟨s, hs, rfl, hkept⟩ := h
      exact ⟨s, mem_upsert.2 (.inr ⟨hs, fun heq => hid heq.symm⟩), rfl, hkept⟩

/-! ## Counting -/

/-- The turn has counted an access of the send. -/
def registered (id : SendId) (t : Turn World Call) : Bool :=
  match t.label with
  | .registerAccess x => x = id && !t.pre.faults.headD false &&
      t.pre.db.sends.rows.any fun s => s.uuid = id ∧ s.hasAccessLeft
  | _ => false

theorem World.refuses_some {f : Db → Db} :
    (w.refuses fun db => some (f db)) = w.faults.headD false := by
  simp [World.refuses]

theorem Send.registerStmt_rows {uuid db s} (hs : s ∈ db.sends.rows) :
    (if s.uuid = uuid ∧ s.hasAccessLeft then
      { s with accessCount := s.accessCount + 1, revisionDate := env.now } else s) ∈
      (Send.registerStmt env uuid db).sends.rows := by
  refine mem_map.2 ⟨s, hs, ?_⟩
  simp only [decide_eq_true_eq]

/-- **One more access is counted, and only below the limit.** -/
theorem Limited.register {t : Turn World Call} (h : Limited id m n t.pre)
    (hlabel : t.label = .registerAccess x)
    (hpost : t.post = t.pre.exec fun db => some (Send.registerStmt env x db)) :
    Limited id m (n + if registered id t then 1 else 0) t.post ∧
      (registered id t = true → n < m) := by
  obtain ⟨s, hs, rfl, hmax, rfl⟩ := h
  have hleft : s.hasAccessLeft = decide (s.accessCount < m) := by
    rw [Send.hasAccessLeft, hmax]
    rfl
  have hany : (t.pre.db.sends.rows.any fun r => r.uuid = s.uuid ∧ r.hasAccessLeft) =
      s.hasAccessLeft := by
    rw [Bool.eq_iff_iff, any_eq_true]
    constructor
    · rintro ⟨r, hr, hrow⟩
      have hr' := of_decide_eq_true hrow
      obtain rfl := eq_of_key hr hs hr'.1
      exact hr'.2
    · intro hl
      exact ⟨s, hs, decide_eq_true ⟨rfl, hl⟩⟩
  have hreg : registered s.uuid t =
      (decide (x = s.uuid) && !t.pre.faults.headD false && decide (s.accessCount < m)) := by
    rw [registered, hlabel]
    simp only
    rw [hany, hleft]
  constructor
  · obtain ⟨hr, hx⟩ | ⟨db', hf, hstmt, hx⟩ :=
      t.pre.exec_cases fun db => some (Send.registerStmt env x db)
    · -- a refused statement counts nothing
      rw [World.refuses_some] at hr
      simp only [hreg, hr, Bool.not_true, Bool.and_false, Bool.false_and, Bool.false_eq_true,
        if_false, Int.add_zero]
      rw [hpost, hx]
      exact ⟨s, hs, rfl, hmax, rfl⟩
    · rw [World.refuses_some] at hf
      obtain rfl := Option.some.inj hstmt
      rw [hpost, hx]
      refine ⟨_, Send.registerStmt_rows hs, ?_⟩
      have hreg' : registered s.uuid t = decide (s.uuid = x ∧ s.hasAccessLeft = true) := by
        rw [hreg, hf, hleft]
        simp [eq_comm]
      rw [hreg']
      by_cases hcount : s.uuid = x ∧ s.hasAccessLeft = true
      · rw [if_pos hcount, decide_eq_true hcount]
        exact ⟨rfl, hmax, rfl⟩
      · rw [if_neg hcount, decide_eq_false hcount]
        exact ⟨rfl, hmax, (Int.add_zero _).symm⟩
  · intro hr
    rw [hreg] at hr
    simp only [Bool.and_eq_true, decide_eq_true_eq] at hr
    exact hr.2

/-! ## What the requests promise -/

/-- The copy has the limit that the request has read, where it is the send in question. -/
def LimitKnown (id : SendId) (m : Int) (before : List (Access World Call)) (s : Send) : Prop :=
  s.uuid = id → (∀ a ∈ before, ∃ n, Limited id m n a.pre) → s.maxAccessCount = some m

/-- A send is written from a copy, or counted; other calls leave the sends alone. -/
def keepsLimit (id : SendId) (m : Int) : Promise := fun before l u =>
  match l with
  | .saveSend row => u = World.exec row.saveStmt ∧ LimitKnown id m before row
  | .registerAccess x => ∃ env, u = World.exec fun db => some (Send.registerStmt env x db)
  | _ => ∀ w, (u w).db.sends = w.db.sends

theorem keepsLimit_about : (keepsLimit id m).About .sends := by
  intro S s l u hs hu
  have hsame : ∀ w : World, (u w).db.sends = w.db.sends := fun w => (hu.keeps w).2 .sends hs
  cases l with
  | saveSend => exact absurd (hu.part _ rfl) hs
  | registerAccess => exact absurd (hu.part _ rfl) hs
  | _ => exact hsame

section
variable {before : List (Access World Call)} {s : Send} {headers : Headers}

theorem LimitKnown.mono (h : LimitKnown id m before s) (hl : before <:+ later) :
    LimitKnown id m later s :=
  fun hid hread => h hid fun a ha => hread a (hl.subset ha)

/-- A row that was read has the limit of the stored one. -/
theorem LimitKnown.of_read (ha : a ∈ before) (hs : s ∈ a.pre.db.sends.rows) :
    LimitKnown id m before s := by
  intro hid hread
  obtain ⟨n, hn⟩ := hread a ha
  exact (hn.of_mem hs hid).1

/-- Another copy of the row with the same limit. -/
theorem LimitKnown.copy (h : LimitKnown id m before s) (hid : s'.uuid = s.uuid)
    (hmax : s'.maxAccessCount = s.maxAccessCount) : LimitKnown id m before s' := by
  intro hid' hread
  rw [hmax]
  exact h (hid.symm.trans hid') hread

theorem Send.save_keepsLimit (h : LimitKnown id m before s) :
    Traces (keepsLimit id m) before (s.save env) ⊤ := by
  refine .still keepsLimit_about Send.updateUsersRevision_writes fun s1 _ hs1 => ?_
  have hcopy : LimitKnown id m s1 { s with revisionDate := env.now } := (h.mono hs1).copy rfl rfl
  refine ⟨⟨rfl, hcopy⟩, fun w => ?_⟩
  dsimp only
  split <;> trivial

theorem Send.registerAccess_keepsLimit :
    Traces (keepsLimit id m) before (s.registerAccess env) ⊤ := by
  refine .still keepsLimit_about Send.updateUsersRevision_writes fun s1 _ _ => ?_
  refine ⟨⟨env, rfl⟩, fun w => ?_⟩
  dsimp only
  split <;> trivial

theorem Send.setPassword_keepsLimit :
    Traces (keepsLimit id m) before (s.setPassword env password) fun later x =>
      before <:+ later ∧ x.uuid = s.uuid ∧ x.maxAccessCount = s.maxAccessCount := by
  cases password with
  | none => exact ⟨suffix_rfl, rfl, rfl⟩
  | some => exact .still keepsLimit_about .getUuid fun _ _ hl => ⟨hl, rfl, rfl⟩

/-- What is left of a request after the sends were written. -/
theorem Traces.rest {c : Cmd α} (h : Writes [] c) :
    Traces (keepsLimit id m) before c ⊤ :=
  (Traces.of_writes keepsLimit_about h not_mem_nil).mono (fun _ _ _ => trivial) fun _ h => h

theorem updateSendFromData_keepsLimit (h : s.uuid = id → data.accessLimit = .ok (some m)) :
    Traces (keepsLimit id m) before (updateSendFromData env s data headers notify) ⊤ := by
  refine .ensure fun _ => .ensure fun _ => .ensure fun _ => ?_
  refine .still keepsLimit_about (.ite ?_ .ret) fun s1 content _ => .lift fun limit hlimit => ?_
  · split <;> trivial
  have hlimit' : s.uuid = id → limit = some m := fun hid =>
    Except.ok.inj (hlimit.symm.trans (h hid))
  refine .bind (Q := fun _ x => x.uuid = s.uuid ∧ x.maxAccessCount = limit) ?_ ?_
  · split
    · exact Send.setPassword_keepsLimit.mono (fun _ _ h => h.2) fun _ h => h
    · exact ⟨rfl, rfl⟩
  · intro s2 x ⟨hid, hmax⟩
    have hknown : LimitKnown id m s2 x := fun hx _ => hmax.trans (hlimit' (hid.symm.trans hx))
    refine (Send.save_keepsLimit hknown).bind fun s3 y _ => ?_
    exact Traces.rest (.bind (.when Send.updateUsersRevision_writes) fun _ => .ret)

theorem putSend_keepsLimit (h : x = id → data.accessLimit = .ok (some m)) :
    Traces (keepsLimit id m) before (putSend env x data headers) ⊤ := by
  refine .still keepsLimit_about enforceDisableSendPolicy_writes fun s1 _ _ => ?_
  refine .still keepsLimit_about enforceDisableHideEmailPolicy_writes fun s2 _ _ => ?_
  refine .query keepsLimit_about fun w => ?_
  cases hfound : Send.findByUuidAndUser w.db x headers.user.uuid with
  | none => exact .err
  | some send =>
    have hx : send.uuid = x := (of_decide_eq_true (mem_of_find? hfound).2).1
    refine .ensure fun _ => ?_
    refine .bind (updateSendFromData_keepsLimit fun hid => ?_) fun _ _ _ => trivial
    exact h (hx.symm.trans hid)

theorem putRemovePassword_keepsLimit :
    Traces (keepsLimit id m) before (putRemovePassword env x headers) ⊤ := by
  refine .still keepsLimit_about enforceDisableSendPolicy_writes fun s1 _ _ => ?_
  refine .query keepsLimit_about fun w => ?_
  cases hfound : Send.findByUuidAndUser w.db x headers.user.uuid with
  | none => exact .err
  | some send =>
    have hknown : LimitKnown id m (⟨.read, w, w⟩ :: s1) send :=
      .of_read mem_cons_self (mem_of_find? hfound).1
    refine Send.setPassword_keepsLimit.bind fun s2 x ⟨hs2, hid, hmax⟩ => ?_
    exact (Send.save_keepsLimit ((hknown.mono hs2).copy hid hmax)).bind fun _ _ _ =>
      Traces.rest Send.updateUsersRevision_writes

theorem generateTokens_keepsLimit :
    Traces (keepsLimit id m) before (generateTokens env accessId password ip) ⊤ := by
  unfold generateTokens
  split
  · exact .err
  · refine .query keepsLimit_about fun w => ?_
    split
    · exact .err
    · refine .still keepsLimit_about checkSendAccess_writes fun s1 _ _ => ?_
      exact Send.registerAccess_keepsLimit.bind fun _ _ _ => Traces.ensure fun _ => trivial

theorem sendAccessLogin_keepsLimit :
    Traces (keepsLimit id m) before (sendAccessLogin env clientId sendId passwordHash ip) ⊤ := by
  refine .still keepsLimit_about .external fun s1 _ _ => .ensure fun _ => ?_
  split
  · exact .err
  · exact generateTokens_keepsLimit.bind fun _ _ _ => trivial

theorem postAccessLegacy_keepsLimit :
    Traces (keepsLimit id m) before (postAccessLegacy env accessId password) ⊤ := by
  refine .still keepsLimit_about .external fun s1 _ _ => ?_
  refine .query keepsLimit_about fun w => ?_
  cases hfound : (env.asSendId accessId).bind (Send.findByUuid w.db) with
  | none => exact .err
  | some send =>
    obtain ⟨x, -, hx⟩ := Option.bind_eq_some_iff.1 hfound
    have hknown : LimitKnown id m (⟨.read, w, w⟩ :: s1) send :=
      .of_read mem_cons_self (mem_of_find? hx).1
    refine .still keepsLimit_about checkSendAccess_writes fun s2 _ hs2 => ?_
    split
    · refine Send.registerAccess_keepsLimit.bind fun _ _ _ => Traces.ensure fun _ => ?_
      exact Traces.rest Send.updateUsersRevision_writes
    · exact (Send.save_keepsLimit (hknown.mono hs2)).bind fun _ _ _ =>
        Traces.rest Send.updateUsersRevision_writes

theorem postAccessFileLegacy_keepsLimit :
    Traces (keepsLimit id m) before (postAccessFileLegacy env x password) ⊤ := by
  refine .still keepsLimit_about .external fun s1 _ _ => ?_
  refine .query keepsLimit_about fun w => ?_
  split
  · exact .err
  · refine .still keepsLimit_about checkSendAccess_writes fun s2 _ _ => ?_
    refine Send.registerAccess_keepsLimit.bind fun _ _ _ => Traces.ensure fun _ => ?_
    exact Traces.rest (.bind Send.updateUsersRevision_writes fun _ => .external)

end

/-! ## In every order -/

/-- Requests for one send that leave its limit as it is. -/
def keepsLimitOf (id : SendId) (m : Int) (e : Event) : Bool :=
  match e.request with
  | .anyone (.sendAccessLogin _ _ _ _) | .anyone (.postAccessLegacy _ _)
  | .anyone (.postAccessFileLegacy _ _) | .send _ (.putRemovePassword _) => true
  | .send _ (.putSend x data) =>
    x ≠ id || match data.accessLimit with
      | .ok limit => limit = some m
      | .error _ => false
  | _ => false

theorem Event.prog_keepsLimit (h : keepsLimitOf id m e = true) :
    Traces (keepsLimit id m) [] e.prog ⊤ := by
  obtain ⟨env, request⟩ := e
  dsimp only [keepsLimitOf] at h
  have hheaders : ∀ {caller : Caller} {f : Headers → Cmd Unit},
      (∀ headers s, Traces (keepsLimit id m) s (f headers) ⊤) →
      Traces (keepsLimit id m) [] (Headers.fromRequest env caller >>= fun headers =>
        f headers >>= fun _ => (pure none : Cmd (Option TokenResponse))) ⊤ := by
    intro caller f hf
    refine .pass keepsLimit_about Headers.fromRequest_writes (by decide) fun s headers _ => ?_
    exact (hf headers s).bind fun _ _ _ => trivial
  split at h
  · exact sendAccessLogin_keepsLimit.bind fun _ _ _ => trivial
  · exact postAccessLegacy_keepsLimit.bind fun _ _ _ => trivial
  · exact postAccessFileLegacy_keepsLimit.bind fun _ _ _ => trivial
  · exact hheaders fun _ _ => putRemovePassword_keepsLimit
  · next x data =>
    refine hheaders fun _ _ => putSend_keepsLimit fun hx => ?_
    subst hx
    simp only [ne_eq, not_true_eq_false, decide_false, Bool.false_or] at h
    split at h
    · next limit hlimit =>
      rw [hlimit, of_decide_eq_true h]
    · cases h
  · cases h

/-- A row that is written back has the count that is stored. -/
def savesCurrent (id : SendId) (t : Turn World Call) : Bool :=
  match t.label with
  | .saveSend row => row.uuid ≠ id ||
      t.pre.db.sends.rows.any fun s => s.uuid = id ∧ s.accessCount = row.accessCount
  | _ => true

/-- One turn counts an access or leaves limit and count as they are. -/
theorem Limited.turn {t : Turn World Call}
    (hpre : Limited id m n t.pre) (hmade : Pool.Made (fun _ => keepsLimit id m) past t)
    (hok : savesCurrent id t = true) (hpast : ∀ x ∈ past, ∃ k, Limited id m k x.pre) :
    Limited id m (n + if registered id t then 1 else 0) t.post ∧
      (registered id t = true → n < m) := by
  obtain ⟨u, hpost, hcall⟩ := hmade
  have hnone : registered id t = false → Limited id m n t.post →
      Limited id m (n + if registered id t then 1 else 0) t.post ∧
        (registered id t = true → n < m) := by
    intro hr h
    rw [hr]
    exact ⟨by simpa using h, fun hf => nomatch hf⟩
  cases hlabel : t.label with
  | saveSend =>
    rw [hlabel] at hcall
    obtain ⟨rfl, hknown⟩ := hcall
    refine hnone (by rw [registered, hlabel]) ?_
    rw [hpost]
    refine hpre.save fun hid => ⟨hknown hid fun a ha => ?_, ?_⟩
    · obtain ⟨x, hx, -, rfl⟩ := mem_own.1 ha
      exact hpast x hx
    · rw [savesCurrent, hlabel] at hok
      simp only [hid, ne_eq, not_true_eq_false, decide_false, Bool.false_or] at hok
      obtain ⟨s, hs, hrow⟩ := any_eq_true.1 hok
      have hrow' := of_decide_eq_true hrow
      exact hrow'.2.symm.trans (hpre.of_mem hs hrow'.1).2
  | registerAccess =>
    rw [hlabel] at hcall
    obtain ⟨env, rfl⟩ := hcall
    exact hpre.register hlabel hpost
  | _ =>
    rw [hlabel] at hcall
    refine hnone (by rw [registered, hlabel]) (hpre.of_sends ?_)
    rw [hpost]
    exact hcall t.pre

/-- The count is that of the accesses counted since, and has not passed the limit on the way. -/
theorem limited_past (hlinked : Chained w0 w past)
    (hmade : Along (Pool.Made fun _ => keepsLimit id m) past)
    (hok : ∀ t ∈ past, savesCurrent id t = true) (h₀ : Limited id m n w0) :
    Limited id m (n + past.countP (registered id)) w ∧
      (past.countP (registered id) : Int) ≤ max 0 (m - n) ∧
      ∀ t ∈ past, ∃ k k', Limited id m k t.pre ∧ Limited id m k' t.post ∧ k ≤ k' := by
  induction past generalizing w with
  | nil =>
    obtain rfl : w = w0 := hlinked
    exact ⟨by simpa using h₀, Int.le_max_left _ _, fun _ h => nomatch h⟩
  | cons t past ih =>
    obtain ⟨rfl, hlinked⟩ := hlinked
    obtain ⟨hpre, hbound, hall⟩ := ih hlinked hmade.2 fun x hx => hok x (mem_cons_of_mem _ hx)
    have hturn := hpre.turn hmade.1 (hok t mem_cons_self) fun x hx => by
      obtain ⟨k, -, hk, -⟩ := hall x hx
      exact ⟨k, hk⟩
    rw [countP_cons]
    refine ⟨?_, ?_, fun x hx => ?_⟩
    · have heq : n + ((past.countP (registered id) + if registered id t then 1 else 0 : Nat) : Int) =
          n + past.countP (registered id) + if registered id t then 1 else 0 := by
        split <;> omega
      rw [heq]
      exact hturn.1
    · by_cases hr : registered id t = true
      · have hbelow := hturn.2 hr
        rw [if_pos hr]
        omega
      · rw [if_neg hr]
        exact hbound
    · rcases mem_cons.1 hx with rfl | hx
      · refine ⟨_, _, hpre, hturn.1, ?_⟩
        split <;> omega
      · exact hall x hx

/-- Requests that take turns, one call at a time in the given order. -/
def sendRequests (w : World) (events : List Event) (schedule : List Nat) :
    Pool World Call Failure (Option TokenResponse) :=
  (Pool.start (events.map Event.prog) w).run schedule

/-- **The limit is kept where rows are written back with the stored count.**  The count never goes
down, it is that of the accesses counted, and they stay within the limit. -/
theorem accesses_within_limit {w : World} {events : List Event} {schedule : List Nat}
    (hevents : ∀ e ∈ events, keepsLimitOf id m e = true) (h₀ : Limited id m n w)
    (hok : ∀ t ∈ (sendRequests w events schedule).past, savesCurrent id t = true) :
    Limited id m (n + (sendRequests w events schedule).past.countP (registered id))
        (sendRequests w events schedule).state ∧
      ((sendRequests w events schedule).past.countP (registered id) : Int) ≤ max 0 (m - n) ∧
      ∀ t ∈ (sendRequests w events schedule).past,
        ∃ k k', Limited id m k t.pre ∧ Limited id m k' t.post ∧ k ≤ k' := by
  have hkeeps : (sendRequests w events schedule).Keeps (fun _ => keepsLimit id m)
      (fun _ _ _ => True) w := by
    refine Pool.run_traced schedule fun i c hc => ?_
    rw [getElem?_map] at hc
    obtain ⟨e, he, rfl⟩ := Option.map_eq_some_iff.1 hc
    exact Event.prog_keepsLimit (hevents e (mem_of_getElem? he))
  exact limited_past hkeeps.linked hkeeps.made hok h₀

instance {w : World} : Decidable (Limited id m n w) :=
  inferInstanceAs (Decidable (∃ s ∈ w.db.sends.rows, _))

namespace SendRuns

/-- A text that may be fetched once. -/
def once : SendData where
  type := SendType.text
  key := "key"
  password := none
  maxAccessCount := some (.number 1)
  expirationDate := none
  deletionDate := days 1
  disabled := false
  hideEmail := none
  emails := none
  name := "name"
  notes := none
  text := some (.string "text")
  file := none
  fileLength := none
  id := none

/-- An account has made the send, which has the identifier 6. -/
def offered : World :=
  (World.initial []).after (Client.signedIn ++ [⟨{}, .send Client.session (.postSend once)⟩])

def fetch : Event := ⟨{}, .anyone (.sendAccessLogin (some "web") (some "6") none "ip")⟩

/-- The owner saves the send again as it is, while two others fetch it. -/
def saveAndFetch : List Event := [⟨{}, .send Client.session (.putSend ⟨6⟩ once)⟩, fetch, fetch]

def inTurn : List Nat := List.replicate 7 0 ++ List.replicate 4 1 ++ List.replicate 4 2

/-- The owner's request has its copy of the row before the first access is counted and writes it
afterwards. -/
def saveAround : List Nat :=
  List.replicate 4 0 ++ List.replicate 4 1 ++ List.replicate 3 0 ++ List.replicate 4 2

end SendRuns

open SendRuns in
theorem accesses_within_limit_inTurn :
    ((sendRequests offered saveAndFetch inTurn).past.countP (registered ⟨6⟩) : Int) ≤
      max 0 (1 - 0) :=
  (accesses_within_limit (m := 1) (n := 0) (by decide +kernel) (by decide +kernel)
    (by decide +kernel)).2.1

open SendRuns in
/-- **A send that may be fetched once is fetched twice**: the owner's request has written the count
back that it had read, and no request has failed. -/
theorem limit_passed :
    (∀ e ∈ saveAndFetch, keepsLimitOf ⟨6⟩ 1 e = true) ∧ Limited ⟨6⟩ 1 0 offered ∧
      (∀ i ∈ [0, 1, 2], (sendRequests offered saveAndFetch saveAround).hasReturned i = true) ∧
      (∃ t ∈ (sendRequests offered saveAndFetch saveAround).past,
        Limited ⟨6⟩ 1 1 t.pre ∧ Limited ⟨6⟩ 1 0 t.post) ∧
      (sendRequests offered saveAndFetch saveAround).past.countP (registered ⟨6⟩) = 2 := by
  decide +kernel

end VaultServer
