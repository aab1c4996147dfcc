import VaultServer.Security.Secrets
import VaultServer.Security.Stamps

/-!
# Refresh secrets under interleaving

Any number of requests, of every kind, take turns at the database. A password refresh consumes the
secret it shows by a compare-and-set, so two refreshes with one secret cannot both succeed. But
`Device::save` writes every column of a copy that may be old, the secret included: a request that
read a device before another one has rotated its secret brings the old secret back to life.

Where no request saves such a copy, a secret that was replaced is never held or accepted again.
-/

namespace VaultServer

open Lib List Bool

abbrev DbTurn := Turn World Call

/-- Any requests, one call at a time in the given order, from the empty database on. -/
def interleave (faults : List Bool) (requests : List Event) (schedule : List Nat) :
    Pool World Call Failure (Option TokenResponse) :=
  (Pool.start (requests.map Event.prog) (World.initial faults)).run schedule

/-- Some state of the history had the device with this secret. -/
def everHeld (past : List DbTurn) (key : DeviceKey) (s : Secret) : Bool :=
  past.any fun t => t.post.db.secretOf key = some s

/-- The turn saves a copy of a device with a secret that was in use before, although another
request has changed the secret of that device since the copy was read. -/
def staleSave (before : List DbTurn) (t : DbTurn) : Bool :=
  match t.label with
  | .saveDevice row => everHeld before row.key row.refreshToken &&
      overtaken (fun w : World => w.db.secretOf row.key) (showsSecret row.key) t.thread before
  | _ => false

/-- The access consumes the secret: a password refresh that carries it succeeds. -/
def accepts (s : Secret) (a : DbAccess) : Bool :=
  match a.label with
  | .rotateIfMatches device user expected _ =>
    expected = s && !a.pre.faults.headD false && Device.holds device user s a.pre.db
  | _ => false

/-! ## The invariant of a history -/

section
variable {past before : List DbTurn} {t : DbTurn} {w : World} {key key' : DeviceKey} {s : Secret}

theorem everHeld_cons : everHeld (t :: before) key s = true ↔
      (key, s) ∈ t.post.db.sessions ∨ everHeld before key s = true := by
  simp [everHeld, Db.secretOf_eq_some]

/-- A history of honest requests without a stale save. -/
structure History (past : List DbTurn) (w : World) : Prop where
  linked : ∃ faults, Chained (World.initial faults) w past
  made : Along (Pool.Made fun _ => Call.Honest) past
  current : Along (fun before t => staleSave before t = false) past

theorem History.tail (h : History (t :: past) w) : History past t.pre ∧ w = t.post := by
  obtain ⟨faults, hw, hl⟩ := h.linked
  exact ⟨⟨⟨faults, hl⟩, h.made.2, h.current.2⟩, hw⟩

theorem History.suffix {later} (h : History (later ++ past) w) : ∃ w', History past w' := by
  induction later generalizing w with
  | nil => exact ⟨w, h⟩
  | cons t later ih => exact ih h.tail.1

/-- Secrets are drawn once, held by one device, and smaller than what is drawn next. -/
structure InOrder (past : List DbTurn) (w : World) : Prop where
  held : ∀ key s, (key, s) ∈ w.db.sessions → everHeld past key s = true
  bound : ∀ key s, everHeld past key s = true → s < w.nextUuid
  oneKey : ∀ key key' s, everHeld past key s = true → everHeld past key' s = true → key = key'
  drawnBound : ∀ i, ∀ s ∈ drawn (own i past), s < w.nextUuid
  drawnNew : ∀ i, ∀ s ∈ drawn (own i past), ∀ key, everHeld past key s = false
  drawnOne : ∀ i j, ∀ s ∈ drawn (own i past), s ∈ drawn (own j past) → i = j

/-- What is drawn after a turn: what was drawn and is not in place, or the turn's own draw. -/
theorem mem_drawn_own (h : s ∈ drawn (own i (t :: before))) :
    (s ∈ drawn (own i before) ∧ (t.thread = i → ∀ x, placed t.toAccess = some x → x.2 ≠ s)) ∨
      (t.thread = i ∧ t.label = .fresh ∧ s = t.pre.nextUuid) := by
  by_cases hi : t.thread = i
  · simp only [own, hi, if_true, drawn] at h
    split at h
    · next hl =>
      rcases mem_cons.1 h with rfl | h
      · exact .inr ⟨hi, hl, rfl⟩
      · refine .inl ⟨h, fun _ x hx => ?_⟩
        simp [placed, hl, Call.secret] at hx
    · obtain ⟨hs, hp⟩ := mem_filter.1 h
      refine .inl ⟨hs, fun _ x hx => ?_⟩
      simpa [hx] using hp
  · simp only [own, if_neg hi] at h
    exact .inl ⟨h, fun hc => absurd hc hi⟩

theorem everHeld_of_known (h : known key (own i past) = some (some s)) :
    everHeld past key s = true := by
  induction past with
  | nil => cases h
  | cons t past ih =>
    rw [everHeld_cons]
    by_cases hi : t.thread = i
    · simp only [own, hi, if_true, known, seen] at h
      split at h
      · exact .inl (Db.secretOf_eq_some.1 (Option.some.inj h))
      · split at h
        · exact .inr (ih h)
        · cases h
    · simp only [own, if_neg hi] at h
      exact .inr (ih h)

/-- A turn gives a device a secret only if the request has just drawn it. -/
theorem History.gives (h : History (t :: before) w) (hs : (key, s) ∈ t.post.db.sessions) :
    (key, s) ∈ t.pre.db.sessions ∨
      (placed t.toAccess = some (key, s) ∧ s ∈ drawn (own t.thread before)) := by
  obtain ⟨u, hu, -, hm⟩ := h.made.1
  have hstale := h.current.1
  have hplaced : t.label.secret = some (key, s) → placed t.toAccess = some (key, s) := by
    intro hl
    simp [placed, hl, Db.secretOf_eq_some.2 hs]
  unfold staleSave at hstale
  revert hm hstale hplaced
  cases t.label with
  | saveDevice row =>
    rintro ⟨rfl, hknown⟩ hstale hplaced
    obtain ⟨-, hx⟩ | ⟨db, -, hdb, hx⟩ := t.pre.exec_cases row.saveStmt
    · rw [hu, hx] at hs
      exact .inl hs
    · obtain ⟨-, rfl⟩ := Db.guarded_eq_some hdb
      rw [hu, hx] at hs
      obtain ⟨d, hd, hkey, htoken⟩ := Db.mem_sessions.1 hs
      rcases Table.mem_upsert.1 hd with rfl | ⟨hd, -⟩
      · subst hkey htoken
        rcases hknown with hknown | hnew
        · -- the copy was not overtaken, so the device still holds the secret
          dsimp only at hstale
          rw [everHeld_of_known hknown, Bool.true_and] at hstale
          obtain ⟨faults, -, hl⟩ := h.linked
          exact .inl (Db.secretOf_eq_some.1 (view_of_seen (fun w : World => w.db.secretOf d.key)
            (showsSecret d.key) hl hknown hstale))
        · exact .inr ⟨hplaced rfl, hnew⟩
      · exact .inl (Db.mem_sessions.2 ⟨d, hd, hkey, htoken⟩)
  | rotateIfMatches device user expected new =>
    rintro ⟨⟨env, rfl⟩, hnew⟩ - hplaced
    obtain ⟨-, hx⟩ | ⟨db, -, hdb, hx⟩ := t.pre.exec_cases fun db =>
      some (Device.rotateStmt env device user expected new db)
    · rw [hu, hx] at hs
      exact .inl hs
    · obtain rfl := Option.some.inj hdb
      rw [hu, hx] at hs
      obtain ⟨d', hd', hkey, htoken⟩ := Db.mem_sessions.1 hs
      obtain ⟨d, hd, rfl⟩ := mem_map.1 hd'
      split at hkey
      · next hp =>
        have hp : d.uuid = device ∧ d.userUuid = user ∧ d.refreshToken = expected :=
          of_decide_eq_true hp
        rw [if_pos (decide_eq_true hp)] at htoken
        have hkey : (device, user) = key := by rw [← hp.1, ← hp.2.1]; exact hkey
        subst hkey htoken
        exact .inr ⟨hplaced rfl, hnew⟩
      · next hp =>
        rw [if_neg hp] at htoken
        exact .inl (Db.mem_sessions.2 ⟨d, hd, hkey, htoken⟩)
  | _ => exact fun hm _ _ => .inl (hm t.pre (hu ▸ hs))

/-- A turn draws at most one identifier. -/
theorem History.nextUuid_le (h : History (t :: before) w) :
    t.pre.nextUuid ≤ t.post.nextUuid ∧ (t.label = .fresh → t.pre.nextUuid < t.post.nextUuid) := by
  obtain ⟨u, hu, hn, -⟩ := h.made.1
  rw [hu, hn]
  refine ⟨Nat.le_add_right _ _, fun hl => ?_⟩
  rw [hl]
  exact Nat.lt_succ_self _

theorem InOrder.step (h : History (t :: before) w) (hi : InOrder before t.pre) :
    InOrder (t :: before) t.post := by
  obtain ⟨hle, hlt⟩ := h.nextUuid_le
  -- a secret that was never held before is one the turn itself has put in place
  have hnew : ∀ {key s}, everHeld (t :: before) key s = true → everHeld before key s = true ∨
      (placed t.toAccess = some (key, s) ∧ s ∈ drawn (own t.thread before)) := by
    intro key s he
    rcases everHeld_cons.1 he with hs | he
    · rcases h.gives hs with hs | hs
      · exact .inl (hi.held key s hs)
      · exact .inr hs
    · exact .inl he
  have hfresh : ∀ {key s}, s ∈ drawn (own t.thread before) → ¬ everHeld before key s = true :=
    fun hs he => false_ne_true ((hi.drawnNew _ _ hs _).symm.trans he)
  refine ⟨fun key s hs => everHeld_cons.2 (.inl hs), fun key s he => ?_, fun key key' s he he' => ?_,
    fun i s hs => ?_, fun i s hs key => ?_, fun i j s hs hs' => ?_⟩
  · rcases hnew he with he | ⟨-, hs⟩
    · exact Nat.lt_of_lt_of_le (hi.bound key s he) hle
    · exact Nat.lt_of_lt_of_le (hi.drawnBound _ s hs) hle
  · rcases hnew he with he | ⟨hp, hs⟩ <;> rcases hnew he' with he' | ⟨hp', hs'⟩
    · exact hi.oneKey key key' s he he'
    · exact absurd he (hfresh hs')
    · exact absurd he' (hfresh hs)
    · rw [hp] at hp'
      exact congrArg Prod.fst (Option.some.inj hp')
  · rcases mem_drawn_own hs with ⟨hs, -⟩ | ⟨-, hl, rfl⟩
    · exact Nat.lt_of_lt_of_le (hi.drawnBound i s hs) hle
    · exact hlt hl
  · rw [← not_eq_true]
    intro he
    rcases mem_drawn_own hs with ⟨hs, hp⟩ | ⟨-, hl, rfl⟩ <;> rcases hnew he with he | ⟨hp', hs'⟩
    · exact false_ne_true ((hi.drawnNew i s hs key).symm.trans he)
    · exact hp (hi.drawnOne i t.thread s hs hs').symm _ hp' rfl
    · exact Nat.lt_irrefl _ (hi.bound key _ he)
    · exact Nat.lt_irrefl _ (hi.drawnBound t.thread _ hs')
  · rcases mem_drawn_own hs with ⟨hs, -⟩ | ⟨hti, -, rfl⟩ <;>
      rcases mem_drawn_own hs' with ⟨hs', -⟩ | ⟨htj, -, he⟩
    · exact hi.drawnOne i j s hs hs'
    · subst he
      exact absurd (hi.drawnBound i _ hs) (Nat.lt_irrefl _)
    · exact absurd (hi.drawnBound j _ hs') (Nat.lt_irrefl _)
    · exact hti.symm.trans htj

theorem History.inOrder (h : History past w) : InOrder past w := by
  induction past generalizing w with
  | nil =>
    obtain ⟨faults, rfl⟩ := h.linked
    refine ⟨fun _ _ hs => ?_, fun _ _ he => ?_, fun _ _ _ he => ?_, fun _ _ hs => ?_,
      fun _ _ hs => ?_, fun _ _ _ hs => ?_⟩
    · cases hs
    · cases he
    · cases he
    · cases hs
    · cases hs
    · cases hs
  | cons t past ih =>
    obtain ⟨ht, rfl⟩ := h.tail
    exact .step h (ih ht)

end

/-! ## Dead secrets -/

section
variable {past later : List DbTurn} {t : DbTurn} {w w' : World} {key : DeviceKey} {s : Secret}

/-- **A secret the device no longer holds is never held again.** -/
theorem History.dead (h : History (later ++ past) w) (hp : History past w')
    (he : everHeld past key s = true) (hd : (key, s) ∉ w'.db.sessions) :
    (key, s) ∉ w.db.sessions ∧ ∀ t ∈ later, (key, s) ∉ t.pre.db.sessions := by
  induction later generalizing w with
  | nil =>
    obtain ⟨faults, hl⟩ := h.linked
    obtain ⟨faults', hl'⟩ := hp.linked
    have hw : w = w' := by
      cases past with
      | nil => cases he
      | cons => rw [hl.1, hl'.1]
    exact ⟨hw ▸ hd, fun _ h => nomatch h⟩
  | cons t later ih =>
    obtain ⟨ht, rfl⟩ := h.tail
    obtain ⟨hpre, hrest⟩ := ih ht
    refine ⟨fun hs => ?_, fun x hx => ?_⟩
    · rcases h.gives hs with hs | ⟨-, hs⟩
      · exact hpre hs
      · have hever : everHeld (later ++ past) key s = true := by
          rw [everHeld, any_append, or_eq_true]
          exact .inr he
        exact false_ne_true ((ht.inOrder.drawnNew _ _ hs key).symm.trans hever)
    · rcases mem_cons.1 hx with rfl | hx
      · exact hpre
      · exact hrest x hx

/-- A turn that accepts a secret finds it in the database. -/
theorem held_of_accepts (h : accepts s t.toAccess = true) : ∃ key, (key, s) ∈ t.pre.db.sessions := by
  unfold accepts at h
  split at h
  · simp only [and_eq_true] at h
    obtain ⟨d, hd, hp⟩ := any_eq_true.1 h.2
    exact ⟨d.key, Db.mem_sessions.2 ⟨d, hd, rfl, (of_decide_eq_true hp).2.2⟩⟩
  · cases h

/-- A dead secret is not accepted. -/
theorem History.not_accepts (h : History (later ++ past) w) (hp : History past w')
    (he : everHeld past key s = true) (hd : (key, s) ∉ w'.db.sessions) :
    ∀ t ∈ later, accepts s t.toAccess = false := by
  intro t ht
  rw [← not_eq_true]
  intro ha
  obtain ⟨key', hk⟩ := held_of_accepts ha
  have hdead := (h.dead hp he hd).2 t ht
  obtain ⟨l1, l2, rfl⟩ := append_of_mem ht
  have hwhole : History (l1 ++ t :: (l2 ++ past)) w := by simpa using h
  obtain ⟨_, hsuf⟩ := hwhole.suffix
  have hio := hsuf.tail.1.inOrder
  have hever : everHeld (l2 ++ past) key s = true := by
    rw [everHeld, any_append, or_eq_true]
    exact .inr he
  rw [hio.oneKey key' key s (hio.held key' s hk) hever] at hk
  exact hdead hk

/-- An accepted secret is dead afterwards. -/
theorem History.accepts_kills (h : History (t :: past) w) (ha : accepts s t.toAccess = true) :
    ∃ key, everHeld past key s = true ∧ (key, s) ∉ t.post.db.sessions := by
  obtain ⟨key, hk⟩ := held_of_accepts ha
  have hio := h.tail.1.inOrder
  have he := hio.held key s hk
  obtain ⟨u, hu, -, hm⟩ := h.made.1
  unfold accepts at ha
  revert hm ha
  cases t.label with
  | rotateIfMatches device user expected new =>
    rintro ha ⟨⟨env, rfl⟩, hnew⟩
    simp only [and_eq_true, decide_eq_true_eq, not_eq_true'] at ha
    obtain ⟨⟨rfl, hf⟩, hh⟩ := ha
    obtain ⟨d0, hd0, hp0⟩ := any_eq_true.1 hh
    have hp0 : d0.uuid = device ∧ d0.userUuid = user ∧ d0.refreshToken = expected :=
      of_decide_eq_true hp0
    have hkey : (device, user) = key := by
      refine hio.oneKey _ _ expected (hio.held _ _ (Db.mem_sessions.2 ⟨d0, hd0, ?_, hp0.2.2⟩)) he
      rw [← hp0.1, ← hp0.2.1]
      rfl
    refine ⟨key, he, fun hs => ?_⟩
    obtain ⟨hr, -⟩ | ⟨db, -, hdb, hx⟩ := t.pre.exec_cases fun db =>
      some (Device.rotateStmt env device user expected new db)
    · rw [World.refuses, hf] at hr
      cases hr
    · obtain rfl := Option.some.inj hdb
      rw [hu, hx] at hs
      obtain ⟨d', hd', hkey', htoken⟩ := Db.mem_sessions.1 hs
      obtain ⟨d, hd, rfl⟩ := mem_map.1 hd'
      split at hkey'
      · next hp =>
        -- the new secret was drawn for this and never held before
        rw [if_pos hp] at htoken
        have htoken : new = expected := htoken
        rw [htoken] at hnew
        exact false_ne_true ((hio.drawnNew _ _ hnew key).symm.trans he)
      · next hp =>
        rw [if_neg hp] at htoken
        refine hp (decide_eq_true ?_)
        rw [← hkey] at hkey'
        exact ⟨congrArg Prod.fst hkey', congrArg Prod.snd hkey', htoken⟩
  | _ =>
    intro ha
    cases ha

/-- **A secret is accepted at most once.** -/
theorem History.accepts_once (h : History past w) :
    past.countP (fun t => accepts s t.toAccess) ≤ 1 := by
  induction past generalizing w with
  | nil => exact Nat.zero_le _
  | cons t past ih =>
    cases ha : accepts s t.toAccess with
    | false =>
      rw [countP_cons, ha]
      exact ih h.tail.1
    | true =>
      have hnone : past.countP (fun t => accepts s t.toAccess) = 0 := by
        rw [countP_eq_zero]
        intro x hx hax
        obtain ⟨l1, l2, rfl⟩ := append_of_mem hx
        obtain ⟨w', hsuf⟩ := h.tail.1.suffix
        obtain ⟨key, he, hd⟩ := hsuf.accepts_kills hax
        have hwhole : History ((t :: l1) ++ x :: l2) w := h
        have hever : everHeld (x :: l2) key s = true := everHeld_cons.2 (.inr he)
        rw [← hsuf.tail.2] at hd
        have := hwhole.not_accepts hsuf hever hd t mem_cons_self
        rw [ha] at this
        cases this
      rw [countP_cons, hnone, ha]
      exact Nat.le_refl 1

end

/-! ## Resets -/

section
variable {later earlier : List DbTurn} {load : DbTurn} {w : World} {key : DeviceKey} {s : Secret}
  {user : UserId}

/-- A device that a reset has read is still to be done, or has got a new secret from it since. -/
theorem rotated_or_unrotated (later earlier : List DbTurn) (hl : load.label = .loadDevices user)
    (hu : key.2 = user) (hk : (key, s) ∈ load.pre.db.sessions) :
    key ∈ unrotated (own load.thread (later ++ load :: earlier)) ∨
      ∃ l1 t l2 s', later = l1 ++ t :: l2 ∧ placed t.toAccess = some (key, s') ∧
        s' ∈ drawn (own t.thread (l2 ++ load :: earlier)) := by
  induction later with
  | nil =>
    left
    simp only [nil_append, own, if_true, unrotated, hl]
    refine mem_append_left _ (mem_map.2 ⟨(key, s), mem_filter.2 ⟨hk, ?_⟩, rfl⟩)
    exact decide_eq_true hu
  | cons t later ih =>
    rcases ih with ih | ⟨l1, x, l2, s', rfl, hx⟩
    · by_cases hi : t.thread = load.thread
      · simp only [cons_append, own, if_pos hi, unrotated]
        split
        · exact .inl (mem_append_right _ ih)
        · by_cases hkeep : ((placed t.toAccess).all fun x =>
              !(x.1 = key && (drawn (own load.thread (later ++ load :: earlier))).contains x.2)) = true
          · exact .inl (mem_filter.2 ⟨ih, hkeep⟩)
          · right
            cases hp : placed t.toAccess with
            | none => simp [hp] at hkeep
            | some x =>
              obtain ⟨hxk, hxd⟩ : x.1 = key ∧
                  x.2 ∈ drawn (own load.thread (later ++ load :: earlier)) := by
                simpa [hp] using hkeep
              refine ⟨[], t, later, x.2, rfl, ?_, hi ▸ hxd⟩
              rw [hp, ← hxk]
      · left
        simp only [cons_append, own, if_neg hi]
        exact ih
    · exact .inr ⟨t :: l1, x, l2, s', rfl, hx⟩

/-- **After a reset no earlier secret of the account is good.** -/
theorem History.reset_kills (h : History (later ++ load :: earlier) w)
    (hl : load.label = .loadDevices user) (hu : key.2 = user)
    (hdone : unrotated (own load.thread (later ++ load :: earlier)) = [])
    (he : everHeld earlier key s = true) :
    ∃ l1 l2 w', later ++ load :: earlier = l1 ++ l2 ∧ History l2 w' ∧
      everHeld l2 key s = true ∧ (key, s) ∉ w'.db.sessions := by
  obtain ⟨w1, hload⟩ := h.suffix
  by_cases hk : (key, s) ∈ load.pre.db.sessions
  · rcases rotated_or_unrotated later earlier hl hu hk with hun | hrot
    · rw [hdone] at hun
      cases hun
    · obtain ⟨l1, t, l2, s', rfl, hp, hs'⟩ := hrot
      have hassoc : (l1 ++ t :: l2) ++ load :: earlier = l1 ++ t :: (l2 ++ load :: earlier) := by
        simp
      rw [hassoc] at h
      obtain ⟨w2, ht⟩ := h.suffix
      have hpost : t.post.db.secretOf key = some s' :=
        of_decide_eq_true (Option.filter_eq_some_iff.1 hp).2
      have hever : everHeld (l2 ++ load :: earlier) key s = true := by
        rw [everHeld, any_append, or_eq_true]
        exact .inr (everHeld_cons.2 (.inr he))
      refine ⟨l1, t :: (l2 ++ load :: earlier), w2, hassoc, ht, everHeld_cons.2 (.inr hever), ?_⟩
      rw [ht.tail.2]
      intro hs
      obtain rfl : s' = s := Option.some.inj (hpost.symm.trans (Db.secretOf_eq_some.2 hs))
      exact false_ne_true ((ht.tail.1.inOrder.drawnNew _ _ hs' key).symm.trans hever)
  · exact ⟨later ++ [load], earlier, load.pre, by simp, hload.tail.1, he, hk⟩

end

/-! ## Refreshing -/

/-- `Q` of what a program returns and of the accesses it has made until then. -/
abbrev Leaves {α : Type} (before : List DbAccess) (c : Cmd α) (Q : List DbAccess → α → Prop) : Prop :=
  Prog.Traced (fun _ _ _ => True) Q (fun _ => True) before c

theorem Leaves.last {α β : Type} {before c} {k : α → Cmd β}
    {Q : List DbAccess → β → Prop} (h : ∀ s a, Leaves s (k a) Q) : Leaves before (c >>= k) Q :=
  .bind (Q := ⊤)
    (.of_forall (fun _ _ _ => trivial) (fun _ _ => trivial) fun _ => trivial) fun s a _ => h s a

section
variable {env : Env} {p : ProviderTokens} {data : ConnectData} {token : Signed RefreshJwtClaims}
  {before : List DbAccess} {s : Secret}

/-- One of the accesses has consumed the secret. -/
def Accepted (s : Secret) (before : List DbAccess) : Prop := ∃ a ∈ before, accepts s a = true

theorem rotateRefreshTokenIfMatches_leaves {d : Device} :
    Leaves before (d.rotateRefreshTokenIfMatches env s) fun seen r =>
      r.isSome = true → Accepted s seen := by
  refine .last fun seen new => ⟨trivial, fun w => ?_⟩
  dsimp only
  cases hr : w.refuses fun db => some (Device.rotateStmt env d.uuid d.userUuid s new db) with
  | true => exact trivial
  | false =>
    cases hh : Device.holds d.uuid d.userUuid s w.db with
    | false => exact fun h => nomatch h
    | true =>
      intro _
      refine ⟨_, mem_cons_self, ?_⟩
      have hf : w.faults.headD false = false := (or_eq_false_iff.1 hr).1
      simp only [accepts, hf, hh, decide_true, Bool.not_false, Bool.and_self]

theorem refreshTokens_leaves (hs : token.claims.sub = .password) :
    Leaves before (refreshTokens env p token) fun seen _ => Accepted token.claims.deviceToken seen := by
  refine .last fun _ _ => .last fun _ found => ?_
  cases found with
  | none => exact trivial
  | some d =>
    refine .last fun _ d => .last fun seen found => ?_
    cases found with
    | none => exact trivial
    | some u =>
      show Leaves seen (tokensFor env p d u token) _
      unfold tokensFor
      rw [hs]
      dsimp only
      split
      · exact trivial
      · refine rotateRefreshTokenIfMatches_leaves.bind fun _ r hr => ?_
        cases r with
        | none => exact trivial
        | some => exact hr rfl

/-- Nothing is forgotten. -/
theorem Accepted.leaves {c : Cmd α} (h : Accepted s before) :
    Leaves before c fun seen _ => Accepted s seen := by
  induction c generalizing before with
  | ret => exact h
  | fail => trivial
  | call l u n ih =>
    obtain ⟨a, ha, hacc⟩ := h
    exact ⟨trivial, fun w => ih w ⟨a, mem_cons_of_mem _ ha, hacc⟩⟩

/-- A password refresh that returns has had its secret accepted. -/
theorem refreshLogin_leaves (ht : data.refreshToken = some token)
    (hs : token.claims.sub = .password) : Leaves before (refreshLogin env p data) fun seen _ =>
      Accepted token.claims.deviceToken seen := by
  unfold refreshLogin
  rw [ht]
  refine (traced_catchErr (refreshTokens_leaves hs)).bind fun seen r hr => ?_
  match r with
  | .error (.err m) => exact trivial
  | .error (.invalid m) => exact trivial
  | .error (.panic m) => exact trivial
  | .ok (d, tokens) => exact (hr _ rfl).leaves

end

/-! ## All interleavings -/

theorem interleave_history (h : Along (fun before t => staleSave before t = false)
      (interleave faults requests schedule).past) :
    History (interleave faults requests schedule).past (interleave faults requests schedule).state ∧
      ∀ i answer, (interleave faults requests schedule).threads[i]? = some (.ret answer) →
        unrotated (own i (interleave faults requests schedule).past) = [] := by
  have hkeeps : (interleave faults requests schedule).Keeps (fun _ => Call.Honest)
      (fun _ s _ => unrotated s = []) (World.initial faults) := by
    refine Pool.run_traced schedule fun i c hc => ?_
    obtain ⟨e, -, rfl⟩ := mem_map.1 (mem_of_getElem? hc)
    exact e.prog_tidy [] rfl
  exact ⟨⟨⟨faults, hkeeps.linked⟩, hkeeps.made, h⟩, fun i answer hi => hkeeps.threads i _ hi⟩

theorem interleave_accepted {env provider} {data : ConnectData} {token : Signed RefreshJwtClaims}
    (hi : requests[i]? = some ⟨env, .login (.refreshToken provider) data ip⟩)
    (ht : data.refreshToken = some token) (hs : token.claims.sub = .password)
    (hr : (interleave faults requests schedule).threads[i]? = some (.ret answer)) :
    ∃ t ∈ (interleave faults requests schedule).past,
      t.thread = i ∧ accepts token.claims.deviceToken t.toAccess = true := by
  have hkeeps : (interleave faults requests schedule).Keeps (fun _ _ _ _ => True)
      (fun j seen _ => j = i → Accepted token.claims.deviceToken seen) (World.initial faults) := by
    refine Pool.run_traced schedule fun j c hc => ?_
    by_cases hj : j = i
    · subst hj
      rw [getElem?_map, hi] at hc
      obtain rfl := Option.some.inj hc
      have hlogin : Leaves [] (login env (.refreshToken provider) data ip) fun seen _ =>
          Accepted token.claims.deviceToken seen := .last fun _ _ => refreshLogin_leaves ht hs
      exact hlogin.bind fun seen _ ha _ => ha
    · exact .of_forall (fun _ _ _ => trivial) (fun _ _ h => absurd h hj) fun _ => trivial
  obtain ⟨a, ha, hacc⟩ := hkeeps.threads i _ hr rfl
  obtain ⟨t, ht, hti, rfl⟩ := mem_own.1 ha
  exact ⟨t, ht, hti, hacc⟩

/-- **A replaced refresh secret stays dead.**  Any requests are interleaved call by call, and no
request saves a copy of a device with a secret that another request has replaced since the copy was
read. Then

* a secret that a device has held and no longer holds is not accepted from then on;
* no secret is accepted twice, and a password refresh only returns if its secret was accepted;
* once a request that resets the secrets of an account has returned, no secret that the account's
  devices held before the reset has read them is accepted any more. -/
theorem replaced_secret_stays_dead (faults : List Bool) (requests : List Event)
    (schedule further : List Nat)
    (hcurrent : Along (fun before t => staleSave before t = false)
      (interleave faults requests (schedule ++ further)).past) :
    (∀ later change earlier key s,
      (interleave faults requests (schedule ++ further)).past = later ++ change :: earlier →
      change.pre.db.secretOf key = some s → change.post.db.secretOf key ≠ some s →
      ∀ t ∈ later, accepts s t.toAccess = false) ∧
    (∀ s, (interleave faults requests (schedule ++ further)).past.countP
      (fun t => accepts s t.toAccess) ≤ 1) ∧
    (∀ i env provider data ip token answer,
      requests[i]? = some ⟨env, .login (.refreshToken provider) data ip⟩ →
      data.refreshToken = some token → token.claims.sub = .password →
      (interleave faults requests schedule).threads[i]? = some (.ret answer) →
      ∃ t ∈ (interleave faults requests schedule).past,
        t.thread = i ∧ accepts token.claims.deviceToken t.toAccess = true) ∧
    (∀ later load earlier user answer device s after,
      (interleave faults requests schedule).past = later ++ load :: earlier →
      load.label = .loadDevices user →
      (interleave faults requests schedule).threads[load.thread]? = some (.ret answer) →
      everHeld earlier (device, user) s = true →
      (interleave faults requests (schedule ++ further)).past =
        after ++ (interleave faults requests schedule).past →
      ∀ t ∈ after, accepts s t.toAccess = false) := by
  obtain ⟨hwhole, -⟩ := interleave_history hcurrent
  refine ⟨fun later change earlier key s hp hpre hpost => ?_, fun s => hwhole.accepts_once, ?_, ?_⟩
  · rw [hp] at hwhole
    obtain ⟨w', hsuf⟩ := hwhole.suffix
    have hheld := hsuf.tail.1.inOrder.held key s (Db.secretOf_eq_some.1 hpre)
    refine hwhole.not_accepts hsuf (everHeld_cons.2 (.inr hheld)) ?_
    rw [hsuf.tail.2]
    exact fun hs => hpost (Db.secretOf_eq_some.2 hs)
  · intro i env provider data ip token answer hi ht hs hr
    exact interleave_accepted hi ht hs hr
  · intro later load earlier user answer device s after hp hl hr he hafter
    rw [hafter] at hwhole hcurrent
    have hprefix : Along (fun before t => staleSave before t = false)
        (interleave faults requests schedule).past := hcurrent.suffix
    obtain ⟨hmid, hdone⟩ := interleave_history hprefix
    have hdone := hdone _ _ hr
    rw [hp] at hmid hdone hwhole
    obtain ⟨l1, l2, w', hsplit, hl2, hever, hdead⟩ := hmid.reset_kills hl rfl hdone he
    rw [hsplit, ← append_assoc] at hwhole
    exact fun t ht => hwhole.not_accepts hl2 hever hdead t (mem_append_left _ ht)

/-! ## Races -/

namespace Races

def refresh (s : Secret) : Event :=
  ⟨{}, .login (.refreshToken ⟨none, "", none, fun _ => none⟩)
    { refreshToken := some ⟨true, 0, 86400, .password, s, none⟩ } "ip"⟩

def signingIn : List Nat := List.replicate 10 0 ++ List.replicate 9 1

/-- Two clients show the same secret and take turns. -/
def sameSecret : List Nat := signingIn ++ [2, 3, 2, 3, 2, 3, 2, 3, 2, 3]

/-- The first client has rotated 5 to 6 and not saved its copy of the device yet when a second one
rotates 6 to 7; then the first saves, and a third one shows 6. -/
def lateSave : List Nat :=
  signingIn ++ List.replicate 4 2 ++ List.replicate 5 3 ++ [2] ++ List.replicate 5 4

end Races

open Races Client in
/-- Of two clients with one secret, one is let in. -/
theorem replaced_secret_stays_dead_sameSecret :
    Along (fun before t => staleSave before t = false)
      (interleave [] (signedIn ++ [refresh 5, refresh 5]) (sameSecret ++ [])).past ∧
    (interleave [] (signedIn ++ [refresh 5, refresh 5]) sameSecret).hasReturned 2 = true ∧
    (interleave [] (signedIn ++ [refresh 5, refresh 5]) (sameSecret ++ [])).past.countP
      (fun t => accepts 5 t.toAccess) ≤ 1 :=
  ⟨by decide +kernel, by decide +kernel,
    (replaced_secret_stays_dead [] (signedIn ++ [refresh 5, refresh 5]) sameSecret []
      (by decide +kernel)).2.1 5⟩

open Races Client in
/-- **A late save brings a consumed secret back.**  The secret 6 is accepted, replaced, written
back by the save of an older copy, and accepted again. -/
theorem replaced_secret_revived :
    (interleave [] (signedIn ++ [refresh 5, refresh 6, refresh 6]) lateSave).past.countP
      (fun t => accepts 6 t.toAccess) = 2 ∧
    (interleave [] (signedIn ++ [refresh 5, refresh 6, refresh 6]) lateSave).hasReturned 3 = true ∧
    (interleave [] (signedIn ++ [refresh 5, refresh 6, refresh 6]) lateSave).hasReturned 4 = true := by
  decide +kernel

end VaultServer
