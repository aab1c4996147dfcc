import VaultServer.Lib.Interleave
import VaultServer.Effects.Requests

/-!
# What a request knows of refresh secrets

A request sees the secret of a device when it reads the row, and knows it when it has put it there
itself; it draws new secrets. What it then writes is a secret it knows the device to have had, or
one it has drawn and not used. That is a property of the request alone, so it holds however its
calls are interleaved with others; whether what it knows is still so is another matter.
-/

namespace VaultServer

open Lib List Table

variable {d : Device} {u : User} {data : ConnectData} {ip : String} {headers : Headers}

abbrev DeviceKey := DeviceId × UserId

abbrev DbAccess := Access World Call

/-! ## Secrets in the database -/

def Db.secretOf (key : DeviceKey) (db : Db) : Option Secret :=
  (db.devices.find? fun d => d.key = key).map fun d => d.refreshToken

theorem Db.mem_sessions {db : Db} {key s} :
    (key, s) ∈ db.sessions ↔ ∃ d ∈ db.devices.rows, d.key = key ∧ d.refreshToken = s := by
  simp [Db.sessions]

theorem Db.secretOf_eq_some {db : Db} {key s} :
    db.secretOf key = some s ↔ (key, s) ∈ db.sessions := by
  rw [Db.mem_sessions, Db.secretOf, Option.map_eq_some_iff]
  constructor
  · rintro ⟨d, hd, hs⟩
    obtain ⟨hmem, hkey⟩ := mem_of_find? hd
    exact ⟨d, hmem, of_decide_eq_true hkey, hs⟩
  · rintro ⟨d, hmem, hkey, hs⟩
    refine ⟨d, find?_eq_some_of_unique hmem (decide_eq_true hkey) fun x hx hp => ?_, hs⟩
    exact eq_of_key hx hmem ((of_decide_eq_true hp).trans hkey.symm)

theorem Db.secretOf_of_mem {db : Db} (h : d ∈ db.devices.rows) :
    db.secretOf d.key = some d.refreshToken :=
  Db.secretOf_eq_some.2 (Db.mem_sessions.2 ⟨d, h, rfl, rfl⟩)

/-! ## Knowing and drawing -/

/-- The secret a call writes, and for which device. -/
def Call.secret : Call → Option (DeviceKey × Secret)
  | saveDevice row => some (row.key, row.refreshToken)
  | rotateIfMatches device user _ new => some ((device, user), new)
  | _ => none

def Call.loadsDevice : Call → Bool
  | loadDevice | loadDevices _ => true
  | _ => false

/-- The secret an access has put in place. -/
def placed (a : DbAccess) : Option (DeviceKey × Secret) :=
  a.label.secret.filter fun x => a.post.db.secretOf x.1 = some x.2

/-- The access lets the request know the secret of the device. -/
def showsSecret (key : DeviceKey) (a : DbAccess) : Bool :=
  a.label.loadsDevice || (placed a).any fun x => x.1 = key

/-- What the request knows of a device's secret; `some none` is that the device does not exist. -/
def known (key : DeviceKey) (before : List DbAccess) : Option (Option Secret) :=
  seen (fun w : World => w.db.secretOf key) (showsSecret key) before

/-- The identifiers that were drawn and are not in place as a secret. -/
def drawn : List DbAccess → List Secret
  | [] => []
  | a :: before =>
    match a.label with
    | .fresh => a.pre.nextUuid :: drawn before
    | _ => (drawn before).filter fun s => (placed a).all fun x => x.2 ≠ s

/-- The devices that a reset has read and not given a new secret yet. -/
def unrotated : List DbAccess → List DeviceKey
  | [] => []
  | a :: before =>
    match a.label with
    | .loadDevices user =>
      ((a.pre.db.sessions.filter fun x => x.1.2 = user).map fun x => x.1) ++ unrotated before
    | _ => (unrotated before).filter fun key =>
        (placed a).all fun x => !(x.1 = key && (drawn before).contains x.2)

/-- A call as far as secrets are concerned: a device gets one the request knows it to have had, or
a new one; any other call gives none. -/
def Call.Honest (before : List DbAccess) (l : Call) (u : World → World) : Prop :=
  (∀ w, (u w).nextUuid = w.nextUuid + l.draws) ∧
    match l with
    | .saveDevice row => u = World.exec row.saveStmt ∧
        (known row.key before = some (some row.refreshToken) ∨ row.refreshToken ∈ drawn before)
    | .rotateIfMatches device user expected new =>
      (∃ env, u = World.exec fun db => some (Device.rotateStmt env device user expected new db)) ∧
        new ∈ drawn before
    | _ => ∀ w, (u w).db.sessions ⊆ w.db.sessions

/-- Every call of the program is honest, and `Q` holds when it returns. -/
def Tracks {α : Type} (before : List DbAccess) (c : Cmd α) (Q : List DbAccess → α → Prop) : Prop :=
  Prog.Traced Call.Honest Q (fun _ => True) before c

/-- Nothing was learned and nothing used up. -/
structure Retains (before after : List DbAccess) : Prop where
  known : ∀ key, known key after = known key before
  drawn : ∀ s ∈ drawn before, s ∈ drawn after
  unrotated : unrotated after = unrotated before

theorem Retains.refl (before : List DbAccess) : Retains before before :=
  ⟨fun _ => rfl, fun _ h => h, rfl⟩

theorem Retains.trans {a b c} (h : Retains a b) (h' : Retains b c) : Retains a c :=
  ⟨fun key => (h'.known key).trans (h.known key), fun s hs => h'.drawn s (h.drawn s hs),
    h'.unrotated.trans h.unrotated⟩

/-! ## Calls that are not about secrets -/

section
variable {a : DbAccess} {before : List DbAccess}

variable (h : a.label.part ≠ some .sessions)
include h

theorem placed_of_part : placed a = none := by
  unfold placed
  cases hl : a.label <;> simp_all [Call.secret, Call.part]

theorem unrotated_cons : unrotated (a :: before) = unrotated before := by
  rw [unrotated, placed_of_part h]
  split
  · next user hl => simp [hl, Call.part] at h
  · simp

theorem drawn_cons {s} (hs : s ∈ drawn before) : s ∈ drawn (a :: before) := by
  rw [drawn, placed_of_part h]
  split
  · exact mem_cons_of_mem _ hs
  · simpa using hs

theorem known_cons (hd : a.pre.db.devices = a.post.db.devices)
    (key : DeviceKey) : known key (a :: before) = known key before := by
  have hload : a.label.loadsDevice = false := by
    cases hl : a.label <;> simp_all [Call.loadsDevice, Call.part]
  have hview : a.pre.db.secretOf key = a.post.db.secretOf key := by
    rw [Db.secretOf, hd]; rfl
  rw [known, seen, showsSecret, hload, placed_of_part h, if_pos hview]
  rfl

end

theorem Call.Honest.of_within {S l u before} (h : Call.Within S l u) (hs : .sessions ∉ S) :
    l.Honest before u := by
  have hl : l.part ≠ some .sessions := fun hp => hs (h.part _ hp)
  have hsub : ∀ w, (u w).db.sessions ⊆ w.db.sessions := fun w => (h.keeps w).2 .sessions hs
  refine ⟨h.nextUuid, ?_⟩
  cases l with
  | saveDevice => exact absurd rfl hl
  | rotateIfMatches => exact absurd rfl hl
  | _ => exact hsub

/-- Only a returned value is known something about. -/
theorem traced_catchErr {α : Type} {P : List DbAccess → Call → (World → World) → Prop}
    {Q : List DbAccess → α → Prop} {before c} (h : Prog.Traced P Q ⊤ before c) :
    Prog.Traced P (fun s r => ∀ a, r = .ok a → Q s a) ⊤ before (catchErr c) := by
  refine .bind (.attempt h) fun s r hr => ?_
  match r with
  | .error (.panic m) => exact trivial
  | .error (.err m) => exact nofun
  | .error (.invalid m) => exact nofun
  | .ok a => exact fun b hb => Except.ok.inj hb ▸ hr

namespace Tracks

variable {α β : Type} {before : List DbAccess} {Q : List DbAccess → α → Prop}
  {R : List DbAccess → β → Prop} {S : List Part}

theorem ret {a} (h : Q before a) : Tracks before (pure a : Cmd α) Q := h

theorem fail : Tracks before (Prog.fail e : Cmd α) Q := trivial

theorem err : Tracks before (VaultServer.err message : Cmd α) Q := trivial

theorem bind {c k} (hc : Tracks before c Q) (hk : ∀ s a, Q s a → Tracks s (k a) R) :
    Tracks before (c >>= k) R :=
  Prog.Traced.bind hc hk

theorem mono {Q' c} (h : Tracks before c Q) (hQ : ∀ s a, Q s a → Q' s a) : Tracks before c Q' :=
  Prog.Traced.mono h hQ fun _ h => h

theorem catchErr {c} (h : Tracks before c Q) :
    Tracks before (VaultServer.catchErr c) fun s r => ∀ a, r = .ok a → Q s a :=
  traced_catchErr h

/-- A program that gives no device a secret. -/
theorem shrinks {c : Cmd α} (h : Writes S c) (hs : .sessions ∉ S) :
    Tracks before c fun s _ => (∀ x ∈ drawn before, x ∈ drawn s) ∧ unrotated s = unrotated before := by
  induction c generalizing before with
  | ret => exact ⟨fun _ h => h, rfl⟩
  | fail => trivial
  | call l u n ih =>
    have hl : l.part ≠ some .sessions := fun hp => hs (h.1.part _ hp)
    refine ⟨.of_within h.1 hs, fun w => ?_⟩
    refine mono (ih w (h.2 w)) fun s a hsa => ⟨fun x hx => hsa.1 x ?_, ?_⟩
    · exact drawn_cons (a := ⟨l, w, u w⟩) hl hx
    · exact hsa.2.trans (unrotated_cons (a := ⟨l, w, u w⟩) hl)

/-- A program that leaves the devices alone. -/
theorem quiet {c : Cmd α} (h : Writes S c) (hs : .sessions ∉ S) (hd : .devices ∉ S) :
    Tracks before c fun s _ => Retains before s := by
  induction c generalizing before with
  | ret => exact .refl before
  | fail => trivial
  | call l u n ih =>
    have hl : l.part ≠ some .sessions := fun hp => hs (h.1.part _ hp)
    have hdev : ∀ w, w.db.devices = (u w).db.devices := fun w => ((h.1.keeps w).2 .devices hd).symm
    refine ⟨.of_within h.1 hs, fun w => mono (ih w (h.2 w)) fun s a hsa => .trans ?_ hsa⟩
    exact ⟨known_cons (a := ⟨l, w, u w⟩) hl (hdev w), fun x hx => drawn_cons hl hx,
      unrotated_cons hl⟩

/-- A part of a program that leaves the devices alone is passed over. -/
theorem pass {c : Cmd α} {k : α → Cmd β} (h : Writes S c)
    (hs : (S.contains .sessions || S.contains .devices) = false)
    (hk : ∀ s a, Retains before s → Tracks s (k a) R) : Tracks before (c >>= k) R :=
  have hs := Bool.or_eq_false_iff.1 hs
  bind (quiet h (by simpa using hs.1) (by simpa using hs.2)) hk

/-- The same for the steps that write nothing. -/
theorem still {c} {k : α → Cmd β} (h : Writes [] c)
    (hk : ∀ s a, Retains before s → Tracks s (k a) R) : Tracks before (c >>= k) R :=
  pass h rfl hk

end Tracks

/-! ## Requests that know nothing of secrets -/

/-- An honest program that leaves no reset half done when it returns. -/
def Tidy {α : Type} (c : Cmd α) : Prop :=
  ∀ before, unrotated before = [] → Tracks before c fun s _ => unrotated s = []

namespace Tidy

variable {α β : Type} {S : List Part} {c : Cmd α}

theorem of_writes (h : Writes S c) (hs : S.contains .sessions = false) : Tidy c :=
  fun _ hb => (Tracks.shrinks h (by simpa using hs)).mono fun _ _ h => h.2.trans hb

theorem ret {a} : Tidy (pure a : Cmd α) := fun _ hb => hb

theorem err : Tidy (VaultServer.err message : Cmd α) := fun _ _ => trivial

theorem bind {k : α → Cmd β} (hc : Tidy c) (hk : ∀ a, Tidy (k a)) : Tidy (c >>= k) :=
  fun b hb => (hc b hb).bind fun s a hs => hk a s hs

/-- A step that writes no secret, then the rest. -/
theorem pass {k : α → Cmd β} (h : Writes S c) (hs : S.contains .sessions = false)
    (hk : ∀ a, Tidy (k a)) : Tidy (c >>= k) :=
  bind (of_writes h hs) hk

theorem still {k : α → Cmd β} (h : Writes [] c) (hk : ∀ a, Tidy (k a)) : Tidy (c >>= k) :=
  pass h rfl hk

theorem check {k : Unit → Cmd β} (hk : Tidy (k ())) :
    Tidy (ensure b message >>= k) := still .ensure fun _ => hk

theorem ite {b : Prop} [Decidable b] {d} (hc : Tidy c) (hd : Tidy d) :
    Tidy (if b then c else d) := by
  split
  · exact hc
  · exact hd

end Tidy

/-! ## Writing devices -/

theorem World.exec_nextUuid {w : World} : (w.exec stmt).nextUuid = w.nextUuid := by
  obtain ⟨-, hx⟩ | ⟨_, -, -, hx⟩ := w.exec_cases stmt <;> rw [hx]

/-- A save that is not refused puts the secret of the row in place. -/
theorem secretOf_exec_save {w : World} (h : w.refuses d.saveStmt = false) :
    (w.exec d.saveStmt).db.secretOf d.key = some d.refreshToken := by
  obtain ⟨hr, -⟩ | ⟨db, -, hs, hx⟩ := w.exec_cases d.saveStmt
  · rw [h] at hr; cases hr
  · obtain ⟨-, rfl⟩ := Db.guarded_eq_some hs
    rw [hx]
    exact Db.secretOf_of_mem (mem_upsert.2 (.inl rfl))

section
variable {a : DbAccess} {before : List DbAccess} {key : DeviceKey} {s : Secret}

theorem known_of_placed (h : placed a = some (key, s)) : known key (a :: before) = some (some s) := by
  have hpost : a.post.db.secretOf key = some s := by
    unfold placed at h
    exact of_decide_eq_true (Option.filter_eq_some_iff.1 h).2
  rw [known, seen, showsSecret, h]
  simp [hpost]

theorem unrotated_of_placed (before : List DbAccess) (h : placed a = some (key, s))
    (hl : ∀ user, a.label ≠ .loadDevices user) :
    (∀ k ∈ unrotated (a :: before), k ∈ unrotated before) ∧
      (s ∈ drawn before → key ∉ unrotated (a :: before)) := by
  rw [unrotated]
  split
  · next user hu => exact absurd hu (hl user)
  · rw [h]
    refine ⟨fun k hk => (mem_filter.1 hk).1, fun hs hk => ?_⟩
    simpa [hs] using (mem_filter.1 hk).2

end

variable {env : Env} {before : List DbAccess}

/-- The secret of the copy is the one the request knows the device to have. -/
def Knows (before : List DbAccess) (d : Device) : Prop := known d.key before = some (some d.refreshToken)

theorem Knows.retains {s} (h : Knows before d) (he : Retains before s) : Knows s d :=
  (he.known d.key).trans h

/-- Saving a copy with a secret that is known or new. -/
theorem Device.save_tracks {b} (h : Knows before d ∨ d.refreshToken ∈ drawn before) :
    Tracks before (d.save env b) fun s d' => (d'.key = d.key ∧ d'.refreshToken = d.refreshToken) ∧
      Knows s d' ∧ (∀ k ∈ unrotated s, k ∈ unrotated before) ∧
      (d.refreshToken ∈ drawn before → d.key ∉ unrotated s) := by
  unfold Device.save
  have hrow : ∃ d' : Device, (if b then { d with updatedAt := env.now } else d) = d' ∧
      d'.key = d.key ∧ d'.refreshToken = d.refreshToken := by
    cases b <;> exact ⟨_, rfl, rfl, rfl⟩
  obtain ⟨d', hd', hkey, htoken⟩ := hrow
  simp only [hd']
  refine ⟨⟨fun w => World.exec_nextUuid, rfl, ?_⟩, fun w => ?_⟩
  · rw [hkey, htoken]; exact h
  · show Tracks _ ((if w.refuses d'.saveStmt then err "Error saving device" else pure ()) >>= _) _
    cases hr : w.refuses d'.saveStmt with
    | true => exact trivial
    | false =>
      have hplaced : placed ⟨.saveDevice d', w, w.exec d'.saveStmt⟩ =
          some (d'.key, d'.refreshToken) := by
        simp [placed, Call.secret, secretOf_exec_save hr, Option.filter]
      obtain ⟨hsub, hnew⟩ := unrotated_of_placed before hplaced (by simp)
      rw [hkey, htoken] at hnew
      exact ⟨⟨hkey, htoken⟩, known_of_placed hplaced, hsub, hnew⟩

/-- A new secret is drawn. -/
theorem Tracks.getUuid {β : Type} {k : Nat → Cmd β} {R : List DbAccess → β → Prop}
    (h : ∀ n s, n ∈ drawn s → Retains before s → Tracks s (k n) R) :
    Tracks before (VaultServer.getUuid >>= k) R := by
  refine ⟨⟨fun _ => rfl, fun _ => List.Subset.refl _⟩, fun w => h w.nextUuid _ ?_ ?_⟩
  · exact mem_cons_self
  · exact ⟨known_cons (by simp [Call.part]) rfl, fun _ hs => drawn_cons (by simp [Call.part]) hs,
      unrotated_cons (by simp [Call.part])⟩

/-- The rounds of a reset take the devices off the list one by one. -/
theorem rotateRounds_tracks (h : ∀ k ∈ unrotated before, k ∈ ds.map Device.key) :
    Tracks before (Prog.each ds fun d => do
      let token ← getUuid
      let _ ← Device.save env false { d with refreshToken := token }) fun s _ => unrotated s = [] := by
  induction ds generalizing before with
  | nil =>
    refine .ret (eq_nil_iff_forall_not_mem.2 fun k hk => ?_)
    cases h k hk
  | cons d ds ih =>
    refine .bind (Q := fun s _ => ∀ k ∈ unrotated s, k ∈ ds.map Device.key) ?_ fun s _ hs => ih hs
    refine .getUuid fun token s hn he => ?_
    refine (Device.save_tracks (.inr hn)).bind fun s' d' hs' => .ret fun k hk => ?_
    have hmem : k ∈ (d :: ds).map Device.key := h k (he.unrotated ▸ hs'.2.2.1 k hk)
    rcases mem_cons.1 hmem with rfl | hmem
    · exact absurd hk (hs'.2.2.2 hn)
    · exact hmem

theorem Device.rotateRefreshTokensByUser_tidy {u} :
    Tidy (Device.rotateRefreshTokensByUser env u) := by
  intro before hb
  refine ⟨⟨fun _ => rfl, fun _ => List.Subset.refl _⟩, fun w => rotateRounds_tracks fun k hk => ?_⟩
  have hk : k ∈ (w.db.sessions.filter fun x => x.1.2 = u).map fun x => x.1 := by
    simpa [unrotated, hb] using hk
  obtain ⟨x, hx, rfl⟩ := mem_map.1 hk
  obtain ⟨hx, hu⟩ := mem_filter.1 hx
  obtain ⟨d, hd, hkey, -⟩ := Db.mem_sessions.1 hx
  refine mem_map.2 ⟨d, mem_filter.2 ⟨hd, ?_⟩, hkey⟩
  rw [← hkey] at hu
  exact hu

theorem User.resetSecurityStamp_tidy : Tidy (u.resetSecurityStamp env) :=
  .still .getUuid fun _ => .bind Device.rotateRefreshTokensByUser_tidy fun _ => .ret

theorem User.setPassword_tidy {password key reset routes} :
    Tidy (u.setPassword env password key reset routes) :=
  .ite User.resetSecurityStamp_tidy .ret

/-! ## Sessions -/

/-- A rotation that meets the expected secret puts the new one in place. -/
theorem secretOf_exec_rotate {w : World}
    (hr : w.refuses (fun db => some (Device.rotateStmt env uuid user expected new db)) = false)
    (hh : Device.holds uuid user expected w.db = true) :
    (w.exec fun db => some (Device.rotateStmt env uuid user expected new db)).db.secretOf
      (uuid, user) = some new := by
  obtain ⟨h, -⟩ | ⟨db, -, hs, hx⟩ := w.exec_cases fun db =>
    some (Device.rotateStmt env uuid user expected new db)
  · rw [hr] at h; cases h
  · obtain rfl := Option.some.inj hs
    rw [hx]
    obtain ⟨d, hd, hp⟩ := any_eq_true.1 hh
    have hp' : d.uuid = uuid ∧ d.userUuid = user ∧ d.refreshToken = expected := of_decide_eq_true hp
    refine Db.secretOf_eq_some.2 (Db.mem_sessions.2
      ⟨{ d with refreshToken := new, updatedAt := env.now }, ?_, ?_, rfl⟩)
    · refine mem_map.2 ⟨d, hd, ?_⟩
      rw [if_pos hp]
    · rw [← hp'.1, ← hp'.2.1]; rfl

theorem unrotated_nil (a : DbAccess) (hl : ∀ user, a.label ≠ .loadDevices user)
    (hb : unrotated before = []) : unrotated (a :: before) = [] := by
  rw [unrotated]
  split
  · next user hu => exact absurd hu (hl user)
  · rw [hb]; rfl

theorem Device.rotateRefreshTokenIfMatches_tracks {expected} (hb : unrotated before = []) :
    Tracks before (d.rotateRefreshTokenIfMatches env expected) fun s r =>
      unrotated s = [] ∧ ∀ d', r = some d' → Knows s d' := by
  refine .getUuid fun new s hn he => ⟨⟨fun w => World.exec_nextUuid, ⟨env, rfl⟩, hn⟩, fun w => ?_⟩
  have hnil := unrotated_nil ⟨.rotateIfMatches d.uuid d.userUuid expected new, w,
    w.exec fun db => some (rotateStmt env d.uuid d.userUuid expected new db)⟩ (by simp)
    (he.unrotated.trans hb)
  dsimp only
  cases hr : w.refuses fun db => some (rotateStmt env d.uuid d.userUuid expected new db) with
  | true => exact trivial
  | false =>
    cases hh : holds d.uuid d.userUuid expected w.db with
    | false => exact Tracks.ret ⟨hnil, nofun⟩
    | true =>
      refine Tracks.ret ⟨hnil, fun d' hd' => ?_⟩
      obtain rfl := Option.some.inj hd'
      refine known_of_placed ?_
      simp [placed, Call.secret, secretOf_exec_rotate hr hh, Option.filter, Device.key]

/-- The request knows the copy's secret and has nothing left to rotate. -/
def Carries (d : Device) (s : List DbAccess) : Prop := Knows s d ∧ unrotated s = []

theorem Carries.retains {s s'} (h : Carries d s) (he : Retains s s') : Carries d s' :=
  ⟨h.1.retains he, he.unrotated.trans h.2⟩

/-- A copy with the same secret of the same device is as good. -/
theorem Carries.copy {s d'} (h : Carries d s) (hk : d'.key = d.key)
    (ht : d'.refreshToken = d.refreshToken) : Carries d' s := by
  refine ⟨?_, h.2⟩
  unfold Knows
  rw [hk, ht]
  exact h.1

theorem Carries.save (h : Carries d before) :
    Tracks before (d.save env b) fun s d' => Carries d' s :=
  (Device.save_tracks (.inl h.1)).mono fun s d' hs => ⟨hs.2.1,
    eq_nil_iff_forall_not_mem.2 fun k hk => by
      have := hs.2.2.1 k hk
      rw [h.2] at this
      cases this⟩

/-- A device that was read is known. -/
theorem Tracks.loadDevice {β : Type} {f : Db → Option Device} {k : Option Device → Cmd β}
    {R : List DbAccess → β → Prop} (hb : unrotated before = [])
    (hf : ∀ db d, f db = some d → d ∈ db.devices.rows)
    (h : ∀ s r, unrotated s = [] → (∀ d, r = some d → Carries d s) → Tracks s (k r) R) :
    Tracks before (VaultServer.loadDevice f >>= k) R := by
  refine ⟨⟨fun _ => rfl, fun _ => List.Subset.refl _⟩, fun w => ?_⟩
  have hnil := unrotated_nil ⟨.loadDevice, w, w⟩ (by simp) hb
  refine h _ (f w.db) hnil fun d hd => ⟨?_, hnil⟩
  show known d.key _ = _
  rw [known, seen, showsSecret]
  simp only [Call.loadsDevice, Bool.true_or, if_true]
  exact congrArg some (Db.secretOf_of_mem (hf w.db d hd))

theorem Device.mem_of_findByUuidAndUser {db uuid u}
    (h : Device.findByUuidAndUser db uuid u = some d) : d ∈ db.devices.rows :=
  (mem_of_find? h).1

theorem tokensFor_tracks (hd : Carries d before) :
    Tracks before (tokensFor env p d u token) fun s r => Carries r.1 s := by
  have hask : Writes [] (exchangeRefreshToken env p d u token.exp token.claims.token) := by
    unfold exchangeRefreshToken
    split
    · exact .bind .external fun _ => createAuthTokens_writes
    · exact .bind .ensure fun _ => .bind .external fun _ => .ret
    · exact .err
  unfold tokensFor
  split
  · split
    · exact .ret hd
    · split
      · exact .still hask fun s _ hs => .ret (hd.retains hs)
      · exact .err
  · split
    · exact .err
    · refine (Device.rotateRefreshTokenIfMatches_tracks hd.2).bind fun s r hr => ?_
      cases r with
      | none => exact .err
      | some d' => exact .ret ⟨hr.2 d' rfl, hr.1⟩
  · exact .err

theorem refreshTokens_tracks (hb : unrotated before = []) :
    Tracks before (refreshTokens env p token) fun s r => Carries r.1 s := by
  refine .still .ensure fun s0 _ h0 => ?_
  refine .loadDevice (h0.unrotated.trans hb) (fun db d h => (mem_of_find? h).1) ?_
  intro s1 r _ hr
  cases r with
  | none => exact .err
  | some d =>
    have hsaved : Tracks s1 (if token.claims.sub = .sso then d.save env true else pure d)
        fun s d => Carries d s := by
      split
      · exact (hr d rfl).save
      · exact .ret (hr d rfl)
    refine hsaved.bind fun s2 d hd => .still .query fun s3 found h3 => ?_
    cases found with
    | none => exact .err
    | some => exact tokensFor_tracks (hd.retains h3)

theorem refreshLogin_tidy : Tidy (refreshLogin env p data) := by
  intro before hb
  unfold refreshLogin
  split
  · exact .err
  · refine (refreshTokens_tracks hb).catchErr.bind fun s r hr => ?_
    match r with
    | .error (.err m) => exact .err
    | .error (.invalid m) => exact .fail
    | .error (.panic m) => exact .fail
    | .ok (d, tokens) => exact (hr _ rfl).save.bind fun s' _ hs' => .ret hs'.2

theorem getDevice_tracks (hb : unrotated before = []) :
    Tracks before (getDevice env data u) fun s d => Carries d s := by
  refine .still .unwrap fun s0 uuid h0 => .still .unwrap fun s1 name h1 => ?_
  refine .loadDevice (h1.unrotated.trans (h0.unrotated.trans hb))
    (fun _ _ h => Device.mem_of_findByUuidAndUser h) ?_
  intro s2 r h2 hr
  cases r with
  | some d => exact .ret (hr d rfl)
  | none =>
    refine .bind (Q := fun s d => d.refreshToken ∈ drawn s ∧ unrotated s = []) ?_ ?_
    · refine .getUuid fun pushId s3 _ h3 => .getUuid fun token s4 hn h4 => .ret ⟨hn, ?_⟩
      exact h4.unrotated.trans (h3.unrotated.trans h2)
    · intro s d ⟨hd, hs⟩
      refine (Device.save_tracks (.inr hd)).mono fun s' d' h' => ⟨h'.2.1, ?_⟩
      refine eq_nil_iff_forall_not_mem.2 fun k hk => ?_
      have hk := h'.2.2.1 k hk
      rw [hs] at hk
      cases hk

theorem registerPushDevice_tracks (hd : Carries d before) :
    Tracks before (registerPushDevice env d) fun s d' => Carries d' s := by
  unfold registerPushDevice
  split
  · exact .ret hd
  · refine Tracks.bind (Q := fun s _ => Carries d s) ?_ fun s id hs => ?_
    · split
      · exact .ret hd
      · exact .getUuid fun id s _ hs => .ret (hd.retains hs)
    · refine .still .external fun s' _ h' => ?_
      have hcopy : Carries { d with pushUuid := some id } s' := (hs.retains h').copy rfl rfl
      refine hcopy.save.catchErr.bind fun s'' r hr => ?_
      cases r with
      | error => exact .err
      | ok d' => exact .ret (hr d' rfl)

theorem authenticatedResponse_tracks (hd : Carries d before) :
    Tracks before (authenticatedResponse env d tokens note) fun s _ => unrotated s = [] := by
  refine .still sendNewDeviceLoggedIn_writes fun s _ hs => ?_
  have hpush : Tracks s (if d.isNew then pure d else registerPushDevice env d)
      fun s d' => Carries d' s := by
    split
    · exact .ret (hd.retains hs)
    · exact registerPushDevice_tracks (hd.retains hs)
  exact hpush.bind fun s' d' h' => h'.save.bind fun s'' _ h'' => .ret h''.2

/-! ## Logging in -/

theorem checkRemember_tracks (hd : Carries d before) :
    Tracks before (checkRemember env ids u data d token) fun s _ => Carries d s := by
  unfold checkRemember
  split
  · exact .ret hd
  · refine .bind (Q := ⊤) ?_ fun s _ _ => ?_
    · have hcopy : Carries { d with twofactorRemember := none } before := hd.copy rfl rfl
      unfold Prog.when
      split
      · exact hcopy.save.bind fun _ _ _ => .ret trivial
      · exact .ret trivial
    · exact .pass (.each fun _ => describeProvider_writes) rfl fun _ _ _ => .err

theorem checkSecondFactor_tracks (hd : Carries d before) :
    Tracks before (checkSecondFactor env u data d ip ids selected row token)
      fun s _ => Carries d s := by
  unfold checkSecondFactor
  split
  · exact (checkRemember_tracks hd).bind fun s _ hs => .ret hs
  · exact (Tracks.quiet useRecoveryCode_writes (by decide) (by decide)).mono
      fun s _ hs => hd.retains hs
  · exact .pass validateProvider_writes rfl fun s _ hs => .ret (hd.retains hs)
  · exact .err

theorem twofactorAuth_tracks (hd : Carries d before) :
    Tracks before (twofactorAuth env u data d ip) fun s r => Carries r.2.1 s := by
  have hrefuse : ∀ (s : List DbAccess) ids message, Tracks s
      (refuseTwofactor env ids u data message : Cmd (User × Device × Option String))
      fun s r => Carries r.2.1 s := fun s ids message =>
    .pass (.each fun _ => describeProvider_writes) rfl fun _ _ _ => .err
  refine .still .query fun s0 factors h0 => ?_
  have hd := hd.retains h0
  split
  · exact .pass enforce2faPolicy_writes rfl fun s _ hs => .ret (hd.retains hs)
  · refine .pass TwoFactorIncomplete.markIncomplete_writes rfl fun s1 _ h1 => ?_
    have hd := hd.retains h1
    generalize usableProviders env.toConfig factors = ids
    cases ids with
    | nil => exact .err
    | cons =>
      dsimp only
      split
      · exact hrefuse s1 _ _
      · split
        · exact hrefuse s1 _ _
        · refine (checkSecondFactor_tracks hd).bind fun s2 _ hd => ?_
          refine .pass TwoFactorIncomplete.markComplete_writes rfl fun s3 _ h3 => ?_
          have hd := hd.retains h3
          split
          · exact .ret (hd.copy rfl rfl)
          · exact .ret hd

theorem passwordLogin_tidy : Tidy (passwordLogin env data ip) := by
  refine .still AuthMethod.checkScope_writes fun _ => .still .external fun _ => ?_
  refine .still .unwrap fun name => .pass (S := [.users]) (.loadUser rfl) rfl fun found => ?_
  split
  · exact .err
  · refine .check <| .still .unwrap fun _ => .pass checkLogin_writes rfl fun u => ?_
    refine .pass (.when remindToVerify_writes) rfl fun _ => fun before hb => ?_
    refine (getDevice_tracks hb).bind fun s d hd => (twofactorAuth_tracks hd).bind fun s' r hr => ?_
    exact authenticatedResponse_tracks hr

theorem apiKeyLogin_tidy : Tidy (apiKeyLogin env data) := by
  refine .still .external fun _ => .ite ?_ (.ite ?_ .err)
  · unfold userApiKeyLogin
    split
    · refine .still .query fun found => ?_
      split
      · exact .err
      · refine .check <| .check <| fun before hb => ?_
        refine (getDevice_tracks hb).bind fun s d hd => ?_
        refine .still sendNewDeviceLoggedIn_writes fun s' _ h' => ?_
        exact (hd.retains h').save.bind fun s'' _ h'' => .ret h''.2
    · exact .err
  · unfold organizationApiKeyLogin
    split
    · refine .still .query fun found => ?_
      split
      · exact .err
      · exact .check <| .ret
    · exact .err

theorem ssoLoginAs_tidy {a info} : Tidy (ssoLoginAs env data ip a info) := by
  refine .pass ssoAccount_writes rfl fun found => ?_
  split
  · refine .pass ssoSignup_writes rfl fun u => fun before hb => ?_
    refine (getDevice_tracks hb).bind fun s d hd => .pass redeem_writes rfl fun s' _ h' => ?_
    exact authenticatedResponse_tracks (hd.retains h')
  · refine .check <| fun before hb => (getDevice_tracks hb).bind fun s d hd => ?_
    refine (twofactorAuth_tracks hd).bind fun s1 r hr => ?_
    refine .pass ssoFillStub_writes rfl fun s2 _ h2 => .still (.when .external) fun s3 _ h3 => ?_
    refine .pass redeem_writes rfl fun s4 _ h4 => authenticatedResponse_tracks ?_
    exact ((hr.retains h2).retains h3).retains h4

theorem ssoLogin_tidy : Tidy (ssoLogin env data ip answer) := by
  refine .still AuthMethod.checkScope_writes fun _ => .still .external fun _ => ?_
  split
  · exact .err
  · exact .err
  · exact .pass exchangeCode_writes rfl fun _ => ssoLoginAs_tidy

theorem login_tidy : Tidy (login env grantType data ip) := by
  cases grantType with
  | refreshToken => exact .check <| refreshLogin_tidy
  | password =>
    refine .check <| .check <| .check ?_
    refine .check <| .check <| .still checkDevice_writes fun _ => ?_
    exact passwordLogin_tidy
  | clientCredentials =>
    refine .check <| .check <| .check ?_
    exact .still checkDevice_writes fun _ => apiKeyLogin_tidy
  | authorizationCode =>
    refine .check <| .check <| .check ?_
    exact .check <| .still checkDevice_writes fun _ => ssoLogin_tidy
  | other => exact .err

/-! ## Requests -/

/-- The password is set on the copy and the copy is saved. -/
theorem setPasswordAndSave_tidy {key}
    {f : User → User} :
    Tidy (do
      let user ← u.setPassword env password key reset routes
      let _ ← (f user).save env) :=
  .bind User.setPassword_tidy fun _ => .pass User.save_writes rfl fun _ => .ret

theorem putDeviceToken_tidy : Tidy (putDeviceToken env device token headers) := by
  intro before hb
  refine .loadDevice hb (fun _ _ h => Device.mem_of_findByUuidAndUser h) fun s r hs hr => ?_
  cases r with
  | none => exact .err
  | some d =>
    have hcopy : Carries { d with pushToken := some token } s := (hr d rfl).copy rfl rfl
    dsimp only
    split
    · exact .ret hs
    · refine hcopy.save.catchErr.bind fun s' r hr => ?_
      cases r with
      | error => exact .err
      | ok d' => exact (registerPushDevice_tracks (hr d' rfl)).bind fun _ _ h => .ret h.2

theorem postRotatekey_tidy {data} : Tidy (postRotatekey env data headers) := by
  refine .check <| .still validateCipherData_writes fun _ => .still .query fun rows => ?_
  refine .still validateKeydata_writes fun _ => ?_
  refine .pass (.each fun _ => rotateFolder_writes) rfl fun _ => ?_
  refine .pass (.each fun _ => rotateEmergencyAccess_writes) rfl fun _ => ?_
  refine .pass (.each fun _ => rotateMembership_writes) rfl fun _ => ?_
  refine .pass (.foldl fun _ _ => rotateSend_writes) rfl fun _ => ?_
  exact .pass (.foldl fun _ _ => rotateCipher_writes) rfl fun _ => setPasswordAndSave_tidy

theorem AccountRequest.handle_tidy {request : AccountRequest} :
    Tidy (request.handle env headers) := by
  cases request with
  | postPassword =>
    exact .check <| .check <| setPasswordAndSave_tidy
  | postKdf =>
    exact .check <| .check <| .check <| .still setKdfData_writes fun _ => setPasswordAndSave_tidy
  | postRotatekey => exact postRotatekey_tidy
  | postSstamp =>
    exact .pass PasswordOrOtpData.validate_writes rfl fun _ => .bind User.resetSecurityStamp_tidy
      fun _ => .pass (.catchErr User.save_writes) rfl fun _ => .pass Device.deleteAllByUser_writes rfl
        fun _ => .still .lift fun _ => .ret
  | postEmail =>
    refine .check <| .check <| .still .query fun _ => ?_
    refine .check <| .check <| .check ?_
    exact .still (.when (.bind .ensure fun _ => .ensure)) fun _ => setPasswordAndSave_tidy
  | putDeviceToken => exact putDeviceToken_tidy
  | _ => exact .of_writes AccountRequest.handle_writes rfl

theorem OrgRequest.handle_tidy {request : OrgRequest} {org headers} :
    Tidy (request.handle env org headers) := by
  cases request with
  | recoverAccount =>
    refine .check <| .still .query fun _ => .check ?_
    refine .still .query fun found => ?_
    split
    · exact .err
    · refine .pass (S := [.users]) (.loadUser rfl) rfl fun found => ?_
      split
      · exact .err
      · refine .still checkResetPasswordApplicableAndPermissions_writes fun _ => ?_
        exact .check <| .check <| .still .external fun _ =>
          setPasswordAndSave_tidy
  | _ => exact .of_writes OrgRequest.handle_writes rfl

theorem EmergencyRequest.handle_tidy {request : EmergencyRequest} :
    Tidy (request.handle env headers) := by
  cases request with
  | passwordEmergencyAccess =>
    refine .check <| .still .query fun found => ?_
    split
    · exact .err
    · refine .check <| .pass (S := [.users]) (.loadUser rfl) rfl fun found => ?_
      split
      · exact .err
      · refine .bind User.setPassword_tidy fun _ => .pass User.save_writes rfl fun _ => ?_
        refine .pass TwoFactor.deleteAllByUser_writes rfl fun _ => .still .query fun _ => ?_
        exact .of_writes (.each fun _ => .ite Membership.delete_writes .ret) rfl
  | _ => exact .of_writes EmergencyRequest.handle_writes rfl

theorem AdminRequest.handle_tidy {request : AdminRequest} : Tidy (request.handle env) := by
  cases request with
  | deauthUser =>
    refine .pass Admin.getUserOr404_writes rfl fun _ => .still (.ite ?_ .ret) fun _ => ?_
    · exact .bind .query fun _ => .each fun _ => .bind (.attempt .external) fun _ => .ret
    · exact .pass Device.deleteAllByUser_writes rfl fun _ => .bind User.resetSecurityStamp_tidy fun _ =>
        .pass User.save_writes rfl fun _ => .ret
  | disableUser =>
    exact .pass Admin.getUserOr404_writes rfl fun _ => .bind User.resetSecurityStamp_tidy fun _ =>
      .pass (.catchErr User.save_writes) rfl fun _ => .pass Device.deleteAllByUser_writes rfl fun _ =>
        .still .lift fun _ => .ret
  | _ => exact .of_writes AdminRequest.handle_writes rfl

theorem register_tidy {data verification} : Tidy (register env data verification) := by
  refine .check <| .still (.ite RegisterData.verifyTokens_writes .ret) fun _ => ?_
  refine .check <| .check <| .pass registrationUser_writes rfl fun _ => ?_
  refine .pass Invitation.take_writes rfl fun _ => .still setKdfData_writes fun _ => ?_
  refine .bind User.setPassword_tidy fun _ => .pass sendWelcome_writes rfl fun _ => ?_
  refine .pass User.save_writes rfl fun _ => .of_writes (S := [.emergencyAccess]) (.ite ?_ .ret) rfl
  refine .bind .query fun _ => .each fun _ => ?_
  exact .bind (.attempt EmergencyAccess.acceptInvite_writes) fun _ => .ret

theorem OpenRequest.handle_tidy {request : OpenRequest} : Tidy (request.handle env) := by
  cases request with
  | register => exact register_tidy
  | _ => exact .of_writes OpenRequest.handle_writes rfl

/-- **Every request is honest about secrets** and finishes the resets it starts before it
returns. -/
theorem Event.prog_tidy (e : Event) : Tidy e.prog := by
  obtain ⟨env, request⟩ := e
  cases request with
  | vault => exact .of_writes Request.serve_writes rfl
  | organization =>
    exact .pass OrgRequest.guard_writes rfl fun _ => .bind OrgRequest.handle_tidy fun _ => .ret
  | account =>
    exact .pass Headers.fromRequest_writes rfl fun _ => .bind AccountRequest.handle_tidy fun _ => .ret
  | twoFactor =>
    exact .of_writes Request.serve_writes rfl
  | emergency =>
    exact .pass Headers.fromRequest_writes rfl fun _ => .bind EmergencyRequest.handle_tidy fun _ => .ret
  | send => exact .of_writes Request.serve_writes rfl
  | admin => exact .bind AdminRequest.handle_tidy fun _ => .ret
  | directory =>
    exact .of_writes Request.serve_writes rfl
  | login => exact .bind login_tidy fun _ => .ret
  | anyone => exact .bind OpenRequest.handle_tidy fun _ => .ret
  | job task => cases task <;> exact .of_writes Request.serve_writes rfl

end VaultServer
