import VaultServer.Lib.Outcome
import VaultServer.Effects.Statements

/-!
# Runs the outside leaves alone

A run is undisturbed when none of its writes and outside calls is among the faults. Such a run can
still be refused, by a check of the handler or by a constraint of the database; the rules here say
what it takes for it to return.
-/

namespace VaultServer

open Lib List

variable {α β : Type} {w : World} {f : Db → α} {k : α → Cmd β}
variable {S : List Part} {b : Bool} {message : String} {stmt : Db → Option Db} {label : Call}

/-- The calls that use up an outcome of the outside. -/
def Call.mayFail : Call → Bool
  | fresh | read | loadUser | loadDevice | loadDevices _ | loadTwofactor _ _ | checkOtp _ _ _
  | loadSsoAuth _ | loadCipher _ => false
  | _ => true

/-- The outside lets the call fail. -/
def Call.fails (l : Call) (w : World) : Bool := l.mayFail && w.faults.headD false

/-- No write and no outside call of the program fails, from `w` on. -/
abbrev undisturbed {α : Type} (c : Cmd α) (w : World) : Bool := c.spared Call.fails w

/-- Where no fault is to come, none comes. -/
theorem Writes.undisturbed {c : Cmd α} (h : Writes S c) {w : World}
    (hw : w.faults = []) : VaultServer.undisturbed c w = true := by
  induction c generalizing w with
  | ret => rfl
  | fail => rfl
  | call l u n ih =>
    have hu : (u w).faults = [] := suffix_nil.1 (hw ▸ (h.1.keeps w).1)
    refine Bool.and_eq_true_iff.2 ⟨?_, ih w (h.2 w) hu⟩
    rw [Call.fails, hw]
    simp

/-- An undisturbed run returns, with `Q`. -/
abbrev Returns {α : Type} (w : World) (c : Cmd α) (Q : α → World → Prop) : Prop :=
  Prog.Returns Call.fails w c Q

namespace Returns

variable {Q : α → World → Prop} {R : β → World → Prop}

theorem query (h : Returns w (k (f w.db)) R) : Returns w (VaultServer.query f >>= k) R :=
  Prog.Returns.read h

theorem ensure {k} (hb : b = true) (h : Returns w (k ()) R) :
    Returns w (VaultServer.ensure b message >>= k) R := by
  rw [hb]
  exact h

theorem ensure_last {R} (hb : b = true) (h : R () w) :
    Returns w (VaultServer.ensure b message) R := by
  rw [hb]
  exact .ret h

/-- What is known of the state the program leaves, whatever its outcome. -/
theorem and_after {c : Cmd α} {P : World → Prop} (h : Returns w c Q) (hP : P (c.after w)) :
    Returns w c fun a w' => Q a w' ∧ P w' := by
  intro hs
  obtain ⟨a, ha, hq⟩ := h hs
  exact ⟨a, ha, hq, hP⟩

/-- The parts a program does not write are as before. -/
theorem frame {c} (hw : Writes S c) (h : Returns w c Q) :
    Returns w c fun a w' => Q a w' ∧ ∀ t, t ∉ S → w.Same w' t :=
  h.and_after fun _ ht => hw.after ht w

/-- The first part returns with `Q`, and the parts it does not write are as before. -/
theorem andThen {c k} (hw : Writes S c) (hc : Returns w c Q)
    (hk : ∀ a w', Q a w' → (∀ t, t ∉ S → w.Same w' t) → Returns w' (k a) R) :
    Returns w (c >>= k) R :=
  Prog.Returns.bind (frame hw hc) fun a h => hk a _ h.1 h.2

theorem still {c} (hw : Writes [] c) (hc : Returns w c ⊤)
    (hk : ∀ a w', (∀ t, w.Same w' t) → Returns w' (k a) R) : Returns w (c >>= k) R :=
  andThen hw hc fun a w' _ h => hk a w' fun t => h t not_mem_nil

theorem when {c} (h : Returns w c ⊤) : Returns w (Prog.when b c) ⊤ := by
  cases b with
  | true => exact h
  | false => exact .ret trivial

theorem attempt {c : Cmd α} : Returns w c.attempt ⊤ := by
  intro _
  rw [Prog.run_attempt]
  exact ⟨_, rfl, trivial⟩

/-- What returns is handed on. -/
theorem catchErr {c} (h : Returns w c Q) :
    Returns w (VaultServer.catchErr c) fun r w' => ∃ a, r = .ok a ∧ Q a w' := by
  intro hs
  obtain ⟨a, ha, hq⟩ := h (Prog.spared_attempt ▸ (Prog.spared_bind hs).1)
  have hrun : (VaultServer.catchErr c).run w = (.ok (.ok a), c.after w) := by
    have hbind : (VaultServer.catchErr c).run w = _ := Prog.run_bind c.attempt _ w
    rw [hbind, Prog.run_attempt, ha]
    rfl
  rw [Prog.after, hrun]
  exact ⟨_, rfl, a, rfl, hq⟩

theorem getUuid {k} (h : Returns { w with nextUuid := w.nextUuid + 1 } (k w.nextUuid) R) :
    Returns w (VaultServer.getUuid >>= k) R := .call fun _ => h

theorem exec {db'} (hl : label.mayFail = true) (hs : stmt w.db = some db') :
    Returns w (VaultServer.exec stmt message label) fun _ w' => w'.db = db' := by
  refine .call fun hf => ?_
  have hh : w.faults.headD false = false := by simpa [Call.fails, hl] using hf
  have hr : w.refuses stmt = false := by rw [World.refuses, hh, hs]; rfl
  rw [hr]
  refine .ret ?_
  unfold World.exec
  rw [hr, hs]

theorem execTotal {stmt} :
    Returns w (VaultServer.execTotal stmt message) fun _ w' => w'.db = stmt w.db :=
  exec rfl rfl

/-- What a deletion leaves of the table `T` was there before, and is none of the deleted rows. -/
theorem deleted {c : Cmd α} {stmt : Db → Db} (hc : Returns w c fun _ w' => w'.db = stmt w.db)
    {ρ κ υ : Type} {key : ρ → κ} {uniq : ρ → υ} (T : Db → Table key uniq) {t} (ht : T w.db = t)
    {P : ρ → Prop} [DecidablePred P] (hs : T (stmt w.db) = (T w.db).deleteWhere fun r => P r) :
    Returns w c fun _ w' => ∀ r ∈ (T w'.db).rows, r ∈ t.rows ∧ ¬ P r := by
  refine hc.mono fun _ w' hdb r hr => ?_
  rw [hdb, hs, ht] at hr
  obtain ⟨hmem, hne⟩ := Table.mem_deleteWhere.1 hr
  exact ⟨hmem, of_decide_eq_false hne⟩

theorem execGuarded {ok : Db → Bool} {stmt : Db → Db}
    (hl : label.mayFail = true) (hok : ok w.db = true) :
    Returns w (VaultServer.exec (fun db => Db.guarded (ok db) (stmt db)) message label)
      fun _ w' => w'.db = stmt w.db :=
  exec hl (by rw [hok]; rfl)

theorem external : Returns w (VaultServer.external message) ⊤ := by
  refine .call fun hf => ?_
  have hh : w.faults.headD false = false := by simpa [Call.fails, Call.mayFail] using hf
  rw [hh]
  exact .ret trivial

theorem updateUuidRevision : Returns w (User.updateUuidRevision env u) ⊤ :=
  Prog.Returns.bind attempt fun _ _ => .ret trivial

/-- A loop whose rounds always return. -/
theorem each {f : α → Cmd Unit} (h : ∀ x ∈ xs, ∀ w', Returns w' (f x) ⊤) :
    Returns w (Prog.each xs f) ⊤ :=
  Prog.Returns.each (J := ⊤) trivial fun x hx w' _ => h x hx w'

end Returns

/-- An undisturbed run ends with an outcome and a state in `P`. -/
abbrev Concludes {α : Type} (w : World) (c : Cmd α) (P : Except Failure α → World → Prop) : Prop :=
  Prog.Concludes Call.fails w c P

namespace Concludes

variable {Q : α → World → Prop} {P : Except Failure β → World → Prop}

theorem query (h : Concludes w (k (f w.db)) P) :
    Concludes w (VaultServer.query f >>= k) P := .read h

theorem ensure {k}
    (hfalse : b = false → P (.error (.err message)) w) (htrue : b = true → Concludes w (k ()) P) :
    Concludes w (VaultServer.ensure b message >>= k) P := by
  cases b with
  | false => exact fun _ => hfalse rfl
  | true => exact htrue rfl

theorem andThen {c k} (hw : Writes S c) (hc : Returns w c Q)
    (hk : ∀ a w', Q a w' → (∀ t, t ∉ S → w.Same w' t) → Concludes w' (k a) P) :
    Concludes w (c >>= k) P :=
  Prog.Concludes.bind (Returns.frame hw hc) fun a h => hk a _ h.1 h.2

/-- The statement is carried out, or a constraint refuses it. -/
theorem exec {P} (hl : label.mayFail = true)
    (hnone : stmt w.db = none → ∀ w', w'.db = w.db → P (.error (.err message)) w')
    (hsome : ∀ db', stmt w.db = some db' → ∀ w', w'.db = db' → P (.ok ()) w') :
    Concludes w (VaultServer.exec stmt message label) P := by
  cases hs : stmt w.db with
  | some db' =>
    intro hq
    have hreturns : Returns w (VaultServer.exec stmt message label) fun _ w' => w'.db = db' :=
      Returns.exec hl hs
    obtain ⟨_, hok, hdb⟩ := hreturns hq
    rw [hok]
    exact hsome db' hs _ hdb
  | none =>
    intro _
    have hr : w.refuses stmt = true := by rw [World.refuses, hs]; simp
    have hrun : (VaultServer.exec stmt message label).run w =
        (.error (.err message), w.exec stmt) := by
      show (if w.refuses stmt then (VaultServer.err message : Cmd Unit) else pure ()).run _ = _
      rw [hr]
      rfl
    unfold Prog.after
    rw [hrun]
    refine hnone hs _ ?_
    unfold World.exec
    rw [hr]

end Concludes

namespace Leads

variable {P : World → Prop}

theorem query (h : Prog.Leads Call.fails w (k (f w.db)) P) :
    Prog.Leads Call.fails w (VaultServer.query f >>= k) P := h.read

theorem ensure {k : Unit → Cmd β} (hb : b = true) (h : Prog.Leads Call.fails w (k ()) P) :
    Prog.Leads Call.fails w (VaultServer.ensure b message >>= k) P := by
  rw [hb]
  exact h

end Leads

/-! ## What a returned value tells -/

abbrev Yields {α : Type} (w : World) (c : Cmd α) (Q : α → World → Prop) : Prop := Prog.Yields w c Q

namespace Yields

variable {Q : α → World → Prop} {R : β → World → Prop}

theorem err : Yields w (VaultServer.err message : Cmd α) Q := .fail

theorem query (h : Yields w (k (f w.db)) R) : Yields w (VaultServer.query f >>= k) R := h

theorem loadUser (h : Yields w (k (f w.db)) R) : Yields w (VaultServer.loadUser f >>= k) R := h

/-- A row that is looked up, and may be missing. -/
theorem found {f : World → Option α} {k : Option α → Cmd β} (hnone : Yields w (k none) R)
    (hsome : ∀ a, f w = some a → Yields w (k (some a)) R) : Yields w (Prog.read l f >>= k) R := by
  refine .read ?_
  cases ha : f w with
  | none => exact hnone
  | some a => exact hsome a ha

theorem getUuid {k} (h : Yields { w with nextUuid := w.nextUuid + 1 } (k w.nextUuid) R) :
    Yields w (VaultServer.getUuid >>= k) R := h

theorem ensure {k} (h : b = true → Yields w (k ()) R) :
    Yields w (VaultServer.ensure b message >>= k) R := by
  cases b with
  | false => exact .fail
  | true => exact h rfl

theorem ensure_last {R} (h : b = true → R () w) : Yields w (VaultServer.ensure b message) R := by
  cases b with
  | false => exact .fail
  | true => exact .ret (h rfl)

theorem unwrap (h : ∀ a, o = some a → Yields w (k a) R) :
    Yields w (VaultServer.unwrap o >>= k) R := by
  cases o with
  | none => exact .fail
  | some a => exact h a rfl

theorem lift (h : ∀ a, r = .ok a → Yields w (k a) R) : Yields w (VaultServer.lift r >>= k) R := by
  cases r with
  | error => exact .fail
  | ok a => exact h a rfl

/-- Of the first part only the frame matters. -/
theorem pass {c} (hw : Writes S c)
    (hk : ∀ a w', (∀ t, t ∉ S → w.Same w' t) → Yields w' (k a) R) : Yields w (c >>= k) R :=
  Prog.Yields.bind (Q := fun _ w' => ∀ t, t ∉ S → w.Same w' t) (fun _ _ _ ht => hw.after ht w)
    fun a h => hk a _ h

/-- A first part that writes nothing. -/
theorem still {c} (hw : Writes [] c)
    (hk : ∀ a w', (∀ t, w.Same w' t) → Yields w' (k a) R) : Yields w (c >>= k) R :=
  pass hw fun a w' h => hk a w' fun t => h t not_mem_nil

/-- What the first part yields, and its frame. -/
theorem andThen {c k} (hw : Writes S c) (hc : Yields w c Q)
    (hk : ∀ a w', Q a w' → (∀ t, t ∉ S → w.Same w' t) → Yields w' (k a) R) : Yields w (c >>= k) R :=
  Prog.Yields.bind (Q := fun a w' => Q a w' ∧ ∀ t, t ∉ S → w.Same w' t)
    (fun a ha => ⟨hc a ha, fun _ ht => hw.after ht w⟩) fun a h => hk a _ h.1 h.2

/-- A statement that was carried out. -/
theorem exec :
    Yields w (VaultServer.exec stmt message label) fun _ w' => stmt w.db = some w'.db := by
  intro _ ha
  obtain ⟨hr, -⟩ | ⟨db', hr, hs, hx⟩ := w.exec_cases stmt
  · have hrun : (VaultServer.exec stmt message label).run w =
        (if w.refuses stmt then (VaultServer.err message : Cmd Unit) else pure ()).run _ := rfl
    rw [hrun, hr] at ha
    cases ha
  · have hrun : (VaultServer.exec stmt message label).after w = w.exec stmt := by
      show ((if w.refuses stmt then (VaultServer.err message : Cmd Unit) else pure ()).run _).2 = _
      rw [hr]
      rfl
    rw [hrun, hx]
    exact hs

end Yields

/-! ## Where a program ends -/

section
theorem after_read {f : World → α} : (Prog.read l f >>= k).after w = (k (f w)).after w := rfl

theorem after_query : (query f >>= k).after w = (k (f w.db)).after w := rfl

theorem after_loadUser : (loadUser f >>= k).after w = (k (f w.db)).after w := rfl

theorem after_getUuid {k : Nat → Cmd β} :
    (getUuid >>= k).after w = (k w.nextUuid).after { w with nextUuid := w.nextUuid + 1 } := rfl

theorem after_exec : (exec stmt message label).after w = w.exec stmt := by
  show ((if w.refuses stmt then (err message : Cmd Unit) else pure ()).run _).2 = _
  split <;> rfl

theorem after_catchErr {c : Cmd α} : (catchErr c).after w = c.after w := by
  have hrun : (catchErr c).run w = _ := Prog.run_bind c.attempt _ w
  rw [Prog.after, hrun, Prog.run_attempt]
  cases (c.run w).1 with
  | ok => rfl
  | error e => cases e <;> rfl

/-- A check stops where it is made. -/
theorem after_ensure {P : World → Prop} {k : Unit → Cmd β} (hw : P w)
    (h : b = true → P ((k ()).after w)) : P ((ensure b message >>= k).after w) := by
  cases b with
  | false => exact hw
  | true => exact h rfl

end

/-! ## Refusals -/

namespace Refuses

theorem query (h : Prog.Refuses w (k (f w.db))) :
    Prog.Refuses w (VaultServer.query f >>= k) := h.read

/-- The check refuses, or the rest does. -/
theorem ensure {k : Unit → Cmd β} (h : b = true → Prog.Refuses w (k ())) :
    Prog.Refuses w (VaultServer.ensure b message >>= k) := by
  cases b with
  | false => exact .bind Prog.Refuses.fail
  | true => exact h rfl

end Refuses

/-! ## Errors and panics -/

/-- The program stops with an `Err`, if it stops: it does not panic. -/
def NoPanic {α : Type} (c : Cmd α) : Prop := c.FailsOnly fun e => ∀ message, e ≠ .panic message

namespace NoPanic

variable {c d : Cmd α}

theorem ret : NoPanic (pure a : Cmd α) := trivial

theorem err : NoPanic (VaultServer.err message : Cmd α) := nofun

theorem bind (hc : NoPanic c) (hk : ∀ a, NoPanic (k a)) : NoPanic (c >>= k) :=
  Prog.FailsOnly.bind hc hk

theorem each {f : α → Cmd Unit} (h : ∀ x, NoPanic (f x)) : NoPanic (Prog.each xs f) :=
  Prog.FailsOnly.each h

theorem foldl {xs b} {f : β → α → Cmd β} (h : ∀ b x, NoPanic (f b x)) :
    NoPanic (Prog.foldl xs b f) :=
  Prog.FailsOnly.foldl h

theorem query : NoPanic (VaultServer.query f) := fun _ => trivial

theorem ite {b : Prop} [Decidable b] (hc : NoPanic c) (hd : NoPanic d) :
    NoPanic (if b then c else d) := by
  split
  · exact hc
  · exact hd

theorem ensure : NoPanic (VaultServer.ensure b message) := ite ret err

theorem when {c} (h : NoPanic c) : NoPanic (Prog.when b c) := ite h ret

theorem attempt : NoPanic c.attempt := by
  induction c with
  | ret => trivial
  | fail => trivial
  | call l u n ih => exact ih

theorem exec : NoPanic (VaultServer.exec stmt message label) := fun _ => ite err ret

theorem external : NoPanic (VaultServer.external message) := fun _ =>
  ite err ret

theorem updateUuidRevision : NoPanic (User.updateUuidRevision env u) := bind attempt fun _ => ret

end NoPanic

/-- Without panics every outcome is handed on. -/
theorem run_catchErr {c : Cmd α} {w} (h : NoPanic c) :
    (catchErr c).run w = (.ok (c.run w).1, c.after w) := by
  have hrun : (catchErr c).run w = _ := Prog.run_bind c.attempt _ w
  rw [hrun, Prog.run_attempt]
  cases hr : (c.run w).1 with
  | ok => rfl
  | error e =>
    cases e with
    | err => rfl
    | invalid => rfl
    | panic m => exact absurd rfl (Prog.FailsOnly.of_run h hr m)

theorem Leads.catchErr {w} {P : World → Prop} {c : Cmd α}
    {k : Except Failure α → Cmd β} (hc : NoPanic c)
    (hk : ∀ r, (c.run w).1 = r → Prog.Leads Call.fails (c.after w) (k r) P) :
    Prog.Leads Call.fails w (VaultServer.catchErr c >>= k) P := by
  have hrun := run_catchErr (w := w) hc
  have hok : ((VaultServer.catchErr c).run w).1 = .ok (c.run w).1 := by rw [hrun]
  have hafter : (VaultServer.catchErr c).after w = c.after w := by
    unfold Prog.after
    rw [hrun]
    rfl
  intro hs
  have hspared := (Prog.spared_bind hs).2 _ hok
  rw [hafter] at hspared
  rw [Prog.after_bind_of_ok hok, hafter]
  exact hk _ rfl hspared

end VaultServer
