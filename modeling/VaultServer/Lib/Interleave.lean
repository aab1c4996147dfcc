import VaultServer.Lib.Prog

/-!
# Programs that take turns

A pool of programs over one state. A schedule says whose turn it is; a turn is one call of that
program, made in the state the turns before have left. The history of a pool lists the turns that
were taken, the latest first.

`Prog.Traced` is what a program promises about its calls from what it has seen itself: each call
satisfies a condition that may speak of the program's own earlier calls. Every turn of a pool then
satisfies the condition, whatever the others did in between (`Pool.run_traced`).

A program that works on a copy is `overtaken` when another one has changed the original since the
copy was made; otherwise the original still is what the copy says (`view_of_seen`).
-/

namespace Lib

open List

/-- A call that was made: which one, and the states before and after it. -/
structure Access (σ ℓ : Type) where
  label : ℓ
  pre : σ
  post : σ

structure Turn (σ ℓ : Type) extends Access σ ℓ where
  thread : Nat

variable {σ ℓ ε α β : Type} {past : List (Turn σ ℓ)}

/-- The accesses of one program. -/
def own (i : Nat) : List (Turn σ ℓ) → List (Access σ ℓ)
  | [] => []
  | t :: past => if t.thread = i then t.toAccess :: own i past else own i past

theorem mem_own {a : Access σ ℓ} : a ∈ own i past ↔ ∃ t ∈ past, t.thread = i ∧ t.toAccess = a := by
  induction past with
  | nil => simp [own]
  | cons t past ih =>
    by_cases hi : t.thread = i
    · simp [own, hi, ih, eq_comm]
    · simp [own, hi, ih]

/-- An access of a program is a turn of the history. -/
theorem own_eq_append_cons {later earlier : List (Access σ ℓ)}
    {a : Access σ ℓ} (h : own i past = later ++ a :: earlier) :
    ∃ l t e, past = l ++ t :: e ∧ t.thread = i ∧ t.toAccess = a ∧ own i l = later ∧
      own i e = earlier := by
  induction past generalizing later with
  | nil => cases later <;> cases h
  | cons t past ih =>
    by_cases hi : t.thread = i
    · simp only [own, hi, if_true] at h
      cases later with
      | nil =>
        obtain ⟨rfl, rfl⟩ := List.cons.inj h
        exact ⟨[], t, past, rfl, hi, rfl, rfl, rfl⟩
      | cons =>
        obtain ⟨rfl, htail⟩ := List.cons.inj h
        obtain ⟨l, t', e, rfl, hi', ht', hl, he⟩ := ih htail
        exact ⟨t :: l, t', e, rfl, hi', ht', by simp [own, hi, hl], he⟩
    · simp only [own, if_neg hi] at h
      obtain ⟨l, t', e, rfl, hi', ht', hl, he⟩ := ih h
      exact ⟨t :: l, t', e, rfl, hi', ht', by simp [own, hi, hl], he⟩

/-- The turns lead from `w0` to `w`, each taken in the state the one before has left. -/
def Chained (w0 : σ) : σ → List (Turn σ ℓ) → Prop
  | w, [] => w = w0
  | w, t :: past => w = t.post ∧ Chained w0 t.pre past

/-- What holds after a turn holds from then on, if every later turn keeps it. -/
theorem Chained.stays {I : σ → Prop} {w0 w later earlier} {t : Turn σ ℓ}
    (hl : Chained w0 w (later ++ t :: earlier)) (ht : I t.post)
    (hstep : ∀ l x e, later = l ++ x :: e → I x.pre → I x.post) : I w ∧ ∀ x ∈ later, I x.pre := by
  induction later generalizing w with
  | nil => exact ⟨hl.1 ▸ ht, fun _ h => nomatch h⟩
  | cons x later ih =>
    obtain ⟨rfl, hl⟩ := hl
    have htail : ∀ l y e, later = l ++ y :: e → I y.pre → I y.post := by
      intro l y e hlater
      exact hstep (x :: l) y e (by rw [hlater]; rfl)
    obtain ⟨hpre, hlater⟩ := ih hl htail
    refine ⟨hstep [] x later rfl hpre, fun y hy => ?_⟩
    rcases mem_cons.1 hy with rfl | hy
    · exact hpre
    · exact hlater y hy

/-- Every turn meets the condition, which may look at the turns before it. -/
def Along (ok : List (Turn σ ℓ) → Turn σ ℓ → Prop) : List (Turn σ ℓ) → Prop
  | [] => True
  | t :: past => ok past t ∧ Along ok past

theorem Along.suffix {ok : List (Turn σ ℓ) → Turn σ ℓ → Prop} {past later}
    (h : Along ok (later ++ past)) : Along ok past := by
  induction later with
  | nil => exact h
  | cons t later ih => exact ih h.2

instance Along.decidable (ok : List (Turn σ ℓ) → Turn σ ℓ → Prop)
    [∀ before t, Decidable (ok before t)] : (past : List (Turn σ ℓ)) → Decidable (Along ok past)
  | [] => .isTrue trivial
  | t :: past =>
    have := Along.decidable ok past
    inferInstanceAs (Decidable (ok past t ∧ Along ok past))

/-! ## What a program promises about its calls -/

/-- Each call of the program satisfies `P`, `Q` holds when it returns and `E` when it fails; all
may look at the program's own accesses so far. -/
def Prog.Traced (P : List (Access σ ℓ) → ℓ → (σ → σ) → Prop) (Q : List (Access σ ℓ) → α → Prop)
    (E : List (Access σ ℓ) → Prop) : List (Access σ ℓ) → Prog σ ℓ ε α → Prop
  | seen, .ret a => Q seen a
  | seen, .fail _ => E seen
  | seen, .call l u n => P seen l u ∧ ∀ w, Traced P Q E (⟨l, w, u w⟩ :: seen) (n w)

namespace Prog.Traced

variable {P : List (Access σ ℓ) → ℓ → (σ → σ) → Prop} {Q Q' : List (Access σ ℓ) → α → Prop}
  {R : List (Access σ ℓ) → β → Prop} {E E' : List (Access σ ℓ) → Prop} {seen : List (Access σ ℓ)}
  {c : Prog σ ℓ ε α} {k : α → Prog σ ℓ ε β}

theorem mono (h : Traced P Q E seen c) (hQ : ∀ s a, Q s a → Q' s a)
    (hE : ∀ s, E s → E' s) : Traced P Q' E' seen c := by
  induction c generalizing seen with
  | ret a => exact hQ seen a h
  | fail => exact hE seen h
  | call l u n ih => exact ⟨h.1, fun w => ih w (h.2 w)⟩

/-- What holds of every end holds of the program's. -/
theorem of_forall (hP : ∀ s l u, P s l u) (hQ : ∀ s a, Q s a) (hE : ∀ s, E s) :
    Traced P Q E seen c := by
  induction c generalizing seen with
  | ret a => exact hQ seen a
  | fail => exact hE seen
  | call l u n ih => exact ⟨hP seen l u, fun w => ih w⟩

/-- The accesses so far stay known. -/
theorem onward {base : List (Access σ ℓ)} (hbase : base <:+ seen)
    (h : Traced P Q E seen c) : Traced P (fun s a => Q s a ∧ base <:+ s) E seen c := by
  induction c generalizing seen with
  | ret => exact ⟨h, hbase⟩
  | fail => exact h
  | call l u n ih => exact ⟨h.1, fun w => ih w (hbase.trans (suffix_cons _ _)) (h.2 w)⟩

theorem promise {P' : List (Access σ ℓ) → ℓ → (σ → σ) → Prop}
    (h : Traced P Q E seen c) (hP : ∀ s l u, P s l u → P' s l u) : Traced P' Q E seen c := by
  induction c generalizing seen with
  | ret => exact h
  | fail => exact h
  | call l u n ih => exact ⟨hP seen l u h.1, fun w => ih w (h.2 w)⟩

/-- What every call does, whatever came before it. -/
theorem of_each {p} (hc : c.Each p) (hP : ∀ s l u, p l u → P s l u) : Traced P ⊤ ⊤ seen c := by
  induction c generalizing seen with
  | ret => trivial
  | fail => trivial
  | call l u n ih => exact ⟨hP seen l u hc.1, fun w => ih w (hc.2 w)⟩

theorem bind {c} (hc : Traced P Q E seen c)
    (hk : ∀ s a, Q s a → Traced P R E s (k a)) : Traced P R E seen (c >>= k) := by
  induction c generalizing seen with
  | ret a => exact hk seen a hc
  | fail => exact hc
  | call l u n ih => exact ⟨hc.1, fun w => ih w (hc.2 w)⟩

/-- A read, then the rest with what was read. -/
theorem read {f : σ → α} (hP : P seen l id) (hk : ∀ w, Traced P R E (⟨l, w, w⟩ :: seen) (k (f w))) :
    Traced P R E seen (Prog.read l f >>= k) :=
  ⟨hP, hk⟩

/-- What is known of a failure is known of the outcome that is handed on. -/
theorem attempt (hc : Traced P Q E seen c) :
    Traced P (fun s r => match r with | .ok a => Q s a | .error _ => E s) E' seen c.attempt := by
  induction c generalizing seen with
  | ret => exact hc
  | fail => exact hc
  | call l u n ih => exact ⟨hc.1, fun w => ih w (hc.2 w)⟩

end Prog.Traced

/-! ## Pools -/

structure Pool (σ ℓ ε α : Type) where
  threads : List (Prog σ ℓ ε α)
  state : σ
  past : List (Turn σ ℓ)

namespace Pool

def start (threads : List (Prog σ ℓ ε α)) (w : σ) : Pool σ ℓ ε α := ⟨threads, w, []⟩

/-- The next call of one program. One that has ended, or that there is none, takes no turn. -/
def step (p : Pool σ ℓ ε α) (i : Nat) : Pool σ ℓ ε α :=
  match p.threads[i]? with
  | some (.call l u n) =>
    ⟨p.threads.set i (n p.state), u p.state, ⟨⟨l, p.state, u p.state⟩, i⟩ :: p.past⟩
  | _ => p

def run (p : Pool σ ℓ ε α) (schedule : List Nat) : Pool σ ℓ ε α := schedule.foldl step p

def hasReturned (p : Pool σ ℓ ε α) (i : Nat) : Bool :=
  match p.threads[i]? with
  | some (.ret _) => true
  | _ => false

theorem exists_of_hasReturned {p : Pool σ ℓ ε α} (h : p.hasReturned i = true) :
    ∃ a, p.threads[i]? = some (.ret a) := by
  unfold hasReturned at h
  split at h
  · next a ha => exact ⟨a, ha⟩
  · cases h

/-- What a turn of a promising pool is: an update that satisfies the promise of its program. -/
def Made (P : Nat → List (Access σ ℓ) → ℓ → (σ → σ) → Prop) (before : List (Turn σ ℓ))
    (t : Turn σ ℓ) : Prop :=
  ∃ u, t.post = u t.pre ∧ P t.thread (own t.thread before) t.label u

structure Keeps (P : Nat → List (Access σ ℓ) → ℓ → (σ → σ) → Prop)
    (Q : Nat → List (Access σ ℓ) → α → Prop) (w0 : σ) (p : Pool σ ℓ ε α) : Prop where
  linked : Chained w0 p.state p.past
  made : Along (Made P) p.past
  threads : ∀ i c, p.threads[i]? = some c → Prog.Traced (P i) (Q i) (fun _ => True) (own i p.past) c

variable {P : Nat → List (Access σ ℓ) → ℓ → (σ → σ) → Prop}
  {Q : Nat → List (Access σ ℓ) → α → Prop} {w0 : σ} {p : Pool σ ℓ ε α}

theorem Keeps.step (h : p.Keeps P Q w0) (i : Nat) : (p.step i).Keeps P Q w0 := by
  unfold Pool.step
  split
  case h_2 => exact h
  case h_1 l u n hi =>
    obtain ⟨hP, hn⟩ := h.threads i _ hi
    refine ⟨⟨rfl, h.linked⟩, ⟨⟨u, rfl, hP⟩, h.made⟩, fun j c hj => ?_⟩
    by_cases hij : i = j
    · subst hij
      rw [List.getElem?_set_self (List.getElem?_eq_some_iff.1 hi).1] at hj
      obtain rfl := Option.some.inj hj
      simp only [own, if_true]
      exact hn p.state
    · rw [getElem?_set_ne hij] at hj
      simp only [own, if_neg hij]
      exact h.threads j c hj

theorem Keeps.run (h : p.Keeps P Q w0) (schedule : List Nat) : (p.run schedule).Keeps P Q w0 := by
  induction schedule generalizing p with
  | nil => exact h
  | cons i schedule ih => exact ih (h.step i)

/-- **Promises hold in every pool**: whatever the order of the turns, each satisfies the promise of
its program, and each program that has returned has its own postcondition. -/
theorem run_traced {threads : List (Prog σ ℓ ε α)} {w : σ} (schedule : List Nat)
    (h : ∀ i c, threads[i]? = some c → Prog.Traced (P i) (Q i) ⊤ [] c) :
    ((start threads w).run schedule).Keeps P Q w :=
  Keeps.run (p := start threads w) ⟨rfl, trivial, h⟩ schedule

/-- What holds at the start holds all along, if every promised call keeps it. -/
theorem always {I : σ → Prop} {w past} (h0 : I w0) (hl : Chained w0 w past)
    (hm : Along (Made P) past) (hP : ∀ i s l u, P i s l u → ∀ w, I w → I (u w)) :
    I w ∧ ∀ t ∈ past, I t.pre := by
  induction past generalizing w with
  | nil => exact ⟨hl ▸ h0, nofun⟩
  | cons t past ih =>
    obtain ⟨rfl, hl⟩ := hl
    obtain ⟨⟨u, hpost, hu⟩, hm⟩ := hm
    obtain ⟨hpre, hrest⟩ := ih hl hm
    exact ⟨hpost ▸ hP _ _ _ _ hu _ hpre, forall_mem_cons.2 ⟨hpre, hrest⟩⟩

end Pool

/-! ## Copies -/

section
variable [DecidableEq β] (view : σ → β) (sees : Access σ ℓ → Bool)

/-- What a program knows of a cell: what it was at the last access that shows it, unless an access
of its own has changed it since. -/
def seen : List (Access σ ℓ) → Option β
  | [] => none
  | a :: before =>
    if sees a then some (view a.post)
    else if view a.pre = view a.post then seen before else none

/-- Another program has changed the cell since `i` saw it. -/
def overtaken (i : Nat) : List (Turn σ ℓ) → Bool
  | [] => false
  | t :: past =>
    if t.thread = i then !sees t.toAccess && overtaken i past
    else decide (view t.pre ≠ view t.post) || overtaken i past

/-- **A copy that was not overtaken is current.** -/
theorem view_of_seen {w0 w past i b}
    (hl : Chained w0 w past) (hs : seen view sees (own i past) = some b)
    (ho : overtaken view sees i past = false) : view w = b := by
  induction past generalizing w with
  | nil => cases hs
  | cons t past ih =>
    rw [hl.1]
    by_cases hi : t.thread = i
    · simp only [own, hi, if_true] at hs
      simp only [overtaken, hi, if_true] at ho
      cases ht : sees t.toAccess with
      | true =>
        rw [seen, ht, if_pos rfl] at hs
        exact Option.some.inj hs
      | false =>
        rw [seen, ht, if_neg Bool.false_ne_true] at hs
        split at hs
        · next heq =>
          rw [← heq]
          exact ih hl.2 hs (by simpa [ht] using ho)
        · cases hs
    · simp only [own, if_neg hi] at hs
      simp only [overtaken, if_neg hi, Bool.or_eq_false_iff] at ho
      have heq : view t.pre = view t.post := by simpa using ho.1
      rw [← heq]
      exact ih hl.2 hs ho.2

end

/-! ## Changes that are not undone -/

section
variable (view : σ → β) (sees : Access σ ℓ → Bool) (marks : Turn σ ℓ → Bool)

/-- What the cell was when the program last looked at it. -/
def looked : List (Access σ ℓ) → Option β
  | [] => none
  | a :: before => if sees a then some (view a.post) else looked before

/-- Another program has taken a marked turn since `i` last looked. -/
def outdated (i : Nat) : List (Turn σ ℓ) → Bool
  | [] => false
  | t :: past =>
    if t.thread = i then !sees t.toAccess && outdated i past else marks t || outdated i past

variable {view sees marks} {D : β → β → Prop} {w0 w : σ} {later earlier : List (Turn σ ℓ)}
  {m : Turn σ ℓ}

/-- The turn keeps the cell, or what it writes descends from what its program has seen there after
the last marked turn of another. -/
def Descends (view : σ → β) (sees : Access σ ℓ → Bool) (marks : Turn σ ℓ → Bool)
    (D : β → β → Prop) (i : Nat) (before : List (Turn σ ℓ)) (t : Turn σ ℓ) : Prop :=
  view t.post = view t.pre ∨ t.thread ≠ i ∧ outdated sees marks t.thread before = false ∧
    ∃ b, looked view sees (own t.thread before) = some b ∧ D b (view t.post)

/-- What the cell is after a marked turn, and what the others see of it, descends from what that
turn has left there. -/
theorem descends_aux (hrefl : ∀ b, D b b) (htrans : ∀ a b c, D a b → D b c → D a c)
    (hl : Chained w0 w (later ++ m :: earlier)) (hm : marks m = true)
    (ht : ∀ l1 t l2, later = l1 ++ t :: l2 →
      Descends view sees marks D m.thread (l2 ++ m :: earlier) t) :
    D (view m.post) (view w) ∧ ∀ i b, i ≠ m.thread →
      outdated sees marks i (later ++ m :: earlier) = false →
      looked view sees (own i (later ++ m :: earlier)) = some b → D (view m.post) b := by
  induction later generalizing w with
  | nil =>
    refine ⟨hl.1 ▸ hrefl _, fun i b hi ho => ?_⟩
    simp [outdated, Ne.symm hi, hm] at ho
  | cons t later ih =>
    obtain ⟨rfl, hl⟩ := hl
    have hrest := ih hl fun l1 x l2 h => ht (t :: l1) x l2 (by rw [h]; rfl)
    have hnow : D (view m.post) (view t.post) := by
      rcases ht [] t later rfl with heq | ⟨hne, ho, b, hb, hd⟩
      · rw [heq]
        exact hrest.1
      · exact htrans _ _ _ (hrest.2 _ b hne ho hb) hd
    refine ⟨hnow, fun i b hi ho hb => ?_⟩
    rw [cons_append, outdated] at ho
    by_cases hti : t.thread = i
    · simp only [hti, if_true, cons_append, own, looked] at ho hb
      cases hs : sees t.toAccess with
      | true =>
        rw [hs, if_pos rfl] at hb
        exact Option.some.inj hb ▸ hnow
      | false =>
        rw [hs] at ho hb
        exact hrest.2 i b hi (by simpa using ho) (by simpa using hb)
    · simp only [if_neg hti, cons_append, own] at ho hb
      exact hrest.2 i b hi (Bool.or_eq_false_iff.1 ho).2 hb

/-- **A change outlives the copies made after it.**  Where no other program writes what it has seen
before the marked turn, the cell descends from what that turn has left there. -/
theorem descends_of_marked (hrefl : ∀ b, D b b) (htrans : ∀ a b c, D a b → D b c → D a c)
    (hl : Chained w0 w (later ++ m :: earlier)) (hm : marks m = true)
    (ht : ∀ l1 t l2, later = l1 ++ t :: l2 →
      Descends view sees marks D m.thread (l2 ++ m :: earlier) t) :
    D (view m.post) (view w) :=
  (descends_aux hrefl htrans hl hm ht).1

end

end Lib
