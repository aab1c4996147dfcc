import Mathlib

/-!
# Programs over a shared state

A program is a tree of calls. Each `call` is one indivisible access to the shared state: it
updates the state and goes on with what it read, which is the state before the update. A failed
program stops where it is and what it wrote stays written: there is no rollback.

The same tree has two readings. `run` executes it without interruption; `Lib.Interleave` executes
one call at a time, in any order with the calls of other programs. The label of a call says which
access it is and changes neither reading.

`Prog.Each` speaks about every call in the tree, whatever the interleaving.
-/

namespace Lib

open List

inductive Prog (σ ℓ ε α : Type) : Type where
  | ret (a : α)
  | fail (e : ε)
  | call (label : ℓ) (update : σ → σ) (next : σ → Prog σ ℓ ε α)

namespace Prog

variable {σ ℓ ε α β : Type} {c : Prog σ ℓ ε α}

def bind : Prog σ ℓ ε α → (α → Prog σ ℓ ε β) → Prog σ ℓ ε β
  | ret a, k => k a
  | fail e, _ => fail e
  | call l u n, k => call l u fun w => (n w).bind k

instance : Monad (Prog σ ℓ ε) where
  pure := ret
  bind := bind

instance : LawfulMonad (Prog σ ℓ ε) := by
  refine LawfulMonad.mk' _ (fun c => ?_) (fun _ _ => rfl) fun c k k' => ?_
  · induction c with
    | ret => rfl
    | fail => rfl
    | call l u n ih => exact congrArg (call l u) (funext ih)
  · induction c with
    | ret => rfl
    | fail => rfl
    | call l u n ih => exact congrArg (call l u) (funext ih)

/-- Runs `c` and hands its outcome, success or failure, to the rest of the program. -/
def attempt : Prog σ ℓ ε α → Prog σ ℓ ε (Except ε α)
  | ret a => ret (.ok a)
  | fail e => ret (.error e)
  | call l u n => call l u fun w => (n w).attempt

/-- One access that reads `f` of the state and leaves the state as it is. -/
def read (l : ℓ) (f : σ → α) : Prog σ ℓ ε α := call l id fun w => ret (f w)

def each (xs : List α) (f : α → Prog σ ℓ ε Unit) : Prog σ ℓ ε Unit :=
  match xs with
  | [] => ret ()
  | x :: xs => (f x).bind fun _ => each xs f

def when (b : Bool) (c : Prog σ ℓ ε Unit) : Prog σ ℓ ε Unit := if b then c else ret ()

/-- A loop that carries a value from one round to the next. -/
def foldl (xs : List α) (b : β) (f : β → α → Prog σ ℓ ε β) : Prog σ ℓ ε β :=
  match xs with
  | [] => ret b
  | x :: xs => (f b x).bind fun b => foldl xs b f

/-! ## Running without interruption -/

def run : Prog σ ℓ ε α → σ → Except ε α × σ
  | ret a, w => (.ok a, w)
  | fail e, w => (.error e, w)
  | call _ u n, w => (n w).run (u w)

@[simp] theorem run_pure (a : α) (w : σ) : (pure a : Prog σ ℓ ε α).run w = (.ok a, w) := rfl

@[simp] theorem run_fail (e : ε) (w : σ) : (fail e : Prog σ ℓ ε α).run w = (.error e, w) := rfl

@[simp] theorem run_read (l : ℓ) (f : σ → α) (w : σ) :
    (read l f : Prog σ ℓ ε α).run w = (.ok (f w), w) := rfl

theorem run_bind (c : Prog σ ℓ ε α) (k : α → Prog σ ℓ ε β) (w : σ) : (c >>= k).run w =
      match c.run w with
      | (.ok a, w') => (k a).run w'
      | (.error e, w') => (.error e, w') := by
  induction c generalizing w with
  | ret => rfl
  | fail => rfl
  | call l u n ih => exact ih w (u w)

theorem run_attempt (c : Prog σ ℓ ε α) (w : σ) :
    c.attempt.run w = (.ok (c.run w).1, (c.run w).2) := by
  induction c generalizing w with
  | ret => rfl
  | fail => rfl
  | call l u n ih => exact ih w (u w)

/-- The state a program leaves behind, whatever its outcome. -/
def after (c : Prog σ ℓ ε α) (w : σ) : σ := (c.run w).2

/-- An answer at the end leaves the state alone. -/
theorem after_bind_pure {f : α → β} {w} : (c >>= fun a => pure (f a)).after w = c.after w := by
  unfold after
  rw [run_bind]
  cases c.run w with
  | mk r => cases r <;> rfl

theorem run_eq_of_ok {w a} (h : (c.run w).1 = .ok a) : c.run w = (.ok a, c.after w) := by
  rw [← h]; rfl

/-- What is computed about an answer is known of the answer. -/
theorem exists_ok_of_map {r : Except ε α} {f : α → β} (h : r.toOption.map f = some b) :
    ∃ a, r = .ok a ∧ f a = b := by
  cases r with
  | error => cases h
  | ok a => exact ⟨a, rfl, Option.some.inj h⟩

/-- `Q` of a returned value, `E` of the state after a failure. -/
def Post (Q : α → σ → Prop) (E : σ → Prop) : Except ε α × σ → Prop
  | (.ok a, w) => Q a w
  | (.error _, w) => E w

namespace Post

variable {Q Q' : α → σ → Prop} {E E' F : σ → Prop} {w : σ}

theorem mono {r : Except ε α × σ} (h : Post Q E r) (hQ : ∀ a w, Q a w → Q' a w)
    (hE : ∀ w, E w → E' w) : Post Q' E' r :=
  match r with
  | (.ok a, w) => hQ a w h
  | (.error _, w) => hE w h

theorem bind {k : α → Prog σ ℓ ε β} (h : Post Q E (c.run w))
    (hk : ∀ a w', Q a w' → Post R E' ((k a).run w')) (hE : ∀ w', E w' → E' w') :
    Post R E' ((c >>= k).run w) := by
  rw [run_bind]
  match c.run w, h with
  | (.ok a, w'), h => exact hk a w' h
  | (.error _, w'), h => exact hE w' h

theorem of_after {r : Except ε α × σ} (h : F r.2) : Post (fun _ => F) F r :=
  match r with
  | (.ok _, _) => h
  | (.error _, _) => h

/-- What either end brings holds of the state that is left. -/
theorem after {r : Except ε α × σ} (h : Post Q E r) (hQ : ∀ a w', Q a w' → F w')
    (hE : ∀ w', E w' → F w') : F r.2 :=
  match r with
  | (.ok a, w') => hQ a w' h
  | (.error _, w') => hE w' h

end Post

/-- `I` survives the program, returned or failed. -/
def Keeps (I : σ → Prop) (c : Prog σ ℓ ε α) : Prop := ∀ w, I w → I (c.after w)

/-! ## What holds of every call -/

/-- Every call in the tree satisfies `P`. -/
def Each (P : ℓ → (σ → σ) → Prop) : Prog σ ℓ ε α → Prop
  | ret _ => True
  | fail _ => True
  | call l u n => P l u ∧ ∀ w, (n w).Each P

section
variable {P : ℓ → (σ → σ) → Prop} {c : Prog σ ℓ ε α}

theorem Each.mono (hP : ∀ l u, P l u → P' l u) (hc : c.Each P) : c.Each P' := by
  induction c with
  | ret => trivial
  | fail => trivial
  | call l u n ih => exact ⟨hP l u hc.1, fun w => ih w (hc.2 w)⟩

theorem Each.bind {k : α → Prog σ ℓ ε β} (hc : c.Each P)
    (hk : ∀ a, (k a).Each P) : (c >>= k).Each P := by
  induction c with
  | ret a => exact hk a
  | fail => trivial
  | call l u n ih => exact ⟨hc.1, fun w => ih w (hc.2 w)⟩

theorem Each.attempt (hc : c.Each P) : c.attempt.Each P := by
  induction c with
  | ret => trivial
  | fail => trivial
  | call l u n ih => exact ⟨hc.1, fun w => ih w (hc.2 w)⟩

theorem Each.each {f : α → Prog σ ℓ ε Unit} (h : ∀ x ∈ xs, (f x).Each P) :
    (Prog.each xs f).Each P := by
  induction xs with
  | nil => trivial
  | cons x xs ih =>
    exact (h x mem_cons_self).bind fun _ => ih fun y hy => h y (mem_cons_of_mem _ hy)

theorem Each.foldl {f : β → α → Prog σ ℓ ε β} (h : ∀ b, ∀ x ∈ xs, (f b x).Each P) :
    (Prog.foldl xs b f).Each P := by
  induction xs generalizing b with
  | nil => trivial
  | cons x xs ih =>
    exact (h b x mem_cons_self).bind fun b => ih fun b y hy => h b y (mem_cons_of_mem _ hy)

/-- An invariant of every single update is an invariant of the run. -/
theorem Each.keeps (h : c.Each fun _ u => ∀ w, I w → I (u w)) : Keeps I c := by
  intro w hw
  induction c generalizing w with
  | ret => exact hw
  | fail => exact hw
  | call l u n ih => exact ih w (h.2 w) (u w) (h.1 w hw)

end

end Prog

end Lib
