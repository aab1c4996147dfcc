import Mathlib

/-!
# Maps collected from a list

`collectMap` is the loop that fills a hash map from a list of rows: each row updates the entry of
its key, starting from what earlier rows of the same key left there. Looking a key up afterwards
is folding the rows of that key alone.
-/

namespace Lib

open List

variable {α κ β : Type} [DecidableEq κ]

def collectMap (xs : List α) (key : α → κ) (entry : Option β → α → β) : κ → Option β :=
  xs.foldl (fun m x => Function.update m (key x) (some (entry (m (key x)) x))) fun _ => none

theorem foldl_update_apply (xs : List α) (key : α → κ) (entry : Option β → α → β)
    (m : κ → Option β) (k : κ) :
    xs.foldl (fun m x => Function.update m (key x) (some (entry (m (key x)) x))) m k =
      (xs.filter fun x => key x = k).foldl (fun o x => some (entry o x)) (m k) := by
  induction xs generalizing m with
  | nil => rfl
  | cons x xs ih =>
    rw [foldl_cons, ih]
    by_cases h : key x = k
    · subst h; simp
    · simp [h, Ne.symm h]

theorem collectMap_apply (xs : List α) (key : α → κ) (entry : Option β → α → β) (k : κ) :
    collectMap xs key entry k =
      (xs.filter fun x => key x = k).foldl (fun o x => some (entry o x)) none :=
  foldl_update_apply xs key entry _ k

/-- No row has the key exactly when the map has no entry for it. -/
theorem collectMap_eq_none {key : α → κ} {entry : Option β → α → β} :
    collectMap xs key entry k = none ↔ ∀ x ∈ xs, key x ≠ k := by
  have hsome : ∀ (ys : List α) (b : β), ys.foldl (fun o x => some (entry o x)) (some b) ≠ none := by
    intro ys
    induction ys with
    | nil => intro b h; cases h
    | cons y ys ih => intro b; exact ih (entry (some b) y)
  rw [collectMap_apply]
  cases hf : xs.filter fun x => key x = k with
  | nil =>
    have : ∀ x ∈ xs, key x ≠ k := by simpa [filter_eq_nil_iff] using hf
    simpa using this
  | cons y ys =>
    have hy : y ∈ xs ∧ key y = k := by
      have : y ∈ xs.filter fun x => key x = k := by rw [hf]; exact mem_cons_self
      simpa using this
    rw [foldl_cons]
    exact ⟨fun h => absurd h (hsome ys _), fun h => absurd hy.2 (h y hy.1)⟩

/-- With one row at most per key, the map returns that row. -/
theorem collectMap_eq_some_iff {key : α → κ} (hone : ∀ y ∈ xs, ∀ z ∈ xs, key y = key z → y = z) :
    collectMap xs key (fun _ x => x) k = some x ↔ x ∈ xs ∧ key x = k := by
  have hlast : ∀ (ys : List α) (o : Option α), (∀ y ∈ ys, y = x) → (ys = [] → o = some x) →
      ys.foldl (fun _ y => some y) o = some x := by
    intro ys
    induction ys with
    | nil => intro o _ ho; exact ho rfl
    | cons y ys ih =>
      intro o hy _
      exact ih (some y) (fun z hz => hy z (mem_cons_of_mem _ hz))
        fun _ => congrArg some (hy y mem_cons_self)
  have hmem : ∀ (ys : List α) (o : Option α), ys.foldl (fun _ y => some y) o = some x →
      x ∈ ys ∨ o = some x := by
    intro ys
    induction ys with
    | nil => intro o h; exact .inr h
    | cons y ys ih =>
      intro o h
      rcases ih (some y) h with h | h
      · exact .inl (mem_cons_of_mem _ h)
      · exact .inl (Option.some.inj h ▸ mem_cons_self)
  rw [collectMap_apply]
  constructor
  · intro h
    rcases hmem _ _ h with h | h
    · simpa using h
    · cases h
  · rintro ⟨hx, hk⟩
    apply hlast
    · intro y hy
      have hy : y ∈ xs ∧ key y = k := by simpa using hy
      exact hone y hy.1 x hx (hy.2.trans hk.symm)
    · intro h
      have : x ∈ xs.filter fun x => key x = k := by simpa using ⟨hx, hk⟩
      rw [h] at this; cases this

end Lib
