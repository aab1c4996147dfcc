import Mathlib

/-!
# Splitting and trimming

Cutting a list at the first or the last separator, and dropping from both of its ends.
-/

namespace Lib

open List

variable {α : Type} [DecidableEq α]

/-! ## The first and the last separator -/

/-- What stands before and after the first `a`. -/
def splitOnce (a : α) (l : List α) : Option (List α × List α) :=
  match l.dropWhile (· ≠ a) with
  | [] => none
  | _ :: after => some (l.takeWhile (· ≠ a), after)

/-- What stands before and after the last `a`. -/
def rsplitOnce (a : α) (l : List α) : Option (List α × List α) :=
  (splitOnce a l.reverse).map fun p => (p.2.reverse, p.1.reverse)

variable {a : α} {l before after : List α}

theorem splitOnce_append (h : a ∉ before) :
    splitOnce a (before ++ a :: after) = some (before, after) := by
  have hbefore : ∀ x ∈ before, decide (x ≠ a) = true := by
    intro x hx
    simp only [decide_eq_true_eq]
    rintro rfl
    exact h hx
  unfold splitOnce
  rw [dropWhile_append_of_pos hbefore, takeWhile_append_of_pos hbefore]
  simp

theorem splitOnce_eq_some (h : splitOnce a l = some (before, after)) :
    l = before ++ a :: after ∧ a ∉ before := by
  unfold splitOnce at h
  split at h
  · cases h
  · next x rest hrest =>
    obtain ⟨rfl, rfl⟩ := Prod.mk.inj (Option.some.inj h)
    -- dropping stopped at the separator
    have hx : x = a := by
      have hstop := head?_dropWhile_not (fun x => decide (x ≠ a)) l
      rw [hrest] at hstop
      simpa using hstop
    refine ⟨?_, fun hmem => ?_⟩
    · rw [hx] at hrest
      rw [← hrest, takeWhile_append_dropWhile]
    · simpa using mem_takeWhile_imp hmem

theorem rsplitOnce_append (h : a ∉ after) :
    rsplitOnce a (before ++ a :: after) = some (before, after) := by
  have hreverse : (before ++ a :: after).reverse = after.reverse ++ a :: before.reverse := by simp
  have hmem : a ∉ after.reverse := by simpa using h
  simp [rsplitOnce, hreverse, splitOnce_append hmem]

theorem rsplitOnce_eq_some (h : rsplitOnce a l = some (before, after)) :
    l = before ++ a :: after ∧ a ∉ after := by
  obtain ⟨p, hp, heq⟩ := Option.map_eq_some_iff.mp h
  obtain ⟨rfl, rfl⟩ := Prod.mk.inj heq
  obtain ⟨hl, hmem⟩ := splitOnce_eq_some hp
  refine ⟨?_, by simpa using hmem⟩
  rw [← reverse_reverse l, hl]
  simp

/-- The parts between separators hold nothing new. -/
theorem mem_of_mem_splitOn (h : part ∈ l.splitOn a) (hx : x ∈ part) : x ∈ l := by
  induction l generalizing part with
  | nil =>
    rw [splitOn_nil, mem_singleton] at h
    rwa [h] at hx
  | cons y l ih =>
    rw [List.splitOn, splitOnP_cons_eq_if_modifyHead] at h
    split at h
    · rcases mem_cons.mp h with rfl | h
      · cases hx
      · exact mem_cons_of_mem y (ih h hx)
    · obtain ⟨first, rest, hparts⟩ := exists_cons_of_ne_nil (splitOnP_ne_nil (· == a) l)
      rw [hparts, modifyHead_cons] at h
      rcases mem_cons.mp h with rfl | h
      · rcases mem_cons.mp hx with rfl | hx
        · exact mem_cons_self
        · have hfirst : first ∈ l.splitOn a := by simp [List.splitOn, hparts]
          exact mem_cons_of_mem y (ih hfirst hx)
      · have hpart : part ∈ l.splitOn a := by simp [List.splitOn, hparts, h]
        exact mem_cons_of_mem y (ih hpart hx)

/-! ## Both ends -/

/-- Drops from both ends what the predicate holds of. -/
def trimBy (p : α → Bool) (l : List α) : List α := ((l.dropWhile p).reverse.dropWhile p).reverse

omit [DecidableEq α] in
theorem mem_of_mem_trimBy (h : x ∈ trimBy p l) : x ∈ l := by
  have h1 : x ∈ (l.dropWhile p).reverse := (dropWhile_suffix p).subset (mem_reverse.mp h)
  exact (dropWhile_suffix p).subset (mem_reverse.mp h1)

omit [DecidableEq α] in
theorem trimBy_eq_nil_iff : trimBy p l = [] ↔ ∀ x ∈ l, p x = true := by
  unfold trimBy
  rw [reverse_eq_nil_iff, dropWhile_eq_nil_iff]
  constructor
  · intro h
    -- the first element that the left drop keeps would be dropped from the right
    cases hdrop : l.dropWhile p with
    | nil => exact dropWhile_eq_nil_iff.mp hdrop
    | cons x =>
      have hkept : ¬ p x = true := by
        have hstop := head?_dropWhile_not p l
        rw [hdrop] at hstop
        simpa using hstop
      exact absurd (h x (by simp [hdrop])) hkept
  · intro h x hx
    exact h x ((dropWhile_suffix p).subset (mem_reverse.mp hx))

omit [DecidableEq α] in
theorem trimBy_eq_self (h : ∀ x ∈ l, p x = false) : trimBy p l = l := by
  have hkeep : ∀ k : List α, (∀ x ∈ k, p x = false) → k.dropWhile p = k := by
    intro k hk
    cases k with
    | nil => rfl
    | cons x => simp [hk x mem_cons_self]
  unfold trimBy
  rw [hkeep l h, hkeep l.reverse fun x hx => h x (mem_reverse.mp hx), reverse_reverse]

/-! ## White space -/

/-- The characters of the property `White_Space`. -/
def isWhitespace (c : Char) : Bool :=
  let n := c.toNat
  (9 ≤ n && n ≤ 13) || n = 0x20 || n = 0x85 || n = 0xa0 || n = 0x1680 ||
    (0x2000 ≤ n && n ≤ 0x200a) || n = 0x2028 || n = 0x2029 || n = 0x202f || n = 0x205f || n = 0x3000

/-- `str::trim` in Rust. -/
def trimText (s : String) : String := String.ofList (trimBy isWhitespace s.toList)

/-- `str.isspace` in Python also knows the separators of ASCII. -/
def isSpace (c : Char) : Bool := isWhitespace c || (0x1c ≤ c.toNat && c.toNat ≤ 0x1f)

/-- `str.strip` in Python. -/
def strip (s : String) : String := String.ofList (trimBy isSpace s.toList)

end Lib
