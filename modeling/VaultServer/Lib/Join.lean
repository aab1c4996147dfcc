import Mathlib

/-!
# Joins over row lists

A query joins one table after another onto a row type of its own: `add` stores the joined row in
the row under construction, and a left join stores `none` when nothing matches. A comparison
with a missing row is false in the join conditions and filters that use these definitions, which
is how SQL's unknown behaves under `AND`, `OR` and `WHERE` as long as nothing is negated.
-/

namespace Lib

open List

variable {α β γ : Type} {on : α → β → Bool} {add : α → Option β → γ}

/-- A column condition holds of a joined row that is there and satisfies it. -/
theorem any_iff {o : Option α} : o.any p = true ↔ ∃ x, o = some x ∧ p x = true := by
  cases o <;> simp

/-- The rows of `ys` a left join pairs one left row with. -/
def padded (ys : List β) (p : β → Bool) : List (Option β) :=
  match ys.filter p with
  | [] => [none]
  | ms => ms.map some

theorem mem_padded {p : β → Bool} : o ∈ padded ys p ↔
      (∃ y ∈ ys, p y = true ∧ o = some y) ∨ ((∀ y ∈ ys, p y = false) ∧ o = none) := by
  unfold padded
  split
  · next h =>
    have hnone : ∀ y ∈ ys, p y = false := by simpa [filter_eq_nil_iff] using h
    constructor
    · intro ho; exact .inr ⟨hnone, by simpa using ho⟩
    · rintro (⟨y, hy, hp, rfl⟩ | ⟨-, rfl⟩)
      · rw [hnone y hy] at hp; cases hp
      · simp
  · next hne =>
    constructor
    · intro ho
      obtain ⟨y, hy, rfl⟩ := mem_map.1 ho
      obtain ⟨hy, hp⟩ := mem_filter.1 hy
      exact .inl ⟨y, hy, hp, rfl⟩
    · rintro (⟨y, hy, hp, rfl⟩ | ⟨hnone, rfl⟩)
      · exact mem_map.2 ⟨y, mem_filter.2 ⟨hy, hp⟩, rfl⟩
      · exact absurd (filter_eq_nil_iff.2 fun y hy => by simp [hnone y hy]) hne

theorem some_mem_padded {p : β → Bool} : some y ∈ padded ys p ↔ y ∈ ys ∧ p y = true := by
  simp [mem_padded]

/-- Every left row survives a left join. -/
theorem exists_mem_padded (ys : List β) (p : β → Bool) : ∃ o, o ∈ padded ys p := by
  by_cases h : ∃ y ∈ ys, p y = true
  · obtain ⟨y, hy, hp⟩ := h
    exact ⟨some y, some_mem_padded.2 ⟨hy, hp⟩⟩
  · exact ⟨none, mem_padded.2 (.inr ⟨by simpa using h, rfl⟩)⟩

def leftJoin (xs : List α) (ys : List β) (on : α → β → Bool) (add : α → Option β → γ) : List γ :=
  xs.flatMap fun x => (padded ys (on x)).map (add x)

theorem mem_leftJoin :
    z ∈ leftJoin xs ys on add ↔ ∃ x ∈ xs, ∃ o ∈ padded ys (on x), z = add x o := by
  simp only [leftJoin, mem_flatMap, mem_map]
  exact ⟨fun ⟨x, hx, o, ho, h⟩ => ⟨x, hx, o, ho, h.symm⟩,
    fun ⟨x, hx, o, ho, h⟩ => ⟨x, hx, o, ho, h.symm⟩⟩

/-- A left join looks at the rows that match. -/
theorem mem_leftJoin_congr (hx : ∀ x, x ∈ xs' ↔ x ∈ xs)
    (hy : ∀ x ∈ xs, ∀ y, on x y = true → (y ∈ ys' ↔ y ∈ ys)) (z : γ) :
    z ∈ leftJoin xs' ys' on add ↔ z ∈ leftJoin xs ys on add := by
  have hpadded : ∀ x ∈ xs, ∀ o, o ∈ padded ys' (on x) ↔ o ∈ padded ys (on x) := by
    intro x hmem o
    have hnone : (∀ y ∈ ys', on x y = false) ↔ ∀ y ∈ ys, on x y = false := by
      simp only [← Bool.not_eq_true]
      exact ⟨fun h y hys hon => h y ((hy x hmem y hon).2 hys) hon,
        fun h y hys hon => h y ((hy x hmem y hon).1 hys) hon⟩
    rw [mem_padded, mem_padded, hnone]
    refine or_congr_left ⟨?_, ?_⟩
    · rintro ⟨y, hys, hon, rfl⟩
      exact ⟨y, (hy x hmem y hon).1 hys, hon, rfl⟩
    · rintro ⟨y, hys, hon, rfl⟩
      exact ⟨y, (hy x hmem y hon).2 hys, hon, rfl⟩
  rw [mem_leftJoin, mem_leftJoin]
  constructor
  · rintro ⟨x, hmem, o, ho, rfl⟩
    exact ⟨x, (hx x).1 hmem, o, (hpadded x ((hx x).1 hmem) o).1 ho, rfl⟩
  · rintro ⟨x, hmem, o, ho, rfl⟩
    exact ⟨x, (hx x).2 hmem, o, (hpadded x hmem o).2 ho, rfl⟩

/-- What a join does not take away from a row. -/
theorem forall_mem_leftJoin
    {add : α → Option β → α} {P : α → Prop} (hadd : ∀ x o, P x → P (add x o)) (h : ∀ x ∈ xs, P x) :
    ∀ z ∈ leftJoin xs ys on add, P z := by
  intro z hz
  obtain ⟨x, hx, o, -, rfl⟩ := mem_leftJoin.1 hz
  exact hadd x o (h x hx)

def innerJoin (xs : List α) (ys : List β) (on : α → β → Bool) (add : α → β → γ) : List γ :=
  xs.flatMap fun x => (ys.filter (on x)).map (add x)

theorem mem_innerJoin {add : α → β → γ} :
    z ∈ innerJoin xs ys on add ↔ ∃ x ∈ xs, ∃ y ∈ ys, on x y = true ∧ z = add x y := by
  simp only [innerJoin, mem_flatMap, mem_map, mem_filter]
  exact ⟨fun ⟨x, hx, y, ⟨hy, ho⟩, h⟩ => ⟨x, hx, y, hy, ho, h.symm⟩,
    fun ⟨x, hx, y, hy, ho, h⟩ => ⟨x, hx, y, ⟨hy, ho⟩, h.symm⟩⟩

/-- `SELECT DISTINCT f(row) .. WHERE p`. -/
def selectDistinct [DecidableEq β] (rows : List α) (p : α → Bool) (f : α → β) : List β :=
  ((rows.filter p).map f).dedup

theorem mem_selectDistinct [DecidableEq β] {p : α → Bool} {f : α → β} :
    y ∈ selectDistinct rows p f ↔ ∃ r ∈ rows, p r = true ∧ f r = y := by
  simp [selectDistinct, and_assoc]

end Lib
