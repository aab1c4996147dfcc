import Mathlib

/-!
# Keyed tables

A relational table is a list of rows together with the two facts its declaration promises: no
two rows share the primary key, and no two rows share the second unique key. Both facts are
fields, so a table that breaks them cannot be written down, and every statement below has to
re-establish them. A table without a second constraint uses its primary key twice.

`put` is `INSERT .. ON CONFLICT (key) DO UPDATE`, `upsert?` the same statement refused on a
clash of the second key, `replace` is `REPLACE INTO`, `deleteWhere` is `DELETE .. WHERE` and
`updateWhere` is `UPDATE .. SET .. WHERE`.
-/

namespace Lib

open List

structure Table {ρ κ υ : Type} (key : ρ → κ) (uniq : ρ → υ) where
  rows : List ρ
  key_nodup : (rows.map key).Nodup
  uniq_nodup : (rows.map uniq).Nodup

namespace Table

variable {ρ κ υ : Type} {key : ρ → κ} {uniq : ρ → υ} {t : Table key uniq}

def empty : Table key uniq := ⟨[], by simp, by simp⟩

/-- The table of the rows, where they are told apart. -/
def ofRows [DecidableEq κ] [DecidableEq υ] (rows : List ρ) : Table key uniq :=
  if h : (rows.map key).Nodup ∧ (rows.map uniq).Nodup then ⟨rows, h.1, h.2⟩ else empty

theorem ext_rows {t t' : Table key uniq} (h : t.rows = t'.rows) : t = t' := by
  obtain ⟨rows, hk, hu⟩ := t
  obtain ⟨rows', hk', hu'⟩ := t'
  cases h
  rfl

/-- Two rows of one table with the same primary key are one row. -/
theorem eq_of_key (hr : r ∈ t.rows) (hs : s ∈ t.rows) (h : key r = key s) : r = s :=
  inj_on_of_nodup_map t.key_nodup hr hs h

theorem eq_of_uniq (hr : r ∈ t.rows) (hs : s ∈ t.rows) (h : uniq r = uniq s) : r = s :=
  inj_on_of_nodup_map t.uniq_nodup hr hs h

/-! ## Deleting -/

def deleteWhere (t : Table key uniq) (p : ρ → Bool) : Table key uniq where
  rows := t.rows.filter fun r => !p r
  key_nodup := (filter_sublist.map key).nodup t.key_nodup
  uniq_nodup := (filter_sublist.map uniq).nodup t.uniq_nodup

@[simp] theorem mem_deleteWhere : r ∈ (t.deleteWhere p).rows ↔ r ∈ t.rows ∧ p r = false := by
  simp [deleteWhere]

/-! ## Inserting and replacing -/

/-- Another row already holds `r`'s value of the second unique key. -/
def Clash (t : Table key uniq) (r : ρ) : Prop := ∃ x ∈ t.rows, key x ≠ key r ∧ uniq x = uniq r

theorem not_clash_self {t : Table key key} : ¬ t.Clash r := fun ⟨_, _, hne, he⟩ => hne he

section
variable [DecidableEq κ]

/-- The rows after writing `r` over the row with its primary key. -/
def putRows (key : ρ → κ) (rows : List ρ) (r : ρ) : List ρ :=
  rows.filter (fun x => key x ≠ key r) ++ [r]

theorem mem_putRows {rows r x} : x ∈ putRows key rows r ↔ x = r ∨ x ∈ rows ∧ key x ≠ key r := by
  simp [putRows, or_comm]

theorem forall_putRows {P : ρ → Prop} {rows r} (h : ∀ x ∈ rows, P x) (hr : P r) :
    ∀ x ∈ putRows key rows r, P x := by
  intro x hx
  rcases mem_putRows.1 hx with rfl | ⟨hx, -⟩
  · exact hr
  · exact h x hx

/-- The written row stands for the one that it replaces. -/
theorem putRows_keeps {Q : ρ → ρ → Prop} {rows r} (hrefl : ∀ x, Q x x)
    (h : ∀ x ∈ rows, key x = key r → Q r x) : ∀ x ∈ rows, ∃ y ∈ putRows key rows r, Q y x := by
  intro x hx
  by_cases hk : key x = key r
  · exact ⟨r, mem_putRows.2 (.inl rfl), h x hx hk⟩
  · exact ⟨x, mem_putRows.2 (.inr ⟨hx, hk⟩), hrefl x⟩

/-- Writing keeps a column duplicate free when no surviving row has the new row's value. -/
theorem putRows_nodup {α : Type} {f : ρ → α} {rows : List ρ} (h : (rows.map f).Nodup)
    (hr : ∀ x ∈ rows, key x ≠ key r → f x ≠ f r) : ((putRows key rows r).map f).Nodup := by
  rw [putRows, map_append, nodup_append]
  refine ⟨(filter_sublist.map f).nodup h, by simp, ?_⟩
  intro a ha b hb
  obtain ⟨x, hx, rfl⟩ := mem_map.1 ha
  obtain ⟨hx, hne⟩ := mem_filter.1 hx
  simp only [map_cons, map_nil, mem_singleton] at hb
  subst hb
  exact hr x hx (by simpa using hne)

instance [DecidableEq υ] (t : Table key uniq) (r : ρ) : Decidable (t.Clash r) :=
  inferInstanceAs (Decidable (∃ x ∈ t.rows, key x ≠ key r ∧ uniq x = uniq r))

def put (t : Table key uniq) (r : ρ) (h : ¬ t.Clash r) : Table key uniq where
  rows := putRows key t.rows r
  key_nodup := putRows_nodup t.key_nodup fun _ _ hne => hne
  uniq_nodup := putRows_nodup t.uniq_nodup fun x hx hne he => h ⟨x, hx, hne, he⟩

/-- Refused when the second unique key is taken by another row. -/
def upsert? [DecidableEq υ] (t : Table key uniq) (r : ρ) : Option (Table key uniq) :=
  if h : t.Clash r then none else some (t.put r h)

theorem upsert?_eq_some [DecidableEq υ] {t t' : Table key uniq} (h : t.upsert? r = some t') :
    ∃ hc : ¬ t.Clash r, t' = t.put r hc := by
  unfold upsert? at h
  split at h
  · cases h
  · next hc => exact ⟨hc, (Option.some.inj h).symm⟩

/-- `REPLACE INTO`: the rows that hold either key of `r` make way. -/
def replace [DecidableEq υ] (t : Table key uniq) (r : ρ) : Table key uniq :=
  (t.deleteWhere fun x => uniq x = uniq r).put r fun ⟨_, hx, _, he⟩ => by simp [he] at hx

theorem mem_replace [DecidableEq υ] :
    x ∈ (t.replace r).rows ↔ x = r ∨ (x ∈ t.rows ∧ uniq x ≠ uniq r) ∧ key x ≠ key r := by
  show x ∈ putRows key _ r ↔ _
  rw [mem_putRows, mem_deleteWhere]
  simp

/-- A table with one key only never refuses a row. -/
def upsert (t : Table key key) (r : ρ) : Table key key := t.put r not_clash_self

@[simp] theorem mem_upsert {t : Table key key} :
    x ∈ (t.upsert r).rows ↔ x = r ∨ x ∈ t.rows ∧ key x ≠ key r :=
  mem_putRows

/-- No key gets lost. -/
theorem exists_mem_upsert {t : Table key key} (hx : x ∈ t.rows) :
    ∃ y ∈ (t.upsert r).rows, key y = key x :=
  putRows_keeps (Q := fun y x => key y = key x) (fun _ => rfl) (fun _ _ h => h.symm) x hx

end

/-! ## Updating in place -/

/-- `f` may not touch either key. -/
def updateWhere (t : Table key uniq) (p : ρ → Bool) (f : ρ → ρ) (hk : ∀ r, key (f r) = key r)
    (hu : ∀ r, uniq (f r) = uniq r) : Table key uniq where
  rows := t.rows.map fun r => if p r then f r else r
  key_nodup := by
    have : (key ∘ fun r => if p r then f r else r) = key := by
      funext r; by_cases h : p r <;> simp [h, hk]
    rw [map_map, this]; exact t.key_nodup
  uniq_nodup := by
    have : (uniq ∘ fun r => if p r then f r else r) = uniq := by
      funext r; by_cases h : p r <;> simp [h, hu]
    rw [map_map, this]; exact t.uniq_nodup

/-! ## Looking up -/

def find? (t : Table key uniq) (p : ρ → Bool) : Option ρ := t.rows.find? p

theorem mem_of_find? (h : t.find? p = some r) : r ∈ t.rows ∧ p r = true :=
  ⟨mem_of_find?_eq_some h, find?_some h⟩

theorem find?_eq_none : t.find? p = none ↔ ∀ r ∈ t.rows, p r = false := by
  simp [find?]

/-- A written row that is not looked for changes nothing for the search. -/
theorem find?_put_of_other [DecidableEq κ] (h : ¬ t.Clash r)
    {p : ρ → Bool} (hp : ∀ x, key x = key r → p x = false) : (t.put r h).find? p = t.find? p := by
  show (putRows key t.rows r).find? p = t.rows.find? p
  have hkept : (fun x => decide (decide (key x ≠ key r) = true ∧ p x = true)) = p := by
    funext x
    by_cases hx : key x = key r
    · simp [hp x hx]
    · simp [hx]
  rw [putRows, find?_append, find?_filter, find?_singleton, hp r rfl, hkept]
  simp only [Bool.false_eq_true, if_false, Option.or_none]

/-- A search that at most one row can satisfy finds exactly that row. -/
theorem find?_eq_some_of_unique (hr : r ∈ t.rows)
    (hp : p r = true) (hone : ∀ s ∈ t.rows, p s = true → s = r) : t.find? p = some r := by
  cases h : t.find? p with
  | none => rw [find?_eq_none.1 h r hr] at hp; cases hp
  | some s =>
    obtain ⟨hs, hps⟩ := mem_of_find? h
    rw [hone s hs hps]

/-- The key of a row finds it. -/
theorem find?_key [DecidableEq κ] (hr : r ∈ t.rows) :
    t.find? (fun s => key s = key r) = some r :=
  find?_eq_some_of_unique hr (decide_eq_true rfl) fun _ hs hp =>
    eq_of_key hs hr (of_decide_eq_true hp)

/-! ## Rows that stay -/

/-- The rows with `P` are the same in both tables. -/
def KeptOn (P : ρ → Prop) (t0 t : Table key uniq) : Prop := ∀ r, P r → (r ∈ t.rows ↔ r ∈ t0.rows)

theorem KeptOn.refl {P : ρ → Prop} : KeptOn P t t := fun _ _ => .rfl

/-- A row without `P` is written, and takes the place of none with `P`. -/
theorem KeptOn.upsert [DecidableEq κ] {t0 t : Table key key}
    (h : KeptOn P t0 t) (hr : ¬ P r) (hkey : ∀ x ∈ t0.rows, P x → key x ≠ key r) :
    KeptOn P t0 (t.upsert r) := by
  intro x hx
  rw [mem_upsert, ← h x hx]
  constructor
  · rintro (rfl | ⟨hmem, -⟩)
    · exact absurd hx hr
    · exact hmem
  · exact fun hmem => .inr ⟨hmem, hkey x ((h x hx).1 hmem) hx⟩

theorem KeptOn.deleteWhere {t0 t : Table key uniq}
    (h : KeptOn P t0 t) (hp : ∀ x ∈ t0.rows, P x → p x = false) :
    KeptOn P t0 (t.deleteWhere p) := by
  intro x hx
  rw [mem_deleteWhere, ← h x hx]
  exact and_iff_left_of_imp fun hmem => hp x ((h x hx).1 hmem) hx

end Table

end Lib
