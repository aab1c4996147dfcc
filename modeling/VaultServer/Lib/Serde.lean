import VaultServer.Lib.Text

/-!
# Records as JSON objects

What derived `serde` code does with a record: it is written as an object with one entry per field.
Reading asks for every field by its name and ignores the other entries; an entry that is missing or
of another type fails, except that a missing or `null` entry of an optional field reads as absent.
-/

namespace Lib

variable {key : String} {j : Json}

inductive Json where
  | null
  | bool (b : Bool)
  | int (n : Int)
  | string (s : String)
  | array (items : List Json)
  | object (fields : List (String × Json))

namespace Json

variable {α : Type} {read : Json → Option α}

def get? (key : String) : Json → Option Json
  | object fields => fields.lookup key
  | _ => none

/-! ## Writing -/

def strings (items : List String) : Json := array (items.map string)

/-- An optional field is written as `null` when it is absent. -/
def nullable (write : α → Json) : Option α → Json
  | none => null
  | some a => write a

/-! ## Reading -/

def int64? : Json → Option Int
  | int n => if fitsSigned 64 n then some n else none
  | _ => none

def bool? : Json → Option Bool
  | bool b => some b
  | _ => none

def string? : Json → Option String
  | string s => some s
  | _ => none

def strings? : Json → Option (List String)
  | array items => items.mapM string?
  | _ => none

def required (read : Json → Option α) (key : String) (j : Json) : Option α := (j.get? key).bind read

def optional (read : Json → Option α) (key : String) (j : Json) : Option (Option α) :=
  match j.get? key with
  | none => some none
  | some null => some none
  | some value => (read value).map some

theorem required_eq_none (h : j.get? key = none) : j.required read key = none := by
  unfold required
  rw [h]
  rfl

theorem required_string_eq_some :
    j.required string? key = some s ↔ j.get? key = some (string s) := by
  unfold required
  constructor
  · intro h
    obtain ⟨value, hvalue, hs⟩ := Option.bind_eq_some_iff.1 h
    rw [hvalue]
    cases value with
    | string => rw [Option.some.inj hs]
    | _ => cases hs
  · intro h
    rw [h]
    rfl

theorem required_of_get?
    (h : j.get? key = some v) (hread : read v = some a) : j.required read key = some a := by
  unfold required
  rw [h]
  exact hread

theorem optional_of_get? {write : α → Json}
    (h : j.get? key = some (nullable write o)) (hread : ∀ a, read (write a) = some a)
    (hnull : ∀ a, write a ≠ null) : j.optional read key = some o := by
  unfold optional
  rw [h]
  cases o with
  | none => rfl
  | some a =>
    have hread := hread a
    have hnull := hnull a
    unfold nullable
    dsimp only
    split
    · next hw => cases hw
    · next hw => exact absurd (Option.some.inj hw) hnull
    · next v _ hw =>
      rw [← Option.some.inj hw, hread]
      rfl

theorem optional_string_of_get? (h : j.get? key = some (nullable string o)) :
    j.optional string? key = some o :=
  optional_of_get? h (fun _ => rfl) fun _ => nofun

theorem mapM_string (items : List String) : (items.map string).mapM string? = some items := by
  induction items with
  | nil => rfl
  | cons s items ih => simp [ih, string?]

@[simp] theorem strings?_strings (items : List String) : (strings items).strings? = some items :=
  mapM_string items

end Json

end Lib
