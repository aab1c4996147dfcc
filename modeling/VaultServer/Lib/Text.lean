import VaultServer.Lib.Split
import VaultServer.Lib.Unicode

/-!
# Texts

`parse` of the source's standard library, and texts with separators.
-/

namespace Lib

open List

/-- The upper case of the letters of ASCII. -/
def asciiUppercase (s : String) : String := String.ofList (s.toList.map Char.toUpper)

def digits? : List Char → Option Nat
  | [] => none
  | cs => if cs.all Char.isDigit then
      some (cs.foldl (fun n c => 10 * n + (c.toNat - '0'.toNat)) 0) else none

/-- A sign may go first. -/
def parseInt? (s : String) : Option Int :=
  match s.toList with
  | '-' :: cs => (digits? cs).map fun n => -(n : Int)
  | '+' :: cs => (digits? cs).map fun n => (n : Int)
  | cs => (digits? cs).map fun n => (n : Int)

/-- The numbers of `w` bits. -/
def fitsSigned (w : Nat) (n : Int) : Bool := -(2 ^ (w - 1) : Int) ≤ n && n < (2 ^ (w - 1) : Int)

/-! ## Texts with a separator -/

/-- What follows the last separator is determined. -/
theorem after_separator_inj {α : Type} {a : α} {l1 l2 r1 r2 : List α} (h₁ : a ∉ r1) (h₂ : a ∉ r2)
    (h : l1 ++ a :: r1 = l2 ++ a :: r2) : r1 = r2 := by
  induction l1 generalizing l2 with
  | nil =>
    cases l2 with
    | nil => exact (List.cons.inj h).2
    | cons =>
      rw [nil_append, cons_append] at h
      rw [(List.cons.inj h).2] at h₁
      exact absurd (mem_append_right _ mem_cons_self) h₁
  | cons x l1 ih =>
    cases l2 with
    | nil =>
      rw [nil_append, cons_append] at h
      rw [← (List.cons.inj h).2] at h₂
      exact absurd (mem_append_right _ mem_cons_self) h₂
    | cons => exact ih (List.cons.inj h).2

def hexDigit (n : Fin 16) : Char := "0123456789abcdef".toList.getD n.val '0'

/-- A number of 128 bits in the form `xxxxxxxx-xxxx-xxxx-xxxx-xxxxxxxxxxxx`, its digits from the
highest on. -/
def hyphenated (u : BitVec 128) : List Char :=
  (List.range 32).flatMap fun i =>
    (if i = 8 ∨ i = 12 ∨ i = 16 ∨ i = 20 then ['-'] else []) ++
      [hexDigit ⟨(u.toNat / 16 ^ (31 - i)) % 16, Nat.mod_lt _ (by decide)⟩]

theorem slash_notMem_hyphenated (u : BitVec 128) : '/' ∉ hyphenated u := by
  have hdigit : ∀ n : Fin 16, hexDigit n ≠ '/' := by decide
  intro h
  obtain ⟨i, -, hi⟩ := mem_flatMap.1 h
  rcases mem_append.1 hi with hi | hi
  · split at hi
    · exact absurd (mem_singleton.1 hi) (by decide)
    · cases hi
  · exact hdigit _ (mem_singleton.1 hi).symm

theorem slash_notMem_of_hyphenated (h : String.ofList (hyphenated u) = s) : '/' ∉ s.toList := by
  rw [← h, String.toList_ofList]
  exact slash_notMem_hyphenated u

/-! ## Base 32 and base 64 -/

/-- Bytes from digits of `bits` bits each, after the lowest `width` bits of `acc`. Bits that make no
byte are dropped. -/
def regroup (bits : Nat) : Nat → Nat → List Nat → List UInt8
  | _, _, [] => []
  | acc, width, v :: vs =>
    let acc := acc * 2 ^ bits + v
    let width := width + bits
    if 8 ≤ width then
      UInt8.ofNat (acc / 2 ^ (width - 8)) :: regroup bits (acc % 2 ^ (width - 8)) (width - 8) vs
    else regroup bits acc width vs

def baseDecode (alphabet : String) (bits : Nat) (cs : List Char) : Option (List UInt8) :=
  if cs.all fun c => alphabet.toList.contains c then
    some (regroup bits 0 0 (cs.map fun c => alphabet.toList.idxOf c))
  else none

/-- `BASE32.decode` on texts without padding. -/
def base32Decode (s : String) : Option (List UInt8) :=
  if s.length % 8 = 0 then baseDecode "ABCDEFGHIJKLMNOPQRSTUVWXYZ234567" 5 s.toList else none

/-- Up to two signs of padding. -/
def dropPadding (data : List Char) : List Char :=
  if data.length % 4 ≠ 0 then data else match data.reverse with
    | '=' :: '=' :: rest => rest.reverse
    | '=' :: rest => rest.reverse
    | _ => data

def atob (cs : List Char) : Option (List UInt8) :=
  let data := dropPadding (cs.filter fun c => c ∉ ['\t', '\n', '\x0c', '\r', ' '])
  if data.length % 4 = 1 then none
  else baseDecode "ABCDEFGHIJKLMNOPQRSTUVWXYZabcdefghijklmnopqrstuvwxyz0123456789+/" 6 data

theorem mem_dropPadding (hc : c ∈ data) (hne : c ≠ '=') : c ∈ dropPadding data := by
  have hrev := mem_reverse.mpr hc
  unfold dropPadding
  split
  · exact hc
  · split
    · next heq => simpa [heq, hne] using hrev
    · next heq => simpa [heq, hne] using hrev
    · exact hc

theorem atob_of_bar (h : '|' ∈ cs) : atob cs = none := by
  unfold atob
  dsimp only
  split
  · rfl
  · refine if_neg fun hall => ?_
    have hbar := all_eq_true.mp hall '|' (mem_dropPadding (mem_filter.mpr ⟨h, by simp⟩) (by decide))
    exact absurd hbar (by decide)

end Lib
