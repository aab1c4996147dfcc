import Mathlib

/-!
# Numbers of variable length

A number as bytes of seven bits each, least significant first; the high bit says that more follow.
-/

namespace Lib.Varint

variable {n : Nat} {bytes rest : List UInt8}

/-- The loop that takes seven bits off the number until nothing is left. -/
def encode (size : Nat) : List UInt8 :=
  let part := UInt8.ofNat (size &&& 0x7f)
  if 0 < size >>> 7 then (part ||| 0x80) :: encode (size >>> 7) else [part]
termination_by size
decreasing_by simp only [Nat.shiftRight_eq_div_pow] at *; omega

/-- The number at the start of the bytes, and what follows it. -/
def decode : List UInt8 → Option (Nat × List UInt8)
  | [] => none
  | b :: rest =>
    if b < 0x80 then some (b.toNat, rest)
    else (decode rest).map fun x => ((b &&& 0x7f).toNat + 128 * x.1, x.2)

theorem encode_lt (h : n < 128) : encode n = [UInt8.ofNat n] := by
  have hlow : n &&& 0x7f = n := (Nat.and_two_pow_sub_one_eq_mod n 7).trans (Nat.mod_eq_of_lt h)
  rw [encode, hlow, if_neg]
  rw [Nat.shiftRight_eq_div_pow]
  omega

theorem encode_ge (h : 128 ≤ n) :
    ∃ b : UInt8, b.toNat = 128 + n % 128 ∧ encode n = b :: encode (n / 128) := by
  have hlow : n &&& 0x7f = n % 128 := Nat.and_two_pow_sub_one_eq_mod n 7
  rw [encode, hlow, Nat.shiftRight_eq_div_pow, if_pos (by omega)]
  refine ⟨_, ?_, rfl⟩
  rw [UInt8.toNat_or, UInt8.toNat_ofNat', Nat.or_comm, Nat.mod_eq_of_lt (by omega)]
  exact (Nat.two_pow_add_eq_or_of_lt (i := 7) (by omega) 1).symm

/-- **What was encoded is read back**, and what follows it is left. -/
theorem decode_encode (n : Nat) (rest : List UInt8) : decode (encode n ++ rest) = some (n, rest) := by
  induction n using Nat.strongRecOn with
  | ind n ih =>
    by_cases h : n < 128
    · have hb : (UInt8.ofNat n).toNat = n := by
        rw [UInt8.toNat_ofNat']
        omega
      have hlt : UInt8.ofNat n < 0x80 := UInt8.lt_iff_toNat_lt.2 (by rw [hb]; exact h)
      rw [encode_lt h, List.singleton_append, decode, if_pos hlt, hb]
    · obtain ⟨b, hb, he⟩ := encode_ge (Nat.not_lt.1 h)
      have hge : ¬ b < 0x80 := fun hlt => by
        have := UInt8.lt_iff_toNat_lt.1 hlt
        rw [hb] at this
        exact absurd this (by simp)
      have hlow : (b &&& 0x7f).toNat = n % 128 := by
        rw [UInt8.toNat_and, hb]
        exact (Nat.and_two_pow_sub_one_eq_mod _ 7).trans (by omega)
      rw [he, List.cons_append, decode, if_neg hge, ih (n / 128) (by omega), hlow]
      simp only [Option.map_some, Option.some.injEq, Prod.mk.injEq, and_true]
      omega

/-- A number that is read from `k` bytes has seven bits for each. -/
theorem decode_lt (h : decode bytes = some (n, rest)) :
    ∃ k, bytes.length = k + 1 + rest.length ∧ n < 128 ^ (k + 1) := by
  induction bytes generalizing n with
  | nil => cases h
  | cons b bytes ih =>
    rw [decode] at h
    split at h
    · next hb =>
      obtain ⟨rfl, rfl⟩ := Prod.mk.inj (Option.some.inj h)
      exact ⟨0, by simp [Nat.add_comm], by simpa using UInt8.lt_iff_toNat_lt.1 hb⟩
    · obtain ⟨⟨m, r⟩, hm, he⟩ := Option.map_eq_some_iff.1 h
      obtain ⟨rfl, rfl⟩ := Prod.mk.inj he
      obtain ⟨k, hk, hlt⟩ := ih hm
      have hlow : (b &&& 0x7f).toNat < 128 := by
        rw [UInt8.toNat_and]
        exact Nat.and_lt_two_pow (n := 7) _ (by decide)
      refine ⟨k + 1, by simp [hk, Nat.add_right_comm], ?_⟩
      rw [pow_succ]
      dsimp only
      omega

theorem length_encode_le (h : n < 128 ^ (k + 1)) : (encode n).length ≤ k + 1 := by
  induction k generalizing n with
  | zero => rw [encode_lt (by simpa using h)]; rfl
  | succ k ih =>
    by_cases hn : n < 128
    · simp [encode_lt hn]
    · obtain ⟨b, -, he⟩ := encode_ge (Nat.not_lt.1 hn)
      rw [he]
      exact Nat.succ_le_succ (ih (Nat.div_lt_of_lt_mul (by rw [pow_succ'] at h; exact h)))

/-- **No shorter bytes are read as the same number.** -/
theorem length_encode_le_of_decode (h : decode bytes = some (n, [])) :
    (encode n).length ≤ bytes.length := by
  obtain ⟨k, hk, hlt⟩ := decode_lt h
  rw [hk]
  exact length_encode_le hlt

end Lib.Varint
