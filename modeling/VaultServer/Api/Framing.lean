import VaultServer.Lib.Varint

/-!
# The framing of notifications

`serialize` of `notifications.rs` puts the length of a MessagePack payload in front of it; a client
reads frame after frame from what it receives.
-/

namespace VaultServer

open Lib

/-- The frame of a payload that `write_value` has written. -/
def serialize (payload : List UInt8) : List UInt8 := Varint.encode payload.length ++ payload

/-- A length, then as many bytes. -/
def readFrame (bytes : List UInt8) : Option (List UInt8 × List UInt8) :=
  (Varint.decode bytes).bind fun x =>
    if x.1 ≤ x.2.length then some (x.2.take x.1, x.2.drop x.1) else none

/-- Frame after frame until nothing is left. -/
def readFrames : Nat → List UInt8 → Option (List (List UInt8))
  | _, [] => some []
  | 0, _ :: _ => none
  | fuel + 1, b :: bytes =>
    (readFrame (b :: bytes)).bind fun x => (readFrames fuel x.2).map (x.1 :: ·)

theorem readFrame_serialize (payload rest : List UInt8) :
    readFrame (serialize payload ++ rest) = some (payload, rest) := by
  rw [serialize, List.append_assoc, readFrame, Varint.decode_encode]
  simp

theorem serialize_ne_nil (payload : List UInt8) : serialize payload ≠ [] := by
  intro h
  have := Varint.decode_encode payload.length []
  rw [(List.append_eq_nil_iff.1 h).1] at this
  cases this

theorem readFrames_serialize {payloads : List (List UInt8)} (h : payloads.length ≤ fuel) :
    readFrames fuel (payloads.flatMap serialize) = some payloads := by
  induction payloads generalizing fuel with
  | nil => cases fuel <;> rfl
  | cons p ps ih =>
    obtain ⟨b, bytes, hb⟩ := List.exists_cons_of_ne_nil (serialize_ne_nil p)
    obtain ⟨fuel, rfl⟩ := Nat.exists_eq_succ_of_ne_zero (Nat.ne_of_gt (Nat.zero_lt_of_lt h))
    have hframe := readFrame_serialize p (ps.flatMap serialize)
    rw [hb] at hframe
    rw [List.flatMap_cons, hb, List.cons_append, readFrames, ← List.cons_append, hframe]
    simp [ih (Nat.le_of_succ_le_succ h)]

theorem length_le_flatMap_serialize (payloads : List (List UInt8)) :
    payloads.length ≤ (payloads.flatMap serialize).length := by
  induction payloads with
  | nil => exact Nat.le_refl 0
  | cons p =>
    have := List.length_pos_of_ne_nil (serialize_ne_nil p)
    simp only [List.flatMap_cons, List.length_append, List.length_cons]
    omega

/-- **The frames of any payloads are read back as these payloads**, each behind the shortest length,
and other payloads give other bytes. -/
theorem serialize_framing :
    (∀ payloads : List (List UInt8),
      readFrames (payloads.flatMap serialize).length (payloads.flatMap serialize) = some payloads) ∧
    (∀ payload, ∃ size, serialize payload = size ++ payload ∧
      ∀ bytes, Varint.decode bytes = some (payload.length, []) → size.length ≤ bytes.length) ∧
    Function.Injective fun payloads : List (List UInt8) => payloads.flatMap serialize := by
  have hread : ∀ payloads : List (List UInt8), readFrames (payloads.flatMap serialize).length
      (payloads.flatMap serialize) = some payloads := fun payloads =>
    readFrames_serialize (length_le_flatMap_serialize payloads)
  refine ⟨hread, fun payload => ⟨_, rfl, fun _ h => Varint.length_encode_le_of_decode h⟩, ?_⟩
  intro ps qs h
  have h : ps.flatMap serialize = qs.flatMap serialize := h
  have hps := hread ps
  rw [h, hread qs] at hps
  exact (Option.some.inj hps).symm

end VaultServer
