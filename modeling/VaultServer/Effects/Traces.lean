import VaultServer.Effects.Parts
import VaultServer.Lib.Interleave

/-!
# Promises about calls

What a request promises about its calls when it takes turns with others, where the promise is about
the rows of one part: calls that leave the part alone are within it.
-/

namespace VaultServer

open Lib List

/-- A promise about calls that may speak of the request's own calls so far. -/
abbrev Promise := List (Access World Call) → Call → (World → World) → Prop

/-- The request keeps the promise, and `Q` holds of its calls when it returns. -/
abbrev Traces {α : Type} (P : Promise) (before : List (Access World Call)) (c : Cmd α)
    (Q : List (Access World Call) → α → Prop) : Prop :=
  Prog.Traced P Q (fun _ => True) before c

/-- The promise is about the part only. -/
def Promise.About (P : Promise) (t : Part) : Prop :=
  ∀ {S : List Part} {s : List (Access World Call)} {l : Call} {u : World → World}, t ∉ S →
    Call.Within S l u → P s l u

namespace Traces

variable {α β : Type} {P : Promise} {t : Part} {S : List Part} {before : List (Access World Call)}
  {c : Cmd α} {Q : List (Access World Call) → α → Prop} {R : List (Access World Call) → β → Prop}

theorem err : Traces P before (VaultServer.err message : Cmd α) Q := trivial

theorem of_writes (hP : P.About t) (hw : Writes S c) (hs : t ∉ S) :
    Traces P before c fun s _ => before <:+ s := by
  have hcalls : Traces P before c ⊤ := .of_each hw fun _ _ _ hu => hP hs hu
  exact (Prog.Traced.onward suffix_rfl hcalls).mono (fun _ _ h => h.2) fun _ h => h

theorem pass (hP : P.About t) (hw : Writes S c) (hs : t ∉ S)
    (hk : ∀ s a, before <:+ s → Traces P s (k a) R) : Traces P before (c >>= k) R :=
  (of_writes hP hw hs).bind hk

/-- A first part that writes nothing. -/
theorem still (hP : P.About t) (hw : Writes [] c)
    (hk : ∀ s a, before <:+ s → Traces P s (k a) R) : Traces P before (c >>= k) R :=
  pass hP hw not_mem_nil hk

/-- What was read is what the state then held. -/
theorem query {f : Db → α} {k : α → Cmd β} (hP : P.About t)
    (hk : ∀ w : World, Traces P (⟨.read, w, w⟩ :: before) (k (f w.db)) R) :
    Traces P before (VaultServer.query f >>= k) R := by
  have hread : Writes [] (VaultServer.query f) := .query
  exact Prog.Traced.read (hP not_mem_nil hread.1) hk

theorem ensure (h : b = true → Traces P before (k ()) R) :
    Traces P before (VaultServer.ensure b message >>= k) R := by
  cases b with
  | false => trivial
  | true => exact h rfl

theorem lift {k : α → Cmd β} (h : ∀ a, r = .ok a → Traces P before (k a) R) :
    Traces P before (VaultServer.lift r >>= k) R := by
  cases r with
  | error => trivial
  | ok a => exact h a rfl

/-- One statement that was carried out or not. -/
theorem exec {stmt message label Q} (hcall : P before label (World.exec stmt))
    (hQ : ∀ w : World, w.refuses stmt = false → Q (⟨label, w, w.exec stmt⟩ :: before) ()) :
    Traces P before (VaultServer.exec stmt message label) Q := by
  refine ⟨hcall, fun w => ?_⟩
  dsimp only
  cases hr : w.refuses stmt with
  | true => trivial
  | false => exact hQ w hr

end Traces

end VaultServer
