import VaultServer.Lib.Prog

/-!
# What a program does while an invariant holds

`Prog.Under I G c Q` says what each single call of `c` does, given that `I` holds when it is made:
it takes the state along `G`, and what `c` returns satisfies `Q`. Nothing is assumed of the state
between two calls but `I`, so the rules hold for a program that is interleaved with others that keep
`I`. With `G` the invariant itself these are the rules of an invariant over which values are
carried: what is read under it may be written back.
-/

namespace Lib

open List

namespace Prog

variable {σ ℓ ε α β : Type}

def Under (I : σ → Prop) (G : σ → σ → Prop) : Prog σ ℓ ε α → (α → Prop) → Prop
  | ret a, Q => Q a
  | fail _, _ => True
  | call _ u n, Q => ∀ w, I w → G w (u w) ∧ Under I G (n w) Q

namespace Under

variable {I : σ → Prop} {G : σ → σ → Prop} {Q Q' : α → Prop} {R : β → Prop} {c : Prog σ ℓ ε α}
  {f : α → Prog σ ℓ ε Unit}

theorem mono (h : Under I G c Q) (hQ : ∀ a, Q a → Q' a) : Under I G c Q' := by
  induction c with
  | ret a => exact hQ a h
  | fail => trivial
  | call l u n ih => exact fun w hw => ⟨(h w hw).1, ih w (h w hw).2⟩

theorem bind {c} {k : α → Prog σ ℓ ε β} (hc : Under I G c Q) (hk : ∀ a, Q a → Under I G (k a) R) :
    Under I G (c >>= k) R := by
  induction c with
  | ret a => exact hk a hc
  | fail => trivial
  | call l u n ih => exact fun w hw => ⟨(hc w hw).1, ih w (hc w hw).2⟩

theorem attempt (h : Under I G c Q) : Under I G c.attempt fun r => ∀ a, r = .ok a → Q a := by
  induction c with
  | ret => exact fun b hb => Except.ok.inj hb ▸ h
  | fail => exact nofun
  | call l u n ih => exact fun w hw => ⟨(h w hw).1, ih w (h w hw).2⟩

theorem foldl {f : β → α → Prog σ ℓ ε β} (hb : R b)
    (h : ∀ b, ∀ x ∈ xs, R b → Under I G (f b x) R) : Under I G (Prog.foldl xs b f) R := by
  induction xs generalizing b with
  | nil => exact hb
  | cons x xs ih =>
    exact (h b x mem_cons_self hb).bind fun b' hb' =>
      ih hb' fun b y hy => h b y (mem_cons_of_mem x hy)

/-- A loop that comes to its end has established what each of its rounds does. -/
theorem eachAll {P : α → Prop} {xs : List α} (h : ∀ x ∈ xs, Under I G (f x) fun _ => P x) :
    Under I G (Prog.each xs f) fun _ => ∀ x ∈ xs, P x := by
  induction xs with
  | nil => exact nofun
  | cons x xs ih =>
    refine (h x mem_cons_self).bind fun _ hx => ?_
    have hrest := ih fun y hy => h y (mem_cons_of_mem x hy)
    exact hrest.mono fun _ hxs => forall_mem_cons.2 ⟨hx, hxs⟩

theorem each {xs : List α} (h : ∀ x ∈ xs, Under I G (f x) ⊤) : Under I G (Prog.each xs f) ⊤ :=
  (eachAll h).mono fun _ _ => trivial

/-- A program whose calls do this from any state. -/
theorem of_each (h : c.Each P) (hP : ∀ l u, P l u → ∀ w, I w → G w (u w)) : Under I G c ⊤ := by
  induction c with
  | ret => trivial
  | fail => trivial
  | call l u n ih => exact fun w hw => ⟨hP l u h.1 w hw, ih w (h.2 w)⟩

/-- **A program whose calls all keep the invariant keeps it.** -/
theorem run (h : Under I (fun _ w' => I w') c Q) (hw : I w) :
    Post (fun a w' => I w' ∧ Q a) I (c.run w) := by
  induction c generalizing w with
  | ret => exact ⟨hw, h⟩
  | fail => exact hw
  | call l u n ih => exact ih w (h w hw).2 (h w hw).1

theorem after (h : Under I (fun _ w' => I w') c Q) (hw : I w) : I (c.after w) :=
  (h.run hw).after (fun _ _ h => h.1) fun _ h => h

end Under

/-! ## Up to the last step -/

/-- Started in `I` the program returns in `I`, or stops in `E`: the step that leaves `I` is one the
program does not go on from. -/
def Until (I E : σ → Prop) (c : Prog σ ℓ ε α) : Prop :=
  ∀ w, I w → Post (fun _ w' => I w') E (c.run w)

namespace Until

variable {I E : σ → Prop} {c : Prog σ ℓ ε α} {k : α → Prog σ ℓ ε β}

theorem of_under {Q} (hE : ∀ w, I w → E w) (h : c.Under I (fun _ w' => I w') Q) : c.Until I E :=
  fun _ hw => (h.run hw).mono (fun _ _ h => h.1) hE

theorem bind (hc : c.Until I E) (hk : ∀ a, (k a).Until I E) : (c >>= k).Until I E :=
  fun w hw => (hc w hw).bind hk fun _ h => h

theorem each {f : α → Prog σ ℓ ε Unit} (h : ∀ x ∈ xs, (f x).Until I E) :
    (Prog.each xs f).Until I E := by
  induction xs with
  | nil => exact fun _ hw => hw
  | cons x xs ih =>
    exact (h x mem_cons_self).bind fun _ => ih fun y hy => h y (mem_cons_of_mem x hy)

theorem foldl {f : β → α → Prog σ ℓ ε β} (h : ∀ b, ∀ x ∈ xs, (f b x).Until I E) :
    (Prog.foldl xs b f).Until I E := by
  induction xs generalizing b with
  | nil => exact fun _ hw => hw
  | cons x xs ih =>
    exact (h b x mem_cons_self).bind fun _ => ih fun b y hy => h b y (mem_cons_of_mem x hy)

theorem ite {b : Prop} [Decidable b] {c d : Prog σ ℓ ε α} (hc : c.Until I E) (hd : d.Until I E) :
    (if b then c else d).Until I E := by
  split
  · exact hc
  · exact hd

theorem after (h : c.Until I E) (hE : ∀ w, I w → E w) (hw : I w) : E (c.after w) :=
  (h w hw).after (fun _ => hE) fun _ h => h

/-- The last part may leave `I` when it returns. -/
theorem post_bind (hc : c.Until I I)
    (hk : ∀ a w, I w → Post (fun _ w' => E w') I ((k a).run w)) (w : σ) (hw : I w) :
    Post (fun _ w' => E w') I ((c >>= k).run w) :=
  (hc w hw).bind hk fun _ h => h

/-- The last part may leave `I`. -/
theorem andThen (hc : c.Until I E)
    (hk : ∀ a w, I w → E ((k a).after w)) (hw : I w) : E ((c >>= k).after w) :=
  ((hc w hw).bind (fun a w' h => .of_after (hk a w' h)) fun _ h => h).after (fun _ _ h => h)
    fun _ h => h

end Until

end Prog

end Lib
