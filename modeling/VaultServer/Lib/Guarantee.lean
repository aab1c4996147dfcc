import VaultServer.Lib.Prog

/-!
# Guarantees

What a program promises about the shared state at each of its ends. `Prog.Ends inv R w c Q` says
that `c`, started in `w`, keeps the invariant `inv` and ends in a state that `R` relates to `w`,
whether it returns or fails, and that `Q` holds when it returns. The start state is a parameter, so
what was read from it can be used further down: a fact that `R` preserves is carried along by the
bind rule.

A guarantee has a relation that is kept by doing nothing and by doing one thing after another;
`Prog.Safe` is `Ends` for a guarantee. A program that does one thing out of the ordinary has a
relation of its own, which absorbs what the guarantee allows before and after it.
-/

namespace Lib

open List

structure Guarantee (σ : Type) where
  inv : σ → Prop
  rel : σ → σ → Prop
  refl : ∀ w, rel w w
  trans : ∀ {a b c}, rel a b → rel b c → rel a c

namespace Prog

variable {σ ℓ ε α β : Type}

structure Ends (inv : σ → Prop) (R : σ → σ → Prop) (w : σ) (c : Prog σ ℓ ε α)
    (Q : α → σ → Prop) : Prop where
  post : inv w → Post (fun a w' => (inv w' ∧ R w w') ∧ Q a w') (fun w' => inv w' ∧ R w w') (c.run w)

section
variable {inv : σ → Prop} {R R' : σ → σ → Prop} {w : σ} {Q Q' : α → σ → Prop} {c : Prog σ ℓ ε α}
  {k : α → Prog σ ℓ ε β} {S : β → σ → Prop} {U V : σ → σ → Prop}

theorem Ends.conseq (h : Ends inv R w c Q) (hR : ∀ w', R w w' → R' w w')
    (hQ : ∀ a w', Q a w' → R w w' → Q' a w') : Ends inv R' w c Q' :=
  ⟨fun hw => (h.post hw).mono (fun a w' h => ⟨⟨h.1.1, hR w' h.1.2⟩, hQ a w' h.2 h.1.2⟩)
    fun w' h => ⟨h.1, hR w' h.2⟩⟩

theorem Ends.mono (h : Ends inv R w c Q) (hQ : ∀ a w', Q a w' → Q' a w') : Ends inv R w c Q' :=
  h.conseq (fun _ h => h) fun a w' hq _ => hQ a w' hq

/-- The invariant of the start may be assumed. -/
theorem Ends.of_inv (h : inv w → Ends inv R w c Q) : Ends inv R w c Q := ⟨fun hw => (h hw).post hw⟩

theorem Ends.ret (hR : R w w) (h : Q a w) : Ends inv R w (pure a : Prog σ ℓ ε α) Q :=
  ⟨fun hw => ⟨⟨hw, hR⟩, h⟩⟩

theorem Ends.fail (hR : R w w) : Ends inv R w (Prog.fail e : Prog σ ℓ ε α) Q := ⟨fun hw => ⟨hw, hR⟩⟩

theorem Ends.of_error (h : c.run w = (.error e, w)) (hR : R w w) : Ends inv R w c Q := by
  refine ⟨fun hw => ?_⟩
  rw [h]
  exact ⟨hw, hR⟩

/-- The relation of the whole covers the first part alone and both parts in sequence. -/
theorem Ends.bind {c} (hc : Ends inv U w c Q) (hfail : ∀ w', U w w' → R w w')
    (hseq : ∀ w' w'', U w w' → V w' w'' → R w w'')
    (hk : ∀ a w', inv w' → U w w' → Q a w' → Ends inv V w' (k a) S) : Ends inv R w (c >>= k) S := by
  refine ⟨fun hw => (hc.post hw).bind (fun a w' h => ?_) fun w' h => ⟨h.1, hfail w' h.2⟩⟩
  obtain ⟨⟨hw', hrel⟩, hq⟩ := h
  refine ((hk a w' hw' hrel hq).post hw').mono (fun b w'' h => ?_) fun w'' h => ?_
  · exact ⟨⟨h.1.1, hseq w' w'' hrel h.1.2⟩, h.2⟩
  · exact ⟨h.1, hseq w' w'' hrel h.2⟩

/-- The rest of the program leaves the state alone. -/
theorem Ends.finish {c}
    (hc : Ends inv R w c Q) (hk : ∀ a w', Q a w' → Ends inv (fun x y => x = y) w' (k a) S) :
    Ends inv R w (c >>= k) S := by
  refine Ends.bind hc (fun _ h => h) (fun w' w'' h h' => ?_) fun a w' _ _ hq => hk a w' hq
  rw [← h']
  exact h

/-- A first part that leaves the state alone when it returns. -/
theorem Ends.guard {P : α → Prop} {c}
    (hc : Ends inv R w c fun a w' => w' = w ∧ P a) (hk : ∀ a, P a → Ends inv R w (k a) S) :
    Ends inv R w (c >>= k) S := by
  refine Ends.bind (V := fun _ => R w) hc (fun _ h => h) (fun _ _ _ h => h) ?_
  intro a w' _ _ ⟨hw, ha⟩
  rw [hw]
  exact ⟨(hk a ha).post⟩

/-- One access, then the rest from the state it leaves. -/
theorem Ends.call {u : σ → σ} {n : σ → Prog σ ℓ ε α} (hseq : ∀ w', U w (u w) → V (u w) w' → R w w')
    (hu : inv w → inv (u w) ∧ U w (u w)) (h : Ends inv V (u w) (n w) Q) :
    Ends inv R w (Prog.call l u n) Q := by
  refine ⟨fun hw => ?_⟩
  obtain ⟨hw', hrel⟩ := hu hw
  exact (h.post hw').mono (fun _ w' h => ⟨⟨h.1.1, hseq w' hrel h.1.2⟩, h.2⟩)
    fun w' h => ⟨h.1, hseq w' hrel h.2⟩

theorem Ends.attempt (h : Ends inv R w c Q) :
    Ends inv R w c.attempt fun r w' => ∀ a, r = .ok a → Q a w' := by
  refine ⟨fun hw => ?_⟩
  have h := h.post hw
  rw [run_attempt]
  cases hr : c.run w with
  | mk r =>
    rw [hr] at h
    cases r with
    | ok => exact ⟨h.1, fun b hb => Except.ok.inj hb ▸ h.2⟩
    | error => exact ⟨h, nofun⟩

theorem Ends.of_after (h : inv w → inv (c.after w) ∧ R w (c.after w)) : Ends inv R w c ⊤ :=
  ⟨fun hw => (Post.of_after (F := fun w' => inv w' ∧ R w w') (h hw)).mono
    (fun _ _ h => ⟨h, trivial⟩) fun _ h => h⟩

/-- What is known of the state the program leaves, whatever its outcome. -/
theorem Ends.and_after {P : σ → Prop} (h : Ends inv R w c Q)
    (hP : P (c.after w)) : Ends inv R w c fun a w' => Q a w' ∧ P w' := by
  refine ⟨fun hw => ?_⟩
  have h := h.post hw
  unfold after at hP
  cases hr : c.run w with
  | mk r =>
    rw [hr] at h hP
    cases r with
    | ok => exact ⟨h.1, h.2, hP⟩
    | error => exact h

theorem Ends.of_ok (h : Ends inv R w c Q) (hw : inv w)
    (hr : (c.run w).1 = .ok a) : (inv (c.after w) ∧ R w (c.after w)) ∧ Q a (c.after w) := by
  have h := h.post hw
  rw [run_eq_of_ok hr] at h
  exact h

theorem Ends.after (h : Ends inv R w c Q) (hw : inv w) : inv (c.after w) ∧ R w (c.after w) :=
  (h.post hw).after (F := fun w' => inv w' ∧ R w w') (fun _ _ h => h.1) fun _ h => h

end

/-! ## Programs under a guarantee -/

abbrev Safe (G : Guarantee σ) (w : σ) (c : Prog σ ℓ ε α) (Q : α → σ → Prop) : Prop :=
  Ends G.inv G.rel w c Q

section
variable {G : Guarantee σ} {w : σ} {Q Q' : α → σ → Prop} {R : β → σ → Prop}
  {f : α → Prog σ ℓ ε Unit} {k : α → Prog σ ℓ ε β}

theorem Safe.ret (h : Q a w) : Safe G w (pure a : Prog σ ℓ ε α) Q := Ends.ret (G.refl w) h

theorem Safe.fail : Safe G w (Prog.fail e : Prog σ ℓ ε α) Q := Ends.fail (G.refl w)

theorem Safe.bind {c} (hc : Safe G w c Q)
    (hk : ∀ a w', G.inv w' → G.rel w w' → Q a w' → Safe G w' (k a) R) : Safe G w (c >>= k) R :=
  Ends.bind hc (fun _ h => h) (fun _ _ h h' => G.trans h h') hk

/-- A read hands over what it saw and leaves the state alone. -/
theorem Safe.read {f : σ → α} (h : Safe G w (k (f w)) R) :
    Safe G w (Prog.read l f >>= k) R := ⟨h.post⟩

theorem Safe.call {u : σ → σ} {n : σ → Prog σ ℓ ε α}
    (hu : G.inv w → G.inv (u w) ∧ G.rel w (u w)) (h : Safe G (u w) (n w) Q) :
    Safe G w (Prog.call l u n) Q :=
  Ends.call (fun _ h h' => G.trans h h') hu h

/-- Every round starts in a state the loop has reached. -/
theorem Safe.each (h : ∀ x ∈ xs, ∀ w', G.inv w' → G.rel w w' → Safe G w' (f x) ⊤) :
    Safe G w (Prog.each xs f) ⊤ := by
  induction xs generalizing w with
  | nil => exact Safe.ret trivial
  | cons x xs ih =>
    refine Safe.bind (Ends.of_inv fun hw => h x mem_cons_self w hw (G.refl w)) ?_
    intro _ w' hw' hrel _
    exact ih fun y hy w'' hw'' hrel' =>
      h y (mem_cons_of_mem _ hy) w'' hw'' (G.trans hrel hrel')

/-- What each round establishes and nothing undoes holds of all of them in the end. -/
theorem Safe.each_all {A : α → σ → Prop} (hA : ∀ x w w', G.rel w w' → A x w → A x w')
    (h : ∀ x ∈ xs, ∀ w', G.inv w' → G.rel w w' → Safe G w' (f x) fun _ => A x) :
    Safe G w (Prog.each xs f) fun _ w' => ∀ x ∈ xs, A x w' := by
  induction xs generalizing w with
  | nil => exact Safe.ret nofun
  | cons x xs ih =>
    refine Safe.bind (Ends.of_inv fun hw => h x mem_cons_self w hw (G.refl w)) ?_
    intro _ w' hw' hrel hx
    have hrest := ih fun y hy w'' hw'' hrel' =>
      h y (mem_cons_of_mem _ hy) w'' hw'' (G.trans hrel hrel')
    refine hrest.conseq (fun _ h => h) fun _ w'' hall hrel' y hy => ?_
    rcases mem_cons.1 hy with rfl | hy
    · exact hA y w' w'' hrel' hx
    · exact hall y hy

/-- `J` is what the loop knows about the value it carries. -/
theorem Safe.foldl {f : β → α → Prog σ ℓ ε β} {J : β → σ → Prop} (hb : J b w)
    (h : ∀ b, ∀ x ∈ xs, ∀ w', G.inv w' → G.rel w w' → J b w' → Safe G w' (f b x) J) :
    Safe G w (Prog.foldl xs b f) J := by
  induction xs generalizing w b with
  | nil => exact Safe.ret hb
  | cons x xs ih =>
    refine Safe.bind (Ends.of_inv fun hw => h b x mem_cons_self w hw (G.refl w) hb) ?_
    intro b' w' _ hrel hb'
    exact ih hb' fun b y hy w'' hw'' hrel' =>
      h b y (mem_cons_of_mem _ hy) w'' hw'' (G.trans hrel hrel')

end

end Prog

end Lib
