import VaultServer.Lib.Prog

/-!
# How a run ends

`Prog.spared hit c w` says that no call of the run of `c` from `w` is hit: what `hit` means is up to
the reader of the labels, a write that the outside refuses for example.  `Prog.Returns` is total
correctness under that proviso: a spared run returns, with a value and a state in `Q`.
`Prog.Leads` says where a spared run ends when it may also stop, and `Prog.Concludes` with which
outcome.
`Prog.Yields` is partial correctness: what a returned value tells, whatever the outside does.
`Prog.Refuses` says that a run stops before it has changed anything, and
`Prog.FailsOnly` bounds the errors a program can stop with, whatever the state.
-/

namespace Lib

open List

namespace Prog

variable {σ ℓ ε α β : Type} {hit : ℓ → σ → Bool} {c : Prog σ ℓ ε α} {f : α → Prog σ ℓ ε Unit}
  {k : α → Prog σ ℓ ε β}

/-! ## Runs without a hit -/

def spared (hit : ℓ → σ → Bool) : Prog σ ℓ ε α → σ → Bool
  | ret _, _ => true
  | fail _, _ => true
  | call l u n, w => !hit l w && (n w).spared hit (u w)

theorem spared_bind {w} (h : (c >>= k).spared hit w = true) :
    c.spared hit w = true ∧ ∀ a, (c.run w).1 = .ok a → (k a).spared hit (c.after w) = true := by
  induction c generalizing w with
  | ret =>
    refine ⟨rfl, fun b hb => ?_⟩
    rw [← Except.ok.inj hb]
    exact h
  | fail => exact ⟨rfl, nofun⟩
  | call l u n ih =>
    obtain ⟨h1, h2⟩ := Bool.and_eq_true_iff.1 h
    obtain ⟨ih1, ih2⟩ := ih w h2
    exact ⟨Bool.and_eq_true_iff.2 ⟨h1, ih1⟩, ih2⟩

theorem spared_attempt {w} : c.attempt.spared hit w = c.spared hit w := by
  induction c generalizing w with
  | ret => rfl
  | fail => rfl
  | call l u n ih => exact congrArg (!hit l w && ·) (ih w)

/-- What holds where the first part stops, and where the rest ends after it has returned. -/
theorem after_bind_or {P : σ → Prop} {w}
    (hstop : P (c.after w)) (hk : ∀ a, (c.run w).1 = .ok a → P ((k a).after (c.after w))) :
    P ((c >>= k).after w) := by
  unfold after at hstop hk ⊢
  rw [run_bind]
  cases hr : c.run w with
  | mk r =>
    rw [hr] at hstop hk
    cases r with
    | ok a => exact hk a rfl
    | error => exact hstop

/-- A loop keeps what each round keeps. -/
theorem Keeps.each {I : σ → Prop} (h : ∀ x ∈ xs, Keeps I (f x)) : Keeps I (Prog.each xs f) := by
  induction xs with
  | nil => exact fun _ hw => hw
  | cons x xs ih =>
    intro w hw
    have hx : I ((f x).after w) := h x mem_cons_self w hw
    exact after_bind_or hx fun _ _ => ih (fun y hy => h y (mem_cons_of_mem x hy)) _ hx

theorem each_stops (he : f x = fail e) (hx : x ∈ xs) {w} : ((Prog.each xs f).run w).1 ≠ .ok () := by
  induction xs generalizing w with
  | nil => cases hx
  | cons y ys ih =>
    have hrun : (Prog.each (y :: ys) f).run w = _ := run_bind (f y) (fun _ => Prog.each ys f) w
    rw [hrun]
    rcases mem_cons.1 hx with rfl | hx
    · rw [he]
      nofun
    · split
      · exact ih hx
      · nofun

/-- A spared run returns, and `Q` holds of what it returns and where. -/
def Returns (hit : ℓ → σ → Bool) (w : σ) (c : Prog σ ℓ ε α) (Q : α → σ → Prop) : Prop :=
  c.spared hit w = true → ∃ a, (c.run w).1 = .ok a ∧ Q a (c.after w)

section
variable {w : σ} {Q Q' : α → σ → Prop} {R : β → σ → Prop} {k : α → Prog σ ℓ ε β} {c : Prog σ ℓ ε α}
  {P : Except ε β → σ → Prop} {f : α → Prog σ ℓ ε Unit} {J : σ → Prop}

theorem run_bind_of_ok (h : (c.run w).1 = .ok a) : (c >>= k).run w = (k a).run (c.after w) := by
  rw [run_bind, run_eq_of_ok h]

theorem after_bind_of_ok (h : (c.run w).1 = .ok a) :
    (c >>= k).after w = (k a).after (c.after w) := by
  unfold after
  rw [run_bind_of_ok h]
  rfl

theorem Returns.ret (h : Q a w) : Returns hit w (pure a : Prog σ ℓ ε α) Q := fun _ => ⟨a, rfl, h⟩

theorem Returns.mono (h : Returns hit w c Q) (hQ : ∀ a w', Q a w' → Q' a w') :
    Returns hit w c Q' := by
  intro hs
  obtain ⟨a, ha, hq⟩ := h hs
  exact ⟨a, ha, hQ a _ hq⟩

theorem Returns.bind (hc : Returns hit w c Q)
    (hk : ∀ a, Q a (c.after w) → Returns hit (c.after w) (k a) R) : Returns hit w (c >>= k) R := by
  intro hs
  obtain ⟨hs1, hs2⟩ := spared_bind hs
  obtain ⟨a, ha, hq⟩ := hc hs1
  obtain ⟨b, hb, hr⟩ := hk a hq (hs2 a ha)
  refine ⟨b, ?_, ?_⟩
  · rw [run_bind_of_ok ha]; exact hb
  · rw [after_bind_of_ok ha]; exact hr

/-- A read hands over what it saw and leaves the state alone. -/
theorem Returns.read {f : σ → α} (h : Returns hit w (k (f w)) R) :
    Returns hit w (Prog.read l f >>= k) R :=
  fun hs => h (Bool.and_eq_true_iff.1 hs).2

theorem Returns.call {u : σ → σ} {n : σ → Prog σ ℓ ε α}
    (h : hit l w = false → Returns hit (u w) (n w) Q) : Returns hit w (Prog.call l u n) Q := by
  intro hs
  obtain ⟨h1, h2⟩ := Bool.and_eq_true_iff.1 hs
  exact h (by simpa using h1) h2

/-- `J` is what the loop keeps. -/
theorem Returns.foldl {f : β → α → Prog σ ℓ ε β} {J : β → σ → Prop}
    (hb : J b w) (h : ∀ b, ∀ x ∈ xs, ∀ w', J b w' → Returns hit w' (f b x) J) :
    Returns hit w (Prog.foldl xs b f) J := by
  induction xs generalizing w b with
  | nil => exact Returns.ret hb
  | cons x xs ih =>
    refine Returns.bind (h b x mem_cons_self w hb) fun b' hb' => ih hb' ?_
    exact fun b y hy w' hJ => h b y (mem_cons_of_mem _ hy) w' hJ

theorem Returns.each (hw : J w) (h : ∀ x ∈ xs, ∀ w', J w' → Returns hit w' (f x) fun _ => J) :
    Returns hit w (Prog.each xs f) fun _ => J := by
  induction xs generalizing w with
  | nil => exact Returns.ret hw
  | cons x xs ih =>
    refine Returns.bind (h x mem_cons_self w hw) fun _ hw' => ih hw' ?_
    exact fun y hy w' hJ => h y (mem_cons_of_mem _ hy) w' hJ

/-- A loop that gets something done for each element, and undoes nothing. -/
theorem Returns.collect {D : α → σ → Prop}
    (hw : J w) (h : ∀ x ∈ xs, ∀ w', J w' → Returns hit w' (f x) fun _ w'' =>
      J w'' ∧ D x w'' ∧ ∀ y, D y w' → D y w'') :
    Returns hit w (Prog.each xs f) fun _ w' => J w' ∧ (∀ x ∈ xs, D x w') ∧ ∀ y, D y w → D y w' := by
  induction xs generalizing w with
  | nil => exact Returns.ret ⟨hw, nofun, fun _ hy => hy⟩
  | cons x xs ih =>
    refine Returns.bind (h x mem_cons_self w hw) fun _ hx => ?_
    have hrest := ih hx.1 fun y hy => h y (mem_cons_of_mem _ hy)
    refine hrest.mono fun _ w' hw' => ⟨hw'.1, ?_, fun y hy => hw'.2.2 y (hx.2.2 y hy)⟩
    exact forall_mem_cons.2 ⟨hw'.2.2 x hx.2.1, hw'.2.1⟩

/-- A loop that removes rows: the round for `x` adds none and leaves none that is to go for `x`. -/
theorem Returns.purge {ρ : Type} {T : σ → List ρ} {D : α → ρ → Prop} (hw : J w)
    (h : ∀ x ∈ xs, ∀ w', J w' → Returns hit w' (f x) fun _ w'' =>
      J w'' ∧ ∀ r ∈ T w'', r ∈ T w' ∧ ¬ D x r) :
    Returns hit w (Prog.each xs f) fun _ w'' =>
      ∀ r ∈ T w'', r ∈ T w ∧ ∀ x ∈ xs, ¬ D x r := by
  induction xs generalizing w with
  | nil => exact Returns.ret fun r hr => ⟨hr, nofun⟩
  | cons x xs ih =>
    refine Returns.bind (h x mem_cons_self w hw) fun _ hx => ?_
    have hrest := ih hx.1 fun y hy => h y (mem_cons_of_mem _ hy)
    refine hrest.mono fun _ w'' hw'' r hr => ?_
    obtain ⟨hmem, hxs⟩ := hw'' r hr
    obtain ⟨hmem', hclaim⟩ := hx.2 r hmem
    refine ⟨hmem', fun y hy => ?_⟩
    rcases mem_cons.1 hy with rfl | hy
    · exact hclaim
    · exact hxs y hy

/-- `P` holds of the outcome of a spared run and of the state it ends in. -/
def Concludes (hit : ℓ → σ → Bool) (w : σ) (c : Prog σ ℓ ε α) (P : Except ε α → σ → Prop) : Prop :=
  c.spared hit w = true → P (c.run w).1 (c.after w)

theorem Concludes.bind
    (hc : Returns hit w c Q) (hk : ∀ a, Q a (c.after w) → Concludes hit (c.after w) (k a) P) :
    Concludes hit w (c >>= k) P := by
  intro hs
  obtain ⟨hs1, hs2⟩ := spared_bind hs
  obtain ⟨a, ha, hq⟩ := hc hs1
  rw [run_bind_of_ok ha, after_bind_of_ok ha]
  exact hk a hq (hs2 a ha)

/-- The first part may stop as well. -/
theorem Concludes.bind_or {P1 : Except ε α → σ → Prop} (hc : Concludes hit w c P1)
    (hstop : ∀ e, P1 (.error e) (c.after w) → P (.error e) (c.after w))
    (hk : ∀ a, P1 (.ok a) (c.after w) → Concludes hit (c.after w) (k a) P) :
    Concludes hit w (c >>= k) P := by
  intro hs
  obtain ⟨hs1, hs2⟩ := spared_bind hs
  have h := hc hs1
  cases hr : (c.run w).1 with
  | error e =>
    have hrun : (c >>= k).run w = (.error e, c.after w) := by
      rw [run_bind, show c.run w = (.error e, c.after w) from Prod.ext hr rfl]
    have hafter : (c >>= k).after w = c.after w := congrArg Prod.snd hrun
    rw [hrun, hafter]
    exact hstop e (hr ▸ h)
  | ok a =>
    rw [run_bind_of_ok hr, after_bind_of_ok hr]
    exact hk a (hr ▸ h) (hs2 a hr)

theorem Concludes.read {f : σ → α}
    (h : Concludes hit w (k (f w)) P) : Concludes hit w (Prog.read l f >>= k) P :=
  fun hs => h (Bool.and_eq_true_iff.1 hs).2

/-- A spared run ends in `P`, whether it returns or stops. -/
def Leads (hit : ℓ → σ → Bool) (w : σ) (c : Prog σ ℓ ε α) (P : σ → Prop) : Prop :=
  c.spared hit w = true → P (c.after w)

/-- The first part returns, and the rest leads on. -/
theorem Leads.bind {P : σ → Prop}
    (hc : Returns hit w c Q) (hk : ∀ a, Q a (c.after w) → Leads hit (c.after w) (k a) P) :
    Leads hit w (c >>= k) P := by
  intro hs
  obtain ⟨hs1, hs2⟩ := spared_bind hs
  obtain ⟨a, ha, hq⟩ := hc hs1
  rw [after_bind_of_ok ha]
  exact hk a hq (hs2 a ha)

/-- The first part may stop as well. -/
theorem Leads.bind_or {P : σ → Prop}
    (hstop : P (c.after w)) (hk : ∀ a, (c.run w).1 = .ok a → Leads hit (c.after w) (k a) P) :
    Leads hit w (c >>= k) P :=
  fun hs => after_bind_or hstop fun a ha => hk a ha ((spared_bind hs).2 a ha)

theorem Leads.read {P : σ → Prop} {f : σ → α}
    (h : Leads hit w (k (f w)) P) : Leads hit w (Prog.read l f >>= k) P :=
  fun hs => h (Bool.and_eq_true_iff.1 hs).2

/-- The first part leads to `P`, and the rest keeps it. -/
theorem Leads.andThen {P : σ → Prop} {c}
    (hc : Leads hit w c P) (hk : ∀ a w', P w' → P ((k a).after w')) : Leads hit w (c >>= k) P := by
  intro hs
  have hp := hc (spared_bind hs).1
  exact after_bind_or hp fun a _ => hk a _ hp

end

/-! ## What a returned value tells -/

/-- If the run returns, `Q` holds of the value and of the state it ends in. -/
def Yields (w : σ) (c : Prog σ ℓ ε α) (Q : α → σ → Prop) : Prop :=
  ∀ a, (c.run w).1 = .ok a → Q a (c.after w)

section
variable {w : σ} {Q Q' : α → σ → Prop} {R : β → σ → Prop} {c : Prog σ ℓ ε α} {k : α → Prog σ ℓ ε β}

theorem Yields.ret (h : Q a w) : Yields w (pure a : Prog σ ℓ ε α) Q := by
  intro b hb
  rw [← Except.ok.inj hb]
  exact h

theorem Yields.fail : Yields w (Prog.fail e : Prog σ ℓ ε α) Q := nofun

theorem Yields.mono (h : Yields w c Q) (hQ : ∀ a w', Q a w' → Q' a w') :
    Yields w c Q' := fun a ha => hQ a _ (h a ha)

theorem Yields.bind {k} (hc : Yields w c Q)
    (hk : ∀ a, Q a (c.after w) → Yields (c.after w) (k a) R) : Yields w (c >>= k) R := by
  intro b hb
  cases hr : (c.run w).1 with
  | error e =>
    rw [run_bind, show c.run w = (.error e, c.after w) from Prod.ext hr rfl] at hb
    cases hb
  | ok a =>
    rw [run_bind_of_ok hr] at hb
    rw [after_bind_of_ok hr]
    exact hk a (hc a hr) b hb

theorem Yields.read {f : σ → α} (h : Yields w (k (f w)) R) : Yields w (Prog.read l f >>= k) R := h

/-- What holds where the first part stops and, given what it yields, where the rest ends. -/
theorem Yields.after_bind {P : σ → Prop} (hc : Yields w c Q) (hstop : P (c.after w))
    (hk : ∀ a, Q a (c.after w) → P ((k a).after (c.after w))) : P ((c >>= k).after w) :=
  after_bind_or hstop fun a ha => hk a (hc a ha)

end

/-! ## Refusals -/

/-- The run stops and leaves the state as it found it. -/
def Refuses (w : σ) (c : Prog σ ℓ ε α) : Prop := ∃ e, c.run w = (.error e, w)

section
variable {w : σ} {k : α → Prog σ ℓ ε β}

theorem Refuses.fail : Refuses w (Prog.fail e : Prog σ ℓ ε α) := ⟨e, rfl⟩

theorem Refuses.bind {c} (h : Refuses w c) : Refuses w (c >>= k) := by
  obtain ⟨e, he⟩ := h
  exact ⟨e, by rw [run_bind, he]⟩

theorem Refuses.read {f : σ → α} (h : Refuses w (k (f w))) : Refuses w (Prog.read l f >>= k) := h

theorem Refuses.after (h : Refuses w c) : c.after w = w := by
  obtain ⟨e, he⟩ := h
  unfold Prog.after
  rw [he]

end

/-! ## Errors -/

/-- Every error in the tree is one that `ok` admits. -/
def FailsOnly (ok : ε → Prop) : Prog σ ℓ ε α → Prop
  | ret _ => True
  | fail e => ok e
  | call _ _ n => ∀ w, (n w).FailsOnly ok

section
variable {ok : ε → Prop} {c : Prog σ ℓ ε α}

theorem FailsOnly.bind (hc : c.FailsOnly ok)
    (hk : ∀ a, (k a).FailsOnly ok) : (c >>= k).FailsOnly ok := by
  induction c with
  | ret a => exact hk a
  | fail => exact hc
  | call l u n ih => exact fun w => ih w (hc w)

theorem FailsOnly.each {f : α → Prog σ ℓ ε Unit} (h : ∀ x, (f x).FailsOnly ok) :
    (Prog.each xs f).FailsOnly ok := by
  induction xs with
  | nil => trivial
  | cons x xs ih => exact (h x).bind fun _ => ih

theorem FailsOnly.foldl {f : β → α → Prog σ ℓ ε β} (h : ∀ b x, (f b x).FailsOnly ok) :
    (Prog.foldl xs b f).FailsOnly ok := by
  induction xs generalizing b with
  | nil => trivial
  | cons x xs ih => exact (h b x).bind fun _ => ih

theorem FailsOnly.of_run (h : c.FailsOnly ok) {w e} (he : (c.run w).1 = .error e) : ok e := by
  induction c generalizing w with
  | ret => cases he
  | fail =>
    rw [← Except.error.inj he]
    exact h
  | call l u n ih => exact ih w (h w) he

end

end Prog

end Lib
