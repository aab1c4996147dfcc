import Mathlib

/-!
# Histories

What a machine does on a list of events, kept as one record for each event. A step of a history
starts from the state the events before it lead to; a counter that no step turns back and that some
steps move on tells whether such a step lies between two states.
-/

namespace Lib

open List

variable {σ ε τ : Type} (step : σ → ε → τ) (after : τ → σ)

/-- The record of every event, each on the state its predecessor leaves. -/
def history : σ → List ε → List τ
  | _, [] => []
  | s, e :: events => step s e :: history (after (step s e)) events

/-- The state after the events. -/
def last (s : σ) (events : List ε) : σ := events.foldl (fun s e => after (step s e)) s

variable {step after} {s : σ} {events : List ε}

theorem last_append_singleton (s : σ) (events : List ε) (e : ε) :
    last step after s (events ++ [e]) = after (step (last step after s events) e) := by
  simp [last]

theorem history_append (s : σ) (events events' : List ε) :
    history step after s (events ++ events') =
      history step after s events ++ history step after (last step after s events) events' := by
  induction events generalizing s with
  | nil => rfl
  | cons e events ih =>
    simp only [cons_append, history, ih]
    rfl

theorem history_eq_append (h : history step after s events = l ++ l') :
    ∃ first rest, history step after s first = l ∧
      history step after (last step after s first) rest = l' := by
  induction l generalizing s events with
  | nil => exact ⟨[], events, rfl, h⟩
  | cons x l ih =>
    cases events with
    | nil => cases h
    | cons e =>
      obtain ⟨hx, hl⟩ := List.cons.inj h
      obtain ⟨first, rest, hfirst, hrest⟩ := ih hl
      exact ⟨e :: first, rest, by rw [history, hfirst, hx], hrest⟩

/-- A record in the middle of a history is a step on the state the machine had then. -/
theorem history_split (h : history step after s events = l ++ x :: l') :
    ∃ first e rest, history step after s first = l ∧ x = step (last step after s first) e ∧
      history step after (after x) rest = l' := by
  obtain ⟨first, rest, hfirst, hrest⟩ := history_eq_append h
  cases rest with
  | nil => cases hrest
  | cons e rest =>
    obtain ⟨rfl, hl⟩ := List.cons.inj hrest
    exact ⟨first, e, rest, hfirst, rfl, hl⟩

section
variable {count : σ → Nat} {moves : τ → Prop}

/-- **A counter that never goes back** has moved on after any step that moves it. -/
theorem last_count (hstep : ∀ s e, count s ≤ count (after (step s e)) ∧
      (moves (step s e) → count s < count (after (step s e)))) (s : σ) (events : List ε) :
    count s ≤ count (last step after s events) ∧
    ((∃ x ∈ history step after s events, moves x) →
      count s < count (last step after s events)) := by
  induction events generalizing s with
  | nil => exact ⟨Nat.le_refl _, fun ⟨_, hx, _⟩ => nomatch hx⟩
  | cons e events ih =>
    obtain ⟨hle, hmoves⟩ := hstep s e
    obtain ⟨hle', hlt⟩ := ih (after (step s e))
    have hlast : last step after s (e :: events) = last step after (after (step s e)) events := rfl
    rw [hlast]
    refine ⟨Nat.le_trans hle hle', ?_⟩
    rintro ⟨x, hx, hm⟩
    rcases mem_cons.mp hx with rfl | hx
    · exact Nat.lt_of_lt_of_le (hmoves hm) hle'
    · exact Nat.lt_of_le_of_lt hle (hlt ⟨x, hx, hm⟩)

/-- What every other step keeps is kept while no step moves the counter. -/
theorem last_kept {β : Type} {part : σ → β}
    (hstep : ∀ s e, ¬ moves (step s e) → part (after (step s e)) = part s)
    (h : ∀ x ∈ history step after s events, ¬ moves x) :
    part (last step after s events) = part s := by
  induction events generalizing s with
  | nil => rfl
  | cons e events ih =>
    have hfirst : part (after (step s e)) = part s := hstep s e (h _ (mem_cons_self ..))
    have hrest := ih fun x hx => h x (mem_cons_of_mem _ hx)
    exact Eq.trans hrest hfirst

end

end Lib
