import Mathlib.Tactic.Common

/-!
# Handlers that answer every event

A handler takes a state and an event to the next state and an answer. `answers` lists the answers
to a sequence of events. When every block of the sequence starts and ends in a state with `I`, and
from such a state always has the answers `expected`, then the answers to the whole sequence are
those of its blocks: `answers_flatMap`.
-/

set_option autoImplicit false

namespace IotClient.Foundation.Transducers

universe u v w x

variable {σ : Type u} {α : Type v} {β : Type w}

/-- The state after the events. -/
def stateAfter (step : σ → α → σ × β) (s : σ) (es : List α) : σ :=
  es.foldl (fun s e => (step s e).1) s

/-- The answers to the events, one each. -/
def answers (step : σ → α → σ × β) : σ → List α → List β
  | _, [] => []
  | s, e :: es => (step s e).2 :: answers step (step s e).1 es

variable (step : σ → α → σ × β)

@[simp]
theorem stateAfter_nil (s : σ) : stateAfter step s [] = s := rfl

@[simp]
theorem stateAfter_cons (s : σ) (e : α) (es : List α) :
    stateAfter step s (e :: es) = stateAfter step (step s e).1 es := rfl

theorem stateAfter_append (s : σ) (es fs : List α) :
    stateAfter step s (es ++ fs) = stateAfter step (stateAfter step s es) fs :=
  List.foldl_append

theorem answers_append (s : σ) (es fs : List α) :
    answers step s (es ++ fs) = answers step s es ++ answers step (stateAfter step s es) fs := by
  induction es generalizing s with
  | nil => rfl
  | cons e es ih =>
      show (step s e).2 :: answers step (step s e).1 (es ++ fs) = _
      rw [ih]
      rfl

/-- Blocks that neither use nor leave anything beyond `I` are answered one by one. -/
theorem answers_flatMap {γ : Type x} {step : σ → α → σ × β} {I : σ → Prop}
    {block : γ → List α} {expected : γ → List β} {s : σ} (hs : I s)
    (hblock : ∀ c s, I s →
      answers step s (block c) = expected c ∧ I (stateAfter step s (block c)))
    (cs : List γ) : answers step s (cs.flatMap block) = cs.flatMap expected := by
  induction cs generalizing s with
  | nil => rfl
  | cons c cs ih =>
      obtain ⟨hanswers, hstate⟩ := hblock c s hs
      rw [List.flatMap_cons, List.flatMap_cons, answers_append, hanswers, ih hstate]

end IotClient.Foundation.Transducers
