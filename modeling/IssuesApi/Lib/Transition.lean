import Mathlib.Tactic.TypeStar

/-!
# Runs of a labelled transition system

A system is a step relation `σ → α → σ → Prop`: from a state, under a label, to a state.  A
run is a finite sequence of steps, kept together with its labels in order, its history.
Interleavings are runs whose labels name the party that moves, and a sequence of requests is a
run whose labels are the requests with their answers.

`Run.invariant` is the only induction over runs: an invariant may speak about the history.
-/

namespace IssuesApi

/-- The runs of a system from `init`, with their history. -/
inductive Run {σ α : Type*} (step : σ → α → σ → Prop) (init : σ) : List α → σ → Prop
  | start : Run step init [] init
  | next {history s a t} : Run step init history s → step s a t →
      Run step init (history ++ [a]) t

variable {σ α : Type*} {step : σ → α → σ → Prop} {init s : σ} {history : List α}

/-- **Invariants.**  What holds initially and is kept by every step of a run holds of its
history and its final state. -/
theorem Run.invariant {I : List α → σ → Prop} (hinit : I [] init)
    (hstep : ∀ history s a t, Run step init history s → I history s → step s a t →
      I (history ++ [a]) t) :
    Run step init history s → I history s := by
  intro h
  induction h with
  | start => exact hinit
  | next hrun hs ih => exact hstep _ _ _ _ hrun ih hs

end IssuesApi
