import IssuesApi.Lib.Transition
import Mathlib.Data.List.Forall2

/-!
# Simulation

Two labelled systems are compared by what an observer sees of them, the histories of their runs.
A relation between the states under which every step of the one is a step of the other with the
same label carries whole runs over; a relation that does so in both directions makes the two
have the same histories.

The labels carry the answers, so that equal histories are equal behaviours.  `good` restricts
what the environment asks for.

A machine that computes its answers needs no labels: `outputs_eq` says that runs on inputs that
are alike give the same answers, when a step on like inputs does.
-/

namespace IssuesApi

variable {σ τ α : Type*} {step : σ → α → σ → Prop} {step' : τ → α → τ → Prop}
  {good : α → Prop} {R : σ → τ → Prop} {init : σ} {init' : τ}

/-- Every good step of the first system is a step of the second, and keeps the relation. -/
def Simulates (step : σ → α → σ → Prop) (step' : τ → α → τ → Prop) (good : α → Prop)
    (R : σ → τ → Prop) : Prop :=
  ∀ ⦃s t a s₁⦄, R s t → good a → step s a s₁ → ∃ t₁, step' t a t₁ ∧ R s₁ t₁

/-- **Simulation of runs.** -/
theorem Simulates.run (h : Simulates step step' good R) (hinit : R init init')
    {history : List α} {s : σ} (hgood : ∀ a ∈ history, good a)
    (hrun : Run step init history s) : ∃ t, Run step' init' history t ∧ R s t := by
  induction hrun with
  | start => exact ⟨init', .start, hinit⟩
  | next _ hs ih =>
    rw [List.forall_mem_append, List.forall_mem_singleton] at hgood
    obtain ⟨t, hrun', hrel⟩ := ih hgood.1
    obtain ⟨t₁, hstep', hrel'⟩ := h hrel hgood.2 hs
    exact ⟨t₁, hrun'.next hstep', hrel'⟩

/-- **Equal behaviour.**  Systems that simulate each other have the same good histories. -/
theorem histories_iff (h : Simulates step step' good R)
    (h' : Simulates step' step good fun t s => R s t) (hinit : R init init') {history : List α}
    (hgood : ∀ a ∈ history, good a) :
    (∃ s, Run step init history s) ↔ ∃ t, Run step' init' history t := by
  constructor
  · rintro ⟨s, hrun⟩
    exact (h.run hinit hgood hrun).imp fun _ => And.left
  · rintro ⟨t, hrun⟩
    exact (h'.run hinit hgood hrun).imp fun _ => And.left

/-! ## Machines -/

section Machine

variable {ι ο : Type*} {serve : σ → ι → ο × σ} {serve' : τ → ι → ο × τ} {alike : ι → ι → Prop}

/-- What a machine answers to a sequence of inputs. -/
def outputs (serve : σ → ι → ο × σ) : σ → List ι → List ο
  | _, [] => []
  | s, input :: inputs => (serve s input).1 :: outputs serve (serve s input).2 inputs

/-- **Equal answers.**  When related states answer like inputs equally and stay related, runs on
like inputs give the same answers. -/
theorem outputs_eq
    (hstep : ∀ ⦃s t⦄, R s t → ∀ ⦃input input'⦄, alike input input' →
      (serve s input).1 = (serve' t input').1 ∧ R (serve s input).2 (serve' t input').2)
    {inputs inputs' : List ι} (hinputs : List.Forall₂ alike inputs inputs') :
    ∀ {s : σ} {t : τ}, R s t → outputs serve s inputs = outputs serve' t inputs' := by
  induction hinputs with
  | nil => exact fun _ => rfl
  | cons hinput _ ih =>
    intro s t hrel
    obtain ⟨hanswer, hrel'⟩ := hstep hrel hinput
    rw [outputs, outputs, hanswer, ih hrel']

end Machine

end IssuesApi
