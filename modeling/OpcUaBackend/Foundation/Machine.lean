import Mathlib.Logic.Basic

/-!
# Guarded runs of labelled transition systems

A machine is a labelled transition relation with its initial states. A state is reached under
a guard when some run leads to it whose every step was taken in a state where the guard
allowed its label. An invariant is proved once per step and then holds of every state so
reached; a guard that holds of everything gives the reachable states.

## Main definitions

* `Machine`, `Machine.Reach`, `Machine.Reachable`: guarded and unguarded reachability
* `Machine.Steps`: a run along a word of labels

## Main results

* `Machine.Reach.invariant`: the induction rule
* `Machine.Reach.steps`: a run along a word whose steps are all guarded
-/

namespace Foundation

universe u v

/-- A labelled transition relation with its initial states. -/
structure Machine (σ : Type u) (ℓ : Type v) where
  init : σ → Prop
  step : σ → ℓ → σ → Prop

namespace Machine

variable {σ : Type u} {ℓ : Type v} {M : Machine σ ℓ} {guard : σ → ℓ → Prop}

/-- The states reached by the runs whose every step meets `guard`. -/
inductive Reach (M : Machine σ ℓ) (guard : σ → ℓ → Prop) : σ → Prop
  | init {s} : M.init s → Reach M guard s
  | step {s l s'} : Reach M guard s → guard s l → M.step s l s' → Reach M guard s'

/-- The states reached by any run. -/
abbrev Reachable (M : Machine σ ℓ) : σ → Prop := M.Reach fun _ _ => True

/-- **The induction rule**: what holds initially and is kept by every guarded step holds of
every state reached under the guard. -/
theorem Reach.invariant {I : σ → Prop} {s : σ} (h : M.Reach guard s)
    (hinit : ∀ s, M.init s → I s)
    (hstep : ∀ s l s', I s → guard s l → M.step s l s' → I s') : I s := by
  induction h with
  | init h₀ => exact hinit _ h₀
  | step _ hg hs ih => exact hstep _ _ _ ih hg hs

/-- A run along a word of labels. -/
inductive Steps (M : Machine σ ℓ) (guard : σ → ℓ → Prop) : σ → List ℓ → σ → Prop
  | nil (s) : Steps M guard s [] s
  | cons {s l s' ls s''} : guard s l → M.step s l s' → Steps M guard s' ls s'' →
      Steps M guard s (l :: ls) s''

theorem Steps.append {s s' s'' : σ} {ls ls' : List ℓ} (h : M.Steps guard s ls s')
    (h' : M.Steps guard s' ls' s'') : M.Steps guard s (ls ++ ls') s'' := by
  induction h with
  | nil => exact h'
  | cons hg hstep _ ih => exact .cons hg hstep (ih h')

theorem Steps.mono {guard' : σ → ℓ → Prop} {s s' : σ} {ls : List ℓ}
    (hguard : ∀ s l, guard s l → guard' s l) (h : M.Steps guard s ls s') :
    M.Steps guard' s ls s' := by
  induction h with
  | nil s => exact .nil s
  | cons hg hstep _ ih => exact .cons (hguard _ _ hg) hstep ih

theorem Reach.steps {s s' : σ} {ls : List ℓ} (h : M.Reach guard s)
    (hs : M.Steps guard s ls s') : M.Reach guard s' := by
  induction hs with
  | nil => exact h
  | cons hg hstep _ ih => exact ih (h.step hg hstep)

/-- A run of steps that are computed. -/
theorem Reach.foldl {f : σ → ℓ → σ} (hf : ∀ s l, M.step s l (f s l)) {s : σ}
    (h : M.Reachable s) (ls : List ℓ) : M.Reachable (ls.foldl f s) := by
  induction ls generalizing s with
  | nil => exact h
  | cons l ls ih => exact ih (h.step trivial (hf s l))

end Machine

end Foundation
