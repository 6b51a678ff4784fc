import Mathlib.Logic.Basic
import OpcUaBackend.Foundation.Threads

/-!
# Calls one after the other

A thread that is alone takes its code from the beginning to the end, and the shared state goes
from the one before to the one after: a semantics of code without other threads. Where the
thread holds no lock, another one may make a whole call in between, as long as the first one
waits for it. Such an execution is a run of the threads, so what whole functions do one after
the other is something that the threads can do.

## Main definitions

* `Program.Alone`: code that is executed by one thread, with the calls of others in between
* `Program.Calls`: a whole call
* `Threads.At`: only one thread is in a call

## Main results

* `Program.Alone.append`, `Program.Alone.run`: how executions are composed
* `Program.Alone.steps`, `Program.Calls.steps`: executions are runs of the threads
-/

namespace Foundation

variable {σ τ ε ι Λ : Type}

namespace Program

variable (P : Program σ τ ε ι Λ)

/-- A thread that holds the locks `H` takes the code, and then holds other locks; at the end it
has come through, or it has left the call. `other` is what a call of another thread does. -/
inductive Alone (other : σ → σ → Prop) :
    σ → List Λ → List (Instr ι Λ) → σ → List Λ → Bool → Prop
  | nil {s H} : Alone other s H [] s H false
  | lock {s H l code s' H' left} : l ∉ H → Alone other s (l :: H) code s' H' left →
      Alone other s H (.lock l :: code) s' H' left
  | unlock {s H l code s' H' left} : Alone other s H code s' H' left →
      Alone other s (l :: H) (.unlock l :: code) s' H' left
  | into {s H i code' code s₁ s' H' left} : P.exec i s = some (s₁, .into code') →
      Alone other s₁ H (code' ++ code) s' H' left →
      Alone other s H (.run i :: code) s' H' left
  | out {s i code s₁} : P.exec i s = some (s₁, .out) →
      Alone other s [] (.run i :: code) s₁ [] true
  | await {s code s₁ s' H' left} : other s s₁ → Alone other s₁ [] code s' H' left →
      Alone other s [] code s' H' left

/-- The call of a thread, from its entry to its end. -/
def Calls (other : σ → σ → Prop) (t : τ) (c : ε) (s s' : σ) : Prop :=
  ∃ code left, P.code t c s = some code ∧ P.Alone other s [] code s' [] left

variable {P} {other : σ → σ → Prop} {s s₁ s' : σ} {H H₁ H' : List Λ}
  {code code' rest : List (Instr ι Λ)} {left : Bool}

namespace Alone

/-- Code after code. -/
theorem append (h : P.Alone other s H code s₁ H₁ false)
    (h' : P.Alone other s₁ H₁ rest s' H' left) :
    P.Alone other s H (code ++ rest) s' H' left := by
  generalize hleft : false = b at h
  induction h with
  | nil => exact h'
  | lock hl _ ih => exact .lock hl (ih h' hleft)
  | unlock _ ih => exact .unlock (ih h' hleft)
  | into hexec _ ih => exact .into hexec (List.append_assoc .. ▸ ih h' hleft)
  | out _ => cases hleft
  | await hother _ ih => exact .await hother (ih h' hleft)

/-- Code that leaves the call leaves what follows it. -/
theorem append_out (h : P.Alone other s H code s' H' true) :
    P.Alone other s H (code ++ rest) s' H' true := by
  generalize hleft : true = b at h
  induction h with
  | nil => cases hleft
  | lock hl _ ih => exact .lock hl (ih hleft)
  | unlock _ ih => exact .unlock (ih hleft)
  | into hexec _ ih => exact .into hexec (List.append_assoc .. ▸ ih hleft)
  | out hexec => exact .out hexec
  | await hother _ ih => exact .await hother (ih hleft)

/-- An operation with its code. -/
theorem run {i : ι} (hexec : P.exec i s = some (s₁, .into code))
    (h : P.Alone other s₁ H code s' H' left) : P.Alone other s H [.run i] s' H' left :=
  .into hexec ((List.append_nil code).symm ▸ h)

/-- Earlier states of an execution are good when the last one is. -/
theorem good (good : σ → Prop) (h : P.Alone other s H code s' H' left)
    (hexec : ∀ i s s₁ next, P.exec i s = some (s₁, next) → good s₁ → good s)
    (hother : ∀ s s₁, other s s₁ → good s₁ → good s) (hs' : good s') : good s := by
  induction h with
  | nil => exact hs'
  | lock _ _ ih => exact ih hs'
  | unlock _ ih => exact ih hs'
  | into he _ ih => exact hexec _ _ _ _ he (ih hs')
  | out he => exact hexec _ _ _ _ he hs'
  | await ho _ ih => exact hother _ _ ho (ih hs')

end Alone

end Program

/-! ## Runs of the threads -/

section Runs

variable [DecidableEq τ] [DecidableEq Λ]

/-- The shared state, a thread with its code and its locks, and the stacks of the others. -/
def Threads.at (s : σ) (t : τ) (code : List (Instr ι Λ)) (H : List Λ)
    (stack : τ → List (Instr ι Λ)) : Threads σ τ ι Λ where
  shared := s
  stack := Function.update stack t code
  holder l := if l ∈ H then some t else none

/-- No lock is held. -/
def Threads.free (s : σ) (stack : τ → List (Instr ι Λ)) : Threads σ τ ι Λ :=
  ⟨s, stack, fun _ => none⟩

namespace Program

variable {P : Program σ τ ε ι Λ} {other : σ → σ → Prop} {s s₁ s' : σ} {H H' : List Λ} {l : Λ}
  {code rest : List (Instr ι Λ)} {left : Bool} {t : τ} {stack : τ → List (Instr ι Λ)}

theorem at_free : (Threads.at s t code ([] : List Λ) stack : Threads σ τ ι Λ) =
    .free s (Function.update stack t code) := by
  simp [Threads.at, Threads.free]

theorem at_nil (hstack : stack t = []) :
    (Threads.at s t [] ([] : List Λ) stack : Threads σ τ ι Λ) = .free s stack := by
  rw [at_free, Function.update_eq_self_iff.mpr hstack.symm]

theorem step_at_lock (hl : l ∉ H) :
    P.Step (.at s t (.lock l :: code) H stack) (.advance t) (.at s t code (l :: H) stack) := by
  have hstack : (Threads.at s t (.lock l :: code) H stack).stack t = .lock l :: code := by
    simp [Threads.at]
  have hstep := Step.lock (P := P) hstack (by simp [Threads.at, hl])
  convert hstep using 1
  simp only [Threads.at, Function.update_idem]
  congr 1
  funext l'
  by_cases hl' : l' = l
  · simp [hl']
  · simp [hl']

theorem step_at_unlock (hl : l ∉ H) :
    P.Step (.at s t (.unlock l :: code) (l :: H) stack) (.advance t) (.at s t code H stack) := by
  have hstack : (Threads.at s t (.unlock l :: code) (l :: H) stack).stack t =
      .unlock l :: code := by
    simp [Threads.at]
  have hstep := Step.unlock (P := P) hstack
  convert hstep using 1
  simp only [Threads.at, Function.update_idem]
  congr 1
  funext l'
  by_cases hl' : l' = l
  · simp [hl', hl]
  · simp [hl']

theorem step_at_run {i : ι} {next : Next ι Λ} (hexec : P.exec i s = some (s₁, next)) :
    P.Step (.at s t (.run i :: code) H stack) (.advance t)
      (.at s₁ t (next.stack code) H stack) := by
  have hstack : (Threads.at s t (.run i :: code) H stack).stack t = .run i :: code := by
    simp [Threads.at]
  have hstep := Step.run (P := P) hstack hexec
  convert hstep using 1
  simp [Threads.at]

/-- **An execution is a run** of the threads. The environment admits the changes between good
states, and what a call of another thread does is a run as well. -/
theorem Alone.steps (good : σ → Prop) (h : P.Alone other s H code s' H' left)
    (hadmits : ∀ s s', good s → good s' → P.admits s s')
    (hexec : ∀ i s s₁ next, P.exec i s = some (s₁, next) → good s₁ → good s)
    (hother : ∀ s s₁, other s s₁ → good s₁ → good s)
    (hruns : ∀ s s₁ code, other s s₁ → good s₁ → ∃ ms, P.machine.Steps (fun _ _ => True)
      (.free s (Function.update stack t code)) ms (.free s₁ (Function.update stack t code)))
    (hs' : good s') (hH : H.Nodup) :
    ∃ ms, P.machine.Steps (fun _ _ => True) (.at s t code H stack) ms (.at s' t [] H' stack) := by
  induction h with
  | nil => exact ⟨_, .nil _⟩
  | lock hl h ih =>
    obtain ⟨ms, hms⟩ := ih hs' (List.nodup_cons.mpr ⟨hl, hH⟩)
    have hgood := h.good good hexec hother hs'
    exact ⟨_, .cons trivial ⟨step_at_lock hl, hadmits _ _ hgood hgood⟩ hms⟩
  | unlock h ih =>
    obtain ⟨hl, hH'⟩ := List.nodup_cons.mp hH
    obtain ⟨ms, hms⟩ := ih hs' hH'
    have hgood := h.good good hexec hother hs'
    exact ⟨_, .cons trivial ⟨step_at_unlock hl, hadmits _ _ hgood hgood⟩ hms⟩
  | into he h ih =>
    obtain ⟨ms, hms⟩ := ih hs' hH
    have hgood := h.good good hexec hother hs'
    exact ⟨_, .cons trivial ⟨step_at_run he, hadmits _ _ (hexec _ _ _ _ he hgood) hgood⟩ hms⟩
  | out he =>
    exact ⟨_, .cons trivial ⟨step_at_run he, hadmits _ _ (hexec _ _ _ _ he hs') hs'⟩ (.nil _)⟩
  | await ho h ih =>
    obtain ⟨ms, hms⟩ := ih hs' hH
    obtain ⟨ms', hms'⟩ := hruns _ _ _ ho (h.good good hexec hother hs')
    rw [at_free] at hms ⊢
    exact ⟨_, hms'.append hms⟩

/-- **A call is a run** of the threads, from a state without a lock to one without a lock. -/
theorem Calls.steps {c : ε} (good : σ → Prop) (stack : τ → List (Instr ι Λ)) (h : P.Calls other t c s s')
    (hadmits : ∀ s s', good s → good s' → P.admits s s')
    (hexec : ∀ i s s₁ next, P.exec i s = some (s₁, next) → good s₁ → good s)
    (hother : ∀ s s₁, other s s₁ → good s₁ → good s)
    (hruns : ∀ s s₁ code, other s s₁ → good s₁ → ∃ ms, P.machine.Steps (fun _ _ => True)
      (.free s (Function.update stack t code)) ms (.free s₁ (Function.update stack t code)))
    (hs' : good s') (hstack : stack t = []) :
    ∃ ms, P.machine.Steps (fun _ _ => True) (.free s stack) ms (.free s' stack) := by
  obtain ⟨code, left, hcode, halone⟩ := h
  obtain ⟨ms, hms⟩ := halone.steps good hadmits hexec hother hruns hs' List.nodup_nil
  have hgood := halone.good good hexec hother hs'
  rw [at_free, at_nil hstack] at hms
  exact ⟨_, .cons trivial ⟨.enter hstack hcode, hadmits _ _ hgood hgood⟩ hms⟩

end Program

end Runs

end Foundation
