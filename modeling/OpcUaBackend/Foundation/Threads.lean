import Mathlib.Data.List.Nodup
import Mathlib.Logic.Function.Basic
import OpcUaBackend.Foundation.Machine

/-!
# Threads with locks

A thread has a stack of instructions: it requests a lock, releases one, or runs an operation on
the shared state. An operation puts code of its own before the rest, or leaves the call. The
steps of the threads interleave in any order; a thread that requests a lock waits until no
thread holds it.

A discipline says of each operation which locks the thread may hold when it runs. Code that
follows the discipline is checked once for each operation, and the threads follow it in every
reachable state: no thread requests a lock that it holds, and every operation finds the locks
that it needs.

## Main definitions

* `Threads`, `Program`, `Program.machine`: the state, what the calls and operations do, and the
  machine
* `Discipline`, `Discipline.Follows`: what the operations need, and the code that gives it to them
* `Disciplined`: all threads follow the discipline

## Main results

* `Disciplined.step`, `Disciplined.reach`: the discipline holds in every reachable state
* `Program.Step.mem_stack`: where an instruction on a stack comes from
* `Program.steps_after`, `Program.reach_after`: runs that are computed
-/

namespace Foundation

variable {σ τ ε ι Λ : Type}

inductive Instr (ι Λ : Type)
  | lock (l : Λ)
  | unlock (l : Λ)
  | run (i : ι)

/-- How a thread goes on after an operation: with code before the rest of its stack, or out of
the call. -/
inductive Next (ι Λ : Type)
  | into (code : List (Instr ι Λ))
  | out

def Next.stack (rest : List (Instr ι Λ)) : Next ι Λ → List (Instr ι Λ)
  | into code => code ++ rest
  | out => []

structure Threads (σ τ ι Λ : Type) where
  shared : σ
  stack : τ → List (Instr ι Λ)
  holder : Λ → Option τ

/-- A thread that is in no call enters one, or a thread takes its next instruction. -/
inductive Move (τ ε : Type)
  | enter (t : τ) (c : ε)
  | advance (t : τ)

/-- The code of the calls, what the operations do (nothing when they wait), and the changes of
the shared state that the environment admits. -/
structure Program (σ τ ε ι Λ : Type) where
  init : σ → Prop
  code : τ → ε → σ → Option (List (Instr ι Λ))
  exec : ι → σ → Option (σ × Next ι Λ)
  admits : σ → σ → Prop

namespace Program

variable [DecidableEq τ] [DecidableEq Λ] (P : Program σ τ ε ι Λ)

inductive Step (s : Threads σ τ ι Λ) : Move τ ε → Threads σ τ ι Λ → Prop
  | enter {t c code} : s.stack t = [] → P.code t c s.shared = some code →
      Step s (.enter t c) { s with stack := Function.update s.stack t code }
  | lock {t l rest} : s.stack t = .lock l :: rest → s.holder l = none →
      Step s (.advance t) { s with
        stack := Function.update s.stack t rest
        holder := Function.update s.holder l (some t) }
  | unlock {t l rest} : s.stack t = .unlock l :: rest →
      Step s (.advance t) { s with
        stack := Function.update s.stack t rest
        holder := Function.update s.holder l none }
  | run {t i rest shared next} : s.stack t = .run i :: rest →
      P.exec i s.shared = some (shared, next) →
      Step s (.advance t) { s with
        shared := shared
        stack := Function.update s.stack t (next.stack rest) }

def machine : Machine (Threads σ τ ι Λ) (Move τ ε) where
  init s := P.init s.shared ∧ (∀ t, s.stack t = []) ∧ ∀ l, s.holder l = none
  step s m s' := P.Step s m s' ∧ P.admits s.shared s'.shared

/-- The threads before their first calls. -/
def start (shared : σ) : Threads σ τ ι Λ := ⟨shared, fun _ => [], fun _ => none⟩

variable {P}

theorem reach_start {guard : Threads σ τ ι Λ → Move τ ε → Prop} {shared : σ}
    (h : P.init shared) : P.machine.Reach guard (start shared) :=
  .init ⟨h, fun _ => rfl, fun _ => rfl⟩

/-- An instruction on a stack was there before, or is from the code of the call that was entered
or of the operation that was run. -/
theorem Step.mem_stack {s s' : Threads σ τ ι Λ} {m : Move τ ε} (h : P.Step s m s') {t : τ}
    {x : Instr ι Λ} (hx : x ∈ s'.stack t) :
    x ∈ s.stack t ∨
      (∃ c code, m = .enter t c ∧ P.code t c s.shared = some code ∧ x ∈ code) ∨
      ∃ i rest shared code, m = .advance t ∧ s.stack t = .run i :: rest ∧
        P.exec i s.shared = some (shared, .into code) ∧ x ∈ code := by
  have hother : ∀ {t' : τ} {is : List (Instr ι Λ)},
      x ∈ Function.update s.stack t' is t → t ≠ t' → x ∈ s.stack t := by
    intro t' is hx ht
    rwa [Function.update_of_ne ht] at hx
  cases h with
  | @enter t' c code hempty hcode =>
    by_cases ht : t = t'
    · subst ht
      exact .inr (.inl ⟨c, code, rfl, hcode, by simpa using hx⟩)
    · exact .inl (hother hx ht)
  | @lock t' l rest hstack _ =>
    by_cases ht : t = t'
    · subst ht
      exact .inl (hstack ▸ List.mem_cons_of_mem _ (by simpa using hx))
    · exact .inl (hother hx ht)
  | @unlock t' l rest hstack =>
    by_cases ht : t = t'
    · subst ht
      exact .inl (hstack ▸ List.mem_cons_of_mem _ (by simpa using hx))
    · exact .inl (hother hx ht)
  | @run t' i rest shared next hstack hexec =>
    by_cases ht : t = t'
    · subst ht
      simp only [Function.update_self] at hx
      cases next with
      | out => cases hx
      | into code =>
        rcases List.mem_append.mp hx with hcode | hrest
        · exact .inr (.inr ⟨i, rest, shared, code, rfl, hstack, hexec, hcode⟩)
        · exact .inl (hstack ▸ List.mem_cons_of_mem _ hrest)
    · exact .inl (hother hx ht)

/-- A step changes the shared state by an operation only. -/
theorem Step.shared {s s' : Threads σ τ ι Λ} {m : Move τ ε} (h : P.Step s m s') :
    s'.shared = s.shared ∨ ∃ t i rest next, m = .advance t ∧ s.stack t = .run i :: rest ∧
      P.exec i s.shared = some (s'.shared, next) := by
  cases h with
  | enter => exact .inl rfl
  | lock => exact .inl rfl
  | unlock => exact .inl rfl
  | run hstack hexec => exact .inr ⟨_, _, _, _, rfl, hstack, hexec⟩

theorem Step.of_run {s s' : Threads σ τ ι Λ} {t : τ} {i : ι} {rest : List (Instr ι Λ)}
    (h : P.Step s (.advance t) s') (hstack : s.stack t = .run i :: rest) :
    ∃ next, P.exec i s.shared = some (s'.shared, next) := by
  cases h with
  | lock hlock => rw [hstack] at hlock; cases hlock
  | unlock hunlock => rw [hstack] at hunlock; cases hunlock
  | run hrun hexec =>
    rw [hstack] at hrun
    cases hrun
    exact ⟨_, hexec⟩

/-- A thread that runs an operation goes on with what follows it. -/
theorem Step.after_run {s s' : Threads σ τ ι Λ} {t : τ} {i : ι} {rest : List (Instr ι Λ)}
    {shared : σ} {next : Next ι Λ} (h : P.Step s (.advance t) s')
    (hstack : s.stack t = .run i :: rest) (hexec : P.exec i s.shared = some (shared, next)) :
    s'.shared = shared ∧ s'.stack t = next.stack rest := by
  cases h with
  | lock hlock => rw [hstack] at hlock; cases hlock
  | unlock hunlock => rw [hstack] at hunlock; cases hunlock
  | run hrun hexec' =>
    rw [hstack] at hrun
    cases hrun
    obtain ⟨rfl, rfl⟩ := Prod.mk.inj (Option.some.inj (hexec'.symm.trans hexec))
    exact ⟨rfl, by simp⟩

/-! ## Runs that are computed -/

variable (P)

/-- The state after a move, when the move can be made. -/
def step? (s : Threads σ τ ι Λ) : Move τ ε → Option (Threads σ τ ι Λ)
  | .enter t c =>
    match s.stack t with
    | [] => (P.code t c s.shared).map fun code =>
      { s with stack := Function.update s.stack t code }
    | _ :: _ => none
  | .advance t =>
    match s.stack t with
    | [] => none
    | .lock l :: rest =>
      if (s.holder l).isNone then
        some { s with
          stack := Function.update s.stack t rest
          holder := Function.update s.holder l (some t) }
      else none
    | .unlock l :: rest =>
      some { s with
        stack := Function.update s.stack t rest
        holder := Function.update s.holder l none }
    | .run i :: rest =>
      (P.exec i s.shared).map fun (shared, next) =>
        { s with shared := shared, stack := Function.update s.stack t (next.stack rest) }

variable {P}

theorem step?_sound {s s' : Threads σ τ ι Λ} {m : Move τ ε} (h : P.step? s m = some s') :
    P.Step s m s' := by
  cases m with
  | enter t c =>
    simp only [step?] at h
    split at h
    · rename_i hstack
      obtain ⟨code, hcode, rfl⟩ := Option.map_eq_some_iff.mp h
      exact .enter hstack hcode
    · cases h
  | advance t =>
    simp only [step?] at h
    split at h
    · cases h
    · rename_i hstack
      split at h
      · rename_i hfree
        obtain rfl := Option.some.inj h
        exact .lock hstack (Option.isNone_iff_eq_none.mp hfree)
      · cases h
    · rename_i hstack
      obtain rfl := Option.some.inj h
      exact .unlock hstack
    · rename_i hstack
      obtain ⟨⟨shared, next⟩, hexec, rfl⟩ := Option.map_eq_some_iff.mp h
      exact .run hstack hexec

variable (P)

/-- The state after a list of moves; one that cannot be made is left out. -/
def after (s : Threads σ τ ι Λ) (ms : List (Move τ ε)) : Threads σ τ ι Λ :=
  ms.foldl (fun s m => (P.step? s m).getD s) s

variable {P} in
theorem step_after {s : Threads σ τ ι Λ} {m : Move τ ε} (h : (P.step? s m).isSome = true) :
    P.Step s m (P.after s [m]) := by
  obtain ⟨s', hs'⟩ := Option.isSome_iff_exists.mp h
  have hafter : P.after s [m] = s' := by simp [after, hs']
  rw [hafter]
  exact step?_sound hs'

/-- The moves can be made one after the other, each where `guard` allows it. -/
def Legal (guard : Threads σ τ ι Λ → Move τ ε → Prop) (s : Threads σ τ ι Λ) :
    List (Move τ ε) → Prop
  | [] => True
  | m :: ms => (P.step? s m).elim False fun s' =>
    guard s m ∧ P.admits s.shared s'.shared ∧ Legal guard s' ms

instance decidableElim {β : Type} {p : β → Prop} [∀ b, Decidable (p b)] :
    (o : Option β) → Decidable (o.elim False p)
  | none => .isFalse id
  | some b => inferInstanceAs (Decidable (p b))

instance Legal.decidable (guard : Threads σ τ ι Λ → Move τ ε → Prop)
    [∀ s m, Decidable (guard s m)] [∀ a b, Decidable (P.admits a b)] :
    (s : Threads σ τ ι Λ) → (ms : List (Move τ ε)) → Decidable (P.Legal guard s ms)
  | _, [] => .isTrue trivial
  | s, m :: ms =>
    have := fun s' => Legal.decidable guard s' ms
    inferInstanceAs (Decidable ((P.step? s m).elim False fun s' =>
      guard s m ∧ P.admits s.shared s'.shared ∧ P.Legal guard s' ms))

variable {P}

theorem steps_after {guard : Threads σ τ ι Λ → Move τ ε → Prop} {s : Threads σ τ ι Λ}
    (ms : List (Move τ ε)) (hms : P.Legal guard s ms) :
    P.machine.Steps guard s ms (P.after s ms) := by
  induction ms generalizing s with
  | nil => exact .nil s
  | cons m ms ih =>
    cases hm : P.step? s m with
    | none => simp [Legal, hm] at hms
    | some s' =>
      obtain ⟨hguard, hadmits, hrest⟩ : guard s m ∧ P.admits s.shared s'.shared ∧
          P.Legal guard s' ms := by simpa [Legal, hm] using hms
      have hafter : P.after s (m :: ms) = P.after s' ms := by simp [after, hm]
      rw [hafter]
      exact .cons hguard ⟨step?_sound hm, hadmits⟩ (ih hrest)

theorem reach_after {guard : Threads σ τ ι Λ → Move τ ε → Prop} {s : Threads σ τ ι Λ}
    (ms : List (Move τ ε)) (h : P.machine.Reach guard s) (hms : P.Legal guard s ms) :
    P.machine.Reach guard (P.after s ms) :=
  h.steps (steps_after ms hms)

end Program

/-! ## Disciplines -/

/-- The locks that a thread may hold when it runs an operation, innermost first, and those that
it holds when the operation and its code are done. -/
structure Discipline (ι Λ : Type) where
  needs : ι → List Λ → Prop
  after : ι → List Λ → List Λ

namespace Discipline

variable (D : Discipline ι Λ)

/-- A thread that holds the locks `H` can take the code and then holds `H'`. -/
def Follows : List Λ → List (Instr ι Λ) → List Λ → Prop
  | H, [], H' => H = H'
  | H, .lock l :: code, H' => l ∉ H ∧ Follows (l :: H) code H'
  | H, .unlock l :: code, H' => ∃ H₁, H = l :: H₁ ∧ Follows H₁ code H'
  | H, .run i :: code, H' => D.needs i H ∧ Follows (D.after i H) code H'

/-- The same for what follows an operation: a thread that leaves its call holds no lock. -/
def Goes (H : List Λ) : Next ι Λ → List Λ → Prop
  | .into code, H' => D.Follows H code H'
  | .out, _ => H = []

variable {D} {H H' : List Λ} {code code' : List (Instr ι Λ)}

@[simp] theorem follows_nil : D.Follows H [] H' ↔ H = H' := Iff.rfl

@[simp] theorem follows_lock {l : Λ} :
    D.Follows H (.lock l :: code) H' ↔ l ∉ H ∧ D.Follows (l :: H) code H' := Iff.rfl

@[simp] theorem follows_unlock {l : Λ} :
    D.Follows (l :: H) (.unlock l :: code) H' ↔ D.Follows H code H' :=
  ⟨fun ⟨_, he, hcode⟩ => (List.cons.inj he).2 ▸ hcode, fun hcode => ⟨H, rfl, hcode⟩⟩

@[simp] theorem follows_run {i : ι} :
    D.Follows H (.run i :: code) H' ↔ D.needs i H ∧ D.Follows (D.after i H) code H' := Iff.rfl

theorem Follows.append {K : List Λ} (h : D.Follows H code K) (h' : D.Follows K code' H') :
    D.Follows H (code ++ code') H' := by
  induction code generalizing H with
  | nil => exact (show H = K from h) ▸ h'
  | cons x code ih =>
    cases x with
    | lock l => exact ⟨h.1, ih h.2⟩
    | unlock l =>
      obtain ⟨H₁, rfl, hcode⟩ := h
      exact ⟨H₁, rfl, ih hcode⟩
    | run i => exact ⟨h.1, ih h.2⟩

theorem Goes.stack {next : Next ι Λ} (h : D.Goes H next H') (hrest : D.Follows H' code []) :
    D.Follows H (next.stack code) [] := by
  cases next with
  | into code' => exact Follows.append h hrest
  | out => exact h

end Discipline

/-- The thread holds exactly these locks. -/
def Threads.Holds (s : Threads σ τ ι Λ) (t : τ) (H : List Λ) : Prop :=
  H.Nodup ∧ ∀ l, s.holder l = some t ↔ l ∈ H

/-- Every thread follows the discipline, with the locks that it holds. -/
def Disciplined (D : Discipline ι Λ) (s : Threads σ τ ι Λ) : Prop :=
  ∀ t, ∃ H, s.Holds t H ∧ D.Follows H (s.stack t) []

namespace Disciplined

variable {D : Discipline ι Λ} {s s' : Threads σ τ ι Λ} {t : τ} {rest : List (Instr ι Λ)}

/-- No thread requests a lock that it holds. -/
theorem not_requested {l : Λ} (h : Disciplined D s) (hstack : s.stack t = .lock l :: rest) :
    s.holder l ≠ some t := by
  obtain ⟨H, ⟨-, hH⟩, hfollows⟩ := h t
  rw [hstack] at hfollows
  exact fun hl => hfollows.1 ((hH l).mp hl)

/-- An operation finds the locks that it needs. -/
theorem needs {i : ι} (h : Disciplined D s) (hstack : s.stack t = .run i :: rest) :
    ∃ H, s.Holds t H ∧ D.needs i H := by
  obtain ⟨H, hH, hfollows⟩ := h t
  rw [hstack] at hfollows
  exact ⟨H, hH, hfollows.1⟩

variable [DecidableEq τ] [DecidableEq Λ] {P : Program σ τ ε ι Λ} {m : Move τ ε}
  {guard : Threads σ τ ι Λ → Move τ ε → Prop}

/-- What a step preserves: calls start without a lock, and the code of an operation is checked
for the locks that it needs. -/
theorem step (hcode : ∀ t c σ code, P.code t c σ = some code → D.Follows [] code [])
    (hexec : ∀ s t i rest H shared next, guard s (.advance t) → s.stack t = .run i :: rest →
      s.Holds t H → D.needs i H → P.exec i s.shared = some (shared, next) →
        D.Goes H next (D.after i H))
    (h : Disciplined D s) (hg : guard s m) (hs : P.Step s m s') : Disciplined D s' := by
  intro u
  obtain ⟨H, ⟨hnodup, hH⟩, hfollows⟩ := h u
  cases hs with
  | @enter t c code hempty hc =>
    refine ⟨H, ⟨hnodup, hH⟩, ?_⟩
    by_cases hu : u = t
    · subst hu
      -- a thread in no call holds no lock
      rw [hempty] at hfollows
      obtain rfl : H = [] := hfollows
      simpa using hcode _ _ _ _ hc
    · simpa [Function.update_of_ne hu] using hfollows
  | @lock t l rest hstack hfree =>
    by_cases hu : u = t
    · subst hu
      rw [hstack] at hfollows
      refine ⟨l :: H, ⟨List.nodup_cons.mpr ⟨hfollows.1, hnodup⟩, fun l' => ?_⟩, ?_⟩
      · by_cases hl : l' = l
        · simp [hl]
        · simpa [Function.update_of_ne hl, hl] using hH l'
      · simpa using hfollows.2
    · refine ⟨H, ⟨hnodup, fun l' => ?_⟩, by simpa [Function.update_of_ne hu] using hfollows⟩
      by_cases hl : l' = l
      · subst hl
        have hnot : l' ∉ H := fun hmem => by simpa [hfree] using (hH l').mpr hmem
        simp [hnot, Ne.symm hu]
      · simpa [Function.update_of_ne hl] using hH l'
  | @unlock t l rest hstack =>
    by_cases hu : u = t
    · subst hu
      rw [hstack] at hfollows
      obtain ⟨H₁, rfl, hrest⟩ := hfollows
      obtain ⟨hnot, hnodup₁⟩ := List.nodup_cons.mp hnodup
      refine ⟨H₁, ⟨hnodup₁, fun l' => ?_⟩, by simpa using hrest⟩
      by_cases hl : l' = l
      · subst hl
        simpa using hnot
      · simpa [Function.update_of_ne hl, hl] using hH l'
    · refine ⟨H, ⟨hnodup, fun l' => ?_⟩, by simpa [Function.update_of_ne hu] using hfollows⟩
      by_cases hl : l' = l
      · subst hl
        -- the lock was held by the other thread
        obtain ⟨H', ⟨-, hH'⟩, hf'⟩ := h t
        rw [hstack] at hf'
        obtain ⟨H₁, rfl, -⟩ := hf'
        have hheld : s.holder l' = some t := (hH' l').mpr (List.mem_cons_self ..)
        have hnot : l' ∉ H := fun hmem => by
          have := (hH l').mpr hmem
          exact hu (Option.some.inj (this.symm.trans hheld))
        simp [hnot]
      · simpa [Function.update_of_ne hl] using hH l'
  | @run t i rest shared next hstack hex =>
    refine ⟨H, ⟨hnodup, hH⟩, ?_⟩
    by_cases hu : u = t
    · subst hu
      rw [hstack] at hfollows
      have hgoes := hexec s u i rest H shared next hg hstack ⟨hnodup, hH⟩ hfollows.1 hex
      simpa using hgoes.stack hfollows.2
    · simpa [Function.update_of_ne hu] using hfollows

/-- **The discipline** holds in every state that is reached. -/
theorem reach (hcode : ∀ t c σ code, P.code t c σ = some code → D.Follows [] code [])
    (hexec : ∀ s t i rest H shared next, guard s (.advance t) → s.stack t = .run i :: rest →
      s.Holds t H → D.needs i H → P.exec i s.shared = some (shared, next) →
        D.Goes H next (D.after i H))
    (h : P.machine.Reach guard s) : Disciplined D s := by
  refine h.invariant (fun s hinit t => ?_) fun s m s' hI hg hs => hI.step hcode hexec hg hs.1
  obtain ⟨-, hstack, hholder⟩ := hinit
  refine ⟨[], ⟨List.nodup_nil, by simp [hholder]⟩, ?_⟩
  rw [hstack]
  rfl

end Disciplined

end Foundation
