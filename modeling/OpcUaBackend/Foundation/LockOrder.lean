import Mathlib.Logic.Relation
import Mathlib.Data.Nat.Notation
import OpcUaBackend.Foundation.Threads

/-!
# Locks in an order

A thread waits for another one when it requests a lock that the other holds. Where every lock
is requested by a thread that holds lower ones only, a chain of waiting threads climbs, and so
it ends at a thread that waits for no lock.

The order is read off code in which a request is followed by an operation that tells which locks
may be held there: the discipline, which is checked anyway, then says what the thread holds.

## Main definitions

* `Discipline.Announces`, `Discipline.Ascends`: code whose requests tell their order
* `Threads.Awaits`, `Threads.Ready`: a thread waits for another one, or for no lock
* `Discipline.restrict`: a discipline with one more condition

## Main results

* `Ascending.below`: a thread holds lower locks than the one it requests
* `Ascending.step`, `Ascending.reach`: the requests tell their order in every reachable state
* `Ascending.exists_ready`: every chain of waiting threads ends
-/

namespace Foundation

variable {σ τ ε ι Λ : Type}

/-! ## Code that tells the order of its requests -/

namespace Discipline

variable (D : Discipline ι Λ) (rank : Λ → ℕ)

/-- All other locks are lower, or the operation that follows the request needs the locks that
were held before to be lower. -/
def Announces (l : Λ) (rest : List (Instr ι Λ)) : Prop :=
  (∀ l', l' ≠ l → rank l' < rank l) ∨
    ∃ i rest', rest = .run i :: rest' ∧
      ∀ H, D.needs i (l :: H) → l ∉ H → ∀ l' ∈ H, rank l' < rank l

/-- Every request in the code tells its order. -/
def Ascends : List (Instr ι Λ) → Prop
  | [] => True
  | .lock l :: rest => D.Announces rank l rest ∧ Ascends rest
  | .unlock _ :: rest => Ascends rest
  | .run _ :: rest => Ascends rest

variable {D rank} {code rest : List (Instr ι Λ)} {l : Λ}

@[simp] theorem ascends_nil : D.Ascends rank [] := trivial

@[simp] theorem ascends_lock :
    D.Ascends rank (.lock l :: rest) ↔ D.Announces rank l rest ∧ D.Ascends rank rest := Iff.rfl

@[simp] theorem ascends_unlock : D.Ascends rank (.unlock l :: rest) ↔ D.Ascends rank rest :=
  Iff.rfl

@[simp] theorem ascends_run {i : ι} : D.Ascends rank (.run i :: rest) ↔ D.Ascends rank rest :=
  Iff.rfl

theorem Announces.of_top (h : ∀ l', l' ≠ l → rank l' < rank l) : D.Announces rank l rest :=
  .inl h

theorem Announces.of_run {i : ι}
    (h : ∀ H, D.needs i (l :: H) → l ∉ H → ∀ l' ∈ H, rank l' < rank l) :
    D.Announces rank l (.run i :: rest) :=
  .inr ⟨i, rest, rfl, h⟩

theorem Announces.append (h : D.Announces rank l code) : D.Announces rank l (code ++ rest) := by
  rcases h with htop | ⟨i, rest', rfl, hneeds⟩
  · exact .inl htop
  · exact .inr ⟨i, rest' ++ rest, rfl, hneeds⟩

theorem Ascends.append (h : D.Ascends rank code) (hrest : D.Ascends rank rest) :
    D.Ascends rank (code ++ rest) := by
  induction code with
  | nil => exact hrest
  | cons x code ih =>
    cases x with
    | lock l => exact ⟨h.1.append, ih h.2⟩
    | unlock l => exact ih h
    | run i => exact ih h

/-- Operations only request no lock. -/
theorem ascends_map {α : Type} (f : α → ι) (as : List α) :
    D.Ascends rank (as.map fun a => Instr.run (f a)) := by
  induction as with
  | nil => trivial
  | cons a as ih => exact ih

/-- **The order of a request.** Code that follows the discipline requests a lock where the
thread holds lower ones. -/
theorem Announces.below {H H' : List Λ} (h : D.Announces rank l rest)
    (hfollows : D.Follows H (.lock l :: rest) H') {l' : Λ} (hl' : l' ∈ H) : rank l' < rank l := by
  obtain ⟨hnot, hrest⟩ := hfollows
  rcases h with htop | ⟨i, rest', rfl, hneeds⟩
  · apply htop
    rintro rfl
    exact hnot hl'
  · exact hneeds H hrest.1 hnot l' hl'

/-! ## More conditions -/

/-- The discipline with one more condition on the operations. -/
def restrict (D : Discipline ι Λ) (also : ι → List Λ → Prop) : Discipline ι Λ :=
  ⟨fun i H => D.needs i H ∧ also i H, D.after⟩

variable {also : ι → List Λ → Prop} {H H' : List Λ}

/-- Code of operations on which there is no further condition follows the restricted discipline
where it follows the other. -/
theorem Follows.restrict (h : D.Follows H code H')
    (halso : ∀ i, .run i ∈ code → ∀ H, also i H) : (D.restrict also).Follows H code H' := by
  induction code generalizing H with
  | nil => exact h
  | cons x code ih =>
    have hcode : ∀ i, .run i ∈ code → ∀ H, also i H := fun i hi =>
      halso i (List.mem_cons_of_mem _ hi)
    cases x with
    | lock l => exact ⟨h.1, ih h.2 hcode⟩
    | unlock l =>
      obtain ⟨H₁, rfl, hrest⟩ := h
      exact ⟨H₁, rfl, ih hrest hcode⟩
    | run i => exact ⟨⟨h.1, halso i (List.mem_cons_self ..) H⟩, ih h.2 hcode⟩

theorem Goes.restrict {next : Next ι Λ} (h : D.Goes H next H')
    (halso : ∀ code, next = .into code → ∀ i, .run i ∈ code → ∀ H, also i H) :
    (D.restrict also).Goes H next H' := by
  cases next with
  | into code => exact Follows.restrict h (halso code rfl)
  | out => exact h

end Discipline

/-! ## Threads that wait for each other -/

namespace Threads

variable (s : Threads σ τ ι Λ)

/-- The thread requests a lock that the other thread holds. -/
def Awaits (t u : τ) : Prop := ∃ l rest, s.stack t = .lock l :: rest ∧ s.holder l = some u

/-- The thread is in a call, and waits for no lock. -/
def Ready (t : τ) : Prop := s.stack t ≠ [] ∧ ∀ u, ¬ s.Awaits t u

variable {s}

/-- A thread that waits for no lock takes its next instruction, or that is an operation that
waits. -/
theorem Ready.advance [DecidableEq τ] [DecidableEq Λ] {P : Program σ τ ε ι Λ} {t : τ}
    (h : s.Ready t) :
    (∃ s', P.Step s (.advance t) s') ∨
      ∃ i rest, s.stack t = .run i :: rest ∧ P.exec i s.shared = none := by
  obtain ⟨hcall, hfree⟩ := h
  cases hstack : s.stack t with
  | nil => exact absurd hstack hcall
  | cons x rest =>
    cases x with
    | lock l =>
      left
      refine ⟨_, .lock hstack ?_⟩
      by_contra hheld
      obtain ⟨u, hu⟩ := Option.ne_none_iff_exists'.mp hheld
      exact hfree u ⟨l, rest, hstack, hu⟩
    | unlock l => exact .inl ⟨_, .unlock hstack⟩
    | run i =>
      cases hexec : P.exec i s.shared with
      | none => exact .inr ⟨i, rest, rfl, hexec⟩
      | some r => exact .inl ⟨_, .run hstack hexec⟩

end Threads

/-- The threads follow the discipline, and their requests tell their order. -/
structure Ascending (D : Discipline ι Λ) (rank : Λ → ℕ) (s : Threads σ τ ι Λ) : Prop where
  disciplined : Disciplined D s
  ascends : ∀ t, D.Ascends rank (s.stack t)

namespace Ascending

variable {D : Discipline ι Λ} {rank : Λ → ℕ} {s s' : Threads σ τ ι Λ} {t u : τ}

/-- A thread holds lower locks than the one it requests. -/
theorem below (h : Ascending D rank s) {l l' : Λ} {rest : List (Instr ι Λ)}
    (hstack : s.stack t = .lock l :: rest) (hl' : s.holder l' = some t) : rank l' < rank l := by
  obtain ⟨H, ⟨-, hH⟩, hfollows⟩ := h.disciplined t
  have hascends := h.ascends t
  rw [hstack] at hfollows hascends
  exact hascends.1.below hfollows ((hH l').mp hl')

/-- A thread that holds a lock is in a call. -/
theorem stack_ne_nil (h : Ascending D rank s) {l : Λ} (hl : s.holder l = some t) :
    s.stack t ≠ [] := by
  intro hempty
  obtain ⟨H, ⟨-, hH⟩, hfollows⟩ := h.disciplined t
  rw [hempty] at hfollows
  obtain rfl : H = [] := hfollows
  exact absurd ((hH l).mp hl) (by simp)

/-- **Every chain ends.** From a thread in a call, a chain of threads that wait for each other
leads to one that waits for no lock; behind the first one each holds a lock. -/
theorem exists_ready (h : Ascending D rank s) {n : ℕ} (hn : ∀ l, rank l < n)
    (ht : s.stack t ≠ []) :
    ∃ u, Relation.ReflTransGen s.Awaits t u ∧ s.Ready u ∧
      (u = t ∨ ∃ l, s.holder l = some u) := by
  -- the holders of a lock first: what they request is higher, and the ranks are bounded
  have hholder : ∀ k l u, n ≤ rank l + k → s.holder l = some u →
      ∃ v, Relation.ReflTransGen s.Awaits u v ∧ s.Ready v ∧ ∃ l, s.holder l = some v := by
    intro k
    induction k with
    | zero =>
      intro l u hk _
      have := hn l
      omega
    | succ k ih =>
      intro l u hk hu
      by_cases hready : s.Ready u
      · exact ⟨u, .refl, hready, l, hu⟩
      · have hwaits : ∃ v, s.Awaits u v := by
          by_contra hnot
          exact hready ⟨h.stack_ne_nil hu, fun v hv => hnot ⟨v, hv⟩⟩
        obtain ⟨v, l', rest, hstack, hv⟩ := hwaits
        have hlt := h.below hstack hu
        obtain ⟨w, hvw, hw, hl⟩ := ih l' v (by omega) hv
        exact ⟨w, .head ⟨l', rest, hstack, hv⟩ hvw, hw, hl⟩
  by_cases hready : s.Ready t
  · exact ⟨t, .refl, hready, .inl rfl⟩
  · have hwaits : ∃ v, s.Awaits t v := by
      by_contra hnot
      exact hready ⟨ht, fun v hv => hnot ⟨v, hv⟩⟩
    obtain ⟨v, l, rest, hstack, hv⟩ := hwaits
    obtain ⟨w, hvw, hw, hl⟩ := hholder n l v (by omega) hv
    exact ⟨w, .head ⟨l, rest, hstack, hv⟩ hvw, hw, .inr hl⟩

variable [DecidableEq τ] [DecidableEq Λ] {P : Program σ τ ε ι Λ} {m : Move τ ε}
  {guard : Threads σ τ ι Λ → Move τ ε → Prop}

/-- What a step preserves: the calls and the operations bring code that tells the order of its
requests. -/
theorem step (hcode : ∀ t c σ code, P.code t c σ = some code → D.Ascends rank code)
    (hexec : ∀ i σ σ' code, P.exec i σ = some (σ', .into code) → D.Ascends rank code)
    (h : ∀ t, D.Ascends rank (s.stack t)) (hs : P.Step s m s') (u : τ) :
    D.Ascends rank (s'.stack u) := by
  have hother : ∀ {t : τ} {is : List (Instr ι Λ)}, (u = t → D.Ascends rank is) →
      D.Ascends rank (Function.update s.stack t is u) := by
    intro t is his
    by_cases hu : u = t
    · subst hu
      simpa using his rfl
    · simpa [Function.update_of_ne hu] using h u
  cases hs with
  | enter _ hc => exact hother fun _ => hcode _ _ _ _ hc
  | @lock t l rest hstack _ =>
    refine hother fun _ => ?_
    have := h t
    rw [hstack] at this
    exact this.2
  | @unlock t l rest hstack =>
    refine hother fun _ => ?_
    have := h t
    rw [hstack] at this
    exact this
  | @run t i rest shared next hstack hex =>
    refine hother fun _ => ?_
    have hrest := h t
    rw [hstack] at hrest
    cases next with
    | into code => exact (hexec i _ _ code hex).append hrest
    | out => trivial

/-- **The order** is told in every state that is reached. -/
theorem reach (hcode : ∀ t c σ code, P.code t c σ = some code → D.Ascends rank code)
    (hexec : ∀ i σ σ' code, P.exec i σ = some (σ', .into code) → D.Ascends rank code)
    (h : P.machine.Reach guard s) (hd : Disciplined D s) : Ascending D rank s := by
  refine ⟨hd, ?_⟩
  refine h.invariant (fun s hinit t => ?_) fun s m s' hI _ hs => step hcode hexec hI hs.1
  obtain ⟨-, hstack, -⟩ := hinit
  rw [hstack]
  trivial

end Ascending

end Foundation
