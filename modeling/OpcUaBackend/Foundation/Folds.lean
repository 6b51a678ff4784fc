import Mathlib.Data.List.Forall2

/-!
# Folds that may fail

A loop over a list that ends with the first failure, as long as nothing fails.

## Main results

* `foldlM_cons_ok`, `foldlM_append_ok`: a loop whose first steps succeed
* `foldlM_collect`: a loop that appends a value for each element
* `foldlM_keeps`, `foldUntil_keeps`: what every step keeps
* `foldlM_error_split`, `foldlM_standsFirst`: where a loop fails, and how
* `foldUntil_cases`, `foldUntil_eq_self_iff`: a loop that keeps what was done before it failed
-/

namespace Foundation

universe u

variable {α α' β ε : Type*}

/-- What comes out of two steps comes out of the second. -/
theorem ok_of_bind {γ δ : Type u} {x : Except ε γ} {f : γ → Except ε δ} {b : δ}
    (h : (x >>= f) = .ok b) : ∃ a, x = .ok a ∧ f a = .ok b := by
  rcases x with e | a
  · cases h
  · exact ⟨a, rfl, h⟩

section Steps

variable {f : β → α → Except ε β} {b b' : β} {a : α} {as as' : List α}

theorem foldlM_cons_ok (h : f b a = .ok b') : (a :: as).foldlM f b = as.foldlM f b' := by
  rw [List.foldlM_cons, h]
  rfl

theorem foldlM_cons_error {e : ε} (h : f b a = .error e) : (a :: as).foldlM f b = .error e := by
  rw [List.foldlM_cons, h]
  rfl

theorem foldlM_append_ok (h : as.foldlM f b = .ok b') :
    (as ++ as').foldlM f b = as'.foldlM f b' := by
  rw [List.foldlM_append, h]
  rfl

theorem foldlM_append_iff : (as ++ as').foldlM f b = .ok b' ↔
    ∃ b₁, as.foldlM f b = .ok b₁ ∧ as'.foldlM f b₁ = .ok b' := by
  rw [List.foldlM_append]
  cases as.foldlM f b with
  | error e => simp [bind, Except.bind]
  | ok b₁ => simp [bind, Except.bind]

theorem foldlM_cons_iff : (a :: as).foldlM f b = .ok b' ↔
    ∃ b₁, f b a = .ok b₁ ∧ as.foldlM f b₁ = .ok b' := by
  rw [List.foldlM_cons]
  cases f b a with
  | error e => simp [bind, Except.bind]
  | ok b₁ => simp [bind, Except.bind]

/-- What every step keeps holds at the end of a loop. -/
theorem foldlM_keeps {P : β → Prop} (hstep : ∀ a b b', P b → f b a = .ok b' → P b') (hb : P b)
    (h : as.foldlM f b = .ok b') : P b' := by
  induction as generalizing b with
  | nil =>
    obtain rfl := Except.ok.inj h
    exact hb
  | cons a as ih =>
    obtain ⟨b₁, hfirst, hrest⟩ := foldlM_cons_iff.mp h
    exact ih (hstep a b b₁ hb hfirst) hrest

/-- A loop that changes nothing. -/
theorem foldlM_const (h : ∀ a ∈ as, f b a = .ok b) : as.foldlM f b = .ok b := by
  induction as with
  | nil => rfl
  | cons a as ih =>
    rw [foldlM_cons_ok (h a (List.mem_cons_self ..))]
    exact ih fun x hx => h x (List.mem_cons_of_mem _ hx)

theorem foldlM_concat_iff : (as ++ [a]).foldlM f b = .ok b' ↔
    ∃ b₁, as.foldlM f b = .ok b₁ ∧ f b₁ a = .ok b' := by
  rw [foldlM_append_iff]
  refine exists_congr fun b₁ => and_congr_right fun _ => ?_
  rw [foldlM_cons_iff]
  simp [pure, Except.pure]

/-- A loop fails at a first element. -/
theorem foldlM_error_split {e : ε} (h : as.foldlM f b = .error e) :
    ∃ done a rest b', as = done ++ a :: rest ∧ done.foldlM f b = .ok b' ∧ f b' a = .error e := by
  induction as generalizing b with
  | nil => cases h
  | cons a as ih =>
    cases hfirst : f b a with
    | error e' =>
      rw [foldlM_cons_error hfirst] at h
      exact ⟨[], a, as, b, rfl, rfl, hfirst.trans h⟩
    | ok b₁ =>
      rw [foldlM_cons_ok hfirst] at h
      obtain ⟨done, a', rest, b', rfl, hdone, herror⟩ := ih h
      exact ⟨a :: done, a', rest, b', rfl, (foldlM_cons_ok hfirst).trans hdone, herror⟩

theorem foldlM_append_error {e : ε} (h : as.foldlM f b = .error e) :
    (as ++ as').foldlM f b = .error e := by
  rw [List.foldlM_append, h]
  rfl

/-- In a loop that comes to its end each element was taken. -/
theorem step_of_foldlM_ok (h : as.foldlM f b = .ok b') (ha : a ∈ as) :
    ∃ b₁ b₂, f b₁ a = .ok b₂ := by
  induction as generalizing b with
  | nil => cases ha
  | cons x as ih =>
    obtain ⟨b₁, hfirst, hrest⟩ := foldlM_cons_iff.mp h
    rcases List.mem_cons.mp ha with rfl | hmem
    · exact ⟨b, b₁, hfirst⟩
    · exact ih hrest hmem

/-- A loop whose steps all succeed comes to its end. -/
theorem foldlM_ok_of_forall (h : ∀ a ∈ as, ∀ b, ∃ b', f b a = .ok b') :
    ∃ b', as.foldlM f b = .ok b' := by
  induction as generalizing b with
  | nil => exact ⟨b, rfl⟩
  | cons a as ih =>
    obtain ⟨b₁, hfirst⟩ := h a (List.mem_cons_self ..) b
    rw [foldlM_cons_ok hfirst]
    exact ih fun x hx => h x (List.mem_cons_of_mem _ hx)

/-- An element of the first kind stands in the list, with none of either kind before it. -/
def StandsFirst (p q : α → Prop) (as : List α) : Prop :=
  ∃ done a rest, as = done ++ a :: rest ∧ (∀ x ∈ done, ¬ p x ∧ ¬ q x) ∧ p a

theorem standsFirst_or (p q : α → Prop) (as : List α) :
    StandsFirst p q as ∨ StandsFirst q p as ∨ ∀ a ∈ as, ¬ p a ∧ ¬ q a := by
  induction as with
  | nil => exact .inr (.inr (by simp))
  | cons a as ih =>
    by_cases hp : p a
    · exact .inl ⟨[], a, as, rfl, by simp, hp⟩
    by_cases hq : q a
    · exact .inr (.inl ⟨[], a, as, rfl, by simp, hq⟩)
    rcases ih with ⟨done, x, rest, rfl, hdone, hx⟩ | ⟨done, x, rest, rfl, hdone, hx⟩ | hnone
    · exact .inl ⟨a :: done, x, rest, rfl, List.forall_mem_cons.mpr ⟨⟨hp, hq⟩, hdone⟩, hx⟩
    · exact .inr (.inl ⟨a :: done, x, rest, rfl, List.forall_mem_cons.mpr ⟨⟨hq, hp⟩, hdone⟩, hx⟩)
    · exact .inr (.inr (List.forall_mem_cons.mpr ⟨⟨hp, hq⟩, hnone⟩))

/-- A loop ends as it does at the first element that it cannot take. -/
theorem foldlM_standsFirst {p q : α → Prop} {E : ε → Prop} (h : StandsFirst p q as)
    (hok : ∀ a, ¬ p a → ¬ q a → ∀ b, ∃ b', f b a = .ok b')
    (hp : ∀ a, p a → ∀ b, ∃ e, f b a = .error e ∧ E e) : ∃ e, as.foldlM f b = .error e ∧ E e := by
  obtain ⟨done, a, rest, rfl, hdone, ha⟩ := h
  obtain ⟨b', hb'⟩ := foldlM_ok_of_forall (b := b) fun x hx => hok x (hdone x hx).1 (hdone x hx).2
  obtain ⟨e, he, hE⟩ := hp a ha b'
  exact ⟨e, (foldlM_append_ok hb').trans (foldlM_cons_error he), hE⟩

/-- The loop, with what was done before a failure. -/
def foldUntil (f : β → α → Except ε β) : β → List α → β × Option ε
  | b, [] => (b, none)
  | b, a :: as =>
    match f b a with
    | .ok b => foldUntil f b as
    | .error e => (b, some e)

theorem foldUntil_append_ok (h : as.foldlM f b = .ok b') :
    foldUntil f b (as ++ as') = foldUntil f b' as' := by
  induction as generalizing b with
  | nil =>
    obtain rfl := Except.ok.inj h
    rfl
  | cons a as ih =>
    obtain ⟨b₁, hfirst, hrest⟩ := foldlM_cons_iff.mp h
    rw [List.cons_append, foldUntil, hfirst]
    exact ih hrest

/-- The loop comes to its end, or to a first failure. -/
theorem foldUntil_cases (f : β → α → Except ε β) (b : β) (as : List α) :
    (∃ b', as.foldlM f b = .ok b' ∧ foldUntil f b as = (b', none)) ∨
    ∃ done a rest b' e, as = done ++ a :: rest ∧ done.foldlM f b = .ok b' ∧ f b' a = .error e ∧
      foldUntil f b as = (b', some e) := by
  induction as generalizing b with
  | nil => exact .inl ⟨b, rfl, rfl⟩
  | cons a as ih =>
    rw [foldUntil]
    cases hfirst : f b a with
    | error e => exact .inr ⟨[], a, as, b, e, rfl, rfl, hfirst, rfl⟩
    | ok b₁ =>
      rcases ih b₁ with ⟨b', hrest, heq⟩ | ⟨done, a', rest, b', e, rfl, hdone, herror, heq⟩
      · exact .inl ⟨b', (foldlM_cons_ok hfirst).trans hrest, heq⟩
      · exact .inr ⟨a :: done, a', rest, b', e, rfl, (foldlM_cons_ok hfirst).trans hdone, herror,
          heq⟩

/-- What every step keeps holds where the loop ends, and where it fails. -/
theorem foldUntil_keeps {P : β → Prop} (hstep : ∀ a b b', P b → f b a = .ok b' → P b') (hb : P b) :
    P (foldUntil f b as).1 := by
  rcases foldUntil_cases f b as with ⟨b', hall, heq⟩ | ⟨done, a, rest, b', e, -, hdone, -, heq⟩
  · rw [heq]
    exact foldlM_keeps hstep hb hall
  · rw [heq]
    exact foldlM_keeps hstep hb hdone

/-- A loop whose steps only add something changes nothing when no step does. -/
theorem foldUntil_eq_self_iff (size : β → Nat)
    (hgrow : ∀ b a b', f b a = .ok b' → b' = b ∨ size b < size b') :
    foldUntil f b as = (b, none) ↔ ∀ a ∈ as, f b a = .ok b := by
  have hsize : ∀ as b, size b ≤ size (foldUntil f b as).1 := by
    intro as
    induction as with
    | nil => exact fun b => Nat.le_refl _
    | cons a as ih =>
      intro b
      rw [foldUntil]
      cases hfirst : f b a with
      | error e => exact Nat.le_refl _
      | ok b' =>
        have hrest := ih b'
        have hstep : size b ≤ size b' := by
          rcases hgrow b a b' hfirst with rfl | hlt
          · exact Nat.le_refl _
          · exact Nat.le_of_lt hlt
        exact Nat.le_trans hstep hrest
  induction as with
  | nil => simp [foldUntil]
  | cons a as ih =>
    rw [foldUntil, List.forall_mem_cons]
    cases hfirst : f b a with
    | error e => simp
    | ok b' =>
      rcases hgrow b a b' hfirst with rfl | hlt
      · simpa using ih
      · -- the loop goes on with more than it has at the end
        have hrest := hsize as b'
        have hne : b' ≠ b := by
          rintro rfl
          omega
        refine iff_of_false (fun heq => ?_) fun hall => hne (Except.ok.inj hall.1)
        simp only [heq] at hrest
        omega

end Steps

theorem forall₂_mem_right {R : α' → α → Prop} {as : List α} {as' : List α'}
    (h : List.Forall₂ R as' as) {a : α} (ha : a ∈ as) : ∃ a' ∈ as', R a' a := by
  induction h with
  | nil => cases ha
  | cons hxy _ ih =>
    rcases List.mem_cons.mp ha with rfl | hrest
    · exact ⟨_, List.mem_cons_self .., hxy⟩
    · obtain ⟨a', ha', hR⟩ := ih hrest
      exact ⟨a', List.mem_cons_of_mem _ ha', hR⟩

/-- A loop over elements that stand for others appends what these give, when each may be
appended to what the earlier ones gave. -/
theorem foldlM_collect {R : α' → α → Prop} {f : List β → α → Except ε (List β)} {g : α' → β}
    {as : List α} {as' : List α'} (h : List.Forall₂ R as' as) (bs : List β)
    (hstep : ∀ done x y, R x y → done ++ [x] <+: as' → f (bs ++ done.map g) y
      = .ok (bs ++ (done.map g ++ [g x]))) :
    as.foldlM f bs = .ok (bs ++ as'.map g) := by
  induction h generalizing bs with
  | nil => simp only [List.foldlM_nil, List.map_nil, List.append_nil, pure, Except.pure]
  | @cons x y as' as hxy hrest ih =>
    have hfirst : f bs y = .ok (bs ++ [g x]) := by
      simpa using hstep [] x y hxy (by simp)
    rw [foldlM_cons_ok hfirst, ih (bs ++ [g x])]
    · simp
    · intro done z w hzw hbegins
      simpa using hstep (x :: done) z w hzw (by simpa using hbegins)

end Foundation
