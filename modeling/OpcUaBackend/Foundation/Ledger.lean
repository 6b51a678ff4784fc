import Mathlib.Data.List.Nodup
import Mathlib.Logic.Function.Basic

/-!
# A ledger of handles

Handles are given out one after the other and are released. They are owned singly when no owner
has a released handle and no two have the same one; then none is released twice.

## Main definitions

* `Ledger`: how many handles were given out, and which were released
* `Owning`: single ownership
* `Lost`: a handle that nobody owns and that was not released

## Main results

* `Owning.allocate`, `Owning.release`, `Owning.move`, `Owning.drop`: what keeps single ownership
* `Owning.supply`, `Owning.clear`, `Owning.pass`, and `lost_supply`, `lost_clear`, `lost_pass`: the
  same for an owner with or without a handle, and which handles are lost
-/

namespace Foundation

structure Ledger where
  next : ℕ := 0
  released : List ℕ := []
  deriving DecidableEq, Repr

namespace Ledger

/-- A new handle is given out, which is `next`. -/
def allocate (l : Ledger) : Ledger := { l with next := l.next + 1 }

def release (h : ℕ) (l : Ledger) : Ledger := { l with released := h :: l.released }

end Ledger

/-- Single ownership. -/
structure Owning {ι : Type*} (owns : ι → Option ℕ) (l : Ledger) : Prop where
  nodup : l.released.Nodup
  released_lt : ∀ h ∈ l.released, h < l.next
  owned_lt : ∀ o h, owns o = some h → h < l.next
  live : ∀ o h, owns o = some h → h ∉ l.released
  single : ∀ o o' h, owns o = some h → owns o' = some h → o = o'

namespace Owning

variable {ι : Type*} {owns owns' : ι → Option ℕ} {l : Ledger}

theorem empty : Owning (fun _ : ι => none) {} where
  nodup := List.nodup_nil
  released_lt := fun _ h => nomatch h
  owned_lt := fun _ _ h => nomatch h
  live := fun _ _ h => nomatch h
  single := fun _ _ _ h => nomatch h

/-- Handles are forgotten. -/
theorem drop (h : Owning owns l) (hle : ∀ o x, owns' o = some x → owns o = some x) :
    Owning owns' l where
  nodup := h.nodup
  released_lt := h.released_lt
  owned_lt := fun o x hx => h.owned_lt o x (hle o x hx)
  live := fun o x hx => h.live o x (hle o x hx)
  single := fun o o' x hx hx' => h.single o o' x (hle o x hx) (hle o' x hx')

variable [DecidableEq ι] {o o' : ι} {x : ℕ}

/-- An owner gets a new handle. -/
theorem allocate (h : Owning owns l) (o : ι) :
    Owning (Function.update owns o (some l.next)) l.allocate := by
  have hcases : ∀ p x, Function.update owns o (some l.next) p = some x →
      p = o ∧ x = l.next ∨ p ≠ o ∧ owns p = some x := by
    intro p x hx
    by_cases hp : p = o
    · rw [hp, Function.update_self] at hx
      exact .inl ⟨hp, (Option.some.inj hx).symm⟩
    · rw [Function.update_of_ne hp] at hx
      exact .inr ⟨hp, hx⟩
  refine ⟨h.nodup, fun x hx => Nat.lt_succ_of_lt (h.released_lt x hx), ?_, ?_, ?_⟩
  · intro p x hx
    rcases hcases p x hx with ⟨-, rfl⟩ | ⟨-, hx⟩
    · exact Nat.lt_succ_self _
    · exact Nat.lt_succ_of_lt (h.owned_lt p x hx)
  · intro p x hx
    rcases hcases p x hx with ⟨-, rfl⟩ | ⟨-, hx⟩
    · exact fun hmem => Nat.lt_irrefl _ (h.released_lt _ hmem)
    · exact h.live p x hx
  · intro p p' x hx hx'
    rcases hcases p x hx with ⟨hp, he⟩ | ⟨-, hx⟩ <;>
      rcases hcases p' x hx' with ⟨hp', he'⟩ | ⟨-, hx'⟩
    · exact hp.trans hp'.symm
    · exact absurd (h.owned_lt p' x hx') (by omega)
    · exact absurd (h.owned_lt p x hx) (by omega)
    · exact h.single p p' x hx hx'

/-- An owner releases its handle. -/
theorem release (h : Owning owns l) (ho : owns o = some x) :
    Owning (Function.update owns o none) (l.release x) := by
  have hcases : ∀ p y, Function.update owns o none p = some y → p ≠ o ∧ owns p = some y := by
    intro p y hy
    by_cases hp : p = o
    · rw [hp, Function.update_self] at hy
      cases hy
    · rw [Function.update_of_ne hp] at hy
      exact ⟨hp, hy⟩
  refine ⟨List.nodup_cons.mpr ⟨h.live o x ho, h.nodup⟩, ?_, ?_, ?_, ?_⟩
  · intro y hy
    rcases List.mem_cons.mp hy with rfl | hy
    · exact h.owned_lt o y ho
    · exact h.released_lt y hy
  · exact fun p y hy => h.owned_lt p y (hcases p y hy).2
  · intro p y hy hmem
    obtain ⟨hp, hown⟩ := hcases p y hy
    rcases List.mem_cons.mp hmem with rfl | hmem
    · exact hp (h.single p o y hown ho)
    · exact h.live p y hown hmem
  · exact fun p p' y hy hy' => h.single p p' y (hcases p y hy).2 (hcases p' y hy').2

/-- A handle is passed on to another owner. -/
theorem move (h : Owning owns l) (ho : owns o = some x) :
    Owning (Function.update (Function.update owns o' (some x)) o none) l := by
  have hcases : ∀ p y, Function.update (Function.update owns o' (some x)) o none p = some y →
      p = o' ∧ y = x ∨ p ≠ o ∧ owns p = some y := by
    intro p y hy
    by_cases hpo : p = o
    · rw [hpo, Function.update_self] at hy
      cases hy
    · rw [Function.update_of_ne hpo] at hy
      by_cases hp : p = o'
      · rw [hp, Function.update_self] at hy
        exact .inl ⟨hp, (Option.some.inj hy).symm⟩
      · rw [Function.update_of_ne hp] at hy
        exact .inr ⟨hpo, hy⟩
  refine ⟨h.nodup, h.released_lt, ?_, ?_, ?_⟩
  · intro p y hy
    rcases hcases p y hy with ⟨-, rfl⟩ | ⟨-, hy⟩
    · exact h.owned_lt o y ho
    · exact h.owned_lt p y hy
  · intro p y hy
    rcases hcases p y hy with ⟨-, rfl⟩ | ⟨-, hy⟩
    · exact h.live o y ho
    · exact h.live p y hy
  · intro p p' y hy hy'
    rcases hcases p y hy with ⟨hp, he⟩ | ⟨hp, hy⟩ <;>
      rcases hcases p' y hy' with ⟨hp', he'⟩ | ⟨hp', hy'⟩
    · exact hp.trans hp'.symm
    · exact absurd (h.single p' o y hy' (he ▸ ho)) hp'
    · exact absurd (h.single p o y hy (he' ▸ ho)) hp
    · exact h.single p p' y hy hy'

end Owning

/-! ## Owners with or without a handle -/

/-- Nothing, or a new handle. -/
def Supplied (handle : Option ℕ) (l l' : Ledger) : Prop :=
  handle = none ∧ l' = l ∨ handle = some l.next ∧ l' = l.allocate

/-- The handle is released, if there is one. -/
def Ledger.clear (handle : Option ℕ) (l : Ledger) : Ledger :=
  match handle with
  | some h => l.release h
  | none => l

/-- Nobody owns the handle, and it was not released. -/
structure Lost {ι : Type*} (owns : ι → Option ℕ) (l : Ledger) (h : ℕ) : Prop where
  given : h < l.next
  unreleased : h ∉ l.released
  unowned : ∀ o, owns o ≠ some h

section Handles

variable {ι : Type*} [DecidableEq ι] {owns : ι → Option ℕ} {l l' : Ledger} {handle : Option ℕ}
  {o o' : ι} {x : ℕ}

omit [DecidableEq ι] in
/-- A handle that is not in the ledger's next place is as before after an allocation. -/
theorem lost_allocate (hx : x ≠ l.next) : Lost owns l.allocate x ↔ Lost owns l x := by
  constructor
  · rintro ⟨hgiven, hunreleased, hunowned⟩
    exact ⟨Nat.lt_of_le_of_ne (Nat.lt_succ_iff.mp hgiven) hx, hunreleased, hunowned⟩
  · rintro ⟨hgiven, hunreleased, hunowned⟩
    exact ⟨Nat.lt_succ_of_lt hgiven, hunreleased, hunowned⟩

/-- What an owner forgets is lost. -/
theorem Owning.lost_forget (h : Owning owns l) (o : ι) :
    Lost (Function.update owns o none) l x ↔ Lost owns l x ∨ owns o = some x := by
  constructor
  · rintro ⟨hgiven, hunreleased, hunowned⟩
    by_cases ho : owns o = some x
    · exact .inr ho
    · refine .inl ⟨hgiven, hunreleased, fun p hp => ?_⟩
      apply hunowned p
      rw [Function.update_of_ne, hp]
      rintro rfl
      exact ho hp
  · rintro (hlost | ho)
    · refine ⟨hlost.given, hlost.unreleased, fun p => ?_⟩
      by_cases hp : p = o
      · rw [hp, Function.update_self]
        exact fun he => nomatch he
      · rw [Function.update_of_ne hp]
        exact hlost.unowned p
    · refine ⟨h.owned_lt o x ho, h.live o x ho, fun p hp => ?_⟩
      by_cases hpo : p = o
      · rw [hpo, Function.update_self] at hp
        cases hp
      · rw [Function.update_of_ne hpo] at hp
        exact hpo (h.single p o x hp ho)

theorem Owning.forget (h : Owning owns l) (o : ι) : Owning (Function.update owns o none) l := by
  apply h.drop
  intro p y hp
  by_cases hpo : p = o
  · rw [hpo, Function.update_self] at hp
    cases hp
  · rwa [Function.update_of_ne hpo] at hp

/-- An owner is supplied, and forgets what it had. -/
theorem Owning.supply (h : Owning owns l) (o : ι) (hs : Supplied handle l l') :
    Owning (Function.update owns o handle) l' := by
  rcases hs with ⟨rfl, rfl⟩ | ⟨rfl, rfl⟩
  · exact h.forget o
  · exact h.allocate o

theorem Owning.lost_supply (h : Owning owns l) (o : ι) (hs : Supplied handle l l') :
    Lost (Function.update owns o handle) l' x ↔ Lost owns l x ∨ owns o = some x := by
  rcases hs with ⟨rfl, rfl⟩ | ⟨rfl, rfl⟩
  · exact h.lost_forget o
  · by_cases hx : x = l.next
    · -- the new handle is owned, and no older one is as large
      subst hx
      refine iff_of_false (fun hlost => ?_) ?_
      · exact hlost.unowned o (Function.update_self ..)
      · rintro (hlost | ho)
        · exact Nat.lt_irrefl _ hlost.given
        · exact Nat.lt_irrefl _ (h.owned_lt o _ ho)
    · rw [lost_allocate hx, ← h.lost_forget o]
      constructor
      · rintro ⟨hgiven, hunreleased, hunowned⟩
        refine ⟨hgiven, hunreleased, fun p hp => hunowned p ?_⟩
        by_cases hpo : p = o
        · rw [hpo, Function.update_self] at hp
          cases hp
        · rwa [Function.update_of_ne hpo] at hp ⊢
      · rintro ⟨hgiven, hunreleased, hunowned⟩
        refine ⟨hgiven, hunreleased, fun p hp => ?_⟩
        by_cases hpo : p = o
        · rw [hpo, Function.update_self] at hp
          exact hx (Option.some.inj hp).symm
        · rw [Function.update_of_ne hpo] at hp
          exact hunowned p (by rwa [Function.update_of_ne hpo])

/-- An owner releases what it has. -/
theorem Owning.clear (h : Owning owns l) (o : ι) :
    Owning (Function.update owns o none) (l.clear (owns o)) := by
  cases ho : owns o with
  | none => exact h.forget o
  | some y => exact h.release ho

theorem Owning.lost_clear (h : Owning owns l) (o : ι) :
    Lost (Function.update owns o none) (l.clear (owns o)) x ↔ Lost owns l x := by
  cases ho : owns o with
  | none =>
    rw [Ledger.clear, h.lost_forget o, ho]
    exact or_iff_left fun he => nomatch he
  | some y =>
    constructor
    · rintro ⟨hgiven, hunreleased, hunowned⟩
      obtain ⟨hne, hold⟩ := not_or.mp (mt List.mem_cons.mpr hunreleased)
      rcases (h.lost_forget o).mp ⟨hgiven, hold, hunowned⟩ with hlost | hx
      · exact hlost
      · exact absurd (Option.some.inj (hx.symm.trans ho)) hne
    · intro hlost
      obtain ⟨hgiven, hunreleased, hunowned⟩ := (h.lost_forget o).mpr (.inl hlost)
      refine ⟨hgiven, fun hmem => ?_, hunowned⟩
      rcases List.mem_cons.mp hmem with rfl | hold
      · exact hlost.unowned o ho
      · exact hunreleased hold

/-- An owner passes on what it has. -/
theorem Owning.pass (h : Owning owns l) :
    Owning (Function.update (Function.update owns o' (owns o)) o none) l := by
  cases ho : owns o with
  | none => exact (h.forget o').forget o
  | some y => exact h.move ho

/-- Nothing is lost that is passed on to an owner that has nothing. -/
theorem lost_pass (ho' : owns o' = none) :
    Lost (Function.update (Function.update owns o' (owns o)) o none) l x ↔ Lost owns l x := by
  have hsame : (∀ p, Function.update (Function.update owns o' (owns o)) o none p ≠ some x) ↔
      ∀ p, owns p ≠ some x := by
    constructor
    · intro hall p hp
      by_cases hpo : p = o
      · -- the other one has it now
        subst hpo
        have hne : o' ≠ p := by
          rintro rfl
          exact nomatch ho'.symm.trans hp
        apply hall o'
        rw [Function.update_of_ne hne, Function.update_self, hp]
      · apply hall p
        have hpo' : p ≠ o' := by
          rintro rfl
          exact nomatch ho'.symm.trans hp
        rw [Function.update_of_ne hpo, Function.update_of_ne hpo', hp]
    · intro hall p hp
      by_cases hpo : p = o
      · rw [hpo, Function.update_self] at hp
        cases hp
      · rw [Function.update_of_ne hpo] at hp
        by_cases hpo' : p = o'
        · rw [hpo', Function.update_self] at hp
          exact hall o hp
        · rw [Function.update_of_ne hpo'] at hp
          exact hall p hp
  constructor
  · exact fun hlost => ⟨hlost.given, hlost.unreleased, hsame.mp hlost.unowned⟩
  · exact fun hlost => ⟨hlost.given, hlost.unreleased, hsame.mpr hlost.unowned⟩

end Handles

end Foundation
