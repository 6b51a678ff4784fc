import Mathlib.Data.List.Infix

/-!
# Histories

A history is the list of the events so far, newest first. A contract between a component and
its environment says of every event what the events before it allow; it is closed under
taking earlier histories, so that an induction over a run can use it at every point.

## Main definitions

* `Along P h`: every event of `h` is allowed by the events before it
* `Extends P h h'`: `h'` adds to `h` events of which `P` holds
* `since stop h`: the events of `h` after the latest one at which `stop` holds

## Main results

* `Along.of_suffix`: a contract kept so far was kept at every earlier point
* `Along.extend`: a contract is kept by events that it always allows
-/

namespace Foundation

variable {ε : Type*}

/-- Every event of the history is allowed by the events before it. -/
def Along (P : List ε → ε → Prop) : List ε → Prop
  | [] => True
  | e :: past => P past e ∧ Along P past

@[simp] theorem along_nil (P : List ε → ε → Prop) : Along P [] := trivial

@[simp] theorem along_cons {P : List ε → ε → Prop} {e : ε} {past : List ε} :
    Along P (e :: past) ↔ P past e ∧ Along P past := Iff.rfl

theorem Along.of_append {P : List ε → ε → Prop} {new past : List ε}
    (h : Along P (new ++ past)) : Along P past := by
  induction new with
  | nil => exact h
  | cons e new ih => exact ih h.2

theorem Along.of_suffix {P : List ε → ε → Prop} {h h' : List ε} (hs : h <:+ h')
    (hP : Along P h') : Along P h := by
  obtain ⟨new, rfl⟩ := hs
  exact hP.of_append

instance Along.decidable (P : List ε → ε → Prop) [∀ past e, Decidable (P past e)] :
    (h : List ε) → Decidable (Along P h)
  | [] => .isTrue trivial
  | _ :: past => @instDecidableAnd _ _ _ (Along.decidable P past)

/-- The later history adds events of which `P` holds. -/
def Extends (P : ε → Prop) (h h' : List ε) : Prop := ∃ es, h' = es ++ h ∧ ∀ e ∈ es, P e

section Extends

variable {P Q : ε → Prop} {h h' h'' : List ε}

protected theorem Extends.refl (h : List ε) : Extends P h h := ⟨[], rfl, by simp⟩

protected theorem Extends.trans (hx : Extends P h h') (hx' : Extends P h' h'') :
    Extends P h h'' := by
  obtain ⟨es, rfl, hP⟩ := hx
  obtain ⟨es', rfl, hP'⟩ := hx'
  refine ⟨es' ++ es, (List.append_assoc ..).symm, fun e he => ?_⟩
  exact (List.mem_append.mp he).elim (hP' e) (hP e)

theorem Extends.mono (hPQ : ∀ e, P e → Q e) (hx : Extends P h h') : Extends Q h h' := by
  obtain ⟨es, rfl, hP⟩ := hx
  exact ⟨es, rfl, fun e he => hPQ e (hP e he)⟩

theorem Extends.suffix (hx : Extends P h h') : h <:+ h' := by
  obtain ⟨es, rfl, -⟩ := hx
  exact List.suffix_append _ _

/-- A contract that always allows the added events is kept. -/
theorem Along.extend {R : List ε → ε → Prop} (hR : Along R h) (hx : Extends P h h')
    (hPR : ∀ past e, P e → R past e) : Along R h' := by
  obtain ⟨es, rfl, hP⟩ := hx
  induction es with
  | nil => exact hR
  | cons e es ih =>
    exact ⟨hPR _ _ (hP e (List.mem_cons_self ..)), ih fun e' he' => hP e' (List.mem_cons_of_mem _ he')⟩

end Extends

/-- The events after the latest one at which `stop` holds, that one left out. -/
def since (stop : ε → Bool) : List ε → List ε
  | [] => []
  | e :: past => if stop e then [] else e :: since stop past

@[simp] theorem since_nil (stop : ε → Bool) : since stop [] = [] := rfl

theorem since_cons_stop {stop : ε → Bool} {e : ε} (past : List ε) (h : stop e = true) :
    since stop (e :: past) = [] := by
  simp [since, h]

theorem since_cons_go {stop : ε → Bool} {e : ε} (past : List ε) (h : stop e = false) :
    since stop (e :: past) = e :: since stop past := by
  simp [since, h]

theorem since_initial (stop : ε → Bool) (h : List ε) : since stop h <+: h := by
  induction h with
  | nil => exact List.prefix_rfl
  | cons e past ih =>
    cases he : stop e with
    | true => exact since_cons_stop past he ▸ List.nil_prefix
    | false => exact since_cons_go past he ▸ (List.prefix_cons_inj e).mpr ih

end Foundation
