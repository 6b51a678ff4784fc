import Mathlib.Data.Fintype.Card
import Mathlib.Data.Fintype.Order
import Mathlib.Data.Finset.Insert
import Mathlib.Data.List.Nodup
import Mathlib.Logic.Relation
import Mathlib.Order.WellFounded

/-!
# Unfoldings of a graph

A graph is walked from a node without a record of the nodes that were seen: every successor is
looked at in turn, an inner one is walked in the same way, and a leaf is reported. What is
reported are the chains of successors, each once. The walk ends exactly when no inner node that
is reached reaches itself.

## Main definitions

* `Graph`: successors, inner nodes and leaves
* `Graph.Chain`: the positions of the successors from a node to another
* `Graph.unfold`: the chains to leaves, in the order of the walk

## Main results

* `mem_unfold`, `unfold_nodup`: every chain is reported once
* `ends_iff_acyclic`: when the walk ends
* `count_unfold_eq_one`: when a leaf is reported once
-/

namespace Foundation

/-- The successors of a node, in order; inner nodes are walked, and leaves are reported. -/
structure Graph (ν : Type*) where
  next : ν → List ν
  inner : ν → Bool
  leaf : ν → Bool

namespace Graph

variable {ν : Type*} (G : Graph ν)

/-- An inner successor. -/
def Enters (n m : ν) : Prop := m ∈ G.next n ∧ G.inner m = true

/-- The positions of the successors from one node over inner nodes to another. -/
inductive Chain : ν → List ℕ → ν → Prop
  | last {n i m} : (G.next n)[i]? = some m → Chain n [i] m
  | step {n i m is k} : (G.next n)[i]? = some m → G.inner m = true → Chain m is k →
      Chain n (i :: is) k

/-- The chains that start with the `i`-th successor `m`. -/
def unfoldAt (unfold : ν → Option (List (List ℕ × ν))) (i : ℕ) (m : ν) :
    Option (List (List ℕ × ν)) :=
  if G.inner m then (unfold m).map (·.map fun q => (i :: q.1, q.2))
  else if G.leaf m then some [([i], m)]
  else some []

/-- The chains that start with the successors `ms` from the `i`-th on. -/
def unfoldFrom (unfold : ν → Option (List (List ℕ × ν))) :
    ℕ → List ν → Option (List (List ℕ × ν))
  | _, [] => some []
  | i, m :: ms =>
    (G.unfoldAt unfold i m).bind fun first =>
      (unfoldFrom unfold (i + 1) ms).map (first ++ ·)

/-- The chains to leaves, unless the walk is deeper than the fuel. -/
def unfold : ℕ → ν → Option (List (List ℕ × ν))
  | 0, _ => none
  | fuel + 1, n => G.unfoldFrom (unfold fuel) 0 (G.next n)

variable {G}

/-! ## What is reported -/

section Reported

variable {u : ν → Option (List (List ℕ × ν))} {i : ℕ} {m n k : ν} {ms : List ν} {is : List ℕ}
  {L : List (List ℕ × ν)} {fuel : ℕ}

theorem mem_unfoldAt (h : G.unfoldAt u i m = some L) :
    (is, k) ∈ L ↔
      (G.inner m = true ∧ ∃ L' is', u m = some L' ∧ (is', k) ∈ L' ∧ is = i :: is') ∨
      (G.inner m = false ∧ G.leaf m = true ∧ is = [i] ∧ k = m) := by
  unfold unfoldAt at h
  split at h
  · rename_i hinner
    obtain ⟨L', hL', rfl⟩ := Option.map_eq_some_iff.mp h
    simp only [List.mem_map, Prod.mk.injEq, hinner, hL', Option.some_inj]
    constructor
    · rintro ⟨⟨is', k'⟩, hmem, rfl, rfl⟩
      exact .inl ⟨trivial, L', is', rfl, hmem, rfl⟩
    · rintro (⟨-, _, is', rfl, hmem, rfl⟩ | ⟨hnot, -⟩)
      · exact ⟨(is', k), hmem, rfl, rfl⟩
      · cases hnot
  · rename_i hinner
    split at h
    · rename_i hleaf
      obtain rfl := Option.some_inj.mp h
      simp [hinner, hleaf]
    · rename_i hleaf
      obtain rfl := Option.some_inj.mp h
      simp [hinner, hleaf]

theorem unfoldFrom_cons (h : G.unfoldFrom u i (m :: ms) = some L) :
    ∃ first rest, G.unfoldAt u i m = some first ∧ G.unfoldFrom u (i + 1) ms = some rest ∧
      L = first ++ rest := by
  obtain ⟨first, hfirst, h⟩ := Option.bind_eq_some_iff.mp h
  obtain ⟨rest, hrest, rfl⟩ := Option.map_eq_some_iff.mp h
  exact ⟨first, rest, hfirst, hrest, rfl⟩

theorem mem_unfoldFrom (h : G.unfoldFrom u i ms = some L) :
    (is, k) ∈ L ↔ ∃ j m first, ms[j]? = some m ∧ G.unfoldAt u (i + j) m = some first ∧
      (is, k) ∈ first := by
  induction ms generalizing i L with
  | nil =>
    obtain rfl := Option.some_inj.mp h
    simp
  | cons m ms ih =>
    obtain ⟨first, rest, hfirst, hrest, rfl⟩ := unfoldFrom_cons h
    rw [List.mem_append, ih hrest]
    constructor
    · rintro (hmem | ⟨j, m', first', hj, hat, hmem⟩)
      · exact ⟨0, m, first, rfl, hfirst, hmem⟩
      · exact ⟨j + 1, m', first', hj, by rwa [Nat.add_right_comm] at hat, hmem⟩
    · rintro ⟨j, m', first', hj, hat, hmem⟩
      cases j with
      | zero =>
        obtain rfl := Option.some_inj.mp hj
        obtain rfl := Option.some_inj.mp (hat.symm.trans hfirst)
        exact .inl hmem
      | succ j => exact .inr ⟨j, m', first', hj, by rwa [Nat.add_right_comm], hmem⟩

/-- Every successor is walked. -/
theorem unfoldFrom_isSome (h : G.unfoldFrom u i ms = some L) {j : ℕ} (hj : ms[j]? = some m) :
    ∃ first, G.unfoldAt u (i + j) m = some first := by
  induction ms generalizing i L j with
  | nil => simp at hj
  | cons m' ms ih =>
    obtain ⟨first, rest, hfirst, hrest, rfl⟩ := unfoldFrom_cons h
    cases j with
    | zero =>
      obtain rfl := Option.some_inj.mp hj
      exact ⟨first, hfirst⟩
    | succ j =>
      obtain ⟨first', hfirst'⟩ := ih hrest hj
      exact ⟨first', by rwa [Nat.add_right_comm] at hfirst'⟩

/-- A walk that ends has walked every inner successor with less fuel. -/
theorem unfold_of_enters (h : G.unfold (fuel + 1) n = some L) (hm : G.Enters n m) :
    ∃ L', G.unfold fuel m = some L' := by
  obtain ⟨hnext, hinner⟩ := hm
  obtain ⟨j, hj⟩ := List.mem_iff_getElem?.mp hnext
  obtain ⟨first, hfirst⟩ := unfoldFrom_isSome h hj
  rw [unfoldAt, if_pos hinner] at hfirst
  obtain ⟨L', hL', -⟩ := Option.map_eq_some_iff.mp hfirst
  exact ⟨L', hL'⟩

/-- **What is reported**: the chains to leaves that are not walked. -/
theorem mem_unfold (h : G.unfold fuel n = some L) :
    (is, k) ∈ L ↔ G.Chain n is k ∧ G.leaf k = true ∧ G.inner k = false := by
  induction fuel generalizing n is L with
  | zero => cases h
  | succ fuel ih =>
    rw [mem_unfoldFrom h]
    constructor
    · rintro ⟨j, m, first, hj, hat, hmem⟩
      rw [Nat.zero_add] at hat
      rcases (mem_unfoldAt hat).mp hmem with ⟨hinner, L', is', hL', hmem', rfl⟩ |
        ⟨hinner, hleaf, rfl, rfl⟩
      · obtain ⟨hchain, hend⟩ := (ih hL').mp hmem'
        exact ⟨.step hj hinner hchain, hend⟩
      · exact ⟨.last hj, hleaf, hinner⟩
    · rintro ⟨hchain, hleaf, hinner⟩
      cases hchain with
      | last hj =>
        obtain ⟨first, hfirst⟩ := unfoldFrom_isSome h hj
        refine ⟨_, _, first, hj, hfirst, (mem_unfoldAt hfirst).mpr (.inr ?_)⟩
        exact ⟨hinner, hleaf, by rw [Nat.zero_add], rfl⟩
      | @step n j m is' k hj hm hrest =>
        obtain ⟨first, hfirst⟩ := unfoldFrom_isSome h hj
        obtain ⟨L', hL'⟩ := unfold_of_enters h ⟨List.mem_iff_getElem?.mpr ⟨_, hj⟩, hm⟩
        refine ⟨_, _, first, hj, hfirst, (mem_unfoldAt hfirst).mpr (.inl ?_)⟩
        exact ⟨hm, L', is', hL', (ih hL').mpr ⟨hrest, hleaf, hinner⟩, by rw [Nat.zero_add]⟩

theorem unfoldAt_nodup (hu : ∀ L', u m = some L' → L'.Nodup) (h : G.unfoldAt u i m = some L) :
    L.Nodup := by
  unfold unfoldAt at h
  split at h
  · obtain ⟨L', hL', rfl⟩ := Option.map_eq_some_iff.mp h
    refine (hu L' hL').map fun q q' he => ?_
    obtain ⟨hpos, hend⟩ := Prod.mk.inj he
    exact Prod.ext (List.cons.inj hpos).2 hend
  · split at h <;> obtain rfl := Option.some_inj.mp h
    · exact List.nodup_singleton _
    · exact List.nodup_nil

theorem unfoldAt_head (h : G.unfoldAt u i m = some L) (hmem : (is, k) ∈ L) :
    is.head? = some i := by
  rcases (mem_unfoldAt h).mp hmem with ⟨-, -, is', -, -, rfl⟩ | ⟨-, -, rfl, -⟩ <;> rfl

theorem unfoldFrom_nodup (hu : ∀ m ∈ ms, ∀ L', u m = some L' → L'.Nodup)
    (h : G.unfoldFrom u i ms = some L) : L.Nodup := by
  induction ms generalizing i L with
  | nil =>
    obtain rfl := Option.some_inj.mp h
    exact List.nodup_nil
  | cons m ms ih =>
    obtain ⟨first, rest, hfirst, hrest, rfl⟩ := unfoldFrom_cons h
    refine List.nodup_append.mpr ⟨unfoldAt_nodup (hu m (List.mem_cons_self ..)) hfirst,
      ih (fun m' hm' => hu m' (List.mem_cons_of_mem _ hm')) hrest, ?_⟩
    rintro ⟨is, k⟩ hmem _ hmem' rfl
    -- the chains of another successor begin with another position
    obtain ⟨j, m', first', -, hat, hin⟩ := (mem_unfoldFrom hrest).mp hmem'
    have hhead := (unfoldAt_head hfirst hmem).symm.trans (unfoldAt_head hat hin)
    have hpos := Option.some_inj.mp hhead
    omega

theorem unfold_nodup (h : G.unfold fuel n = some L) : L.Nodup := by
  induction fuel generalizing n L with
  | zero => cases h
  | succ fuel ih => exact unfoldFrom_nodup (fun _ _ _ hm => ih hm) h

theorem mem_unfold_iff (h : G.unfold fuel n = some L) (hleaf : G.leaf k = true)
    (hinner : G.inner k = false) : k ∈ L.map Prod.snd ↔ ∃ is, G.Chain n is k := by
  rw [List.mem_map]
  constructor
  · rintro ⟨⟨is, k'⟩, hin, rfl⟩
    exact ⟨is, ((mem_unfold h).mp hin).1⟩
  · rintro ⟨is, hchain⟩
    exact ⟨(is, k), (mem_unfold h).mpr ⟨hchain, hleaf, hinner⟩, rfl⟩

/-- A leaf is reported once when there is one chain to it. -/
theorem count_unfold_eq_one [DecidableEq ν] (h : G.unfold fuel n = some L)
    (hleaf : G.leaf k = true) (hinner : G.inner k = false) :
    (L.map Prod.snd).count k = 1 ↔ ∃! is, G.Chain n is k := by
  have hmem : ∀ q, q ∈ L.filter (fun q => q.2 = k) ↔ q.2 = k ∧ G.Chain n q.1 k := by
    rintro ⟨is, k'⟩
    rw [List.mem_filter, decide_eq_true_eq, and_comm]
    refine and_congr_right fun hk => ?_
    obtain rfl : k' = k := hk
    rw [mem_unfold h]
    exact ⟨fun hand => hand.1, fun hchain => ⟨hchain, hleaf, hinner⟩⟩
  have hnodup : (L.filter fun q => q.2 = k).Nodup := (unfold_nodup h).filter _
  have hcount : (L.map Prod.snd).count k = (L.filter fun q => q.2 = k).length := by
    rw [List.count, List.countP_map, List.countP_eq_length_filter]
    congr 1
  rw [hcount]
  generalize L.filter (fun q => q.2 = k) = M at hmem hnodup
  constructor
  · intro hone
    obtain ⟨q, rfl⟩ := List.length_eq_one_iff.mp hone
    obtain ⟨-, hchain⟩ := (hmem q).mp (List.mem_singleton_self q)
    refine ⟨q.1, hchain, fun is his => ?_⟩
    exact congrArg Prod.fst (List.mem_singleton.mp ((hmem (is, k)).mpr ⟨rfl, his⟩))
  · rintro ⟨is, hchain, huniq⟩
    have hall : ∀ q ∈ M, q = (is, k) := by
      intro q hq
      obtain ⟨hk, hq⟩ := (hmem q).mp hq
      exact Prod.ext (huniq q.1 hq) hk
    have hin : (is, k) ∈ M := (hmem (is, k)).mpr ⟨rfl, hchain⟩
    match M, hnodup, hall, hin with
    | [q], _, _, _ => rfl
    | q :: q' :: M, hnodup, hall, _ =>
      have heq : q = q' := (hall q (by simp)).trans (hall q' (by simp)).symm
      simp [heq] at hnodup

end Reported

/-! ## When the walk ends -/

section Ends

variable {n m : ν} {fuel : ℕ} {L : List (List ℕ × ν)}

/-- The walk from a node ends. -/
def Ends (G : Graph ν) (n : ν) : Prop := ∃ fuel L, G.unfold fuel n = some L

/-- No inner node that is reached reaches itself. -/
def Acyclic (G : Graph ν) (n : ν) : Prop :=
  ∀ m, Relation.ReflTransGen G.Enters n m → ¬ Relation.TransGen G.Enters m m

theorem unfold_of_transGen (h : G.unfold fuel n = some L)
    (hm : Relation.TransGen G.Enters n m) : ∃ fuel' < fuel, ∃ L', G.unfold fuel' m = some L' := by
  induction hm with
  | single hstep =>
    cases fuel with
    | zero => cases h
    | succ fuel =>
      obtain ⟨L', hL'⟩ := unfold_of_enters h hstep
      exact ⟨fuel, Nat.lt_succ_self _, L', hL'⟩
  | tail _ hstep ih =>
    obtain ⟨fuel', hlt, L', hL'⟩ := ih
    cases fuel' with
    | zero => cases hL'
    | succ fuel' =>
      obtain ⟨L'', hL''⟩ := unfold_of_enters hL' hstep
      exact ⟨fuel', by omega, L'', hL''⟩

theorem Ends.of_enters (h : G.Ends n) (hm : G.Enters n m) : G.Ends m := by
  obtain ⟨fuel, L, hL⟩ := h
  obtain ⟨fuel', -, L', hL'⟩ := unfold_of_transGen hL (.single hm)
  exact ⟨fuel', L', hL'⟩

theorem Ends.of_reaches (h : G.Ends n) (hm : Relation.ReflTransGen G.Enters n m) : G.Ends m := by
  induction hm with
  | refl => exact h
  | tail _ hstep ih => exact ih.of_enters hstep

theorem Ends.acyclic (h : G.Ends n) : G.Acyclic n := by
  classical
  intro m hm hcycle
  -- the least fuel for a node on a cycle is more than a fuel for the same node
  have hends := h.of_reaches hm
  obtain ⟨L, hL⟩ := Nat.find_spec hends
  obtain ⟨fuel, hlt, hless⟩ := unfold_of_transGen hL hcycle
  exact Nat.find_min hends hlt hless

theorem unfoldAt_mono {u u' : ν → Option (List (List ℕ × ν))} {i : ℕ}
    (hu : ∀ L, u m = some L → u' m = some L) (h : G.unfoldAt u i m = some L) :
    G.unfoldAt u' i m = some L := by
  unfold unfoldAt at h ⊢
  split
  · rename_i hinner
    rw [if_pos hinner] at h
    obtain ⟨L', hL', rfl⟩ := Option.map_eq_some_iff.mp h
    rw [hu L' hL']
    rfl
  · rename_i hinner
    rwa [if_neg hinner] at h

theorem unfoldFrom_mono {u u' : ν → Option (List (List ℕ × ν))} {i : ℕ} {ms : List ν}
    (hu : ∀ m L, u m = some L → u' m = some L) (h : G.unfoldFrom u i ms = some L) :
    G.unfoldFrom u' i ms = some L := by
  induction ms generalizing i L with
  | nil => exact h
  | cons m ms ih =>
    obtain ⟨first, rest, hfirst, hrest, rfl⟩ := unfoldFrom_cons h
    rw [unfoldFrom, unfoldAt_mono (hu m) hfirst, Option.bind_some, ih hrest]
    rfl

theorem unfold_succ (h : G.unfold fuel n = some L) : G.unfold (fuel + 1) n = some L := by
  induction fuel generalizing n L with
  | zero => cases h
  | succ fuel ih => exact unfoldFrom_mono (fun _ _ hm => ih hm) h

theorem unfold_mono {fuel' : ℕ} (hle : fuel ≤ fuel') (h : G.unfold fuel n = some L) :
    G.unfold fuel' n = some L := by
  induction hle with
  | refl => exact h
  | step _ ih => exact unfold_succ ih

/-- One fuel is enough for the inner nodes of a list. -/
theorem exists_fuel {ms : List ν} (h : ∀ m ∈ ms, G.inner m = true → G.Ends m) :
    ∃ fuel, ∀ m ∈ ms, G.inner m = true → ∃ L, G.unfold fuel m = some L := by
  induction ms with
  | nil => exact ⟨0, fun m hm => absurd hm List.not_mem_nil⟩
  | cons m ms ih =>
    obtain ⟨fuel, hfuel⟩ := ih fun m' hm' => h m' (List.mem_cons_of_mem _ hm')
    by_cases hinner : G.inner m = true
    · obtain ⟨fuel', L', hL'⟩ := h m (List.mem_cons_self ..) hinner
      refine ⟨max fuel fuel', fun k hk hk' => ?_⟩
      rcases List.mem_cons.mp hk with rfl | hk
      · exact ⟨L', unfold_mono (le_max_right ..) hL'⟩
      · obtain ⟨L, hL⟩ := hfuel k hk hk'
        exact ⟨L, unfold_mono (le_max_left ..) hL⟩
    · refine ⟨fuel, fun k hk hk' => ?_⟩
      rcases List.mem_cons.mp hk with rfl | hk
      · exact absurd hk' hinner
      · exact hfuel k hk hk'

theorem unfoldFrom_total {u : ν → Option (List (List ℕ × ν))} {ms : List ν}
    (h : ∀ m ∈ ms, G.inner m = true → ∃ L, u m = some L) (i : ℕ) :
    ∃ L, G.unfoldFrom u i ms = some L := by
  induction ms generalizing i with
  | nil => exact ⟨[], rfl⟩
  | cons m ms ih =>
    obtain ⟨first, hfirst⟩ : ∃ first, G.unfoldAt u i m = some first := by
      unfold unfoldAt
      split
      · rename_i hinner
        obtain ⟨L, hL⟩ := h m (List.mem_cons_self ..) hinner
        exact ⟨_, by rw [hL]; rfl⟩
      · split <;> exact ⟨_, rfl⟩
    obtain ⟨rest, hrest⟩ := ih (fun m' hm' => h m' (List.mem_cons_of_mem _ hm')) (i + 1)
    exact ⟨first ++ rest, by rw [unfoldFrom, hfirst, Option.bind_some, hrest]; rfl⟩

theorem Ends.of_successors (h : ∀ m, G.Enters n m → G.Ends m) : G.Ends n := by
  obtain ⟨fuel, hfuel⟩ := exists_fuel fun m (hm : m ∈ G.next n) hinner => h m ⟨hm, hinner⟩
  obtain ⟨L, hL⟩ := unfoldFrom_total hfuel 0
  exact ⟨fuel + 1, L, hL⟩

/-- Where the inner successors are among finitely many nodes. -/
theorem Acyclic.ends {S : Finset ν} (hS : ∀ n m, G.Enters n m → m ∈ S) (h : G.Acyclic n) :
    G.Ends n := by
  classical
  -- reaching from a reached node is a well-founded relation on the nodes
  let r : {m // m ∈ insert n S} → {m // m ∈ insert n S} → Prop := fun a b =>
    Relation.ReflTransGen G.Enters n b.1 ∧ Relation.TransGen G.Enters b.1 a.1
  have htrans : IsTrans _ r := ⟨fun a b c hab hbc => ⟨hbc.1, hbc.2.trans hab.2⟩⟩
  have hirrefl : Std.Irrefl r := ⟨fun a ha => h a.1 ha.1 ha.2⟩
  have hwf : WellFounded r := Finite.wellFounded_of_trans_of_irrefl r
  suffices hall : ∀ b : {m // m ∈ insert n S}, Relation.ReflTransGen G.Enters n b.1 → G.Ends b.1 from
    hall ⟨n, Finset.mem_insert_self ..⟩ .refl
  intro b
  induction b using hwf.induction with
  | _ b ih =>
    intro hb
    refine Ends.of_successors fun m hm => ?_
    exact ih ⟨m, Finset.mem_insert_of_mem (hS _ _ hm)⟩ ⟨hb, .single hm⟩ (hb.tail hm)

/-- **When the walk ends**, in a graph whose inner successors are finitely many. -/
theorem ends_iff_acyclic {S : Finset ν} (hS : ∀ n m, G.Enters n m → m ∈ S) :
    G.Ends n ↔ G.Acyclic n :=
  ⟨Ends.acyclic, Acyclic.ends hS⟩

end Ends

end Graph

end Foundation
