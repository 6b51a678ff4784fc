import Mathlib.Data.List.Nodup
import OpcUaBackend.Foundation.History

/-!
# Groups that members join and leave

Groups stand in a list under keys, each with its members in the order in which they joined. The
first member that joins under a key forms the group, and with its last member the group goes. A
roster is such a list whose keys are distinct and whose groups are neither empty nor hold a
member twice.

Whoever follows the contract that a member joins once, and leaves at most once the group it
joined, finds under each key exactly the members that joined there and did not leave, in the
order in which they joined.

## Main definitions

* `enter`, `quit`, `membersOf`: lists of groups
* `Roster`: the lists without an empty group, a second group of one key or a second entry
* `Attendance`, `Attendance.Allowed`: joining and leaving, and the contract
* `present`: the members that joined and did not leave

## Main results

* `Roster.replay`: along the contract the groups are a roster of the members present
-/

namespace Foundation

variable {κ α : Type*} [DecidableEq κ]

/-! ## Lists of groups -/

/-- A member joins the group of a key. -/
def enter (k : κ) (a : α) : List (κ × List α) → List (κ × List α)
  | [] => [(k, [a])]
  | g :: gs => if g.1 = k then (g.1, g.2 ++ [a]) :: gs else g :: enter k a gs

/-- A member leaves the group of a key, whose last member takes the group with it. -/
def quit [DecidableEq α] (k : κ) (a : α) : List (κ × List α) → List (κ × List α)
  | [] => []
  | g :: gs =>
    if g.1 = k then if 1 < g.2.length then (g.1, g.2.erase a) :: gs else gs
    else g :: quit k a gs

/-- The members of the group of a key. -/
def membersOf (k : κ) : List (κ × List α) → List α
  | [] => []
  | g :: gs => if g.1 = k then g.2 else membersOf k gs

section Groups

variable {k k' : κ} {a : α} {gs gs' : List (κ × List α)} {g : κ × List α}

theorem membersOf_eq_nil (h : k ∉ gs.map Prod.fst) : membersOf k gs = [] := by
  induction gs with
  | nil => rfl
  | cons g gs ih =>
    rw [List.map_cons, List.mem_cons, not_or] at h
    rw [membersOf, if_neg (Ne.symm h.1), ih h.2]

theorem membersOf_of_mem (hn : (gs.map Prod.fst).Nodup) (hg : g ∈ gs) :
    membersOf g.1 gs = g.2 := by
  induction gs with
  | nil => cases hg
  | cons g' gs ih =>
    obtain ⟨hfresh, hn⟩ := List.nodup_cons.mp hn
    rcases List.mem_cons.mp hg with rfl | hg
    · rw [membersOf, if_pos rfl]
    · have hne : g'.1 ≠ g.1 := fun h => hfresh (h ▸ List.mem_map_of_mem hg)
      rw [membersOf, if_neg hne, ih hn hg]

theorem membersOf_append (h : k ∉ gs.map Prod.fst) (as : List α) :
    membersOf k (gs ++ (k, as) :: gs') = as := by
  induction gs with
  | nil => exact if_pos rfl
  | cons g gs ih =>
    rw [List.map_cons, List.mem_cons, not_or] at h
    rw [List.cons_append, membersOf, if_neg (Ne.symm h.1), ih h.2]

/-- The group that a member joins, between the groups before and after it. -/
theorem enter_append (h : k ∉ gs.map Prod.fst) (as : List α) :
    enter k a (gs ++ (k, as) :: gs') = gs ++ (k, as ++ [a]) :: gs' := by
  induction gs with
  | nil => exact if_pos rfl
  | cons g gs ih =>
    rw [List.map_cons, List.mem_cons, not_or] at h
    rw [List.cons_append, enter, if_neg (Ne.symm h.1), ih h.2, List.cons_append]

theorem enter_of_not_mem (h : k ∉ gs.map Prod.fst) : enter k a gs = gs ++ [(k, [a])] := by
  induction gs with
  | nil => rfl
  | cons g gs ih =>
    rw [List.map_cons, List.mem_cons, not_or] at h
    rw [enter, if_neg (Ne.symm h.1), ih h.2, List.cons_append]

theorem mem_enter (hg : g ∈ enter k a gs) : g ∈ gs ∨ g = (k, membersOf k gs ++ [a]) := by
  induction gs with
  | nil => exact .inr (List.mem_singleton.mp hg)
  | cons g' gs ih =>
    rw [membersOf]
    by_cases hk : g'.1 = k
    · rw [enter, if_pos hk] at hg
      rw [if_pos hk]
      rcases List.mem_cons.mp hg with rfl | hg
      · exact .inr (by rw [hk])
      · exact .inl (List.mem_cons_of_mem _ hg)
    · rw [enter, if_neg hk] at hg
      rw [if_neg hk]
      rcases List.mem_cons.mp hg with rfl | hg
      · exact .inl (List.mem_cons_self ..)
      · exact (ih hg).imp_left (List.mem_cons_of_mem _)

theorem exists_mem_enter (k : κ) (a : α) (gs : List (κ × List α)) :
    ∃ g ∈ enter k a gs, a ∈ g.2 := by
  induction gs with
  | nil => exact ⟨(k, [a]), List.mem_singleton_self _, List.mem_singleton_self a⟩
  | cons g gs ih =>
    rw [enter]
    split
    · exact ⟨_, List.mem_cons_self .., List.mem_append_right _ (List.mem_singleton_self a)⟩
    · obtain ⟨g', hg', ha⟩ := ih
      exact ⟨g', List.mem_cons_of_mem _ hg', ha⟩

theorem occupied_enter (ho : ∀ g ∈ gs, g.2 ≠ []) : ∀ g ∈ enter k a gs, g.2 ≠ [] := by
  intro g hg
  rcases mem_enter hg with hg | rfl
  · exact ho g hg
  · simp

theorem keys_enter (k : κ) (a : α) (gs : List (κ × List α)) :
    (enter k a gs).map Prod.fst =
      if k ∈ gs.map Prod.fst then gs.map Prod.fst else gs.map Prod.fst ++ [k] := by
  induction gs with
  | nil => rfl
  | cons g gs ih =>
    by_cases hk : g.1 = k
    · rw [enter, if_pos hk, if_pos (hk ▸ List.mem_map_of_mem (List.mem_cons_self ..))]
      rfl
    · have hmem : k ∈ (g :: gs).map Prod.fst ↔ k ∈ gs.map Prod.fst := by
        simp [Ne.symm hk]
      rw [enter, if_neg hk, List.map_cons, ih]
      by_cases hin : k ∈ gs.map Prod.fst
      · rw [if_pos hin, if_pos (hmem.mpr hin), List.map_cons]
      · rw [if_neg hin, if_neg (mt hmem.mp hin), List.map_cons, List.cons_append]

theorem membersOf_enter (k k' : κ) (a : α) (gs : List (κ × List α)) :
    membersOf k' (enter k a gs) =
      if k' = k then membersOf k gs ++ [a] else membersOf k' gs := by
  induction gs with
  | nil =>
    by_cases hk : k' = k
    · simp [enter, membersOf, hk]
    · simp [enter, membersOf, hk, Ne.symm hk]
  | cons g gs ih =>
    by_cases hg : g.1 = k
    · by_cases hk : k' = k
      · simp [enter, membersOf, hg, hk]
      · simp [enter, membersOf, hg, hk, Ne.symm hk]
    · by_cases hk : k' = k
      · subst hk
        rw [if_pos rfl] at ih
        rw [enter, if_neg hg, membersOf, membersOf, if_neg hg, if_neg hg, if_pos rfl, ih]
      · simp only [enter, membersOf, if_neg hg, ih, if_neg hk]

variable [DecidableEq α]

/-- The group that a member leaves, between the groups before and after it. -/
theorem quit_append (h : k ∉ gs.map Prod.fst) (as : List α) :
    quit k a (gs ++ (k, as) :: gs') =
      gs ++ if 1 < as.length then (k, as.erase a) :: gs' else gs' := by
  induction gs with
  | nil => exact if_pos rfl
  | cons g gs ih =>
    rw [List.map_cons, List.mem_cons, not_or] at h
    rw [List.cons_append, quit, if_neg (Ne.symm h.1), ih h.2, List.cons_append]

theorem quit_of_not_mem (h : k ∉ gs.map Prod.fst) : quit k a gs = gs := by
  induction gs with
  | nil => rfl
  | cons g gs ih =>
    rw [List.map_cons, List.mem_cons, not_or] at h
    rw [quit, if_neg (Ne.symm h.1), ih h.2]

theorem keys_quit_sublist (k : κ) (a : α) (gs : List (κ × List α)) :
    ((quit k a gs).map Prod.fst).Sublist (gs.map Prod.fst) := by
  induction gs with
  | nil => exact .slnil
  | cons g gs ih =>
    rw [quit]
    split
    · split
      · exact .refl _
      · exact List.sublist_cons_self _ _
    · exact ih.cons_cons _

theorem mem_quit (hg : g ∈ quit k a gs) : g ∈ gs ∨
    g = (k, (membersOf k gs).erase a) ∧ 1 < (membersOf k gs).length := by
  induction gs with
  | nil => cases hg
  | cons g' gs ih =>
    rw [membersOf]
    by_cases hk : g'.1 = k
    · rw [quit, if_pos hk] at hg
      rw [if_pos hk]
      split at hg
      · rename_i hlen
        rcases List.mem_cons.mp hg with rfl | hg
        · exact .inr ⟨by rw [hk], hlen⟩
        · exact .inl (List.mem_cons_of_mem _ hg)
      · exact .inl (List.mem_cons_of_mem _ hg)
    · rw [quit, if_neg hk] at hg
      rw [if_neg hk]
      rcases List.mem_cons.mp hg with rfl | hg
      · exact .inl (List.mem_cons_self ..)
      · exact (ih hg).imp_left (List.mem_cons_of_mem _)

theorem occupied_quit (ho : ∀ g ∈ gs, g.2 ≠ []) : ∀ g ∈ quit k a gs, g.2 ≠ [] := by
  intro g hg
  rcases mem_quit hg with hg | ⟨rfl, hlen⟩
  · exact ho g hg
  · refine List.ne_nil_of_length_pos ?_
    rw [List.length_erase]
    split <;> omega

/-- The other groups are as they were. -/
theorem filter_quit (k : κ) (a : α) (gs : List (κ × List α)) :
    (quit k a gs).filter (·.1 ≠ k) = gs.filter (·.1 ≠ k) := by
  induction gs with
  | nil => rfl
  | cons g gs ih =>
    by_cases hk : g.1 = k
    · rw [quit, if_pos hk]
      split <;> simp [hk]
    · rw [quit, if_neg hk, List.filter_cons, List.filter_cons, ih]

/-- A member leaves its group. -/
theorem membersOf_quit (hn : (gs.map Prod.fst).Nodup) (k' : κ) (ha : a ∈ membersOf k gs) :
    membersOf k' (quit k a gs) =
      if k' = k then (membersOf k gs).erase a else membersOf k' gs := by
  induction gs with
  | nil => cases ha
  | cons g gs ih =>
    obtain ⟨hfresh, hn⟩ := List.nodup_cons.mp hn
    by_cases hg : g.1 = k
    · subst hg
      rw [membersOf, if_pos rfl] at ha
      rw [quit, if_pos rfl]
      by_cases hk : k' = g.1
      · subst hk
        rw [if_pos rfl, membersOf, if_pos rfl]
        split
        · rw [membersOf, if_pos rfl]
        · -- it was the last one
          rename_i hlen
          have hpos := List.length_pos_of_mem ha
          obtain ⟨b, hb⟩ := List.length_eq_one_iff.mp (Nat.le_antisymm (Nat.le_of_not_lt hlen) hpos)
          have hone : g.2 = [a] := by
            rw [hb] at ha ⊢
            rw [List.mem_singleton.mp ha]
          rw [membersOf_eq_nil hfresh, hone, List.erase_cons_head]
      · rw [if_neg hk]
        split
        · rw [membersOf, membersOf, if_neg (Ne.symm hk), if_neg (Ne.symm hk)]
        · rw [membersOf, if_neg (Ne.symm hk)]
    · rw [membersOf, if_neg hg] at ha
      rw [quit, if_neg hg, membersOf, ih hn ha]
      by_cases hk : k' = k
      · subst hk
        rw [if_neg hg, if_pos rfl, if_pos rfl, membersOf, if_neg hg]
      · rw [if_neg hk, if_neg hk, membersOf]

end Groups

/-! ## Rosters -/

/-- A list of groups with distinct keys, none empty and none with a member twice. -/
structure Roster (κ α : Type*) where
  groups : List (κ × List α)
  distinct : (groups.map Prod.fst).Nodup
  occupied : ∀ g ∈ groups, g.2 ≠ []
  nodup : ∀ g ∈ groups, g.2.Nodup

namespace Roster

def members (r : Roster κ α) (k : κ) : List α := membersOf k r.groups

/-- The roster without groups. -/
def empty : Roster κ α := ⟨[], .nil, by simp, by simp⟩

theorem nodup_members (r : Roster κ α) (k : κ) : (r.members k).Nodup := by
  unfold members
  by_cases hk : k ∈ r.groups.map Prod.fst
  · obtain ⟨g, hg, rfl⟩ := List.mem_map.mp hk
    rw [membersOf_of_mem r.distinct hg]
    exact r.nodup g hg
  · rw [membersOf_eq_nil hk]
    exact .nil

/-- A new member joins. -/
def join (r : Roster κ α) (k : κ) (a : α) (ha : a ∉ r.members k) : Roster κ α where
  groups := enter k a r.groups
  distinct := by
    rw [keys_enter]
    split
    · exact r.distinct
    · rename_i hk
      refine List.nodup_append.mpr ⟨r.distinct, List.nodup_singleton k, fun x hx y hy => ?_⟩
      exact fun hxy => hk (List.mem_singleton.mp hy ▸ hxy ▸ hx)
  occupied := occupied_enter r.occupied
  nodup g hg := by
    rcases mem_enter hg with hg | rfl
    · exact r.nodup g hg
    · exact List.nodup_append.mpr ⟨r.nodup_members k, List.nodup_singleton a, fun x hx y hy hxy =>
        ha (List.mem_singleton.mp hy ▸ hxy ▸ hx)⟩

variable [DecidableEq α]

/-- A member leaves. -/
def leave (r : Roster κ α) (k : κ) (a : α) : Roster κ α where
  groups := quit k a r.groups
  distinct := r.distinct.sublist (keys_quit_sublist k a r.groups)
  occupied := occupied_quit r.occupied
  nodup g hg := by
    rcases mem_quit hg with hg | ⟨rfl, -⟩
    · exact r.nodup g hg
    · exact (r.nodup_members k).erase a

end Roster

/-! ## Joining and leaving -/

inductive Attendance (κ α : Type*)
  | join (k : κ) (a : α)
  | leave (k : κ) (a : α)
  deriving DecidableEq

namespace Attendance

/-- The member, when it joins the group of the key. -/
def joins (k : κ) : Attendance κ α → Option α
  | .join k' a => if k' = k then some a else none
  | .leave _ _ => none

/-- The member, when it joins any group. -/
def joined : Attendance κ α → Option α
  | .join _ a => some a
  | .leave _ _ => none

variable [DecidableEq α]

/-- What a list of groups becomes. -/
def apply (gs : List (κ × List α)) : Attendance κ α → List (κ × List α)
  | .join k a => enter k a gs
  | .leave k a => quit k a gs

/-- The contract: who joins did not join before, and who leaves a group joined it and did not
leave it before. -/
def Allowed (past : List (Attendance κ α)) : Attendance κ α → Prop
  | .join _ a => a ∉ past.filterMap joined
  | .leave k a => .join k a ∈ past ∧ .leave k a ∉ past

instance (past : List (Attendance κ α)) : (e : Attendance κ α) → Decidable (e.Allowed past)
  | .join _ _ => instDecidableNot
  | .leave _ _ => instDecidableAnd

end Attendance

/-- The members of a group that joined it and did not leave it, in the order in which they
joined; the latest event is the first. -/
def present [DecidableEq α] (k : κ) (es : List (Attendance κ α)) : List α :=
  (es.reverse.filterMap (Attendance.joins k)).filter fun a => .leave k a ∉ es

section Joined

variable {es : List (Attendance κ α)} {k k' : κ} {a : α}

theorem mem_joins : a ∈ es.reverse.filterMap (Attendance.joins k) ↔ .join k a ∈ es := by
  rw [List.mem_filterMap]
  constructor
  · rintro ⟨e, he, hj⟩
    cases e with
    | join k' b =>
      obtain ⟨rfl, rfl⟩ : k' = k ∧ b = a := by simpa [Attendance.joins] using hj
      exact List.mem_reverse.mp he
    | leave => cases hj
  · exact fun h => ⟨_, List.mem_reverse.mpr h, if_pos rfl⟩

omit [DecidableEq κ] in
theorem mem_filterMap_joined (h : .join k a ∈ es) : a ∈ es.filterMap Attendance.joined :=
  List.mem_filterMap.mpr ⟨_, h, rfl⟩

omit [DecidableEq κ] in
/-- Who left had joined. -/
theorem joined_of_left (h : Along Attendance.Allowed es) (hl : .leave k a ∈ es) :
    .join k a ∈ es := by
  induction es with
  | nil => cases hl
  | cons e past ih =>
    rcases List.mem_cons.mp hl with rfl | hl
    · exact List.mem_cons_of_mem _ h.1.1
    · exact List.mem_cons_of_mem _ (ih h.2 hl)

omit [DecidableEq κ] in
/-- Who joins does so once. -/
theorem joined_unique (h : Along Attendance.Allowed es) (hj : .join k a ∈ es)
    (hj' : .join k' a ∈ es) : k = k' := by
  induction es with
  | nil => cases hj
  | cons e past ih =>
    rcases List.mem_cons.mp hj with rfl | hpast
    · rcases List.mem_cons.mp hj' with heq | hpast'
      · exact (Attendance.join.inj heq).1.symm
      · exact absurd (mem_filterMap_joined hpast') h.1
    · rcases List.mem_cons.mp hj' with rfl | hpast'
      · exact absurd (mem_filterMap_joined hpast) h.1
      · exact ih h.2 hpast hpast'

end Joined

section Replay

variable [DecidableEq α] {es : List (Attendance κ α)} {k k' : κ} {a : α}

theorem mem_present : a ∈ present k es ↔ .join k a ∈ es ∧ .leave k a ∉ es := by
  rw [present, List.mem_filter, mem_joins, decide_eq_true_eq]

theorem present_join (h : Along Attendance.Allowed (.join k a :: es)) :
    present k' (.join k a :: es) = if k' = k then present k es ++ [a] else present k' es := by
  have hstay : ∀ (k' : κ) (b : α), .leave k' b ∉ Attendance.join k a :: es ↔ .leave k' b ∉ es := by
    simp
  have hfresh : .leave k a ∉ es := fun hl => h.1 (mem_filterMap_joined (joined_of_left h.2 hl))
  unfold present
  simp only [List.reverse_cons, List.filterMap_append, hstay, List.filter_append]
  by_cases hk : k' = k
  · subst hk
    simp [Attendance.joins, hfresh]
  · simp [Attendance.joins, hk, Ne.symm hk]

theorem present_leave (hn : (present k es).Nodup) :
    present k' (.leave k a :: es) = if k' = k then (present k es).erase a else present k' es := by
  have hjoins : (Attendance.leave k a :: es).reverse.filterMap (Attendance.joins k') =
      es.reverse.filterMap (Attendance.joins k') := by
    simp [Attendance.joins]
  unfold present at hn ⊢
  rw [hjoins]
  by_cases hk : k' = k
  · subst hk
    rw [if_pos rfl, hn.erase_eq_filter, List.filter_filter]
    refine List.filter_congr fun b _ => ?_
    rw [Bool.eq_iff_iff]
    simp
  · rw [if_neg hk]
    refine List.filter_congr fun b _ => ?_
    simp [hk]

/-- **Along the contract the groups are a roster, and each holds the members that joined it and
did not leave it, in the order in which they joined.** -/
theorem Roster.replay (h : Along Attendance.Allowed es) :
    ∃ r : Roster κ α, r.groups = es.foldr (fun e gs => e.apply gs) [] ∧
      ∀ k, r.members k = present k es := by
  induction es with
  | nil => exact ⟨.empty, rfl, fun _ => rfl⟩
  | cons e past ih =>
    obtain ⟨r, hr, hmem⟩ := ih h.2
    cases e with
    | join k a =>
      have ha : a ∉ r.members k := fun ha => h.1 (mem_filterMap_joined (mem_present.mp (hmem k ▸ ha)).1)
      refine ⟨r.join k a ha, by rw [List.foldr_cons, ← hr]; rfl, fun k' => ?_⟩
      rw [present_join h, ← hmem k, ← hmem k']
      exact membersOf_enter k k' a r.groups
    | leave k a =>
      have ha : a ∈ r.members k := by
        rw [hmem k]
        exact mem_present.mpr h.1
      refine ⟨r.leave k a, by rw [List.foldr_cons, ← hr]; rfl, fun k' => ?_⟩
      rw [present_leave (hmem k ▸ r.nodup_members k), ← hmem k, ← hmem k']
      exact membersOf_quit r.distinct k' ha

end Replay

end Foundation
