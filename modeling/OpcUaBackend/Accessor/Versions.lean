import Mathlib.Order.Basic
import Mathlib.Data.Int.Order.Basic
import OpcUaBackend.Foundation.Eviction

/-!
# Version numbers

`getVersion` gives a source time its version number: the one in the map, which all accessors
share, or a new one. The map is bounded, and the entry of the smallest time makes room for a new
one. So two calls for the same time get the same number unless the map is filled with later times
when a new one comes; and the numbers that an accessor gets are ordered as its times are unless
another accessor asked for a later one before.

The version numbers of the device access library are given by a parameter.

## Main definitions

* `VersionMapper.getVersion`: the version number of a time
* `mapperAt`, `received`: the calls of all accessors, one after the other
* `Stable`, `Kept`: the same number for the same time, and when it is so
* `Ordered`, `Overtaken`: the numbers of an accessor in order, and when they are not

## Main results

* `stable_iff`: when two calls get the same number
* `ordered_iff`: when the numbers of each accessor are in order
-/

namespace OpcUaBackend

open Foundation

/-! ## The mapper -/

/-- Intervals of 100 ns since January 1, 1601. -/
abbrev UA_DateTime := Int

def UA_DATETIME_UNIX_EPOCH : UA_DateTime := 116444736000000000

/-- Nanoseconds since January 1, 1970, in wrapping arithmetic of 64 bits. -/
def convertToTimePoint (timeStamp : UA_DateTime) : Int :=
  ((timeStamp - UA_DATETIME_UNIX_EPOCH).bmod (2 ^ 64) * 100).bmod (2 ^ 64)

/-- The version numbers of the library, in the order in which they are constructed: each is
greater than those before it. -/
structure VersionNumbers (V : Type) [LinearOrder V] where
  construct : ℕ → Int → V
  increasing : ∀ {i j : ℕ} (s t : Int), i < j → construct i s < construct j t

/-- The map, as its times and the numbers of these; and how many numbers were constructed. -/
structure VersionMapper (V : Type) where
  times : Finset UA_DateTime
  version : UA_DateTime → V
  constructed : ℕ

def maxSizeEventIdMap : ℕ := 2000

section Mapper

variable {V : Type} [LinearOrder V] (numbers : VersionNumbers V)

/-- Assigning to the new entry also constructs a number that is overwritten. -/
def VersionMapper.getVersion (timeStamp : UA_DateTime) (m : VersionMapper V) :
    V × VersionMapper V :=
  if timeStamp ∈ m.times then (m.version timeStamp, m)
  else
    let version := numbers.construct m.constructed (convertToTimePoint timeStamp)
    (version,
      { times := insert timeStamp
          (if m.times.card = maxSizeEventIdMap then eraseBegin m.times else m.times)
        version := Function.update m.version timeStamp version
        constructed := m.constructed + 2 })

/-- A call of `getVersion` by an accessor; or a version number is constructed elsewhere. -/
inductive VersionCall
  | getVersion (accessor : ℕ) (timeStamp : UA_DateTime)
  | construct
  deriving DecidableEq, Repr

def VersionCall.timeStamp? : VersionCall → Option UA_DateTime
  | .getVersion _ timeStamp => some timeStamp
  | .construct => none

def VersionCall.run : VersionCall → VersionMapper V → VersionMapper V
  | .getVersion _ timeStamp, m => (m.getVersion numbers timeStamp).2
  | .construct, m => { m with constructed := m.constructed + 1 }

variable (calls : ℕ → VersionCall)

/-- The mapper before a call. The map is empty at first. -/
def mapperAt : ℕ → VersionMapper V
  | 0 => { times := ∅, version := fun _ => numbers.construct 0 0, constructed := 0 }
  | n + 1 => (calls n).run numbers (mapperAt n)

/-- What a call for the time gets. -/
def received (n : ℕ) (timeStamp : UA_DateTime) : V :=
  ((mapperAt numbers calls n).getVersion numbers timeStamp).1

end Mapper

/-! ## The entries of the map -/

section Entries

variable {V : Type} [LinearOrder V] {numbers : VersionNumbers V} {calls : ℕ → VersionCall}
  {i j k n a : ℕ} {s t u : UA_DateTime}

theorem times_succ (n : ℕ) : (mapperAt numbers calls (n + 1)).times
    = (calls n).timeStamp?.elim (mapperAt numbers calls n).times
      (touch maxSizeEventIdMap (mapperAt numbers calls n).times) := by
  rw [mapperAt]
  cases calls n with
  | construct => rfl
  | getVersion a u =>
    show (VersionMapper.getVersion numbers u _).2.times = touch _ _ u
    unfold VersionMapper.getVersion touch
    split <;> rfl

theorem times_touched : Touched maxSizeEventIdMap
    (fun n => (mapperAt numbers calls n).times) fun n => (calls n).timeStamp? :=
  times_succ

/-- The map holds at most `maxSizeEventIdMap` entries. -/
theorem card_times_le (n : ℕ) : (mapperAt numbers calls n).times.card ≤ maxSizeEventIdMap :=
  times_touched.card_le (by decide) (by simp [mapperAt]) n

theorem received_of_mem (h : t ∈ (mapperAt numbers calls n).times) :
    received numbers calls n t = (mapperAt numbers calls n).version t := by
  rw [received, VersionMapper.getVersion, if_pos h]

theorem received_of_not_mem (h : t ∉ (mapperAt numbers calls n).times) :
    received numbers calls n t
      = numbers.construct (mapperAt numbers calls n).constructed (convertToTimePoint t) := by
  rw [received, VersionMapper.getVersion, if_neg h]

variable (numbers) in
/-- A call leaves an entry with what it has got. -/
theorem version_succ_self (h : calls n = .getVersion a t) :
    t ∈ (mapperAt numbers calls (n + 1)).times ∧
      (mapperAt numbers calls (n + 1)).version t = received numbers calls n t := by
  constructor
  · rw [times_succ, h]
    exact mem_touch_self
  · rw [mapperAt, h, received]
    simp only [VersionCall.run]
    unfold VersionMapper.getVersion
    split
    · rfl
    · simp

theorem version_succ_of_stays (h : t ∈ (mapperAt numbers calls n).times) :
    (mapperAt numbers calls (n + 1)).version t = (mapperAt numbers calls n).version t := by
  rw [mapperAt]
  cases calls n with
  | construct => rfl
  | getVersion a u =>
    simp only [VersionCall.run]
    unfold VersionMapper.getVersion
    split
    · rfl
    · rename_i hnew
      have hne : t ≠ u := fun he => hnew (he ▸ h)
      simp [hne]

theorem constructed_le (h : n ≤ k) :
    (mapperAt numbers calls n).constructed ≤ (mapperAt numbers calls k).constructed := by
  induction k, h using Nat.le_induction with
  | base => exact Nat.le_refl _
  | succ k hk ih =>
    refine ih.trans ?_
    rw [mapperAt]
    cases calls k with
    | construct => exact Nat.le_succ _
    | getVersion a u =>
      simp only [VersionCall.run]
      unfold VersionMapper.getVersion
      split
      · exact Nat.le_refl _
      · exact Nat.le_add_right ..

/-- An entry that stays keeps its number. -/
theorem version_of_stays (h : k ≤ j) (hstay : ∀ n, k ≤ n → n ≤ j →
    t ∈ (mapperAt numbers calls n).times) :
    (mapperAt numbers calls j).version t = (mapperAt numbers calls k).version t := by
  induction j, h using Nat.le_induction with
  | base => rfl
  | succ j hj ih =>
    rw [version_succ_of_stays (hstay j hj (Nat.le_succ j))]
    exact ih fun n hn hle => hstay n hn (Nat.le_succ_of_le hle)

/-- An entry was made by a call, and has stayed since. -/
theorem exists_making (h : t ∈ (mapperAt numbers calls j).times) :
    ∃ l < j, t ∉ (mapperAt numbers calls l).times ∧ (∃ a, calls l = .getVersion a t) ∧
      ∀ n, l < n → n ≤ j → t ∈ (mapperAt numbers calls n).times := by
  induction j with
  | zero => simp [mapperAt] at h
  | succ j ih =>
    by_cases hbefore : t ∈ (mapperAt numbers calls j).times
    · obtain ⟨l, hl, hnew, hcall, hstay⟩ := ih hbefore
      refine ⟨l, by omega, hnew, hcall, fun n hln hnj => ?_⟩
      rcases Nat.lt_or_ge j n with hlt | hge
      · obtain rfl : n = j + 1 := by omega
        exact h
      · exact hstay n hln hge
    · have hcall : ∃ a, calls j = .getVersion a t := by
        rw [times_succ] at h
        cases hj : calls j with
        | construct =>
          rw [hj] at h
          exact absurd h hbefore
        | getVersion a u =>
          rw [hj] at h
          simp only [VersionCall.timeStamp?, Option.elim_some, touch] at h
          split at h
          · exact absurd h hbefore
          · rcases Finset.mem_insert.mp h with rfl | hold
            · exact ⟨a, rfl⟩
            · split at hold
              · exact absurd (mem_eraseBegin.mp hold).1 hbefore
              · exact absurd hold hbefore
      refine ⟨j, Nat.lt_succ_self j, hbefore, hcall, fun n hjn hnj => ?_⟩
      obtain rfl : n = j + 1 := by omega
      exact h

/-! ## The order of the numbers -/

variable (numbers) in
/-- The number is one of the first that were constructed. -/
def MadeBefore (v : V) (c : ℕ) : Prop := ∃ k p, k < c ∧ v = numbers.construct k p

variable (numbers) in
/-- The number was constructed after the first ones. -/
def MadeFrom (v : V) (c : ℕ) : Prop := ∃ k p, c ≤ k ∧ v = numbers.construct k p

theorem MadeBefore.lt {v w : V} {c : ℕ} (hv : MadeBefore numbers v c)
    (hw : MadeFrom numbers w c) : v < w := by
  obtain ⟨k, p, hk, rfl⟩ := hv
  obtain ⟨l, q, hl, rfl⟩ := hw
  exact numbers.increasing p q (hk.trans_le hl)

theorem MadeBefore.mono {v : V} {c d : ℕ} (h : MadeBefore numbers v c) (hle : c ≤ d) :
    MadeBefore numbers v d := by
  obtain ⟨k, p, hk, rfl⟩ := h
  exact ⟨k, p, hk.trans_le hle, rfl⟩

theorem constructed_lt_succ (h : calls n = .getVersion a t)
    (hnew : t ∉ (mapperAt numbers calls n).times) :
    (mapperAt numbers calls n).constructed < (mapperAt numbers calls (n + 1)).constructed := by
  rw [mapperAt, h]
  simp only [VersionCall.run, VersionMapper.getVersion, if_neg hnew]
  omega

/-- The numbers in the map were constructed before. -/
theorem version_madeBefore (h : t ∈ (mapperAt numbers calls n).times) :
    MadeBefore numbers ((mapperAt numbers calls n).version t)
      (mapperAt numbers calls n).constructed := by
  obtain ⟨l, hln, hnew, ⟨a, hcall⟩, hstay⟩ := exists_making h
  rw [version_of_stays (k := l + 1) hln fun m hm hle => hstay m hm hle,
    (version_succ_self numbers hcall).2,
    received_of_not_mem hnew]
  exact ⟨_, _, (constructed_lt_succ hcall hnew).trans_le (constructed_le hln), rfl⟩

variable (numbers) in
theorem received_madeBefore (h : calls n = .getVersion a t) :
    MadeBefore numbers (received numbers calls n t)
      (mapperAt numbers calls (n + 1)).constructed := by
  obtain ⟨hmem, hversion⟩ := version_succ_self numbers h
  rw [← hversion]
  exact version_madeBefore hmem

/-- What is got for a time was made after the time was missing. -/
theorem received_madeFrom (h : t ∉ (mapperAt numbers calls k).times) (hkj : k ≤ j) :
    MadeFrom numbers (received numbers calls j t) (mapperAt numbers calls k).constructed := by
  by_cases hmem : t ∈ (mapperAt numbers calls j).times
  · obtain ⟨l, hlj, hnew, ⟨a, hcall⟩, hstay⟩ := exists_making hmem
    have hkl : k ≤ l := by
      by_contra hlt
      exact h (hstay k (by omega) hkj)
    rw [received_of_mem hmem, version_of_stays (k := l + 1) hlj fun m hm hle => hstay m hm hle,
      (version_succ_self numbers hcall).2, received_of_not_mem hnew]
    exact ⟨_, _, constructed_le hkl, rfl⟩
  · rw [received_of_not_mem hmem]
    exact ⟨_, _, constructed_le hkj, rfl⟩

end Entries

/-! ## The same number for the same time -/

section Stability

variable {V : Type} [LinearOrder V] (numbers : VersionNumbers V) (calls : ℕ → VersionCall)
  (i j : ℕ) (t : UA_DateTime)

/-- The other times that are asked for between two calls. -/
def otherTimes : Finset UA_DateTime :=
  (Finset.Ico (i + 1) j).biUnion fun n => (calls n).timeStamp?.toFinset.filter (· ≠ t)

/-- The bound of the map, and the two calls get the same number. -/
structure Stable : Prop where
  bounded : ∀ n, (mapperAt numbers calls n).times.card ≤ maxSizeEventIdMap
  same : received numbers calls i t = received numbers calls j t

/-- At each call between the two, the times from `t` on that were in the map after the first call
or were asked for since do not fill the map, unless the call is for one of them. -/
def Kept : Prop :=
  ∀ n, i < n → n < j → ∀ u, (calls n).timeStamp? = some u →
    let later := demanded t (mapperAt numbers calls (i + 1)).times
      (fun n => (calls n).timeStamp?) (i + 1) n
    maxSizeEventIdMap ≤ later.card → u ∈ later

variable {numbers calls i j t} {a a' : ℕ}

theorem kept_iff_stays (hi : calls i = .getVersion a t) (hij : i < j) : Kept numbers calls i j t ↔
    ∀ n, i < n → n ≤ j → t ∈ (mapperAt numbers calls n).times :=
  (times_touched.stays_iff card_times_le (version_succ_self numbers hi).1 hij).symm

theorem received_eq_iff (hi : calls i = .getVersion a t) (hij : i < j) :
    received numbers calls i t = received numbers calls j t ↔ Kept numbers calls i j t := by
  rw [kept_iff_stays hi hij]
  obtain ⟨-, hversion⟩ := version_succ_self numbers hi
  constructor
  · intro heq
    by_contra hgone
    push Not at hgone
    obtain ⟨n, hin, hnj, hmissing⟩ := hgone
    -- the number that is got now was not constructed yet when the first was
    have hbefore := (received_madeBefore numbers hi).mono (constructed_le hin)
    exact absurd heq (hbefore.lt (received_madeFrom hmissing hnj)).ne
  · intro hstay
    rw [received_of_mem (hstay j hij (Nat.le_refl j)), ← hversion]
    exact (version_of_stays (k := i + 1) hij fun n hn hle => hstay n hn hle).symm

/-- A time before all others in a full map goes with the next one that is new. -/
theorem received_ne_of_full {u : UA_DateTime} (hi : calls i = .getVersion a t)
    (hfull : maxSizeEventIdMap ≤ (mapperAt numbers calls (i + 1)).times.card)
    (hfirst : ∀ s ∈ (mapperAt numbers calls (i + 1)).times, t ≤ s)
    (hnext : (calls (i + 1)).timeStamp? = some u)
    (hnew : u ∉ (mapperAt numbers calls (i + 1)).times) :
    received numbers calls i t ≠ received numbers calls (i + 2) t := by
  have hall : above t (mapperAt numbers calls (i + 1)).times
      = (mapperAt numbers calls (i + 1)).times := Finset.filter_true_of_mem hfirst
  rw [ne_eq, received_eq_iff hi (by omega)]
  intro hkept
  have hmem := hkept (i + 1) (by omega) (by omega) u hnext
  simp only [demanded_self, hall] at hmem
  exact hnew (hmem hfull)

/-- **When two calls for a time get the same number.** -/
theorem stable_iff (hi : calls i = .getVersion a t) (_ : calls j = .getVersion a' t)
    (hij : i < j) (_ : (otherTimes calls i j t).card < maxSizeEventIdMap) :
    Stable numbers calls i j t ↔ Kept numbers calls i j t :=
  ⟨fun h => (received_eq_iff hi hij).mp h.same,
    fun h => ⟨card_times_le, (received_eq_iff hi hij).mpr h⟩⟩

end Stability

/-- Version numbers that are counted. -/
def countedNumbers : VersionNumbers ℕ where
  construct := fun k _ => k
  increasing := fun _ _ h => h

/-- Two accessors get an update, another one in between. -/
def twoReaders : ℕ → VersionCall
  | 0 => .getVersion 0 10
  | 1 => .getVersion 2 20
  | 2 => .getVersion 1 10
  | _ => .construct

theorem stable_iff_twoReaders : Stable countedNumbers twoReaders 0 2 10
    ↔ Kept countedNumbers twoReaders 0 2 10 :=
  stable_iff (show twoReaders 0 = .getVersion 0 10 from rfl)
    (show twoReaders 2 = .getVersion 1 10 from rfl) (by decide) (by decide)

/-! ## An update that is older than the map -/

section Old

def laterTime (k : ℕ) : UA_DateTime := 10000 + k

/-- The map is filled with times; two accessors get an older update, and another one comes in
between. -/
def olderUpdate (n : ℕ) : VersionCall :=
  if n < maxSizeEventIdMap then .getVersion 0 (laterTime n)
  else if n = maxSizeEventIdMap then .getVersion 1 0
  else if n = maxSizeEventIdMap + 1 then .getVersion 0 50000
  else if n = maxSizeEventIdMap + 2 then .getVersion 2 0
  else .construct

theorem laterTime_injective : Function.Injective laterTime := by
  intro k l h
  exact Int.ofNat.inj (Int.add_left_cancel h)

theorem laterTime_lt_iff {k l : ℕ} : laterTime k < laterTime l ↔ k < l :=
  (Int.add_lt_add_iff_left _).trans Int.ofNat_lt

theorem not_mem_laterTimes {u : UA_DateTime} {ks : Finset ℕ} (h : ∀ k ∈ ks, u ≠ laterTime k) :
    u ∉ ks.image laterTime := by
  intro hmem
  obtain ⟨k, hk, he⟩ := Finset.mem_image.mp hmem
  exact h k hk he.symm

theorem times_olderUpdate {n : ℕ} (h : n ≤ maxSizeEventIdMap) :
    (mapperAt countedNumbers olderUpdate n).times = (Finset.range n).image laterTime := by
  induction n with
  | zero => rfl
  | succ n ih =>
    have hcall : olderUpdate n = .getVersion 0 (laterTime n) := if_pos h
    have hnew : laterTime n ∉ (Finset.range n).image laterTime := by
      refine not_mem_laterTimes fun k hk he => ?_
      obtain rfl := laterTime_injective he
      simp at hk
    have hroom : ((Finset.range n).image laterTime).card ≠ maxSizeEventIdMap := by
      rw [Finset.card_image_of_injective _ laterTime_injective, Finset.card_range]
      omega
    rw [times_succ, ih (by omega), hcall]
    simp only [VersionCall.timeStamp?, Option.elim_some, touch, if_neg hnew, if_neg hroom]
    rw [Finset.range_add_one, Finset.image_insert]

theorem zero_lt_laterTime (k : ℕ) : (0 : UA_DateTime) < laterTime k :=
  Int.add_pos_of_pos_of_nonneg (by decide) (Int.natCast_nonneg k)

/-- The older time and the times but the first fill the map. -/
theorem times_olderUpdate_full :
    (mapperAt countedNumbers olderUpdate (maxSizeEventIdMap + 1)).times
      = insert 0 ((Finset.Ico 1 maxSizeEventIdMap).image laterTime) := by
  have hcall : olderUpdate maxSizeEventIdMap = .getVersion 1 0 := by decide
  have hnew : (0 : UA_DateTime) ∉ (Finset.range maxSizeEventIdMap).image laterTime :=
    not_mem_laterTimes fun k _ => (zero_lt_laterTime k).ne
  have hfull : ((Finset.range maxSizeEventIdMap).image laterTime).card = maxSizeEventIdMap := by
    rw [Finset.card_image_of_injective _ laterTime_injective, Finset.card_range]
  rw [times_succ, times_olderUpdate (Nat.le_refl _), hcall, VersionCall.timeStamp?,
    Option.elim_some, touch, if_neg hnew, if_pos hfull]
  refine congrArg (insert 0) ?_
  ext u
  simp only [mem_eraseBegin, Finset.mem_image, Finset.mem_range, Finset.mem_Ico]
  constructor
  · rintro ⟨⟨k, hk, rfl⟩, -, ⟨l, hl, rfl⟩, hlt⟩
    have hlk : l < k := laterTime_lt_iff.mp hlt
    exact ⟨k, ⟨by omega, hk⟩, rfl⟩
  · rintro ⟨k, ⟨hk, hlt⟩, rfl⟩
    exact ⟨⟨k, hlt, rfl⟩, laterTime 0, ⟨0, by omega, rfl⟩, laterTime_lt_iff.mpr hk⟩

/-- The two accessors get different numbers. -/
theorem not_stable_olderUpdate :
    (otherTimes olderUpdate maxSizeEventIdMap (maxSizeEventIdMap + 2) 0).card
        < maxSizeEventIdMap ∧
      ¬ Stable countedNumbers olderUpdate maxSizeEventIdMap (maxSizeEventIdMap + 2) 0 := by
  have hfirst : olderUpdate maxSizeEventIdMap = .getVersion 1 0 := by decide
  have hbetween : olderUpdate (maxSizeEventIdMap + 1) = .getVersion 0 50000 := by decide
  constructor
  · rw [otherTimes, show maxSizeEventIdMap + 2 = maxSizeEventIdMap + 1 + 1 from rfl,
      Nat.Ico_succ_singleton, Finset.singleton_biUnion, hbetween]
    decide
  · intro h
    have hzero : (0 : UA_DateTime) ∉ (Finset.Ico 1 maxSizeEventIdMap).image laterTime :=
      not_mem_laterTimes fun k _ => (zero_lt_laterTime k).ne
    refine received_ne_of_full hfirst ?_ ?_ (congrArg VersionCall.timeStamp? hbetween) ?_ h.same
    · rw [times_olderUpdate_full, Finset.card_insert_of_notMem hzero,
        Finset.card_image_of_injective _ laterTime_injective, Nat.card_Ico]
      decide
    · rw [times_olderUpdate_full, Finset.forall_mem_insert, Finset.forall_mem_image]
      exact ⟨le_refl _, fun k _ => (zero_lt_laterTime k).le⟩
    · rw [times_olderUpdate_full, Finset.mem_insert, not_or]
      refine ⟨by decide, not_mem_laterTimes fun k hk he => ?_⟩
      have hlt : laterTime k < laterTime 40000 :=
        laterTime_lt_iff.mpr ((Finset.mem_Ico.mp hk).2.trans (by decide))
      exact hlt.ne he.symm

end Old

/-! ## The numbers of an accessor -/

section Order

variable {V : Type} [LinearOrder V] (numbers : VersionNumbers V) (calls : ℕ → VersionCall)

/-- Each accessor asks for its times in order. -/
def Sorted (calls : ℕ → VersionCall) : Prop :=
  ∀ i j a s t, i < j → calls i = .getVersion a s → calls j = .getVersion a t → s ≤ t

/-- Each accessor gets its numbers in order, and different ones for different times. -/
def Ordered : Prop :=
  ∀ i j a s t, i < j → calls i = .getVersion a s → calls j = .getVersion a t →
    received numbers calls i s ≤ received numbers calls j t ∧
      (s < t → received numbers calls i s < received numbers calls j t)

/-- The call is for a later time than an earlier call of the accessor, and this time has been in
the map since some call, up to that earlier one, that made the entry for the earlier time. -/
def Overtaken (j : ℕ) : Prop :=
  ∃ a s t i k, calls j = .getVersion a t ∧ calls i = .getVersion a s ∧ s < t ∧ k ≤ i ∧ i < j ∧
    (calls k).timeStamp? = some s ∧ s ∉ (mapperAt numbers calls k).times ∧
      ∀ n, k ≤ n → n ≤ j → t ∈ (mapperAt numbers calls n).times

variable {numbers calls} {i j k a : ℕ} {s t : UA_DateTime}

variable (numbers) in
/-- What a call gets was made by it, or by an earlier call since which the entry has stayed. -/
theorem exists_received_making (hi : calls i = .getVersion a s) :
    ∃ k ≤ i, (calls k).timeStamp? = some s ∧ s ∉ (mapperAt numbers calls k).times ∧
      received numbers calls i s = received numbers calls k s := by
  by_cases hmem : s ∈ (mapperAt numbers calls i).times
  · obtain ⟨k, hki, hnew, ⟨b, hcall⟩, hstay⟩ := exists_making hmem
    refine ⟨k, hki.le, by rw [hcall]; rfl, hnew, ?_⟩
    rw [received_of_mem hmem, version_of_stays (k := k + 1) hki fun n hn hle => hstay n hn hle]
    exact (version_succ_self numbers hcall).2
  · exact ⟨i, Nat.le_refl i, by rw [hi]; rfl, hmem, rfl⟩

theorem timeStamp?_eq_some {n : ℕ} (h : (calls n).timeStamp? = some s) :
    ∃ a, calls n = .getVersion a s := by
  cases hcall : calls n with
  | construct =>
    rw [hcall] at h
    cases h
  | getVersion a u =>
    rw [hcall] at h
    obtain rfl := Option.some.inj h
    exact ⟨a, rfl⟩

/-- An overtaken accessor gets a smaller number for a later time. -/
theorem Overtaken.not_ordered (h : Overtaken numbers calls j) : ¬ Ordered numbers calls := by
  obtain ⟨a, s, t, i, k, hj, hi, hlt, hki, hij, -, hnew, hstay⟩ := h
  intro hordered
  have hsmaller : received numbers calls j t < received numbers calls i s := by
    rw [received_of_mem (hstay j (by omega) (Nat.le_refl j)),
      version_of_stays (k := k) (by omega) hstay]
    exact (version_madeBefore (hstay k (Nat.le_refl k) (by omega))).lt
      (received_madeFrom hnew hki)
  exact absurd ((hordered i j a s t hij hi hj).2 hlt) (lt_asymm hsmaller)

/-- The number for a later time is greater unless the accessor is overtaken. -/
theorem received_lt (hi : calls i = .getVersion a s) (hj : calls j = .getVersion a t)
    (hij : i < j) (hlt : s < t) (hnot : ¬ Overtaken numbers calls j) :
    received numbers calls i s < received numbers calls j t := by
  obtain ⟨k, hki, hkcall, hknew, hk⟩ := exists_received_making numbers hi
  obtain ⟨b, hkget⟩ := timeStamp?_eq_some hkcall
  by_cases hmem : t ∈ (mapperAt numbers calls j).times
  · obtain ⟨l, hlj, hlnew, ⟨c, hlcall⟩, hstay⟩ := exists_making hmem
    have hne : l ≠ k := by
      rintro rfl
      rw [hlcall] at hkcall
      exact hlt.ne (Option.some.inj hkcall).symm
    have hkl : k < l := by
      by_contra hge
      -- the later time was there when the entry for the earlier one was made
      exact hnot ⟨a, s, t, i, k, hj, hi, hlt, hki, hij, hkcall, hknew,
        fun n hn hle => hstay n (by omega) hle⟩
    rw [hk]
    exact ((received_madeBefore numbers hkget).mono (constructed_le hkl)).lt
      (received_madeFrom hlnew (by omega))
  · rw [hk]
    exact ((received_madeBefore numbers hkget).mono (constructed_le (by omega))).lt
      (received_madeFrom hmem (Nat.le_refl j))

/-- The number for the same time does not become smaller. -/
theorem received_le (hi : calls i = .getVersion a t) (hij : i < j) :
    received numbers calls i t ≤ received numbers calls j t := by
  by_cases hkept : Kept numbers calls i j t
  · exact ((received_eq_iff hi hij).mpr hkept).le
  · rw [kept_iff_stays hi hij] at hkept
    push Not at hkept
    obtain ⟨n, hin, hnj, hmissing⟩ := hkept
    exact (((received_madeBefore numbers hi).mono (constructed_le hin)).lt
      (received_madeFrom hmissing hnj)).le

/-- **When the numbers of each accessor are in order.** -/
theorem ordered_iff (h : Sorted calls) :
    Ordered numbers calls ↔ ∀ j, ¬ Overtaken numbers calls j := by
  constructor
  · intro hordered j hovertaken
    exact hovertaken.not_ordered hordered
  · intro hnot i j a s t hij hi hj
    refine ⟨?_, fun hlt => received_lt hi hj hij hlt (hnot j)⟩
    rcases (h i j a s t hij hi hj).lt_or_eq with hlt | rfl
    · exact (received_lt hi hj hij hlt (hnot j)).le
    · exact received_le hi hij

end Order

/-- An accessor runs ahead of another one. -/
def aheadReader : ℕ → VersionCall
  | 0 => .getVersion 0 10
  | 1 => .getVersion 1 5
  | 2 => .getVersion 1 10
  | _ => .construct

theorem sorted_aheadReader : Sorted aheadReader := by
  intro i j a s t hij hi hj
  match i, j with
  | 0, j + 3 => simp [aheadReader] at hj
  | 1, 2 =>
    obtain ⟨-, rfl⟩ := VersionCall.getVersion.inj hi
    obtain ⟨-, rfl⟩ := VersionCall.getVersion.inj hj
    decide
  | 0, 1 =>
    obtain ⟨rfl, -⟩ := VersionCall.getVersion.inj hi
    obtain ⟨h, -⟩ := VersionCall.getVersion.inj hj
    cases h
  | 0, 2 =>
    obtain ⟨rfl, -⟩ := VersionCall.getVersion.inj hi
    obtain ⟨h, -⟩ := VersionCall.getVersion.inj hj
    cases h
  | 1, j + 3 => simp [aheadReader] at hj
  | 2, j + 3 => simp [aheadReader] at hj
  | i + 3, j => simp [aheadReader] at hi

theorem ordered_iff_aheadReader : Sorted aheadReader ∧ (Ordered countedNumbers aheadReader
    ↔ ∀ j, ¬ Overtaken countedNumbers aheadReader j) :=
  ⟨sorted_aheadReader, ordered_iff sorted_aheadReader⟩

/-- The other one gets a smaller number for its later time. -/
theorem not_ordered_aheadReader : Sorted aheadReader ∧ ¬ Ordered countedNumbers aheadReader := by
  refine ⟨sorted_aheadReader, fun h => ?_⟩
  have hlt := (h 1 2 1 5 10 (by decide) rfl rfl).2 (by decide)
  exact absurd hlt (by decide)

end OpcUaBackend
