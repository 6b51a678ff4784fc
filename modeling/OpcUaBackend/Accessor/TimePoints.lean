import OpcUaBackend.Accessor.Transfer
import OpcUaBackend.Accessor.Versions
import OpcUaBackend.Foundation.Rescaling

/-!
# The time points of source times

The source time of a value is any number of 64 bits, and zero where the server has sent none. It
becomes a time point by a difference and a product of 64 bits, which is undefined behaviour where
the exact result has more of them. The time points reach some 292 years to either side of 1970, and
the source times some 29000, so most of them have no time point; zero is one of these.

## Main definitions

* `VersionMapper.convertToTimePoint`, `ManagedDataValue.convertToTimePoint`: the conversions
* `VersionMapper.getVersion?`: the version number of a time, where the conversion is defined
* `TimePoints`: the time points are exact, and ordered as the times are
* `Convertible`: the source times that have a time point

## Main results

* `timePoint_eq`, `getVersion?_eq`: where they are defined, the time point and the version number
  are those of arithmetic that wraps around
* `converts_iff`: the reads of any run are defined if and only if their source times have time points
* `timePoints_iff`: the time points of two times are as they should be if and only if both have one
-/

namespace OpcUaBackend

open Foundation

/-! ## The conversions -/

/-- The time point of a source time, in nanoseconds since January 1, 1970. -/
def timePoint (timeStamp : Int64) : Option Int64 := do
  let sourceTimeStampUnixEpoch ← checkedSub timeStamp (.ofInt UA_DATETIME_UNIX_EPOCH)
  checkedMul sourceTimeStampUnixEpoch 100

/-- `VersionMapper::convertToTimePoint`. -/
def VersionMapper.convertToTimePoint (timeStamp : Int64) : Option Int64 := timePoint timeStamp

section Functions

variable {V α : Type} [LinearOrder V] (numbers : VersionNumbers V)

def ManagedDataValue.getSourceTime (data : ManagedDataValue α) : Int64 :=
  .ofInt data.sourceTimestamp

/-- The time point in `OpcUABackendRegisterAccessorBase::convertToTimePoint`. -/
def ManagedDataValue.timePoint (data : ManagedDataValue α) : Option Int64 :=
  OpcUaBackend.timePoint data.getSourceTime

/-- `OpcUABackendRegisterAccessorBase::convertToTimePoint`: a version number of its own. -/
def ManagedDataValue.convertToTimePoint (constructed : ℕ) (data : ManagedDataValue α) :
    Option V :=
  data.timePoint.map fun tp => numbers.construct constructed tp.toInt

/-- `VersionMapper::getVersion`. A time is converted when it is not in the map. -/
def VersionMapper.getVersion? (timeStamp : Int64) (m : VersionMapper V) :
    Option (V × VersionMapper V) :=
  if timeStamp.toInt ∈ m.times then some (m.version timeStamp.toInt, m)
  else
    (VersionMapper.convertToTimePoint timeStamp).map fun tp =>
      let version := numbers.construct m.constructed tp.toInt
      (version,
        { times := insert timeStamp.toInt
            (if m.times.card = maxSizeEventIdMap then eraseBegin m.times else m.times)
          version := Function.update m.version timeStamp.toInt version
          constructed := m.constructed + 2 })

/-- The end of `doPostRead`: the version number of the new data. -/
def ManagedDataValue.currentVersion (data : ManagedDataValue α) (m : VersionMapper V) :
    Option (V × VersionMapper V) :=
  m.getVersion? numbers data.getSourceTime

end Functions

/-! ## Exact time points -/

/-- The source time is that of a time point: it is less than some 292 years from 1970. -/
def Convertible (timeStamp : Int64) : Prop :=
  (timeStamp.toInt - UA_DATETIME_UNIX_EPOCH).natAbs ≤ 2 ^ 63 / 100

instance (timeStamp : Int64) : Decidable (Convertible timeStamp) := by
  unfold Convertible
  infer_instance

section Conversion

variable {s t p : Int64}

theorem epoch_toInt : (Int64.ofInt UA_DATETIME_UNIX_EPOCH).toInt = UA_DATETIME_UNIX_EPOCH := by
  decide

theorem timePoint_eq_rescale (t : Int64) :
    timePoint t = rescale (.ofInt UA_DATETIME_UNIX_EPOCH) 100 t := rfl

/-- A time point is exact. -/
theorem timePoint_eq_some_iff :
    timePoint t = some p ↔ p.toInt = (t.toInt - UA_DATETIME_UNIX_EPOCH) * 100 := by
  rw [timePoint_eq_rescale, rescale_eq_some_iff (by decide), epoch_toInt]
  rfl

/-- The source times that have a time point. -/
theorem exists_timePoint_iff : (∃ p, timePoint t = some p) ↔ Convertible t := by
  simp only [timePoint_eq_rescale]
  rw [exists_rescale_iff (by decide), epoch_toInt, Convertible]
  change -2 ^ 63 ≤ (t.toInt - UA_DATETIME_UNIX_EPOCH) * 100 ∧
    (t.toInt - UA_DATETIME_UNIX_EPOCH) * 100 < 2 ^ 63 ↔ _
  generalize t.toInt - UA_DATETIME_UNIX_EPOCH = d
  omega

/-- A time point is also that of the arithmetic that wraps around. -/
theorem convertToTimePoint_toInt (h : timePoint t = some p) :
    convertToTimePoint t.toInt = p.toInt := by
  have hexact := timePoint_eq_some_iff.mp h
  have hlow := p.le_toInt
  have hhigh := p.toInt_lt
  rw [convertToTimePoint, Int.bmod_eq_of_le (n := t.toInt - _) (by omega) (by omega), ← hexact,
    Int.bmod_eq_of_le (by omega) (by omega)]

/-- **The time point as a partial value**: it is that of the arithmetic that wraps around, for the
times that have one. -/
theorem timePoint_eq (t : Int64) :
    timePoint t = if Convertible t then some (.ofInt (convertToTimePoint t.toInt)) else none := by
  by_cases hconv : Convertible t
  · obtain ⟨p, hp⟩ := exists_timePoint_iff.mpr hconv
    rw [if_pos hconv, convertToTimePoint_toInt hp, Int64.ofInt_toInt, hp]
  · rw [if_neg hconv, Option.eq_none_iff_forall_ne_some]
    intro p hp
    exact hconv (exists_timePoint_iff.mp ⟨p, hp⟩)

@[simp] theorem toInt_ofInt_convertToTimePoint (time : Int) :
    (Int64.ofInt (convertToTimePoint time)).toInt = convertToTimePoint time := by
  rw [Int64.toInt_ofInt, convertToTimePoint]
  exact Int.bmod_bmod

end Conversion

/-! ## Version numbers -/

section Version

variable {V α : Type} [LinearOrder V] {numbers : VersionNumbers V}

/-- The version number that an accessor makes itself. -/
theorem ManagedDataValue.convertToTimePoint_eq (numbers : VersionNumbers V) (constructed : ℕ)
    (data : ManagedDataValue α) : data.convertToTimePoint numbers constructed
      = if Convertible data.getSourceTime then
          some (numbers.construct constructed
            (OpcUaBackend.convertToTimePoint data.getSourceTime.toInt))
        else none := by
  rw [ManagedDataValue.convertToTimePoint, ManagedDataValue.timePoint, timePoint_eq]
  by_cases hconv : Convertible data.getSourceTime
  · rw [if_pos hconv, if_pos hconv, Option.map_some, toInt_ofInt_convertToTimePoint]
  · rw [if_neg hconv, if_neg hconv, Option.map_none]

/-- **Where it is defined, the version number is the one that the mapper gives with arithmetic that
wraps around**; it is defined for the times in the map, and for those that have a time point. -/
theorem getVersion?_eq (numbers : VersionNumbers V) (m : VersionMapper V) (t : Int64) :
    m.getVersion? numbers t
      = if t.toInt ∈ m.times ∨ Convertible t then some (m.getVersion numbers t.toInt)
        else none := by
  rw [VersionMapper.getVersion?, VersionMapper.getVersion]
  by_cases hmem : t.toInt ∈ m.times
  · rw [if_pos hmem, if_pos (.inl hmem), if_pos hmem]
  · rw [if_neg hmem, if_neg hmem, VersionMapper.convertToTimePoint, timePoint_eq]
    by_cases hconv : Convertible t
    · have hdefined : t.toInt ∈ m.times ∨ Convertible t := .inr hconv
      rw [if_pos hconv, if_pos hdefined, Option.map_some, toInt_ofInt_convertToTimePoint]
    · rw [if_neg hconv, if_neg (not_or.mpr ⟨hmem, hconv⟩), Option.map_none]

/-- **The version numbers of all reads are defined if and only if all their source times have time
points.** The first read with a source time converts it. -/
theorem converts_iff (numbers : VersionNumbers V) (calls : ℕ → VersionCall) :
    (∀ n a (data : ManagedDataValue α), calls n = .getVersion a data.getSourceTime.toInt →
      (data.currentVersion numbers (mapperAt numbers calls n)).isSome = true) ↔
    ∀ n a (data : ManagedDataValue α), calls n = .getVersion a data.getSourceTime.toInt →
      Convertible data.getSourceTime := by
  have hdefined : ∀ n (data : ManagedDataValue α),
      (data.currentVersion numbers (mapperAt numbers calls n)).isSome = true ↔
        data.getSourceTime.toInt ∈ (mapperAt numbers calls n).times ∨
          Convertible data.getSourceTime := by
    intro n data
    rw [ManagedDataValue.currentVersion, getVersion?_eq]
    split <;> rename_i h <;> simp [h]
  constructor
  · intro hall n a data hcall
    rcases (hdefined n data).mp (hall n a data hcall) with hmem | hconv
    · -- the call that made the entry converted the time
      obtain ⟨l, -, hnew, ⟨b, hmaking⟩, -⟩ := exists_making hmem
      exact ((hdefined l data).mp (hall l b data hmaking)).resolve_left hnew
    · exact hconv
  · intro hconv n a data hcall
    exact (hdefined n data).mpr (.inr (hconv n a data hcall))

end Version

/-! ## The order of the time points -/

/-- Both times have exact time points, which are different and ordered as the times are. -/
def ExactTimePoints (s t : Int64) (timePoint timePoint' : Option Int64) : Prop :=
  ∃ p q, timePoint = some p ∧ timePoint' = some q ∧
    p.toInt = (s.toInt - UA_DATETIME_UNIX_EPOCH) * 100 ∧
    q.toInt = (t.toInt - UA_DATETIME_UNIX_EPOCH) * 100 ∧ (p = q ↔ s = t) ∧ (p < q ↔ s < t)

/-- This is so for the two functions that convert them. -/
structure TimePoints (s t : Int64) : Prop where
  mapper : ExactTimePoints s t (VersionMapper.convertToTimePoint s)
    (VersionMapper.convertToTimePoint t)
  accessor : ∀ {α : Type} (data data' : ManagedDataValue α), data.getSourceTime = s →
    data'.getSourceTime = t → ExactTimePoints s t data.timePoint data'.timePoint

section Order

variable {s t : Int64}

/-- Time points are exact and in order as soon as there are any. -/
theorem exactTimePoints_iff :
    ExactTimePoints s t (timePoint s) (timePoint t) ↔ Convertible s ∧ Convertible t := by
  constructor
  · rintro ⟨p, q, hp, hq, -⟩
    exact ⟨exists_timePoint_iff.mp ⟨p, hp⟩, exists_timePoint_iff.mp ⟨q, hq⟩⟩
  · rintro ⟨hs, ht⟩
    obtain ⟨p, hp⟩ := exists_timePoint_iff.mpr hs
    obtain ⟨q, hq⟩ := exists_timePoint_iff.mpr ht
    refine ⟨p, q, hp, hq, timePoint_eq_some_iff.mp hp, timePoint_eq_some_iff.mp hq, ?_, ?_⟩
    · exact rescale_inj (by decide) hp hq
    · exact rescale_lt_iff (by decide) hp hq

end Order

/-- **Source times are converted as they should be if and only if they are those of time points.** -/
theorem timePoints_iff (s t : Int64) : TimePoints s t ↔ Convertible s ∧ Convertible t := by
  constructor
  · intro h
    exact exactTimePoints_iff.mp h.mapper
  · intro h
    refine ⟨exactTimePoints_iff.mpr h, ?_⟩
    rintro α data data' rfl rfl
    exact exactTimePoints_iff.mpr h

/-- A value without a source time, and one of the year 2020; in arithmetic that wraps around, the
former would be the later one. -/
theorem not_timePoints_noSourceTime :
    ¬ TimePoints ({} : ManagedDataValue Int).getSourceTime 132223104000000000 ∧
      convertToTimePoint 132223104000000000 < convertToTimePoint 0 := by
  refine ⟨fun h => ?_, by decide⟩
  exact absurd (exactTimePoints_iff.mp h.mapper).1 (by decide)

end OpcUaBackend
