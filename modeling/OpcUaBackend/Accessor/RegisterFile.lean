import OpcUaBackend.Accessor.ReadWindow

/-!
# The accessors of an array

Several accessors have windows of one array. Each keeps a value of its own, which it reads, is
notified of, modifies and sends as a whole; a partial one reads it anew before it writes. When
transfers come one after the other, whatever becomes of each, the accessors nevertheless share
one memory: what is read somewhere is what was put there last, by a write that was done or from
elsewhere. This takes registers that are the whole array; with a range it fails.

## Main definitions

* `RegisterFile`, `FileStep`: the server's array with the values the accessors keep, and what
  happens to them
* `patches`: what a run has put where

## Main results

* `FileStep.exec_server`: a step replaces the window of a write that is done, and nothing else
* `steps_shareMemory`: in every run the accessors share one memory
-/

namespace OpcUaBackend

open Foundation

variable {ι α κ : Type}

/-! ## Transfers of several accessors -/

/-- The server's array, and the value that each accessor keeps. -/
structure RegisterFile (ι α : Type) where
  server : List α
  kept : ι → ManagedDataValue α

inductive FileStep (ι α κ : Type)
  | read (i : ι) (answers : Answers) (buffer : List κ) (validity : DataValidity)
  | notification (i : ι) (value : ManagedDataValue α) (buffer : List κ) (validity : DataValidity)
  | write (i : ι) (answers : Answers) (buffer : List κ)
  /-- another client of the server writes the array -/
  | elsewhere (elements : List α)

section Steps

variable (accessors : ι → RegisterAccessor α κ) (toCTK : ι → Except String (α → κ))

/-- The registers are the whole array, and the windows lie in it. -/
structure OfArray (length : Nat) : Prop where
  whole : ∀ i, (accessors i).info.indexRange = ""
  arrayLength : ∀ i, (accessors i).info.arrayLength = length
  inRegister : ∀ i, (accessors i).InRegister

/-- The array keeps its length, notifications report arrays of this length, and the buffer of an
accessor has the length of its window. -/
def FileStep.Documented (length : Nat) : FileStep ι α κ → Prop
  | notification _ value _ _ =>
    value.hasValue = true → ∃ elements ∈ value.variant, elements.length = length
  | write i _ buffer => buffer.length = (accessors i).numberOfWords
  | elsewhere elements => elements.length = length
  | read .. => True

/-- The elements a buffer converts to. -/
def converted (toOpcUA : κ → Except String α) (buffer : List κ) : List α :=
  buffer.filterMap fun x => (toOpcUA x).toOption

/-- The windows that a step replaces: that of a write that is done, and the whole array when it is
written elsewhere. -/
def FileStep.written (f : RegisterFile ι α) : FileStep ι α κ → List (Nat × List α)
  | write i answers buffer =>
    if (doWriteTransfer (accessors i) answers f.server (f.kept i) buffer).outcome = .done then
      [((accessors i).offsetWords, converted (accessors i).toOpcUA buffer)]
    else []
  | elsewhere elements => [(0, elements)]
  | _ => []

variable [DecidableEq ι]

def FileStep.exec (f : RegisterFile ι α) : FileStep ι α κ → RegisterFile ι α
  | read i answers buffer validity =>
    { f with kept := Function.update f.kept i (readTransfer (accessors i) (toCTK i)
        (.read answers f.server) (f.kept i) buffer validity).data }
  | notification i value buffer validity =>
    { f with kept := Function.update f.kept i (readTransfer (accessors i) (toCTK i)
        (.notification value) (f.kept i) buffer validity).data }
  | write i answers buffer =>
    let transfer := doWriteTransfer (accessors i) answers f.server (f.kept i) buffer
    ⟨transfer.server, Function.update f.kept i transfer.data⟩
  | elsewhere elements => { f with server := elements }

/-- The accessors before their first transfer, and their transfers one after the other. -/
def registerFile : Machine (RegisterFile ι α) (FileStep ι α κ) where
  init f := f.kept = fun _ => {}
  step f s f' := s.Documented accessors f.server.length ∧ f' = s.exec accessors toCTK f

/-- The windows that are replaced in a run, in order. -/
def patches : RegisterFile ι α → List (FileStep ι α κ) → List (Nat × List α)
  | _, [] => []
  | f, s :: steps => s.written accessors f ++ patches (s.exec accessors toCTK f) steps

end Steps

/-! ## The values that are kept -/

/-- The value is one of the array, or there is none. -/
structure ManagedDataValue.OfLength (length : Nat) (d : ManagedDataValue α) : Prop where
  value : d.hasValue = true → ∃ elements, d.variant = some elements ∧ elements.length = length
  noValue : d.hasValue = false → d.variant = none ∧ d.status.isGood = true

section Kept

variable {a : RegisterAccessor α κ} {length : Nat} {d : ManagedDataValue α} {server : List α}

theorem ManagedDataValue.OfLength.empty : ({} : ManagedDataValue α).OfLength length :=
  ⟨fun h => absurd h Bool.false_ne_true, fun _ => ⟨rfl, rfl⟩⟩

/-- Without a range the whole value is copied. -/
theorem ManagedDataValue.OfLength.copyVariant (h : d.OfLength length) (ranges : Ranges α)
    (server : List α) (now : Int) :
    (d.copyVariant ranges server "" now).hasValue = true ∧
      (d.copyVariant ranges server "" now).variant = some server := by
  have hgood : d.prepare.status.isGood = true := by
    unfold prepare
    split
    · rfl
    · rename_i hvalue
      exact (h.noValue (by simpa using hvalue)).2
  unfold ManagedDataValue.copyVariant copyPayload
  simp only [if_true, hgood, and_self]

theorem ManagedDataValue.OfLength.read (h : d.OfLength server.length)
    (hwhole : a.info.indexRange = "") (answers : Answers) :
    (doReadTransferSynchronously a answers server d).data.OfLength server.length := by
  unfold doReadTransferSynchronously checkActiveException
  split
  · exact h
  · split
    · obtain ⟨hvalue, hvariant⟩ := h.copyVariant a.ranges server answers.now
      rw [hwhole]
      exact ⟨fun _ => ⟨server, hvariant, rfl⟩, fun hnone => by simp [hvalue] at hnone⟩
    · exact h

theorem ManagedDataValue.OfLength.readTransfer (h : d.OfLength server.length)
    (hwhole : a.info.indexRange = "") (toCTK : Except String (α → κ)) (answers : Answers)
    (buffer : List κ) (validity : DataValidity) :
    (readTransfer a toCTK (.read answers server) d buffer validity).data.OfLength
      server.length := by
  have hread := h.read hwhole answers
  unfold OpcUaBackend.readTransfer
  simp only
  split
  · rwa [doPostRead_data]
  · simpa only [doPostRead_data] using hread

theorem ManagedDataValue.OfLength.notified (h : d.OfLength length)
    (toCTK : Except String (α → κ)) {value : ManagedDataValue α}
    (hvalue : value.hasValue = true → ∃ elements ∈ value.variant, elements.length = length)
    (buffer : List κ) (validity : DataValidity) :
    (OpcUaBackend.readTransfer a toCTK (.notification value) d buffer validity).data.OfLength
      length := by
  unfold OpcUaBackend.readTransfer
  simp only
  split
  · rename_i hsome
    rw [doPostRead_data]
    exact ⟨hvalue, fun hnone => by simp [hsome] at hnone⟩
  · simpa only [doPostRead_data] using h

end Kept

/-! ## A write, whatever becomes of it -/

theorem converted_eq {toOpcUA : κ → Except String α} {buffer : List κ} {ys : List α}
    (h : Converts toOpcUA buffer ys) : converted toOpcUA buffer = ys := by
  induction h with
  | nil => rfl
  | cons hxy _ ih =>
    rw [converted, List.filterMap_cons, hxy]
    exact congrArg _ ih

section Write

variable (a : RegisterAccessor α κ) (answers : Answers) (server : List α)
  (d : ManagedDataValue α) (buffer : List κ)

variable {a buffer} in
/-- What the end of a write leaves: the window is replaced when it is done, else nothing is sent. -/
theorem modifyAndWrite_server {elements : List α}
    (hin : a.offsetWords + buffer.length ≤ elements.length) :
    ((modifyAndWrite a answers server elements d buffer).outcome = .done →
      (modifyAndWrite a answers server elements d buffer).server
        = splice a.offsetWords (converted a.toOpcUA buffer) elements ∧
          (converted a.toOpcUA buffer).length = buffer.length) ∧
    ((modifyAndWrite a answers server elements d buffer).outcome ≠ .done →
      (modifyAndWrite a answers server elements d buffer).server = server) := by
  unfold modifyAndWrite
  simp only
  split
  · rename_i hdone
    obtain ⟨ys, hys⟩ := converts_of_overwrite_done hdone
    have hlen := hys.length_eq
    have heq : overwrite a.toOpcUA a.cleared a.offsetWords buffer elements
        = (splice a.offsetWords ys elements, .done) :=
      overwrite_eq_splice hys (by omega)
    rw [heq, converted_eq hys]
    unfold writeValue handleError
    split
    · exact ⟨fun _ => ⟨rfl, hlen.symm⟩, fun hne => absurd rfl hne⟩
    · split <;> exact ⟨fun h => (by cases h), fun _ => rfl⟩
  · rename_i hfailed
    exact ⟨fun h => absurd h hfailed, fun _ => rfl⟩

variable {d} in
/-- What the end of a write keeps. -/
theorem modifyAndWrite_kept {elements : List α} (hvalue : d.hasValue = true) :
    (modifyAndWrite a answers server elements d buffer).data.OfLength elements.length := by
  have hdata : (modifyAndWrite a answers server elements d buffer).data = { d with
      variant := some (overwrite a.toOpcUA a.cleared a.offsetWords buffer elements).1 } := by
    unfold modifyAndWrite writeValue
    simp only
    split
    · split
      · rfl
      · split <;> rfl
    · rfl
  rw [hdata]
  exact ⟨fun _ => ⟨_, rfl, overwrite_length ..⟩, fun hnone => by simp [hvalue] at hnone⟩

variable {a server d} in
/-- A write either ends with the read before it, or goes on with the array that was read or, where
the window is the whole array, with the one that is kept. -/
theorem doWriteTransfer_cases (hk : d.OfLength server.length) (hwhole : a.info.indexRange = "") :
    (∃ d', d'.OfLength server.length ∧ (doWriteTransfer a answers server d buffer).data = d' ∧
      (doWriteTransfer a answers server d buffer).server = server ∧
      (doWriteTransfer a answers server d buffer).outcome ≠ .done ∧ ¬ answers.Good) ∨
    ∃ d' elements, d'.hasValue = true ∧ elements.length = server.length ∧
      (elements = server ∨ a.isPartial = false) ∧
      doWriteTransfer a answers server d buffer
        = modifyAndWrite a answers server elements d' buffer := by
  unfold doWriteTransfer checkActiveException
  split
  · rename_i message hactive
    exact .inl ⟨d, hk, rfl, rfl, by simp, fun hg => by simp [hg.activeException] at hactive⟩
  · rename_i hactive
    unfold readBeforeWrite
    by_cases hneeds : (a.isPartial || !d.hasValue) = true
    · have hread := hk.read hwhole answers
      simp only [if_pos hneeds]
      unfold doReadTransferSynchronously checkActiveException at hread ⊢
      simp only [hactive] at hread ⊢
      by_cases hgood : answers.read.isGood = true
      · -- the array was read
        obtain ⟨hvalue, hvariant⟩ := hk.copyVariant a.ranges server answers.now
        simp only [if_pos hgood, hwhole, if_true, hvariant]
        exact .inr ⟨_, server, hvalue, rfl, .inl rfl, rfl⟩
      · simp only [if_neg hgood] at hread ⊢
        rw [if_neg (by simp [handleError])]
        exact .inl ⟨d, hk, rfl, rfl, by simp [handleError], fun hg => hgood hg.read⟩
    · obtain ⟨hfull, hvalue⟩ : a.isPartial = false ∧ d.hasValue = true := by simpa using hneeds
      obtain ⟨elements, hvariant, hlen⟩ := hk.value hvalue
      simp only [if_neg hneeds, if_true, hvariant]
      exact .inr ⟨d, elements, hvalue, hlen, .inr hfull, rfl⟩

end Write

/-! ## Steps -/

section Run

variable {accessors : ι → RegisterAccessor α κ} {toCTK : ι → Except String (α → κ)}
  {f f' : RegisterFile ι α}

/-- Every accessor keeps a value of the array, or none. -/
def RegisterFile.Kept (f : RegisterFile ι α) : Prop :=
  ∀ i, (f.kept i).OfLength f.server.length

/-- The array that a write goes on with counts only in the window. -/
theorem splice_kept (ha : OfArray accessors f.server.length) {i : ι} {elements ys : List α}
    (hys : ys.length = (accessors i).numberOfWords) (hlen : elements.length = f.server.length)
    (hor : elements = f.server ∨ (accessors i).isPartial = false) :
    splice (accessors i).offsetWords ys elements
      = splice (accessors i).offsetWords ys f.server := by
  rcases hor with rfl | hfull
  · rfl
  · have hwords : f.server.length = (accessors i).numberOfWords := by
      rw [← ha.arrayLength i]
      simpa [RegisterAccessor.isPartial] using hfull
    obtain ⟨hpos, hin⟩ := ha.inRegister i
    rw [ha.arrayLength i] at hin
    have hzero : (accessors i).offsetWords = 0 := by omega
    rw [hzero, splice_full (by omega), splice_full (by omega)]

/-- What a write puts where, and what its accessor keeps. -/
theorem write_patches (ha : OfArray accessors f.server.length) (hk : f.Kept) (i : ι)
    (answers : Answers) {buffer : List κ} (hbuffer : buffer.length = (accessors i).numberOfWords) :
    (doWriteTransfer (accessors i) answers f.server (f.kept i) buffer).server
        = patched f.server ((FileStep.write i answers buffer).written accessors f) ∧
      (∀ p ∈ (FileStep.write i answers buffer).written accessors f,
        p.1 + p.2.length ≤ f.server.length) ∧
      (doWriteTransfer (accessors i) answers f.server (f.kept i) buffer).data.OfLength
        f.server.length := by
  obtain ⟨-, hin⟩ := ha.inRegister i
  rw [ha.arrayLength i] at hin
  simp only [FileStep.written]
  rcases doWriteTransfer_cases answers buffer (hk i) (ha.whole i) with
    ⟨d', hd', hdata, hserver, hfailed, -⟩ | ⟨d', elements, hvalue, hlen, hor, he⟩
  · rw [if_neg hfailed, hserver, hdata]
    exact ⟨rfl, by simp, hd'⟩
  · rw [he]
    have hkept : (modifyAndWrite (accessors i) answers f.server elements d' buffer).data.OfLength
        elements.length := modifyAndWrite_kept (accessors i) answers f.server buffer hvalue
    obtain ⟨hdone, hfailed⟩ := modifyAndWrite_server answers f.server d'
      (show (accessors i).offsetWords + buffer.length ≤ elements.length by omega)
    by_cases hout : (modifyAndWrite (accessors i) answers f.server elements d' buffer).outcome
        = .done
    · obtain ⟨hserver, hconv⟩ := hdone hout
      rw [if_pos hout, hserver, splice_kept ha (hconv.trans hbuffer) hlen hor]
      refine ⟨rfl, fun p hp => ?_, hlen ▸ hkept⟩
      obtain rfl := List.mem_singleton.mp hp
      simp only
      omega
    · rw [if_neg hout, hfailed hout]
      exact ⟨rfl, by simp, hlen ▸ hkept⟩

/-- A read whose call is answered GOOD takes the window of the array. -/
theorem readTransfer_window (ha : OfArray accessors f.server.length) (hk : f.Kept) (i : ι)
    {answers : Answers} {buffer : List κ} (convert : α → κ) (validity : DataValidity)
    (hactive : answers.activeException = none) (hread : answers.read.isGood = true)
    (hbuffer : buffer.length = (accessors i).numberOfWords) :
    let result := readTransfer (accessors i) (.ok convert) (.read answers f.server) (f.kept i)
      buffer validity
    result.outcome = .done ∧ result.validity = .ok ∧
      result.buffer = ((f.server.drop (accessors i).offsetWords).take
        (accessors i).numberOfWords).map convert := by
  obtain ⟨-, hin⟩ := ha.inRegister i
  rw [ha.arrayLength i] at hin
  obtain ⟨hvalue, hvariant⟩ := (hk i).copyVariant (accessors i).ranges f.server answers.now
  have htransfer : doReadTransferSynchronously (accessors i) answers f.server (f.kept i)
      = ⟨f.server, (f.kept i).copyVariant (accessors i).ranges f.server "" answers.now, .done⟩ := by
    unfold doReadTransferSynchronously checkActiveException
    rw [hactive, if_pos hread, ha.whole i]
  have helements : ((f.kept i).copyVariant (accessors i).ranges f.server "" answers.now).variant.getD
      [] = f.server := by
    rw [hvariant]
    rfl
  simp only [readTransfer, htransfer, if_true]
  rw [doPostRead_value hvalue helements, readWindow_within (by omega), hbuffer]
  exact ⟨rfl, rfl, rfl⟩

/-- A write whose calls are answered GOOD and whose elements convert is done. -/
theorem doWriteTransfer_done (ha : OfArray accessors f.server.length) (hk : f.Kept) (i : ι)
    {answers : Answers} {buffer : List κ} {ys : List α} (hg : answers.Good)
    (hbuffer : buffer.length = (accessors i).numberOfWords)
    (hconv : Converts (accessors i).toOpcUA buffer ys) :
    (doWriteTransfer (accessors i) answers f.server (f.kept i) buffer).outcome = .done := by
  obtain ⟨-, hin⟩ := ha.inRegister i
  rw [ha.arrayLength i] at hin
  have hys := hconv.length_eq
  rcases doWriteTransfer_cases answers buffer (hk i) (ha.whole i) with
    ⟨-, -, -, -, -, hbad⟩ | ⟨d', elements, -, hlen, -, he⟩
  · exact absurd hg hbad
  · rw [he]
    exact (modifyAndWrite_done f.server d' hg hconv (by omega)).1

variable [DecidableEq ι]

theorem kept_update (hk : f.Kept) {i : ι} {d : ManagedDataValue α} {server : List α}
    (hlen : server.length = f.server.length) (hd : d.OfLength f.server.length) :
    RegisterFile.Kept ⟨server, Function.update f.kept i d⟩ := by
  intro j
  show (Function.update f.kept i d j).OfLength server.length
  rw [hlen]
  by_cases hij : j = i
  · subst hij
    rwa [Function.update_self]
  · rw [Function.update_of_ne hij]
    exact hk j

/-- **A step** replaces the window of a write that is done, and nothing else. -/
theorem FileStep.exec_server (toCTK : ι → Except String (α → κ))
    (ha : OfArray accessors f.server.length) (hk : f.Kept)
    {s : FileStep ι α κ} (hd : s.Documented accessors f.server.length) :
    (s.exec accessors toCTK f).server = patched f.server (s.written accessors f) ∧
      (∀ p ∈ s.written accessors f, p.1 + p.2.length ≤ f.server.length) ∧
      (s.exec accessors toCTK f).Kept := by
  cases s with
  | read i answers buffer validity =>
    refine ⟨rfl, by simp [written], kept_update hk rfl ?_⟩
    exact (hk i).readTransfer (ha.whole i) (toCTK i) answers buffer validity
  | notification i value buffer validity =>
    refine ⟨rfl, by simp [written], kept_update hk rfl ?_⟩
    exact (hk i).notified (toCTK i) hd buffer validity
  | write i answers buffer =>
    obtain ⟨hserver, hfits, hdata⟩ := write_patches ha hk i answers hd
    refine ⟨hserver, hfits, kept_update hk ?_ hdata⟩
    rw [hserver, length_patched hfits]
  | elsewhere elements =>
    have hlen : elements.length = f.server.length := hd
    refine ⟨(splice_full hlen).symm, ?_, ?_⟩
    · simp [written, hlen]
    · intro i
      show (f.kept i).OfLength elements.length
      rw [hlen]
      exact hk i

/-- **A run** replaces the windows of the writes that are done, one after the other. -/
theorem steps_patches {steps : List (FileStep ι α κ)} (ha : OfArray accessors f.server.length)
    (hk : f.Kept) (hs : (registerFile accessors toCTK).Steps (fun _ _ => True) f steps f') :
    f'.server = patched f.server (patches accessors toCTK f steps) ∧
      (∀ p ∈ patches accessors toCTK f steps, p.1 + p.2.length ≤ f.server.length) ∧
      f'.Kept := by
  induction hs with
  | nil => exact ⟨rfl, by simp [patches], hk⟩
  | @cons f s f₁ steps f' _ hstep _ ih =>
    obtain ⟨hd, rfl⟩ := hstep
    obtain ⟨hserver, hfits, hk₁⟩ := FileStep.exec_server toCTK ha hk hd
    have hlen : (s.exec accessors toCTK f).server.length = f.server.length := by
      rw [hserver, length_patched hfits]
    obtain ⟨hserver', hfits', hk'⟩ := ih (hlen ▸ ha) hk₁
    rw [hlen] at hfits'
    refine ⟨?_, ?_, hk'⟩
    · rw [patches, patched_append, ← hserver]
      exact hserver'
    · rw [patches]
      exact List.forall_mem_append.mpr ⟨hfits, hfits'⟩

/-! ## One memory -/

/-- **One memory.** After every run of the accessors' transfers, whatever became of each, a read
that is answered GOOD yields at every element of its window what was put there last, by the write
of some accessor or from elsewhere, or what the array held at the start; and a write that is
answered GOOD and whose elements convert is done. -/
theorem steps_shareMemory {steps : List (FileStep ι α κ)}
    (ha : OfArray accessors f.server.length) (hf : f.kept = fun _ => {})
    (hs : (registerFile accessors toCTK).Steps (fun _ _ => True) f steps f') (i : ι)
    {answers : Answers} (hg : answers.Good) {buffer : List κ}
    (hbuffer : buffer.length = (accessors i).numberOfWords) :
    (∀ convert validity, toCTK i = .ok convert →
      let result := readTransfer (accessors i) (toCTK i) (.read answers f'.server) (f'.kept i)
        buffer validity
      result.outcome = .done ∧ result.validity = .ok ∧
        result.buffer.length = (accessors i).numberOfWords ∧
        ∀ j < (accessors i).numberOfWords, result.buffer[j]?
          = ((latest (patches accessors toCTK f steps) ((accessors i).offsetWords + j)).or
              f.server[(accessors i).offsetWords + j]?).map convert) ∧
    ((∃ ys, Converts (accessors i).toOpcUA buffer ys) →
      (doWriteTransfer (accessors i) answers f'.server (f'.kept i) buffer).outcome = .done) := by
  have hk : f.Kept := fun i => by
    rw [hf]
    exact .empty
  obtain ⟨hserver, hfits, hk'⟩ := steps_patches ha hk hs
  have ha' : OfArray accessors f'.server.length := by
    rw [hserver, length_patched hfits]
    exact ha
  refine ⟨fun convert validity hconvert => ?_, fun ⟨ys, hys⟩ =>
    doWriteTransfer_done ha' hk' i hg hbuffer hys⟩
  obtain ⟨hdone, hvalid, hwindow⟩ := readTransfer_window ha' hk' i convert validity
    hg.activeException hg.read hbuffer
  obtain ⟨-, hin⟩ := ha'.inRegister i
  rw [ha'.arrayLength i] at hin
  simp only [hconvert]
  refine ⟨hdone, hvalid, ?_, fun j hj => ?_⟩
  · rw [hwindow, List.length_map, List.length_take, List.length_drop]
    omega
  · rw [hwindow, List.getElem?_map, List.getElem?_take_of_lt hj, List.getElem?_drop, hserver,
      getElem?_patched hfits]

end Run

/-- Two accessors of two elements that share one of them. -/
def overlapping : Bool → RegisterAccessor Int Int
  | false => twoElements "" 5 1
  | true => twoElements "" 5 2

/-- Five elements, and accessors that have not transferred anything. -/
def fiveElements : RegisterFile Bool Int := ⟨[10, 11, 12, 13, 14], fun _ => {}⟩

/-- A write of the one, a write of the other that is refused, and one that is done. -/
def overlappingWrites : List (FileStep Bool Int Int) :=
  [.write false {} [7, 8], .write true { write := ⟨UA_STATUSCODE_BADNOTWRITABLE, "Bad"⟩ } [1, 1],
    .write true {} [9, 9]]

theorem overlapping_ofArray : OfArray overlapping fiveElements.server.length := by
  constructor <;> rintro (_ | _) <;> first | rfl | exact ⟨by decide, by decide⟩

/-- The state after the steps. -/
def RegisterFile.after (accessors : Bool → RegisterAccessor Int Int) (f : RegisterFile Bool Int)
    (steps : List (FileStep Bool Int Int)) : RegisterFile Bool Int :=
  steps.foldl (fun f s => s.exec accessors (fun _ => .ok id) f) f

theorem overlapping_steps : (registerFile overlapping fun _ => .ok id).Steps (fun _ _ => True)
    fiveElements overlappingWrites (fiveElements.after overlapping overlappingWrites) :=
  .cons trivial ⟨rfl, rfl⟩ (.cons trivial ⟨rfl, rfl⟩ (.cons trivial ⟨rfl, rfl⟩ (.nil _)))

theorem steps_shareMemory_overlapping :
    let f' := fiveElements.after overlapping overlappingWrites
    let result := readTransfer (overlapping false) (.ok id) (.read {} f'.server) (f'.kept false)
      [0, 0] .faulty
    result.outcome = .done ∧ result.validity = .ok ∧ result.buffer.length = 2 ∧
      ∀ j < 2, result.buffer[j]? = ((latest (patches overlapping (fun _ => .ok id) fiveElements
        overlappingWrites) (1 + j)).or fiveElements.server[1 + j]?).map id :=
  (steps_shareMemory overlapping_ofArray rfl overlapping_steps false Answers.good_default rfl).1
    id .faulty rfl

-- the element that both have is the one written last
example : latest (patches overlapping (fun _ => .ok id) fiveElements overlappingWrites) 2
    = some 9 := by decide

end OpcUaBackend
