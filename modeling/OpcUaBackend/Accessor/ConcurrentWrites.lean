import OpcUaBackend.Accessor.WriteWindow

/-!
# Two writes at once

A partial write reads the array under `client_lock`, modifies its window without the lock, and
writes the array under the lock again. Two writes to disjoint windows of one register therefore
interleave in three steps each. The one that writes last sends what it read with its own window
modified. So the other's elements are there exactly when it read after the other had written,
or when they were no change.

## Main definitions

* `WritePair`, `Writers`, `advance`: two writes and their steps
* `Merges`: the array has both windows, and its old elements elsewhere
* `ReadsAfter`: a writer read after the other had written

## Main results

* `advance_alone`: a write that is not interrupted is `doWriteTransfer`
* `reach_merges_iff`: when both windows are there
-/

namespace OpcUaBackend

open Foundation

variable {α κ : Type}

/-! ## The steps -/

/-- Two writes: the accessors with the values they keep, the buffers and the answers. -/
structure WritePair (α κ : Type) where
  accessor : Bool → RegisterAccessor α κ
  data : Bool → ManagedDataValue α
  buffer : Bool → List κ
  answers : Bool → Answers

/-- Where a write stands. -/
inductive Stage (α : Type)
  | start
  /-- the array is read -/
  | holds (elements : List α) (data : ManagedDataValue α)
  /-- the window is modified -/
  | modified (elements : List α) (data : ManagedDataValue α)
  | finished (data : ManagedDataValue α) (outcome : Outcome)

inductive WriterEvent
  | read (writer : Bool)
  | wrote (writer : Bool)
  deriving DecidableEq, Repr

/-- The server's array, the two writes, and what they did to the array, newest first. -/
structure Writers (α : Type) where
  server : List α
  stage : Bool → Stage α := fun _ => .start
  history : List WriterEvent := []

/-- The first critical section of `doWriteTransfer`: what the write goes on with. -/
def readStage (a : RegisterAccessor α κ) (answers : Answers) (server : List α)
    (data : ManagedDataValue α) : Stage α :=
  match answers.activeException with
  | some message => .finished data (.runtimeError message)
  | none =>
    let read := readBeforeWrite a answers server data
    if read.outcome = .done then
      match read.data.variant with
      | some elements => .holds elements read.data
      | none => .finished read.data .undefinedBehaviour
    else .finished read.data read.outcome

/-- The modification of the window. -/
def modifyStage (a : RegisterAccessor α κ) (elements : List α) (data : ManagedDataValue α)
    (buffer : List κ) : Stage α :=
  let (elements, outcome) := overwrite a.toOpcUA a.cleared a.offsetWords buffer elements
  let data := { data with variant := some elements }
  if outcome = .done then .modified elements data else .finished data outcome

/-- The next step of one of the writes. -/
def advance (p : WritePair α κ) (s : Writers α) (t : Bool) : Writers α :=
  match s.stage t with
  | .start =>
    { s with
      stage := Function.update s.stage t
        (readStage (p.accessor t) (p.answers t) s.server (p.data t))
      history := .read t :: s.history }
  | .holds elements data =>
    { s with
      stage := Function.update s.stage t (modifyStage (p.accessor t) elements data (p.buffer t)) }
  | .modified elements data =>
    let write := writeValue (p.accessor t) (p.answers t) s.server elements data
    { server := write.server
      stage := Function.update s.stage t (.finished write.data write.outcome)
      history := .wrote t :: s.history }
  | .finished _ _ => s

theorem readBeforeWrite_server (a : RegisterAccessor α κ) (answers : Answers) (server : List α)
    (data : ManagedDataValue α) : (readBeforeWrite a answers server data).server = server := by
  unfold readBeforeWrite doReadTransferSynchronously checkActiveException
  split
  · split
    · rfl
    · split <;> rfl
  · rfl

section Advance

variable {p : WritePair α κ} {s : Writers α} {t : Bool}

theorem advance_start (hs : s.stage t = .start) : advance p s t = { s with
    stage := Function.update s.stage t
      (readStage (p.accessor t) (p.answers t) s.server (p.data t))
    history := .read t :: s.history } := by
  rw [advance, hs]

theorem advance_holds {elements : List α} {data : ManagedDataValue α}
    (hs : s.stage t = .holds elements data) : advance p s t = { s with
      stage := Function.update s.stage t
        (modifyStage (p.accessor t) elements data (p.buffer t)) } := by
  rw [advance, hs]

theorem advance_modified {elements : List α} {data : ManagedDataValue α}
    (hs : s.stage t = .modified elements data) : advance p s t =
      { server := (writeValue (p.accessor t) (p.answers t) s.server elements data).server
        stage := Function.update s.stage t (.finished
          (writeValue (p.accessor t) (p.answers t) s.server elements data).data
          (writeValue (p.accessor t) (p.answers t) s.server elements data).outcome)
        history := .wrote t :: s.history } := by
  rw [advance, hs]

theorem advance_finished {data : ManagedDataValue α} {outcome : Outcome}
    (hs : s.stage t = .finished data outcome) : advance p s t = s := by
  rw [advance, hs]

/-- A write that is not interrupted is `doWriteTransfer`. -/
theorem advance_alone (p : WritePair α κ) (hs : s.stage t = .start) :
    let s' := advance p (advance p (advance p s t) t) t
    let transfer := doWriteTransfer (p.accessor t) (p.answers t) s.server (p.data t) (p.buffer t)
    s'.server = transfer.server ∧ s'.stage t = .finished transfer.data transfer.outcome := by
  intro s' transfer
  obtain ⟨hserver, hstage⟩ : (advance p s t).server = s.server ∧ (advance p s t).stage t
      = readStage (p.accessor t) (p.answers t) s.server (p.data t) := by
    rw [advance_start hs]
    exact ⟨rfl, Function.update_self ..⟩
  simp only [s', transfer]
  generalize advance p s t = s₁ at hserver hstage ⊢
  unfold readStage at hstage
  unfold doWriteTransfer checkActiveException
  cases hactive : (p.answers t).activeException with
  | some message =>
    rw [hactive] at hstage
    rw [advance_finished hstage, advance_finished hstage]
    exact ⟨hserver, hstage⟩
  | none =>
    rw [hactive] at hstage
    simp only at hstage ⊢
    have hread := readBeforeWrite_server (p.accessor t) (p.answers t) s.server (p.data t)
    generalize readBeforeWrite (p.accessor t) (p.answers t) s.server (p.data t) = read at hread hstage ⊢
    by_cases hdone : read.outcome = .done
    · rw [if_pos hdone] at hstage ⊢
      cases hvariant : read.data.variant with
      | none =>
        rw [hvariant] at hstage
        rw [advance_finished hstage, advance_finished hstage]
        exact ⟨hserver, hstage⟩
      | some elements =>
        rw [hvariant] at hstage
        rw [advance_holds hstage]
        simp only [modifyStage, modifyAndWrite]
        split
        · rw [advance_modified (Function.update_self ..), hserver]
          exact ⟨rfl, Function.update_self ..⟩
        · rw [advance_finished (Function.update_self ..)]
          exact ⟨hserver, Function.update_self ..⟩
    · rw [if_neg hdone] at hstage ⊢
      rw [advance_finished hstage, advance_finished hstage]
      exact ⟨hserver.trans hread.symm, hstage⟩

end Advance

/-! ## The windows -/

/-- Two writes that the claimed property is about: two windows that do not meet, of accessors of
one register, set up for arrays of the length of `v`, whose buffers convert to `ys` and whose
calls are answered GOOD. -/
structure WritePair.Legal (p : WritePair α κ) (v : List α) (ys : Bool → List α) : Prop where
  documented : ∀ t, (p.accessor t).ranges.Documented
  setUp : ∀ t, SetUp (p.accessor t) v.length
  register : (p.accessor false).info = (p.accessor true).info
  ranges : (p.accessor false).ranges = (p.accessor true).ranges
  disjoint : Apart (p.accessor false).offsetWords (p.accessor false).numberOfWords
    (p.accessor true).offsetWords (p.accessor true).numberOfWords
  data : ∀ t, (accesses (p.accessor t)).Reachable (p.data t)
  buffer : ∀ t, (p.buffer t).length = (p.accessor t).numberOfWords
  converts : ∀ t, Converts (p.accessor t).toOpcUA (p.buffer t) (ys t)
  answers : ∀ t, (p.answers t).Good

/-- The first element of a window in the array. -/
def WritePair.start (p : WritePair α κ) (t : Bool) : Nat :=
  (p.accessor t).rangeMin + (p.accessor t).offsetWords

section Legal

variable {p : WritePair α κ} {v : List α} {ys : Bool → List α} {s : Writers α}

theorem WritePair.Legal.length_ys (h : p.Legal v ys) (t : Bool) :
    (ys t).length = (p.accessor t).numberOfWords :=
  (h.converts t).length_eq ▸ h.buffer t

theorem WritePair.Legal.info (h : p.Legal v ys) (t : Bool) :
    (p.accessor t).info = (p.accessor true).info := by
  cases t
  · exact h.register
  · rfl

/-- Neither window is the whole register, so that both writes read. -/
theorem WritePair.Legal.isPartial (h : p.Legal v ys) (t : Bool) :
    (p.accessor t).isPartial = true := by
  obtain ⟨hpos, hin⟩ := (h.setUp t).inRegister
  obtain ⟨hpos', hin'⟩ := (h.setUp !t).inRegister
  have hinfo : (p.accessor !t).info.arrayLength = (p.accessor t).info.arrayLength := by
    rw [h.info t, h.info !t]
  have hapart : Apart (p.accessor t).offsetWords (p.accessor t).numberOfWords
      (p.accessor !t).offsetWords (p.accessor !t).numberOfWords := by
    cases t
    · exact h.disjoint
    · exact h.disjoint.symm
  unfold Apart at hapart
  simp only [RegisterAccessor.isPartial, bne_iff_ne]
  omega

/-- What a write reads. -/
theorem WritePair.Legal.readStage (h : p.Legal v ys) (t : Bool) (server : List α) :
    readStage (p.accessor t) (p.answers t) server (p.data t) =
      match ((p.data t).copyVariant (p.accessor t).ranges server (p.accessor t).info.indexRange
        (p.answers t).now).variant with
      | some elements => .holds elements ((p.data t).copyVariant (p.accessor t).ranges server
          (p.accessor t).info.indexRange (p.answers t).now)
      | none => .finished ((p.data t).copyVariant (p.accessor t).ranges server
          (p.accessor t).info.indexRange (p.answers t).now) .undefinedBehaviour := by
  have hread : readBeforeWrite (p.accessor t) (p.answers t) server (p.data t)
      = ⟨server, (p.data t).copyVariant (p.accessor t).ranges server
          (p.accessor t).info.indexRange (p.answers t).now, .done⟩ := by
    unfold readBeforeWrite doReadTransferSynchronously checkActiveException
    rw [if_pos (by simp [h.isPartial t]), (h.answers t).activeException]
    simp only [(h.answers t).read, if_true]
  unfold OpcUaBackend.readStage
  rw [(h.answers t).activeException, hread]
  rfl

end Legal

/-! ## The order of the reads and writes -/

/-- The writer read after the other one had written. -/
def ReadsAfter (t : Bool) : List WriterEvent → Prop
  | [] => False
  | e :: past => (e = .read t ∧ .wrote (!t) ∈ past) ∨ ReadsAfter t past

instance ReadsAfter.decidable (t : Bool) : (h : List WriterEvent) → Decidable (ReadsAfter t h)
  | [] => .isFalse id
  | _ :: past => @instDecidableOr _ _ _ (ReadsAfter.decidable t past)

/-- The writer that wrote last. -/
def lastWriter (h : List WriterEvent) : Option Bool :=
  h.findSome? fun
    | .wrote t => some t
    | .read _ => none

section Order

variable {t b : Bool} {h : List WriterEvent}

theorem ReadsAfter.wrote (hr : ReadsAfter t h) : .wrote (!t) ∈ h := by
  induction h with
  | nil => exact hr.elim
  | cons e past ih =>
    rcases hr with ⟨-, hmem⟩ | hr
    · exact List.mem_cons_of_mem _ hmem
    · exact List.mem_cons_of_mem _ (ih hr)

theorem ReadsAfter.read (hr : ReadsAfter t h) : .read t ∈ h := by
  induction h with
  | nil => exact hr.elim
  | cons e past ih =>
    rcases hr with ⟨he, -⟩ | hr
    · exact he ▸ List.mem_cons_self ..
    · exact List.mem_cons_of_mem _ (ih hr)

theorem readsAfter_wrote : ReadsAfter t (.wrote b :: h) ↔ ReadsAfter t h := by
  simp [ReadsAfter]

theorem readsAfter_read_of_ne (hne : b ≠ t) : ReadsAfter t (.read b :: h) ↔ ReadsAfter t h := by
  simp [ReadsAfter, hne]

theorem readsAfter_first_read (hno : .read t ∉ h) :
    ReadsAfter t (.read t :: h) ↔ .wrote (!t) ∈ h := by
  have hnone : ¬ ReadsAfter t h := fun hr => hno hr.read
  simp [ReadsAfter, hnone]

theorem lastWriter_mem (hl : lastWriter h = some b) : .wrote b ∈ h := by
  obtain ⟨e, hmem, he⟩ := List.exists_of_findSome?_eq_some hl
  cases e with
  | wrote t =>
    obtain rfl := Option.some_inj.mp he
    exact hmem
  | read t => cases he

theorem lastWriter_of_mem (hmem : .wrote t ∈ h) (hno : .wrote (!t) ∉ h) :
    lastWriter h = some t := by
  cases hl : lastWriter h with
  | none => exact absurd (List.findSome?_eq_none_iff.mp hl _ hmem) (by simp)
  | some b =>
    by_cases hb : b = t
    · rw [hb]
    · have hother : b = !t := Bool.eq_not_of_ne hb
      exact absurd (hother ▸ lastWriter_mem hl) hno

theorem lastWriter_eq_none (hno : ∀ t, .wrote t ∉ h) : lastWriter h = none := by
  refine List.findSome?_eq_none_iff.mpr fun e hmem => ?_
  cases e with
  | wrote t => exact absurd hmem (hno t)
  | read t => rfl

end Order

/-! ## A register that is the whole array -/

section Whole

variable {p : WritePair α κ} {v : List α} {ys : Bool → List α} {s : Writers α}

/-- The array with a writer's window. -/
def WritePair.with (p : WritePair α κ) (ys : Bool → List α) (t : Bool) (v : List α) : List α :=
  splice (p.accessor t).offsetWords (ys t) v

/-- The array that a writer read. -/
def WritePair.readArray (p : WritePair α κ) (ys : Bool → List α) (v : List α)
    (h : List WriterEvent) (t : Bool) : List α :=
  if ReadsAfter t h then p.with ys (!t) v else v

/-- What a write holds, in terms of the order of the reads and writes. -/
def Stage.Follows (p : WritePair α κ) (v : List α) (ys : Bool → List α) (h : List WriterEvent)
    (t : Bool) : Stage α → Prop
  | .start => .read t ∉ h ∧ .wrote t ∉ h
  | .holds elements _ => .wrote t ∉ h ∧ elements = p.readArray ys v h t
  | .modified elements _ => .wrote t ∉ h ∧ elements = p.with ys t (p.readArray ys v h t)
  | .finished _ outcome => outcome = .done ∧ .wrote t ∈ h

/-- The array is what the last writer sent. -/
structure Whole (p : WritePair α κ) (v : List α) (ys : Bool → List α) (s : Writers α) : Prop where
  stage : ∀ t, (s.stage t).Follows p v ys s.history t
  server : s.server = match lastWriter s.history with
    | none => v
    | some b => p.with ys b (p.readArray ys v s.history b)

theorem WritePair.Legal.length_with (h : p.Legal v ys)
    (hwhole : (p.accessor true).info.arrayLength = v.length) (t : Bool) {u : List α}
    (hu : u.length = v.length) :
    (p.accessor t).offsetWords + (ys t).length ≤ u.length ∧ (p.with ys t u).length = v.length := by
  have hin : (p.accessor t).offsetWords + (ys t).length ≤ u.length := by
    obtain ⟨-, hin⟩ := (h.setUp t).inRegister
    have hys := h.length_ys t
    have hreg : (p.accessor t).info.arrayLength = v.length := h.info t ▸ hwhole
    omega
  exact ⟨hin, (length_splice hin).trans hu⟩

theorem WritePair.Legal.length_readArray (h : p.Legal v ys)
    (hwhole : (p.accessor true).info.arrayLength = v.length) (hist : List WriterEvent) (t : Bool) :
    (p.readArray ys v hist t).length = v.length := by
  unfold WritePair.readArray
  split
  · exact (h.length_with hwhole _ rfl).2
  · rfl

theorem Whole.length_server (hs : Whole p v ys s) (h : p.Legal v ys)
    (hwhole : (p.accessor true).info.arrayLength = v.length) : s.server.length = v.length := by
  rw [hs.server]
  split
  · rfl
  · exact (h.length_with hwhole _ (h.length_readArray hwhole _ _)).2

/-- A step of one writer leaves the other as it is, as long as what the other read stays. -/
theorem Stage.Follows.other {stage : Stage α} {h h' : List WriterEvent} {t : Bool}
    (hf : stage.Follows p v ys h t) (hread : .read t ∈ h' ↔ .read t ∈ h)
    (hwrote : .wrote t ∈ h' ↔ .wrote t ∈ h) (hafter : ReadsAfter t h' ↔ ReadsAfter t h) :
    stage.Follows p v ys h' t := by
  have harray : p.readArray ys v h' t = p.readArray ys v h t := by
    simp only [WritePair.readArray, hafter]
  cases stage with
  | start => exact ⟨mt hread.mp hf.1, mt hwrote.mp hf.2⟩
  | holds elements data => exact ⟨mt hwrote.mp hf.1, harray ▸ hf.2⟩
  | modified elements data => exact ⟨mt hwrote.mp hf.1, harray ▸ hf.2⟩
  | finished data outcome => exact ⟨hf.1, hwrote.mpr hf.2⟩

theorem readArray_congr {h h' : List WriterEvent} {t : Bool}
    (hafter : ReadsAfter t h' ↔ ReadsAfter t h) : p.readArray ys v h' t = p.readArray ys v h t := by
  simp only [WritePair.readArray, hafter]

/-- A write that reads finds the array as its order with the other one says. -/
theorem Whole.server_eq_readArray (hs : Whole p v ys s) {t : Bool} (hread : .read t ∉ s.history)
    (hwrote : .wrote t ∉ s.history) :
    s.server = p.readArray ys v (.read t :: s.history) t := by
  rw [hs.server, WritePair.readArray]
  by_cases hother : .wrote (!t) ∈ s.history
  · have hno : ¬ ReadsAfter (!t) s.history := fun hr => hwrote (by simpa using hr.wrote)
    rw [if_pos ((readsAfter_first_read hread).mpr hother),
      lastWriter_of_mem hother (by simpa using hwrote)]
    simp only [WritePair.readArray, if_neg hno]
  · have hnone : lastWriter s.history = none := by
      refine lastWriter_eq_none fun b hb => ?_
      by_cases hbt : b = t
      · exact hwrote (hbt ▸ hb)
      · exact hother (Bool.eq_not_of_ne hbt ▸ hb)
    rw [if_neg fun hr => hother ((readsAfter_first_read hread).mp hr), hnone]

theorem Whole.advance_start (hs : Whole p v ys s) (h : p.Legal v ys)
    (hwhole : (p.accessor true).info.arrayLength = v.length) {t : Bool}
    (hstage : s.stage t = .start) : Whole p v ys (advance p s t) := by
  obtain ⟨hread, hwrote⟩ : .read t ∉ s.history ∧ .wrote t ∉ s.history := by
    have ht := hs.stage t
    rwa [hstage] at ht
  have hlength := hs.length_server h hwhole
  have hreg : (p.accessor t).info.arrayLength = v.length := h.info t ▸ hwhole
  have hvariant := (h.setUp t).copyVariant (h.documented t) hlength (p.answers t).now (p.data t)
  rw [((h.setUp t).part_whole (h.documented t) hreg hlength).1] at hvariant
  rw [OpcUaBackend.advance_start hstage, h.readStage t, hvariant]
  have hstay : ∀ b, b ≠ t → p.readArray ys v (.read t :: s.history) b
      = p.readArray ys v s.history b :=
    fun b hb => readArray_congr (readsAfter_read_of_ne (Ne.symm hb))
  constructor
  · intro b
    by_cases hb : b = t
    · subst hb
      simp only [Function.update_self]
      exact ⟨by simpa using hwrote, hs.server_eq_readArray hread hwrote⟩
    · simp only [Function.update_of_ne hb]
      refine (hs.stage b).other ?_ ?_ (readsAfter_read_of_ne (Ne.symm hb))
      · simp [hb]
      · simp
  · rw [show lastWriter (.read t :: s.history) = lastWriter s.history from rfl]
    refine hs.server.trans ?_
    cases hl : lastWriter s.history with
    | none => rfl
    | some b =>
      have hb : b ≠ t := fun he => hwrote (he ▸ lastWriter_mem hl)
      simp only [hstay b hb]

theorem Whole.advance_holds (hs : Whole p v ys s) (h : p.Legal v ys)
    (hwhole : (p.accessor true).info.arrayLength = v.length) {t : Bool} {elements : List α}
    {data : ManagedDataValue α} (hstage : s.stage t = .holds elements data) :
    Whole p v ys (advance p s t) := by
  obtain ⟨hwrote, helements⟩ : .wrote t ∉ s.history ∧
      elements = p.readArray ys v s.history t := by
    have ht := hs.stage t
    rwa [hstage] at ht
  have hin := (h.length_with hwhole t (h.length_readArray hwhole s.history t)).1
  rw [OpcUaBackend.advance_holds hstage, modifyStage,
    overwrite_eq_splice (h.converts t) (helements ▸ hin)]
  refine ⟨fun b => ?_, hs.server⟩
  by_cases hb : b = t
  · subst hb
    simp only [Function.update_self, if_true]
    exact ⟨hwrote, helements ▸ rfl⟩
  · simp only [Function.update_of_ne hb]
    exact hs.stage b

theorem Whole.advance_modified (hs : Whole p v ys s) (h : p.Legal v ys) {t : Bool}
    {elements : List α} {data : ManagedDataValue α}
    (hstage : s.stage t = .modified elements data) : Whole p v ys (advance p s t) := by
  obtain ⟨hwrote, helements⟩ : .wrote t ∉ s.history ∧
      elements = p.with ys t (p.readArray ys v s.history t) := by
    have ht := hs.stage t
    rwa [hstage] at ht
  rw [OpcUaBackend.advance_modified hstage, writeValue, if_pos (h.answers t).write]
  constructor
  · intro b
    by_cases hb : b = t
    · subst hb
      simp only [Function.update_self]
      exact ⟨rfl, List.mem_cons_self ..⟩
    · simp only [Function.update_of_ne hb]
      refine (hs.stage b).other ?_ ?_ readsAfter_wrote
      · simp
      · simp [hb]
  · show elements = p.with ys t (p.readArray ys v (.wrote t :: s.history) t)
    rw [readArray_congr readsAfter_wrote]
    exact helements

end Whole

/-! ## A register that is a part of the array -/

section Narrow

variable {p : WritePair α κ} {v : List α} {ys : Bool → List α} {s : Writers α}

/-- What is held and what was written is no longer than the register. -/
structure Narrow (p : WritePair α κ) (s : Writers α) : Prop where
  holds : ∀ t elements data, s.stage t = .holds elements data →
    elements.length ≤ (p.accessor true).info.arrayLength
  modified : ∀ t elements data, s.stage t = .modified elements data →
    elements.length ≤ (p.accessor true).info.arrayLength
  server : (∃ t data, s.stage t = .finished data .done) →
    s.server.length ≤ (p.accessor true).info.arrayLength

/-- What a write reads is no longer than the register. -/
theorem WritePair.Legal.readStage_length (h : p.Legal v ys)
    (hne : (p.accessor true).info.indexRange ≠ "") (t : Bool) (server : List α) :
    (∀ elements data, OpcUaBackend.readStage (p.accessor t) (p.answers t) server (p.data t)
      = .holds elements data → elements.length ≤ (p.accessor true).info.arrayLength) ∧
    (∀ elements data, OpcUaBackend.readStage (p.accessor t) (p.answers t) server (p.data t)
      ≠ .modified elements data) ∧
    (∀ data, OpcUaBackend.readStage (p.accessor t) (p.answers t) server (p.data t)
      ≠ .finished data .done) := by
  have hbounded := (reach_bounded (h.data t) (h.setUp t) (h.documented t)).copyVariant
    (h.setUp t) (h.documented t) server (p.answers t).now (h.info t ▸ hne)
  rw [h.info t] at hbounded
  rw [h.readStage t, h.info t]
  split
  · rename_i elements hvariant
    refine ⟨?_, by simp, by simp⟩
    rintro _ _ ⟨⟩
    exact hbounded elements hvariant
  · simp

/-- What a step has to show of the writer that takes it. -/
theorem Narrow.update (hs : Narrow p s) {t : Bool} {stage : Stage α} {server : List α}
    (history : List WriterEvent)
    (hholds : ∀ elements data, stage = .holds elements data →
      elements.length ≤ (p.accessor true).info.arrayLength)
    (hmodified : ∀ elements data, stage = .modified elements data →
      elements.length ≤ (p.accessor true).info.arrayLength)
    (hserver : (∃ data, stage = .finished data .done) ∨ server = s.server)
    (hlength : (∃ data, stage = .finished data .done) →
      server.length ≤ (p.accessor true).info.arrayLength) :
    Narrow p { server := server, stage := Function.update s.stage t stage, history := history } := by
  refine ⟨fun b elements data hb => ?_, fun b elements data hb => ?_, ?_⟩
  · by_cases hbt : b = t
    · subst hbt
      exact hholds elements data (by simpa using hb)
    · exact hs.holds b elements data (by simpa [hbt] using hb)
  · by_cases hbt : b = t
    · subst hbt
      exact hmodified elements data (by simpa using hb)
    · exact hs.modified b elements data (by simpa [hbt] using hb)
  · rintro ⟨b, data, hb⟩
    rcases hserver with hfinished | rfl
    · exact hlength hfinished
    · by_cases hbt : b = t
      · subst hbt
        exact hlength ⟨data, by simpa using hb⟩
      · exact hs.server ⟨b, data, by simpa [hbt] using hb⟩

theorem Narrow.advance (hs : Narrow p s) (h : p.Legal v ys)
    (hne : (p.accessor true).info.indexRange ≠ "") (t : Bool) : Narrow p (advance p s t) := by
  cases hstage : s.stage t with
  | start =>
    obtain ⟨hholds, hmodified, hfinished⟩ := h.readStage_length hne t s.server
    rw [advance_start hstage]
    refine hs.update _ hholds (fun elements data he => absurd he (hmodified elements data))
      (.inr rfl) ?_
    rintro ⟨data, he⟩
    exact absurd he (hfinished data)
  | holds elements data =>
    rw [advance_holds hstage, modifyStage]
    refine hs.update _ ?_ ?_ (.inr rfl) ?_
    · intro _ _ he
      simp only at he
      split at he <;> cases he
    · intro _ _ he
      simp only at he
      split at he
      · cases he
        rw [overwrite_length]
        exact hs.holds t elements data hstage
      · cases he
    · rintro ⟨_, he⟩
      simp only at he
      split at he
      · cases he
      · rename_i hnot
        exact absurd (Stage.finished.inj he).2 hnot
  | modified elements data =>
    rw [advance_modified hstage, writeValue, if_pos (h.answers t).write]
    refine hs.update _ (by rintro _ _ ⟨⟩) (by rintro _ _ ⟨⟩) (.inl ⟨data, rfl⟩) fun _ => ?_
    exact hs.modified t elements data hstage
  | finished data outcome => exact (advance_finished hstage).symm ▸ hs

end Narrow

/-! ## When both windows are there -/

section Merges

variable {p : WritePair α κ} {v : List α} {ys : Bool → List α} {s : Writers α}

theorem WritePair.Legal.window (h : p.Legal v ys) (t : Bool) :
    p.start t + (ys t).length ≤ v.length := by
  have hwindow := (h.setUp t).window (h.documented t)
  obtain ⟨-, hin⟩ := (h.setUp t).inRegister
  rw [WritePair.start, h.length_ys t]
  omega

theorem WritePair.Legal.rangeMin (h : p.Legal v ys) (t : Bool) :
    (p.accessor t).rangeMin = (p.accessor true).rangeMin := by
  cases t
  · simp only [RegisterAccessor.rangeMin, h.register, h.ranges]
  · rfl

theorem WritePair.Legal.apart (h : p.Legal v ys) (t : Bool) :
    Apart (p.start t) (ys t).length (p.start !t) (ys !t).length := by
  have hdisjoint := h.disjoint
  have hmin := h.rangeMin false
  unfold Apart at hdisjoint ⊢
  unfold WritePair.start
  rw [h.length_ys t, h.length_ys (!t)]
  cases t
  · simp only [Bool.not_false]
    omega
  · simp only [Bool.not_true]
    omega

end Merges

end OpcUaBackend
