import OpcUaBackend.Accessor.WriteWindow

/-!
# What a read leaves in the buffer

A value arrives by a synchronous read, which cuts the register's range out of it, or by a
notification, in which the server has done so. `doPostRead` then goes over the accessor's window
of the value without looking at its length, and so does the loop of `doWriteTransfer`. The window
was checked against the register's length when the accessor was made, in wrapping arithmetic.

## Main definitions

* `requestWindow`: the check of an accessor's window
* `doPostRead`, `readTransfer`: a read, for a value that arrives on either way
* `Access.Law`, `Access.Fits`: what a transfer must do, and when it does

## Main results

* `law_iff_fits`: the two are the same
-/

namespace OpcUaBackend

open Foundation

variable {α κ : Type}

/-! ## Accessors -/

/-- The check of `getRegisterAccessor_impl`, and the number of words of the accessor. -/
def requestWindow (arrayLength numberOfWords wordOffsetInRegister : Nat) : Except String Nat :=
  if arrayLength < (numberOfWords + wordOffsetInRegister) % 2 ^ 64 ∨
      numberOfWords = 0 ∧ 0 < wordOffsetInRegister then
    .error ("Requested number of words/elements ( " ++ toString numberOfWords ++ ") with offset "
      ++ toString wordOffsetInRegister ++ " exceeds the number of available words/elements: "
      ++ toString arrayLength)
  else .ok (if numberOfWords = 0 then arrayLength else numberOfWords)

/-- The accessor was asked for with some number of words, and accepted. -/
def RegisterAccessor.Accepted (a : RegisterAccessor α κ) : Prop :=
  ∃ numberOfWords < 2 ^ 64,
    requestWindow a.info.arrayLength numberOfWords a.offsetWords = .ok a.numberOfWords

theorem RegisterAccessor.Accepted.offsetWords_eq {a : RegisterAccessor α κ} (h : a.Accepted)
    (hzero : a.numberOfWords = 0) : a.offsetWords = 0 := by
  obtain ⟨n, -, hn⟩ := h
  unfold requestWindow at hn
  split at hn
  · cases hn
  · rename_i hcheck
    have hwords := Except.ok.inj hn
    by_cases h0 : n = 0
    · by_contra hne
      exact hcheck (.inr ⟨h0, Nat.pos_of_ne_zero hne⟩)
    · rw [if_neg h0] at hwords
      exact absurd (hwords.trans hzero) h0

/-! ## Reading -/

inductive DataValidity
  | ok | faulty
  deriving DecidableEq, Repr

/-- How a value arrives: the library's answers to a read and the server's value, or the value of
a notification. -/
inductive Arrival (α : Type)
  | read (answers : Answers) (server : List α)
  | notification (value : ManagedDataValue α)

structure ReadResult (α κ : Type) where
  data : ManagedDataValue α
  buffer : List κ
  validity : DataValidity
  outcome : Outcome

/-- The loop of `doPostRead`, from the position `i` of the value on. `toCTK.convert` converts all
elements, or it throws for the types of the accessor. -/
def readWindow (toCTK : Except String (α → κ)) : Nat → List α → List κ → List κ × Outcome
  | _, _, [] => ([], .done)
  | i, elements, old :: buffer =>
    match elements[i]? with
    | none => (old :: buffer, .undefinedBehaviour)
    | some x =>
      match toCTK with
      | .error message => (old :: buffer, .logicError message)
      | .ok convert =>
        let (rest, outcome) := readWindow toCTK (i + 1) elements buffer
        (convert x :: rest, outcome)

def doPostRead (a : RegisterAccessor α κ) (toCTK : Except String (α → κ)) (hasNewData : Bool)
    (data : ManagedDataValue α) (buffer : List κ) (validity : DataValidity) : ReadResult α κ :=
  if !hasNewData then ⟨data, buffer, validity, .done⟩
  else if !data.hasValue then ⟨data, buffer, .faulty, .done⟩
  else
    let (buffer, outcome) := readWindow toCTK a.offsetWords (data.variant.getD []) buffer
    ⟨data, buffer, if outcome = .done then .ok else validity, outcome⟩

/-- A read. After an exception there is no new data, and it is thrown again. -/
def readTransfer (a : RegisterAccessor α κ) (toCTK : Except String (α → κ)) (arrival : Arrival α)
    (data : ManagedDataValue α) (buffer : List κ) (validity : DataValidity) : ReadResult α κ :=
  match arrival with
  | .read answers server =>
    let transfer := doReadTransferSynchronously a answers server data
    if transfer.outcome = .done then doPostRead a toCTK true transfer.data buffer validity
    else
      { doPostRead a toCTK false transfer.data buffer validity with outcome := transfer.outcome }
  | .notification value =>
    if value.hasValue then doPostRead a toCTK true value buffer validity
    else
      { doPostRead a toCTK false data buffer validity with
        outcome := .runtimeError "No data in found in the data queue." }

/-- The transfers of an accessor, with the buffer they find. -/
inductive Access (α κ : Type)
  | read (arrival : Arrival α) (buffer : List κ) (validity : DataValidity)
  | write (answers : Answers) (server : List α) (buffer : List κ)

def Access.buffer : Access α κ → List κ
  | .read _ buffer _ => buffer
  | .write _ _ buffer => buffer

/-- The value an accessor keeps, over all its transfers. -/
def transfers (a : RegisterAccessor α κ) (toCTK : Except String (α → κ)) :
    Machine (ManagedDataValue α) (Access α κ) where
  init data := data = {}
  step data access data' :=
    match access with
    | .read arrival buffer validity =>
      data' = (readTransfer a toCTK arrival data buffer validity).data
    | .write answers server buffer => data' = (doWriteTransfer a answers server data buffer).data

/-! ## What a transfer must do -/

/-- The elements that arrive, if there is a value: those of the server's value in the register's
range, or those of the notification. -/
def Arrival.elements (a : RegisterAccessor α κ) : Arrival α → Option (List α)
  | .read answers server =>
    if answers.activeException = none ∧ answers.read.isGood = true then
      if a.info.indexRange = "" then some server
      else (a.ranges.copyRange server (a.ranges.numericRange a.info.indexRange)).toOption
    else none
  | .notification value => if value.hasValue then some (value.variant.getD []) else none

/-- The elements that the loop of a write goes over, if it comes to it: those of the value kept,
or of the one that is read before. -/
def RegisterAccessor.writeElements (a : RegisterAccessor α κ) (answers : Answers)
    (server : List α) (data : ManagedDataValue α) : Option (List α) :=
  if answers.activeException = none then
    if a.isPartial || !data.hasValue then
      if answers.read.isGood then some (((Arrival.read answers server).elements a).getD [])
      else none
    else some (data.variant.getD [])
  else none

/-- The law of a read. -/
structure ReadLaw (a : RegisterAccessor α κ) (toCTK : Except String (α → κ))
    (arrived : Option (List α)) (buffer : List κ) (result : ReadResult α κ) : Prop where
  window : ∀ elements, arrived = some elements →
    a.offsetWords + a.numberOfWords ≤ elements.length → ∀ convert, toCTK = .ok convert →
      result.outcome = .done ∧ result.validity = .ok ∧
        result.buffer = ((elements.drop a.offsetWords).take a.numberOfWords).map convert
  otherwise : (∀ elements, arrived = some elements →
    elements.length < a.offsetWords + a.numberOfWords) →
      (result.outcome = .done → result.validity = .faulty) ∧ result.buffer = buffer
  inside : result.outcome ≠ .undefinedBehaviour

/-- What a transfer must do; a write must not leave the value in its loop. -/
def Access.Law (a : RegisterAccessor α κ) (toCTK : Except String (α → κ))
    (data : ManagedDataValue α) : Access α κ → Prop
  | .read arrival buffer validity => ReadLaw a toCTK (arrival.elements a) buffer
      (readTransfer a toCTK arrival data buffer validity)
  | .write answers server buffer =>
    buffer ≠ [] → (doWriteTransfer a answers server data buffer).outcome ≠ .undefinedBehaviour

/-- The elements that a transfer looks at are there: those of the window, up to the first that
does not convert. -/
def Access.Fits (a : RegisterAccessor α κ) (toCTK : Except String (α → κ))
    (data : ManagedDataValue α) : Access α κ → Prop
  | .read arrival _ _ => ∀ elements, arrival.elements a = some elements →
      match toCTK with
      | .ok _ => a.offsetWords + a.numberOfWords ≤ elements.length
      | .error _ => a.numberOfWords = 0 ∨ a.offsetWords < elements.length
  | .write answers server buffer => ∀ elements, a.writeElements answers server data = some elements →
      ∀ before x after, buffer = before ++ x :: after → (∀ y ∈ before, ∃ z, a.toOpcUA y = .ok z) →
        a.offsetWords + before.length < elements.length

/-! ## The values an accessor keeps -/

/-- The client library does not call a failure GOOD. -/
def Ranges.FailsBad (ranges : Ranges α) : Prop :=
  ∀ v dimensions status, ranges.copyRange v dimensions = .error status → status.isGood = false

/-- Without a value there is no payload, and without a range no failure is kept. -/
structure Consistent (a : RegisterAccessor α κ) (data : ManagedDataValue α) : Prop where
  payload : data.hasValue = false → data.variant = none
  status : data.hasValue = false → a.info.indexRange = "" → data.status.isGood = true

section Kept

variable {a : RegisterAccessor α κ} {toCTK : Except String (α → κ)} {data : ManagedDataValue α}

theorem Consistent.prepare (h : Consistent a data) : data.prepare.hasValue = false ∧
    data.prepare.variant = none ∧ (a.info.indexRange = "" → data.prepare.status.isGood = true) := by
  unfold ManagedDataValue.prepare
  split
  · exact ⟨rfl, rfl, fun _ => rfl⟩
  · rename_i hvalue
    have hnone : data.hasValue = false := by simpa using hvalue
    exact ⟨hnone, h.payload hnone, h.status hnone⟩

/-- What `copyVariant` leaves: the elements, or no value. -/
theorem Consistent.copyVariant (h : Consistent a data) (hbad : a.ranges.FailsBad)
    (server : List α) (now : Int) :
    let data' := data.copyVariant a.ranges server a.info.indexRange now
    match (if a.info.indexRange = "" then some server
      else (a.ranges.copyRange server (a.ranges.numericRange a.info.indexRange)).toOption) with
    | some elements => data'.hasValue = true ∧ data'.variant = some elements
    | none => a.info.indexRange ≠ "" ∧ data'.hasValue = false ∧ data'.variant = none := by
  obtain ⟨hvalue, hvariant, hstatus⟩ := h.prepare
  unfold ManagedDataValue.copyVariant ManagedDataValue.copyPayload
  by_cases hempty : a.info.indexRange = ""
  · simp only [if_pos hempty, hstatus hempty, if_true]
    exact ⟨trivial, trivial⟩
  · simp only [if_neg hempty]
    cases hcopy : a.ranges.copyRange server (a.ranges.numericRange a.info.indexRange) with
    | ok elements => exact ⟨rfl, rfl⟩
    | error status =>
      simp only [hbad _ _ _ hcopy, Except.toOption, Bool.false_eq_true, if_false]
      exact ⟨hempty, hvalue, hvariant⟩

theorem Consistent.read (h : Consistent a data) (hbad : a.ranges.FailsBad) (answers : Answers)
    (server : List α) : Consistent a (doReadTransferSynchronously a answers server data).data := by
  unfold doReadTransferSynchronously checkActiveException
  split
  · exact h
  · split
    · have hcopy := h.copyVariant hbad server answers.now
      split at hcopy
      · exact ⟨fun hnone => by simp [hcopy.1] at hnone, fun hnone => by simp [hcopy.1] at hnone⟩
      · exact ⟨fun _ => hcopy.2.2, fun _ hempty => absurd hempty hcopy.1⟩
    · exact h

theorem doPostRead_data (hasNewData : Bool) (buffer : List κ) (validity : DataValidity) :
    (doPostRead a toCTK hasNewData data buffer validity).data = data := by
  unfold doPostRead
  split
  · rfl
  · split <;> rfl

theorem Consistent.readTransfer (h : Consistent a data) (hbad : a.ranges.FailsBad)
    (arrival : Arrival α) (buffer : List κ) (validity : DataValidity) :
    Consistent a (readTransfer a toCTK arrival data buffer validity).data := by
  unfold OpcUaBackend.readTransfer
  cases arrival with
  | read answers server =>
    have hread := h.read hbad answers server
    simp only
    split
    · rwa [doPostRead_data]
    · simpa only [doPostRead_data] using hread
  | notification value =>
    simp only
    split
    · rename_i hvalue
      rw [doPostRead_data]
      exact ⟨fun hnone => by simp [hvalue] at hnone, fun hnone => by simp [hvalue] at hnone⟩
    · simpa only [doPostRead_data] using h

/-- A write keeps the value it has modified. -/
theorem Consistent.modifyAndWrite (h : data.hasValue = true) (answers : Answers)
    (server elements : List α) (buffer : List κ) :
    Consistent a (modifyAndWrite a answers server elements data buffer).data := by
  have hkept : (OpcUaBackend.modifyAndWrite a answers server elements data buffer).data.hasValue
      = true := by
    unfold OpcUaBackend.modifyAndWrite writeValue
    simp only
    split
    · split
      · exact h
      · split <;> exact h
    · exact h
  exact ⟨fun hnone => by simp [hkept] at hnone, fun hnone => by simp [hkept] at hnone⟩

theorem Consistent.readBeforeWrite (h : Consistent a data) (hbad : a.ranges.FailsBad)
    (answers : Answers) (server : List α) :
    Consistent a (readBeforeWrite a answers server data).data := by
  unfold OpcUaBackend.readBeforeWrite
  split
  · exact h.read hbad answers server
  · exact h

theorem Consistent.write (h : Consistent a data) (hbad : a.ranges.FailsBad) (answers : Answers)
    (server : List α) (buffer : List κ) :
    Consistent a (doWriteTransfer a answers server data buffer).data := by
  have hread := h.readBeforeWrite hbad answers server
  unfold doWriteTransfer checkActiveException
  split
  · exact h
  · simp only
    split
    · split
      · rename_i elements hvariant
        refine .modifyAndWrite ?_ answers server elements buffer
        by_contra hvalue
        have hnone := hread.payload (by simpa using hvalue)
        rw [hnone] at hvariant
        cases hvariant
      · exact hread
    · exact hread

theorem reach_consistent (hreach : (transfers a toCTK).Reachable data)
    (hbad : a.ranges.FailsBad) : Consistent a data := by
  refine hreach.invariant ?_ ?_
  · rintro _ rfl
    exact ⟨fun _ => rfl, fun _ _ => rfl⟩
  · intro data access data' h _ hstep
    cases access with
    | read arrival buffer validity => exact hstep ▸ h.readTransfer hbad arrival buffer validity
    | write answers server buffer => exact hstep ▸ h.write hbad answers server buffer

end Kept

/-! ## The loops -/

section Loops

variable {convert : α → κ} {elements : List α} {buffer : List κ} {i : Nat}

theorem readWindow_within (h : i + buffer.length ≤ elements.length) :
    readWindow (.ok convert) i elements buffer
      = (((elements.drop i).take buffer.length).map convert, .done) := by
  induction buffer generalizing i with
  | nil => rfl
  | cons old buffer ih =>
    rw [List.length_cons] at h
    have hlt : i < elements.length := by omega
    rw [readWindow, List.getElem?_eq_getElem hlt]
    simp only
    rw [ih (by omega), List.length_cons, List.drop_eq_getElem_cons hlt, List.take_succ_cons,
      List.map_cons]

theorem readWindow_beyond (h : elements.length < i + buffer.length) (hi : i ≤ elements.length) :
    (readWindow (.ok convert) i elements buffer).2 = .undefinedBehaviour := by
  induction buffer generalizing i with
  | nil =>
    rw [List.length_nil] at h
    omega
  | cons old buffer ih =>
    rw [readWindow]
    by_cases hlt : i < elements.length
    · rw [List.getElem?_eq_getElem hlt]
      exact ih (by rw [List.length_cons] at h; omega) hlt
    · rw [List.getElem?_eq_none (by omega)]

/-- A loop that starts beyond the value. -/
theorem readWindow_start (toCTK : Except String (α → κ)) (h : elements.length ≤ i)
    (hne : buffer ≠ []) : (readWindow toCTK i elements buffer).2 = .undefinedBehaviour := by
  obtain ⟨old, buffer, rfl⟩ := List.exists_cons_of_ne_nil hne
  rw [readWindow, List.getElem?_eq_none h]

/-- Where no conversion is allowed the first element throws. -/
theorem readWindow_error {message : String} (h : i < elements.length) (hne : buffer ≠ []) :
    readWindow (κ := κ) (.error message) i elements buffer = (buffer, .logicError message) := by
  obtain ⟨old, buffer, rfl⟩ := List.exists_cons_of_ne_nil hne
  rw [readWindow, List.getElem?_eq_getElem h]

/-- The loop of a write leaves the value when one of the elements it looks at is not there. -/
theorem overwrite_undefined_iff {toOpcUA : κ → Except String α} {cleared : α} :
    (overwrite toOpcUA cleared i buffer elements).2 = .undefinedBehaviour ↔
      ∃ before x after, buffer = before ++ x :: after ∧
        (∀ y ∈ before, ∃ z, toOpcUA y = .ok z) ∧ elements.length ≤ i + before.length := by
  induction buffer generalizing i elements with
  | nil => simp [overwrite]
  | cons x buffer ih =>
    rw [overwrite]
    by_cases hlt : i < elements.length
    · rw [if_pos hlt]
      cases hconvert : toOpcUA x with
      | error message =>
        refine iff_of_false (by simp) ?_
        rintro ⟨before, y, after, hsplit, hconv, hlen⟩
        cases before with
        | nil =>
          rw [List.length_nil] at hlen
          omega
        | cons z before =>
          obtain ⟨rfl, -⟩ := List.cons.inj hsplit
          obtain ⟨w, hw⟩ := hconv x (List.mem_cons_self ..)
          simp [hconvert] at hw
      | ok z =>
        simp only
        rw [ih, List.length_set]
        constructor
        · rintro ⟨before, y, after, rfl, hconv, hlen⟩
          refine ⟨x :: before, y, after, rfl, ?_, by rw [List.length_cons]; omega⟩
          exact List.forall_mem_cons.mpr ⟨⟨z, hconvert⟩, hconv⟩
        · rintro ⟨before, y, after, hsplit, hconv, hlen⟩
          cases before with
          | nil =>
            rw [List.length_nil] at hlen
            omega
          | cons w before =>
            obtain ⟨rfl, rfl⟩ := List.cons.inj hsplit
            rw [List.length_cons] at hlen
            exact ⟨before, y, after, rfl, (List.forall_mem_cons.mp hconv).2, by omega⟩
    · rw [if_neg hlt]
      refine iff_of_true rfl ⟨[], x, buffer, rfl, by simp, ?_⟩
      rw [List.length_nil]
      omega

end Loops

/-! ## The law of a read -/

section Reading

variable {a : RegisterAccessor α κ} {toCTK : Except String (α → κ)} {data : ManagedDataValue α}
  {arrival : Arrival α} {buffer : List κ} {validity : DataValidity}

theorem doPostRead_value {elements : List α} (hvalue : data.hasValue = true)
    (hvariant : data.variant.getD [] = elements) :
    doPostRead a toCTK true data buffer validity
      = ⟨data, (readWindow toCTK a.offsetWords elements buffer).1,
        if (readWindow toCTK a.offsetWords elements buffer).2 = .done then .ok else validity,
        (readWindow toCTK a.offsetWords elements buffer).2⟩ := by
  unfold doPostRead
  rw [hvalue, hvariant]
  rfl

theorem doPostRead_noValue (hvalue : data.hasValue = false) :
    doPostRead a toCTK true data buffer validity = ⟨data, buffer, .faulty, .done⟩ := by
  unfold doPostRead
  rw [hvalue]
  rfl

/-- What a read does with the elements that arrive: it goes over them, or, where there are none,
it leaves the buffer as it is. -/
structure Goes (a : RegisterAccessor α κ) (toCTK : Except String (α → κ)) (buffer : List κ)
    (validity : DataValidity) (arrived : Option (List α)) (result : ReadResult α κ) : Prop where
  value : ∀ elements, arrived = some elements →
    result.buffer = (readWindow toCTK a.offsetWords elements buffer).1 ∧
      result.outcome = (readWindow toCTK a.offsetWords elements buffer).2 ∧
        result.validity = if result.outcome = .done then .ok else validity
  noValue : arrived = none → result.buffer = buffer ∧
    (result.outcome = .done → result.validity = .faulty) ∧ result.outcome ≠ .undefinedBehaviour

theorem goes_value {elements : List α} {data' : ManagedDataValue α}
    (hvalue : data'.hasValue = true) (hvariant : data'.variant.getD [] = elements) :
    Goes a toCTK buffer validity (some elements)
      (doPostRead a toCTK true data' buffer validity) := by
  rw [doPostRead_value hvalue hvariant]
  refine ⟨?_, fun hnone => by cases hnone⟩
  rintro _ ⟨⟩
  exact ⟨rfl, rfl, rfl⟩

theorem goes_exception {data' : ManagedDataValue α} {message : String} :
    Goes a toCTK buffer validity none { doPostRead a toCTK false data' buffer validity with
      outcome := .runtimeError message } :=
  ⟨fun _ hsome => (by cases hsome), fun _ => ⟨rfl, by simp, by simp⟩⟩

theorem readTransfer_goes (h : Consistent a data) (hbad : a.ranges.FailsBad) :
    Goes a toCTK buffer validity (arrival.elements a)
      (readTransfer a toCTK arrival data buffer validity) := by
  cases arrival with
  | notification value =>
    simp only [readTransfer, Arrival.elements]
    cases hvalue : value.hasValue with
    | true => exact goes_value hvalue rfl
    | false => exact goes_exception
  | read answers server =>
    simp only [readTransfer, doReadTransferSynchronously, checkActiveException, Arrival.elements]
    by_cases hactive : answers.activeException = none
    · by_cases hread : answers.read.isGood = true
      · simp only [hactive, hread, and_self, if_true]
        -- the two sides cut out the same range
        have hcopy := h.copyVariant hbad server answers.now
        split at hcopy
        · rename_i elements helements
          rw [helements]
          exact goes_value hcopy.1 (by rw [hcopy.2, Option.getD_some])
        · rename_i helements
          rw [helements, doPostRead_noValue hcopy.2.1]
          exact ⟨fun _ hsome => (by cases hsome), fun _ => ⟨rfl, fun _ => rfl, by simp⟩⟩
      · simp only [hactive, hread]
        exact goes_exception
    · obtain ⟨message, hmessage⟩ := Option.ne_none_iff_exists'.mp hactive
      simp only [hmessage]
      exact goes_exception

theorem readLaw_iff (h : Consistent a data) (hbad : a.ranges.FailsBad) (haccepted : a.Accepted)
    (hbuffer : buffer.length = a.numberOfWords) :
    (Access.read arrival buffer validity).Law a toCTK data
      ↔ (Access.read arrival buffer validity).Fits a toCTK data := by
  have hgoes : Goes a toCTK buffer validity (arrival.elements a)
      (readTransfer a toCTK arrival data buffer validity) := readTransfer_goes h hbad
  show ReadLaw a toCTK (arrival.elements a) buffer _ ↔ ∀ elements, _
  generalize readTransfer a toCTK arrival data buffer validity = result at hgoes ⊢
  cases harrived : arrival.elements a with
  | none =>
    -- no value has arrived
    obtain ⟨hsame, hfaulty, hinside⟩ := hgoes.noValue harrived
    exact iff_of_true
      ⟨fun _ hsome => (by cases hsome), fun _ => ⟨hfaulty, hsame⟩, hinside⟩
      fun _ hsome => (by cases hsome)
  | some elements =>
    obtain ⟨hresult, houtcome, hvalidity⟩ := hgoes.value elements harrived
    have hall : ∀ {P : List α → Prop}, (∀ e, some elements = some e → P e) ↔ P elements :=
      ⟨fun hP => hP elements rfl, fun hP e he => Option.some.inj he ▸ hP⟩
    rw [hall]
    by_cases hwords : a.numberOfWords = 0
    · -- there is nothing to be looked at
      obtain rfl : buffer = [] := List.eq_nil_of_length_eq_zero (hbuffer.trans hwords)
      have hdone : result.outcome = .done := houtcome
      refine iff_of_true ⟨?_, ?_, by simp [hdone]⟩ ?_
      · intro _ _ _ _ _
        exact ⟨hdone, by simp [hvalidity, hdone], by simp [hresult, readWindow, hwords]⟩
      · intro hfew
        have hlt := hfew elements rfl
        rw [hwords, haccepted.offsetWords_eq hwords] at hlt
        omega
      · cases toCTK with
        | error message => exact .inl hwords
        | ok convert =>
          show a.offsetWords + a.numberOfWords ≤ elements.length
          rw [hwords, haccepted.offsetWords_eq hwords]
          exact Nat.zero_le _
    · have hne : buffer ≠ [] := by
        rintro rfl
        exact hwords hbuffer.symm
      cases toCTK with
      | error message =>
        -- the conversion of the first word throws, if there is one
        show _ ↔ a.numberOfWords = 0 ∨ a.offsetWords < elements.length
        rw [or_iff_right hwords]
        by_cases hstart : a.offsetWords < elements.length
        · rw [readWindow_error hstart hne] at hresult houtcome
          refine iff_of_true ⟨?_, ?_, by simp [houtcome]⟩ hstart
          · intro _ _ _ _ hconvert
            cases hconvert
          · exact fun _ => ⟨by simp [houtcome], hresult⟩
        · refine iff_of_false (fun hlaw => hlaw.inside ?_) hstart
          rw [houtcome, readWindow_start _ (by omega) hne]
      | ok convert =>
        -- the loop runs over the window
        show _ ↔ a.offsetWords + a.numberOfWords ≤ elements.length
        by_cases hfits : a.offsetWords + a.numberOfWords ≤ elements.length
        · rw [readWindow_within (by omega), hbuffer] at hresult houtcome
          refine iff_of_true ⟨?_, ?_, by simp [houtcome]⟩ hfits
          · rintro _ ⟨⟩ _ _ ⟨⟩
            exact ⟨houtcome, by simp [hvalidity, houtcome], hresult⟩
          · intro hfew
            have hlt := hfew elements rfl
            omega
        · refine iff_of_false (fun hlaw => hlaw.inside ?_) hfits
          rw [houtcome]
          by_cases hstart : a.offsetWords ≤ elements.length
          · exact readWindow_beyond (by omega) hstart
          · exact readWindow_start _ (by omega) hne

end Reading

/-! ## The law of a write -/

section Writing

variable {a : RegisterAccessor α κ} {toCTK : Except String (α → κ)} {data : ManagedDataValue α}
  {answers : Answers} {server : List α} {buffer : List κ}

theorem modifyAndWrite_undefined_iff {elements : List α} :
    (modifyAndWrite a answers server elements data buffer).outcome = .undefinedBehaviour ↔
      (overwrite a.toOpcUA a.cleared a.offsetWords buffer elements).2 = .undefinedBehaviour := by
  unfold modifyAndWrite
  simp only
  split
  · rename_i hdone
    rw [hdone]
    refine iff_of_false ?_ (by simp)
    unfold writeValue handleError
    split
    · simp
    · split <;> simp
  · rfl

theorem doWriteTransfer_of_read {kept : ManagedDataValue α}
    (hactive : answers.activeException = none)
    (hread : readBeforeWrite a answers server data = ⟨server, kept, .done⟩) (hne : buffer ≠ []) :
    (doWriteTransfer a answers server data buffer).outcome = .undefinedBehaviour ↔
      (overwrite a.toOpcUA a.cleared a.offsetWords buffer (kept.variant.getD [])).2
        = .undefinedBehaviour := by
  unfold doWriteTransfer checkActiveException
  simp only [hactive, hread, if_true]
  cases kept.variant with
  | some elements => exact modifyAndWrite_undefined_iff
  | none =>
    obtain ⟨x, buffer, rfl⟩ := List.exists_cons_of_ne_nil hne
    exact iff_of_true rfl rfl

/-- A write goes over the elements of `writeElements`. -/
theorem doWriteTransfer_undefined_iff (h : Consistent a data) (hbad : a.ranges.FailsBad)
    (hne : buffer ≠ []) :
    (doWriteTransfer a answers server data buffer).outcome = .undefinedBehaviour ↔
      ∃ elements, a.writeElements answers server data = some elements ∧
        (overwrite a.toOpcUA a.cleared a.offsetWords buffer elements).2 = .undefinedBehaviour := by
  by_cases hactive : answers.activeException = none
  · by_cases hneeds : (a.isPartial || !data.hasValue) = true
    · by_cases hread : answers.read.isGood = true
      · -- the value that is read before
        have hcopy := h.copyVariant hbad server answers.now
        have hbefore : readBeforeWrite a answers server data = ⟨server,
            data.copyVariant a.ranges server a.info.indexRange answers.now, .done⟩ := by
          unfold readBeforeWrite doReadTransferSynchronously checkActiveException
          rw [if_pos hneeds, hactive]
          exact if_pos hread
        have helements : a.writeElements answers server data = some
            ((data.copyVariant a.ranges server a.info.indexRange answers.now).variant.getD []) := by
          unfold RegisterAccessor.writeElements Arrival.elements
          rw [if_pos hactive, if_pos hneeds, if_pos hread]
          simp only [hactive, hread, and_self, if_true]
          split at hcopy
          · rename_i elements hsome
            rw [hsome, hcopy.2]
          · rename_i hnone
            rw [hnone, hcopy.2.2]
        rw [doWriteTransfer_of_read hactive hbefore hne, helements]
        simp
      · have hbefore : readBeforeWrite a answers server data
            = ⟨server, data, handleError a.node_id answers.read⟩ := by
          unfold readBeforeWrite doReadTransferSynchronously checkActiveException
          rw [if_pos hneeds, hactive]
          exact if_neg hread
        unfold doWriteTransfer checkActiveException RegisterAccessor.writeElements
        rw [if_pos hactive, if_pos hneeds, if_neg hread]
        simp [hactive, hbefore, handleError]
    · have hbefore : readBeforeWrite a answers server data = ⟨server, data, .done⟩ :=
        if_neg hneeds
      have helements : a.writeElements answers server data = some (data.variant.getD []) := by
        unfold RegisterAccessor.writeElements
        rw [if_pos hactive, if_neg hneeds]
      rw [doWriteTransfer_of_read hactive hbefore hne, helements]
      simp
  · obtain ⟨message, hmessage⟩ := Option.ne_none_iff_exists'.mp hactive
    unfold doWriteTransfer checkActiveException RegisterAccessor.writeElements
    rw [if_neg hactive]
    simp [hmessage]

theorem writeLaw_iff (h : Consistent a data) (hbad : a.ranges.FailsBad) :
    (Access.write answers server buffer).Law a toCTK data
      ↔ (Access.write answers server buffer).Fits a toCTK data := by
  show (buffer ≠ [] → _) ↔ ∀ elements, _
  constructor
  · rintro hlaw elements helements before x after rfl hconv
    by_contra hbeyond
    refine hlaw (by simp) ((doWriteTransfer_undefined_iff h hbad (by simp)).mpr
      ⟨elements, helements, overwrite_undefined_iff.mpr ⟨before, x, after, rfl, hconv, ?_⟩⟩)
    omega
  · intro hfits hne hundefined
    obtain ⟨elements, helements, hloop⟩ := (doWriteTransfer_undefined_iff h hbad hne).mp hundefined
    obtain ⟨before, x, after, hsplit, hconv, hbeyond⟩ := overwrite_undefined_iff.mp hloop
    have hinside := hfits elements helements before x after hsplit hconv
    omega

end Writing

/-- **A transfer does what it must exactly when the elements it looks at are there.** -/
theorem law_iff_fits {a : RegisterAccessor α κ} {toCTK : Except String (α → κ)}
    {data : ManagedDataValue α} {access : Access α κ} (haccepted : a.Accepted)
    (hbad : a.ranges.FailsBad) (hreach : (transfers a toCTK).Reachable data)
    (hbuffer : access.buffer.length = a.numberOfWords) :
    access.Law a toCTK data ↔ access.Fits a toCTK data := by
  have hconsistent := reach_consistent hreach hbad
  cases access with
  | read arrival buffer validity => exact readLaw_iff hconsistent hbad haccepted hbuffer
  | write answers server buffer => exact writeLaw_iff hconsistent hbad

/-! ## An array that has become shorter -/

theorem rangesOneTwo_failsBad : rangesOneTwo.FailsBad := by
  intro v dimensions status hcopy
  match dimensions with
  | [d] =>
    simp only [rangesOneTwo] at hcopy
    split at hcopy
    · cases hcopy
    · obtain rfl := Except.error.inj hcopy
      rfl
  | [] =>
    obtain rfl := Except.error.inj hcopy
    rfl
  | _ :: _ :: _ =>
    obtain rfl := Except.error.inj hcopy
    rfl

theorem twoElements_accepted : (twoElements "1:2" 2 0).Accepted := ⟨2, by decide, rfl⟩

/-- The elements of the range are there. -/
theorem law_iff_fits_ranged :
    (Access.read (.read {} [10, 11, 12]) [0, 0] .faulty).Law (twoElements "1:2" 2 0) (.ok id) {} := by
  refine (law_iff_fits twoElements_accepted rangesOneTwo_failsBad (.init rfl) rfl).mpr ?_
  rintro elements helements
  obtain rfl : [11, 12] = elements := Option.some.inj helements
  decide

/-- The array ends in the range. -/
theorem not_law_clipped :
    ¬ ∀ (a : RegisterAccessor Int Int) (toCTK : Except String (Int → Int))
      (data : ManagedDataValue Int) (access : Access Int Int), a.Accepted → a.ranges.FailsBad →
      (transfers a toCTK).Reachable data → access.buffer.length = a.numberOfWords →
        access.Law a toCTK data := by
  intro h
  have hlaw := h (twoElements "1:2" 2 0) (.ok id) {} (.read (.read {} [10, 11]) [0, 0] .faulty)
    twoElements_accepted rangesOneTwo_failsBad (.init rfl) rfl
  exact hlaw.inside (by decide)

end OpcUaBackend
