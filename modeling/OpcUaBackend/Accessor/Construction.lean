import OpcUaBackend.Accessor.ReadWindow
import OpcUaBackend.Backend.Operations

/-!
# How an accessor is made

`getRegisterAccessor_impl` looks up the register, tests the window that is asked for and calls the
constructor of the accessor for the data type of the register. The test is a sum of 64 bits, which
wraps around, so that an offset far beyond the register can pass it. Whether the accessor is partial
is found out from its length alone.

The vectors of the user's type are a parameter: how large they can be, and whether there is memory.

## Main definitions

* `getRegisterAccessor_impl`: an accessor is made
* `AdmitsWindow`: what is promised of the window
* `WrapsInto`: the windows that pass the test by the sum that wraps around

## Main results

* `newTypedAccessor_cases`: what the constructor ends in
* `CreatedAccessor.accepted`: an accessor that is made has passed the test of its window
* `admitsWindow_iff`: the window is tested as promised unless it is one of these
-/

namespace OpcUaBackend

open Foundation

/-! ## The constructor -/

/-- What leaves `getRegisterAccessor_impl` when no accessor is made. -/
inductive CreationFailure
  | logicError (message : String)
  | runtimeError (message : String)
  | lengthError
  | badAlloc
  deriving DecidableEq, Repr

/-- `std::vector` of the user's type: its `max_size`, and the sizes there is memory for. -/
structure UserVectors where
  maxSize : Nat
  hasMemory : Nat → Bool

def UserVectors.resize (vectors : UserVectors) (size : Nat) : Except CreationFailure Unit :=
  if vectors.maxSize < size then .error .lengthError
  else if vectors.hasMemory size then .ok ()
  else .error .badAlloc

/-- An accessor as its constructor leaves it. -/
structure CreatedAccessor where
  path : String
  node_id : String
  info : OpcUABackendRegisterInfo
  flags : List AccessMode
  numberOfWords : Nat
  offsetWords : Nat
  subscribed : Bool
  isPartial : Bool
  deriving DecidableEq, Repr

/-- What is asked for: the path of a register, the flags and the window. -/
structure AccessorRequest where
  registerPathName : String
  numberOfWords : UInt64
  wordOffsetInRegister : UInt64
  flags : List AccessMode

variable {V : Type}

/-- The constructor of `OpcUABackendRegisterAccessor`. The accessor is not partial at first. -/
def newRegisterAccessor (r : Replies V) (vectors : UserVectors) (path node_id : String)
    (info : OpcUABackendRegisterInfo) (flags : List AccessMode)
    (numberOfWords wordOffsetInRegister : Nat) (accessor : Accessor) (w : World V) :
    Except CreationFailure CreatedAccessor × World V :=
  if .raw ∈ flags then (.error (.logicError "Raw access mode is not supported."), w)
  else
    match vectors.resize numberOfWords with
    | .error failure => (.error failure, w)
    | .ok () =>
      let created (subscribed : Bool) : CreatedAccessor :=
        { path := path, node_id := node_id, info := info, flags := flags
          numberOfWords := numberOfWords, offsetWords := wordOffsetInRegister
          subscribed := subscribed
          isPartial := if info.arrayLength ≠ numberOfWords then true else false }
      if .wait_for_new_data ∈ flags then
        match constructAccessor r info.nodeBrowseName info.id accessor w with
        | .threw message w => (.error (.runtimeError message), w)
        | .returned w => (.ok (created true), w)
      else (.ok (created false), w)

/-! ## The function of the backend -/

/-- The first register with the path. -/
def findRegister (paths : RegisterPaths) (c : OpcUaBackendRegisterCatalogue)
    (registerPathName : String) : Option OpcUABackendRegisterInfo :=
  c.find? fun info => info.getRegisterName paths == registerPathName

/-- The switch over the data types of a register, each with an accessor of its own. -/
def newTypedAccessor (r : Replies V) (vectors : UserVectors) (path node_id : String)
    (info : OpcUABackendRegisterInfo) (flags : List AccessMode)
    (numberOfWords wordOffsetInRegister : Nat) (accessor : Accessor) (w : World V) :
    Except CreationFailure CreatedAccessor × World V :=
  if 1 ≤ info.dataType ∧ info.dataType ≤ 12 then
    newRegisterAccessor r vectors path node_id info flags numberOfWords wordOffsetInRegister
      accessor w
  else (.error (.runtimeError ("Type " ++ toString info.dataType ++ " not implemented.")), w)

def getRegisterAccessor_impl (paths : RegisterPaths) (c : OpcUaBackendRegisterCatalogue)
    (vectors : UserVectors) (r : Replies V) (request : AccessorRequest) (accessor : Accessor)
    (w : World V) : Except CreationFailure CreatedAccessor × World V :=
  let path := w.serverAddress ++ request.registerPathName
  if c.length = 0 then (.error (.logicError "No registers found in the catalog."), w)
  else
    match findRegister paths c request.registerPathName with
    | none =>
      (.error (.logicError ("Requested register (" ++ request.registerPathName
        ++ ") was not found in the catalog.")), w)
    | some info =>
      match requestWindow info.arrayLength request.numberOfWords.toNat
          request.wordOffsetInRegister.toNat with
      | .error message => (.error (.logicError message), w)
      | .ok numberOfWords =>
        newTypedAccessor r vectors (paths.registerPath path) request.registerPathName info
          request.flags numberOfWords request.wordOffsetInRegister.toNat accessor w

/-! ## What is promised -/

/-- The number of words of the accessor that is asked for; zero stands for all of them. -/
def AccessorRequest.words (request : AccessorRequest) (arrayLength : Nat) : Nat :=
  if request.numberOfWords = 0 then arrayLength else request.numberOfWords.toNat

/-- The window lies in the register, as numbers. -/
def AccessorRequest.InArray (request : AccessorRequest) (arrayLength : Nat) : Prop :=
  request.wordOffsetInRegister.toNat + request.words arrayLength ≤ arrayLength

/-- The sum of 64 bits wraps around, to one that passes the test. -/
def AccessorRequest.WrapsInto (request : AccessorRequest) (arrayLength : Nat) : Prop :=
  2 ^ 64 ≤ request.numberOfWords.toNat + request.wordOffsetInRegister.toNat ∧
    (request.numberOfWords + request.wordOffsetInRegister).toNat ≤ arrayLength

/-- What the loop of a write leaves does not depend on the value that it finds. -/
def CreatedAccessor.WritesAll (a : CreatedAccessor) : Prop :=
  ∀ {α κ : Type} (toOpcUA : κ → Except String α) (cleared : α) (buffer : List κ),
    buffer.length = a.numberOfWords → ∀ elements elements' : List α,
      elements.length = a.info.arrayLength → elements'.length = a.info.arrayLength →
      (overwrite toOpcUA cleared a.offsetWords buffer elements).2 = .done →
        overwrite toOpcUA cleared a.offsetWords buffer elements
          = overwrite toOpcUA cleared a.offsetWords buffer elements'

/-- The accessor has the window that is asked for, which lies in the register, and is partial
unless this is the whole register. -/
structure CreatedAccessor.HasWindow (a : CreatedAccessor) (request : AccessorRequest)
    (info : OpcUABackendRegisterInfo) : Prop where
  register : a.info = info
  offsetWords : a.offsetWords = request.wordOffsetInRegister.toNat
  numberOfWords : a.numberOfWords = request.words info.arrayLength
  inside : a.offsetWords + a.numberOfWords ≤ info.arrayLength
  isPartial : a.isPartial = false ↔ a.offsetWords = 0 ∧ a.numberOfWords = info.arrayLength
  writesAll : a.isPartial = false → a.WritesAll

/-- An accessor is made only with a window in the register, and a window beyond it ends in a
`logic_error`. -/
structure AdmitsWindow (result : Except CreationFailure CreatedAccessor)
    (request : AccessorRequest) (info : OpcUABackendRegisterInfo) : Prop where
  created : ∀ a, result = .ok a → a.HasWindow request info
  refused : ¬ request.InArray info.arrayLength → ∃ message, result = .error (.logicError message)

/-! ## The test of the window -/

section Request

variable {request : AccessorRequest} {arrayLength : Nat}

/-- A window that passes the test lies in the register, or the sum has wrapped around. -/
theorem AccessorRequest.of_requestWindow {numberOfWords : Nat}
    (h : requestWindow arrayLength request.numberOfWords.toNat
      request.wordOffsetInRegister.toNat = .ok numberOfWords) :
    numberOfWords = request.words arrayLength ∧
      (request.InArray arrayLength ∨ request.WrapsInto arrayLength) := by
  rw [requestWindow] at h
  split at h
  · cases h
  rename_i hpasses
  obtain ⟨hsum, hzero⟩ := not_or.mp hpasses
  obtain rfl := Except.ok.inj h
  have hwords : request.numberOfWords.toNat = 0 ↔ request.numberOfWords = 0 :=
    UInt64.toNat_inj (b := 0)
  rw [AccessorRequest.InArray, AccessorRequest.WrapsInto, UInt64.toNat_add]
  by_cases hnone : request.numberOfWords = 0
  · have hnone' := hwords.mpr hnone
    rw [AccessorRequest.words, if_pos hnone, if_pos hnone']
    exact ⟨rfl, .inl (by omega)⟩
  · have hsome : request.numberOfWords.toNat ≠ 0 := fun h => hnone (hwords.mp h)
    rw [AccessorRequest.words, if_neg hnone, if_neg hsome]
    exact ⟨rfl, by omega⟩

/-- A window whose sum has wrapped around lies beyond the register, and may pass the test. -/
theorem AccessorRequest.WrapsInto.passes (h : request.WrapsInto arrayLength)
    (hsize : arrayLength < 2 ^ 64) :
    ¬ request.InArray arrayLength ∧ requestWindow arrayLength request.numberOfWords.toNat
      request.wordOffsetInRegister.toNat = .ok (request.words arrayLength) := by
  obtain ⟨hwraps, hsum⟩ := h
  rw [UInt64.toNat_add] at hsum
  have hoffset := request.wordOffsetInRegister.toNat_lt
  have hsome : request.numberOfWords.toNat ≠ 0 := by omega
  have hne : request.numberOfWords ≠ 0 := by
    intro hnone
    exact hsome (UInt64.toNat_inj.mpr hnone)
  constructor
  · rw [AccessorRequest.InArray, AccessorRequest.words, if_neg hne]
    omega
  · rw [requestWindow, if_neg (by omega), AccessorRequest.words, if_neg hne, if_neg hsome]

end Request

/-! ## What the constructor leaves -/

/-- The accessor is that of the register, with the window and the flags. -/
structure CreatedAccessor.MadeFor (a : CreatedAccessor) (info : OpcUABackendRegisterInfo)
    (flags : List AccessMode) (numberOfWords wordOffsetInRegister : Nat) : Prop where
  register : a.info = info
  modes : a.flags = flags
  subscribed : a.subscribed = true ↔ .wait_for_new_data ∈ flags
  isPartial : a.isPartial = false ↔ info.arrayLength = numberOfWords
  numberOfWords : a.numberOfWords = numberOfWords
  offsetWords : a.offsetWords = wordOffsetInRegister

section Constructor

variable {r : Replies V} {vectors : UserVectors} {path node_id : String}
  {info : OpcUABackendRegisterInfo} {flags : List AccessMode}
  {numberOfWords wordOffsetInRegister : Nat} {accessor : Accessor} {w : World V}

/-- The constructor throws a `logic_error` for the raw mode only. -/
theorem newRegisterAccessor_cases :
    (.raw ∈ flags ∧ ∃ message, (newRegisterAccessor r vectors path node_id info flags numberOfWords
      wordOffsetInRegister accessor w).1 = .error (.logicError message)) ∨
    (.raw ∉ flags ∧ ∃ failure, (∀ message, failure ≠ .logicError message) ∧
      (newRegisterAccessor r vectors path node_id info flags numberOfWords
        wordOffsetInRegister accessor w).1 = .error failure) ∨
    (.raw ∉ flags ∧ ∃ a : CreatedAccessor,
      a.MadeFor info flags numberOfWords wordOffsetInRegister ∧
      (newRegisterAccessor r vectors path node_id info flags numberOfWords
        wordOffsetInRegister accessor w).1 = .ok a) := by
  rw [newRegisterAccessor]
  by_cases hraw : .raw ∈ flags
  · rw [if_pos hraw]
    exact .inl ⟨hraw, _, rfl⟩
  rw [if_neg hraw]
  have hpartial : (if info.arrayLength ≠ numberOfWords then true else false) = false
      ↔ info.arrayLength = numberOfWords := by
    by_cases h : info.arrayLength = numberOfWords <;> simp [h]
  cases hsize : vectors.resize numberOfWords with
  | error failure =>
    refine .inr (.inl ⟨hraw, failure, ?_, rfl⟩)
    rintro message rfl
    simp only [UserVectors.resize] at hsize
    split at hsize
    · cases hsize
    · split at hsize <;> cases hsize
  | ok _ =>
    by_cases hwait : .wait_for_new_data ∈ flags
    · simp only [hwait, if_true]
      cases constructAccessor r info.nodeBrowseName info.id accessor w with
      | threw message w => exact .inr (.inl ⟨hraw, .runtimeError message, by simp, rfl⟩)
      | returned w =>
        exact .inr (.inr ⟨hraw, _, ⟨rfl, rfl, iff_of_true rfl hwait, hpartial, rfl, rfl⟩, rfl⟩)
    · simp only [hwait, if_false]
      exact .inr (.inr ⟨hraw, _, ⟨rfl, rfl, iff_of_false (by simp) hwait, hpartial, rfl, rfl⟩, rfl⟩)

end Constructor

/-! ## The window of an accessor -/

/-- A window that is the whole register leaves nothing of the value that a write finds. -/
theorem CreatedAccessor.writesAll {a : CreatedAccessor} (hoffset : a.offsetWords = 0)
    (hwords : a.numberOfWords = a.info.arrayLength) : a.WritesAll := by
  intro α κ toOpcUA cleared buffer hbuffer elements elements' hlength hlength' hdone
  obtain ⟨ys, hconv⟩ := converts_of_overwrite_done hdone
  have hys : ys.length = a.info.arrayLength := by
    rw [← hconv.length_eq, hbuffer, hwords]
  rw [hoffset, overwrite_eq_splice hconv (by omega), overwrite_eq_splice hconv (by omega),
    splice_full (by omega), splice_full (by omega)]

/-- An accessor whose window lies in the register is partial unless it is the whole register. -/
theorem CreatedAccessor.MadeFor.hasWindow {a : CreatedAccessor} {request : AccessorRequest}
    {info : OpcUABackendRegisterInfo}
    (h : a.MadeFor info request.flags (request.words info.arrayLength)
      request.wordOffsetInRegister.toNat)
    (hin : request.InArray info.arrayLength) : a.HasWindow request info := by
  have hinside : a.offsetWords + a.numberOfWords ≤ info.arrayLength := by
    rw [h.offsetWords, h.numberOfWords]
    exact hin
  have hwhole : a.isPartial = false ↔ a.offsetWords = 0 ∧ a.numberOfWords = info.arrayLength := by
    rw [h.isPartial, ← h.numberOfWords]
    constructor
    · intro hlength
      exact ⟨by omega, hlength.symm⟩
    · rintro ⟨-, hlength⟩
      exact hlength.symm
  refine ⟨h.register, h.offsetWords, h.numberOfWords, hinside, hwhole, fun hpartial => ?_⟩
  obtain ⟨hoffset, hwords⟩ := hwhole.mp hpartial
  exact writesAll hoffset (by rw [hwords, h.register])

section Function

variable {paths : RegisterPaths} {c : OpcUaBackendRegisterCatalogue} {vectors : UserVectors}
  {r : Replies V} {request : AccessorRequest} {info : OpcUABackendRegisterInfo}
  {accessor : Accessor} {w : World V}

theorem length_ne_zero_of_found
    (hfound : findRegister paths c request.registerPathName = some info) : c.length ≠ 0 := by
  intro hempty
  rw [List.length_eq_zero_iff.mp hempty] at hfound
  cases hfound

/-- A window that does not pass the test ends in a `logic_error`. -/
theorem getRegisterAccessor_refused
    (hfound : findRegister paths c request.registerPathName = some info) {message : String}
    (hwindow : requestWindow info.arrayLength request.numberOfWords.toNat
      request.wordOffsetInRegister.toNat = .error message) :
    getRegisterAccessor_impl paths c vectors r request accessor w
      = (.error (.logicError message), w) := by
  simp only [getRegisterAccessor_impl, if_neg (length_ne_zero_of_found hfound), hfound, hwindow]

/-- A window that passes the test goes to the constructor. -/
theorem getRegisterAccessor_passed
    (hfound : findRegister paths c request.registerPathName = some info) {numberOfWords : Nat}
    (hwindow : requestWindow info.arrayLength request.numberOfWords.toNat
      request.wordOffsetInRegister.toNat = .ok numberOfWords) :
    getRegisterAccessor_impl paths c vectors r request accessor w
      = newTypedAccessor r vectors
        (paths.registerPath (w.serverAddress ++ request.registerPathName))
        request.registerPathName info request.flags numberOfWords
        request.wordOffsetInRegister.toNat accessor w := by
  simp only [getRegisterAccessor_impl, if_neg (length_ne_zero_of_found hfound), hfound, hwindow]

/-- The constructor throws a `logic_error` for the raw mode of a known data type only. -/
theorem newTypedAccessor_cases {path node_id : String} {flags : List AccessMode}
    {numberOfWords wordOffsetInRegister : Nat} :
    ((.raw ∈ flags ∧ 1 ≤ info.dataType ∧ info.dataType ≤ 12) ∧
      ∃ message, (newTypedAccessor r vectors path node_id info flags numberOfWords
        wordOffsetInRegister accessor w).1 = .error (.logicError message)) ∨
    (¬ (.raw ∈ flags ∧ 1 ≤ info.dataType ∧ info.dataType ≤ 12) ∧
      ((∃ failure, (∀ message, failure ≠ .logicError message) ∧
        (newTypedAccessor r vectors path node_id info flags numberOfWords
          wordOffsetInRegister accessor w).1 = .error failure) ∨
      ∃ a : CreatedAccessor, a.MadeFor info flags numberOfWords wordOffsetInRegister ∧
        (newTypedAccessor r vectors path node_id info flags numberOfWords
          wordOffsetInRegister accessor w).1 = .ok a)) := by
  rw [newTypedAccessor]
  by_cases htype : 1 ≤ info.dataType ∧ info.dataType ≤ 12
  · rw [if_pos htype]
    rcases newRegisterAccessor_cases (r := r) with
      ⟨hraw, hthrows⟩ | ⟨hraw, hfails⟩ | ⟨hraw, hmakes⟩
    · exact .inl ⟨⟨hraw, htype⟩, hthrows⟩
    · exact .inr ⟨fun hand => hraw hand.1, .inl hfails⟩
    · exact .inr ⟨fun hand => hraw hand.1, .inr hmakes⟩
  · rw [if_neg htype]
    exact .inr ⟨fun hand => htype hand.2, .inl ⟨.runtimeError _, by simp, rfl⟩⟩

/-- The accessor as its transfers use it. -/
def CreatedAccessor.transferring {α κ : Type} (a : CreatedAccessor) (ranges : Ranges α)
    (toOpcUA : κ → Except String α) (cleared : α) : RegisterAccessor α κ where
  info := a.info
  node_id := a.node_id
  numberOfWords := a.numberOfWords
  offsetWords := a.offsetWords
  ranges := ranges
  toOpcUA := toOpcUA
  cleared := cleared

/-- An accessor that is made has passed the test of its window, and is partial as its transfers
take it to be. -/
theorem CreatedAccessor.accepted {α κ : Type} {a : CreatedAccessor}
    (hmade : (getRegisterAccessor_impl paths c vectors r request accessor w).1 = .ok a)
    (ranges : Ranges α) (toOpcUA : κ → Except String α) (cleared : α) :
    (a.transferring ranges toOpcUA cleared).Accepted ∧
      (a.transferring ranges toOpcUA cleared).isPartial = a.isPartial := by
  cases hfound : findRegister paths c request.registerPathName with
  | none =>
    simp only [getRegisterAccessor_impl, hfound] at hmade
    split at hmade <;> cases hmade
  | some info =>
    cases hwindow : requestWindow info.arrayLength request.numberOfWords.toNat
        request.wordOffsetInRegister.toNat with
    | error message =>
      rw [getRegisterAccessor_refused hfound hwindow] at hmade
      cases hmade
    | ok numberOfWords =>
      rw [getRegisterAccessor_passed hfound hwindow] at hmade
      rcases newTypedAccessor_cases (r := r) (w := w) with
        ⟨-, message, hthrows⟩ | ⟨-, ⟨failure, -, hfails⟩ | ⟨a', ha', hmakes⟩⟩
      · cases hthrows.symm.trans hmade
      · cases hfails.symm.trans hmade
      · obtain rfl := Except.ok.inj (hmakes.symm.trans hmade)
        refine ⟨⟨_, request.numberOfWords.toNat_lt, ?_⟩, ?_⟩
        · simpa only [transferring, ha'.register, ha'.offsetWords, ha'.numberOfWords] using hwindow
        · rw [Bool.eq_iff_iff, ← not_iff_not, Bool.not_eq_true, Bool.not_eq_true, ha'.isPartial,
            RegisterAccessor.isPartial, bne_eq_false_iff_eq, transferring, ha'.register,
            ha'.numberOfWords]

/-- A window that lies in the register is admitted as promised. -/
theorem admitsWindow_of_not_wraps
    (hfound : findRegister paths c request.registerPathName = some info)
    (hwraps : ¬ request.WrapsInto info.arrayLength) :
    AdmitsWindow (getRegisterAccessor_impl paths c vectors r request accessor w).1
      request info := by
  cases hwindow : requestWindow info.arrayLength request.numberOfWords.toNat
      request.wordOffsetInRegister.toNat with
  | error message =>
    rw [getRegisterAccessor_refused hfound hwindow]
    refine ⟨fun a ha => ?_, fun _ => ⟨message, rfl⟩⟩
    cases ha
  | ok numberOfWords =>
    obtain ⟨rfl, hin⟩ := AccessorRequest.of_requestWindow hwindow
    have hin := hin.resolve_right hwraps
    rw [getRegisterAccessor_passed hfound hwindow]
    refine ⟨fun a hmade => ?_, fun hout => absurd hin hout⟩
    rcases newTypedAccessor_cases (r := r) (w := w) with
      ⟨-, message, hthrows⟩ | ⟨-, ⟨failure, -, hfails⟩ | ⟨a', ha', hmakes⟩⟩
    · cases hthrows.symm.trans hmade
    · cases hfails.symm.trans hmade
    · obtain rfl := Except.ok.inj (hmakes.symm.trans hmade)
      exact ha'.hasWindow hin

/-- A sum that has wrapped around is found out only where the raw mode is. -/
theorem admitsWindow_of_wraps
    (hfound : findRegister paths c request.registerPathName = some info)
    (hsize : info.arrayLength < 2 ^ 64) (hwraps : request.WrapsInto info.arrayLength) :
    AdmitsWindow (getRegisterAccessor_impl paths c vectors r request accessor w).1 request info
      ↔ .raw ∈ request.flags ∧ 1 ≤ info.dataType ∧ info.dataType ≤ 12 := by
  obtain ⟨hout, hwindow⟩ := hwraps.passes hsize
  rw [getRegisterAccessor_passed hfound hwindow]
  rcases newTypedAccessor_cases (r := r) (w := w) with
    ⟨hraw, message, hthrows⟩ | ⟨hraw, ⟨failure, hother, hfails⟩ | ⟨a, -, hmakes⟩⟩
  · refine iff_of_true ⟨fun a ha => ?_, fun _ => ⟨message, hthrows⟩⟩ hraw
    cases hthrows.symm.trans ha
  · refine iff_of_false (fun h => ?_) hraw
    obtain ⟨message, hmessage⟩ := h.refused hout
    exact hother message (Except.error.inj (hfails.symm.trans hmessage))
  · refine iff_of_false (fun h => ?_) hraw
    obtain ⟨message, hmessage⟩ := h.refused hout
    cases hmakes.symm.trans hmessage

end Function

/-- **The window is tested as promised unless the sum wraps around into the register**, and then
only where the raw mode is refused after it. -/
theorem admitsWindow_iff {paths : RegisterPaths} {c : OpcUaBackendRegisterCatalogue}
    {request : AccessorRequest} {info : OpcUABackendRegisterInfo}
    (hfound : findRegister paths c request.registerPathName = some info)
    (hsize : info.arrayLength < 2 ^ 64) (vectors : UserVectors) (r : Replies V)
    (accessor : Accessor) (w : World V) :
    AdmitsWindow (getRegisterAccessor_impl paths c vectors r request accessor w).1 request info ↔
      (request.WrapsInto info.arrayLength →
        .raw ∈ request.flags ∧ 1 ≤ info.dataType ∧ info.dataType ≤ 12) := by
  by_cases hwraps : request.WrapsInto info.arrayLength
  · rw [admitsWindow_of_wraps hfound hsize hwraps]
    exact ⟨fun hraw _ => hraw, fun h => h hwraps⟩
  · exact iff_of_true (admitsWindow_of_not_wraps hfound hwraps) fun h => absurd h hwraps

/-! ## A register of ten elements -/

/-- The register has ten elements of 32 bits. -/
def tenElements : OpcUABackendRegisterInfo where
  path := "Dummy/ten"
  serverAddress := "opc.tcp://localhost:16664"
  nodeBrowseName := "Dummy/ten"
  description := ""
  dataType := 6
  dataDescriptor := ⟨.numeric, true, true, 10, 300⟩
  isReadonly := false
  isNumeric := false
  namespaceIndex := 1
  arrayLength := 10
  accessModes := [.wait_for_new_data]
  id := ⟨1, .string "Dummy/ten"⟩
  indexRange := ""

/-- Vectors of 32 bits, with memory for a thousand elements. -/
def thousandElements : UserVectors := ⟨2 ^ 61 - 1, (· ≤ 1000)⟩

/-- Paths that are compared as texts. -/
def textPaths : RegisterPaths := ⟨id, fun parent name => parent ++ "/" ++ name⟩

/-- Three elements from the second on. -/
theorem admitsWindow_three :
    AdmitsWindow (getRegisterAccessor_impl textPaths [tenElements] thousandElements
      ({} : Replies Nat) ⟨"Dummy/ten", 3, 2, []⟩ 1 {}).1 ⟨"Dummy/ten", 3, 2, []⟩ tenElements := by
  refine (admitsWindow_iff (by decide) (by decide) _ _ _ _).mpr fun hwraps => ?_
  exact absurd hwraps.1 (by decide)

/-- Ten elements from the position 2 ^ 64 - 4 on. -/
theorem not_admitsWindow_wrapped :
    ¬ AdmitsWindow (getRegisterAccessor_impl textPaths [tenElements] thousandElements
      ({} : Replies Nat) ⟨"Dummy/ten", 10, 18446744073709551612, []⟩ 1 {}).1
      ⟨"Dummy/ten", 10, 18446744073709551612, []⟩ tenElements := by
  intro h
  obtain ⟨hraw, -⟩ := (admitsWindow_of_wraps (by decide) (by decide)
    ⟨by decide, by decide⟩).mp h
  cases hraw

end OpcUaBackend
