import Mathlib.Data.List.TakeWhile
import OpcUaBackend.Catalogue.RegisterInfo

/-!
# The entries of the catalogue

`addCatalogueEntry` asks the server for the data type, the description, the value and the access
level of a node, and adds a register with `addProperty`. Where an answer is missing or not
usable, the node is logged and left out.

Texts are rows of bytes, one for each character of a `String`. Of the text of a node id as many
bytes are cut off as the name of the root node has.

The parser of index ranges of the client library is a parameter.

## Main definitions

* `NodeAnswers`: what the server answers for a node
* `localNodeName`, `entryLength`: the name and the length of a register
* `addCatalogueEntry`: a register is added

* `NodeAnswers.Usable`, `NodeAnswers.Breaks`: when a register is added, and when the range is not
  one

## Main results

* `addNamedEntry_usable`, `addNamedEntry_breaks`, `addNamedEntry_unusable`: the three cases
-/

namespace OpcUaBackend

variable {α : Type}

/-! ## Index ranges -/

/-- A dimension of a `UA_NumericRange`. -/
structure RangeDimension where
  min : Nat
  max : Nat
  deriving DecidableEq, Repr

/-- `UA_NUMERICRANGE`, the range a text denotes, and `UA_Variant_copyRange`, the elements of
a value in a range. -/
structure Ranges (α : Type) where
  numericRange : String → List RangeDimension
  copyRange : List α → List RangeDimension → Except UA_StatusCode (List α)

/-! ## The server and the backend -/

/-- The shape of a value: a scalar, or an array with its length, which is zero where there is no
value. -/
inductive ValueShape
  | scalar
  | array (arrayLength : Nat)
  deriving DecidableEq, Repr

/-- What the server answers when the attributes of a node are read. -/
structure NodeAnswers where
  dataType : Except UA_StatusCode Nat
  description : Except UA_StatusCode String
  value : Except UA_StatusCode ValueShape
  accessLevel : Except UA_StatusCode Nat

/-- The parts of the backend that the catalogue is made with. -/
structure CatalogueSource where
  paths : RegisterPaths
  numericRange : String → List RangeDimension
  serverAddress : String
  rootNode : String

/-- What leaves a function: an exception of the device access library, of the standard library or of
the library for documents, or undefined behaviour. -/
inductive Failure
  | logicError (message : String)
  | runtimeError (message : String)
  | outOfRange
  | invalidArgument
  | xmlException (what : String)
  | undefinedBehaviour
  deriving DecidableEq, Repr

def UA_ACCESSLEVELMASK_WRITE : Nat := 2

/-! ## Adding an entry -/

/-- The text up to the first null character, as a C string. -/
def cString (s : String) : String := String.ofList (s.toList.takeWhile (· != '\x00'))

theorem cString_eq_iff {s : String} : cString s = s ↔ '\x00' ∉ s.toList := by
  have hlist : cString s = s ↔ s.toList.takeWhile (· != '\x00') = s.toList := by
    rw [cString, ← String.toList_inj, String.toList_ofList]
  rw [hlist, List.takeWhile_eq_self_iff]
  constructor
  · intro h hmem
    exact absurd (h _ hmem) (by simp)
  · intro h c hc
    exact bne_iff_ne.mpr fun he => h (he ▸ hc)

/-- The name space of the documents. -/
def namespaceUri : String := "https://github.com/ChimeraTK/DeviceAccess-OpcUaBackend"

/-- The bytes of the root node without "Dir" at its end. -/
def localRootName (rootNode : String) : List Char :=
  if ['D', 'i', 'r'] <:+ rootNode.toList then rootNode.toList.dropLast.dropLast.dropLast
  else rootNode.toList

/-- The name that is made of the node id. -/
def nodeIdName : Identifier → String
  | .string s => s
  | .numeric n => "numeric/" ++ toString n

/-- The name of the register where none is given; `erase` counts the bytes of the root. The first
byte of an empty text is out of range. -/
def localNodeName (b : CatalogueSource) (node : UA_NodeId) : Except Failure String :=
  match (nodeIdName node.identifier).toList with
  | [] => .error .outOfRange
  | c :: cs =>
    let name := if c = '/' then cs else c :: cs
    .ok (String.ofList (name.drop (localRootName b.rootNode).length))

/-- The length of a register, in unsigned arithmetic of 32 bits for a range; nothing where the
node is left out. A text that is not a range has no dimension to be looked at. -/
def entryLength (b : CatalogueSource) (range : String) : ValueShape → Except Failure (Option Nat)
  | .scalar => .ok (some 1)
  | .array arrayLength =>
    -- a value without a type has the length zero as well
    if arrayLength = 0 then .ok none
    else if range = "" then .ok (some arrayLength)
    else
      match b.numericRange range with
      | [] => .error .undefinedBehaviour
      | [dimension] => .ok (some ((dimension.max + 2 ^ 32 - dimension.min + 1) % 2 ^ 32))
      | _ => .ok none

/-- The description, which is empty where the server does not give it. -/
def NodeAnswers.descriptionText (answers : NodeAnswers) : String :=
  match answers.description with
  | .ok description => description
  | .error _ => ""

/-- `addCatalogueEntry` after the name was made. -/
def addNamedEntry (b : CatalogueSource) (answers : NodeAnswers) (node : UA_NodeId)
    (name range : String) (c : OpcUaBackendRegisterCatalogue) :
    Except Failure OpcUaBackendRegisterCatalogue :=
  match answers.dataType with
  | .error _ => .ok c
  | .ok dataType =>
    -- only the first twelve of the built-in types are supported
    if 12 < dataType ∨ dataType < 1 then .ok c
    else
      match answers.value with
      | .error _ => .ok c
      | .ok shape => do
        match ← entryLength b range shape with
        | none => return c
        | some arrayLength =>
          match answers.accessLevel with
          | .error _ => return c
          | .ok accessLevel =>
            let isReadonly := accessLevel &&& UA_ACCESSLEVELMASK_WRITE == 0
            (addProperty b.paths node name range dataType arrayLength b.serverAddress
              answers.descriptionText isReadonly c).mapError .logicError

def addCatalogueEntry (b : CatalogueSource) (answers : NodeAnswers) (node : UA_NodeId)
    (nodeName : Option String) (range : String) (c : OpcUaBackendRegisterCatalogue) :
    Except Failure OpcUaBackendRegisterCatalogue := do
  let name ← match nodeName with
    | none => localNodeName b node
    | some name => .ok name
  addNamedEntry b answers node name range c

/-- The register name of a node where no name is given. -/
def entryName (b : CatalogueSource) (node : UA_NodeId) : String :=
  match localNodeName b node with
  | .ok name => b.paths.registerPath name
  | .error _ => ""

/-! ## The three cases -/

/-- The node has a known type, a value that gives a length, and an access level. -/
structure NodeAnswers.Usable (b : CatalogueSource) (range : String) (answers : NodeAnswers) :
    Prop where
  dataType : ∃ dataType, answers.dataType = .ok dataType ∧ 1 ≤ dataType ∧ dataType ≤ 12
  value : ∃ shape arrayLength, answers.value = .ok shape ∧
    entryLength b range shape = .ok (some arrayLength)
  accessLevel : ∃ accessLevel, answers.accessLevel = .ok accessLevel

/-- The node has a known type and an array as its value, but the text is not a range. -/
structure NodeAnswers.Breaks (b : CatalogueSource) (range : String) (answers : NodeAnswers) :
    Prop where
  dataType : ∃ dataType, answers.dataType = .ok dataType ∧ 1 ≤ dataType ∧ dataType ≤ 12
  value : ∃ shape, answers.value = .ok shape ∧
    entryLength b range shape = .error .undefinedBehaviour

section Cases

variable {b : CatalogueSource} {answers : NodeAnswers} {node : UA_NodeId} {name range : String}

theorem entryLength_error {shape : ValueShape} {failure : Failure}
    (h : entryLength b range shape = .error failure) : failure = .undefinedBehaviour := by
  unfold entryLength at h
  split at h
  · cases h
  · split at h
    · cases h
    · split at h
      · cases h
      · split at h
        · exact (Except.error.inj h).symm
        · cases h
        · cases h

/-- A node of a known type, with a length and an access level, gives a register. -/
theorem addNamedEntry_of_length {dataType arrayLength accessLevel : Nat} {shape : ValueShape}
    (hdataType : answers.dataType = .ok dataType) (hlow : 1 ≤ dataType) (hhigh : dataType ≤ 12)
    (hshape : answers.value = .ok shape)
    (hlength : entryLength b range shape = .ok (some arrayLength))
    (haccess : answers.accessLevel = .ok accessLevel) (node : UA_NodeId) (name : String) :
    ∃ entry : OpcUABackendRegisterInfo, entry.nodeBrowseName = name ∧
      entry.arrayLength = arrayLength ∧ ∀ c, addNamedEntry b answers node name range c
        = (addRegister b.paths entry c).mapError .logicError := by
  have hrange : ¬ (12 < dataType ∨ dataType < 1) := by omega
  obtain ⟨descriptor, hdescriptor⟩ := Option.isSome_iff_exists.mp
    (descriptorOf_isSome.mpr ⟨hlow, hhigh⟩)
  refine ⟨propertyInfo b.paths node name range dataType arrayLength b.serverAddress
    answers.descriptionText (accessLevel &&& UA_ACCESSLEVELMASK_WRITE == 0) descriptor, rfl, rfl,
    fun c => ?_⟩
  rw [addNamedEntry, hdataType]
  simp only [if_neg hrange, hshape, hlength, haccess, bind, Except.bind,
    addProperty_of_known hdescriptor]

/-- A usable node gives a register under the name, which is added to any catalogue. -/
theorem addNamedEntry_usable (h : answers.Usable b range) (node : UA_NodeId) (name : String) :
    ∃ entry : OpcUABackendRegisterInfo, entry.nodeBrowseName = name ∧ ∀ c,
      addNamedEntry b answers node name range c
        = (addRegister b.paths entry c).mapError .logicError := by
  obtain ⟨⟨dataType, hdataType, hlow, hhigh⟩, ⟨shape, arrayLength, hshape, hlength⟩, accessLevel,
    haccess⟩ := h
  obtain ⟨entry, hname, -, hall⟩ :=
    addNamedEntry_of_length hdataType hlow hhigh hshape hlength haccess node name
  exact ⟨entry, hname, hall⟩

theorem addNamedEntry_breaks (h : answers.Breaks b range) (c : OpcUaBackendRegisterCatalogue) :
    addNamedEntry b answers node name range c = .error .undefinedBehaviour := by
  obtain ⟨⟨dataType, hdataType, hlow, hhigh⟩, shape, hshape, hlength⟩ := h
  unfold addNamedEntry
  rw [hdataType]
  simp only [if_neg (show ¬ (12 < dataType ∨ dataType < 1) by omega), hshape, hlength, bind,
    Except.bind]

/-- A node that is left out. -/
theorem addNamedEntry_unusable (h : ¬ answers.Usable b range) (hb : ¬ answers.Breaks b range)
    (c : OpcUaBackendRegisterCatalogue) : addNamedEntry b answers node name range c = .ok c := by
  unfold addNamedEntry
  cases hdataType : answers.dataType with
  | error status => rfl
  | ok dataType =>
    by_cases hrange : 12 < dataType ∨ dataType < 1
    · exact if_pos hrange
    · have htype : ∃ dataType, answers.dataType = .ok dataType ∧ 1 ≤ dataType ∧ dataType ≤ 12 :=
        ⟨dataType, hdataType, by omega, by omega⟩
      simp only [if_neg hrange]
      cases hvalue : answers.value with
      | error status => rfl
      | ok shape =>
        cases hlength : entryLength b range shape with
        | error failure =>
          obtain rfl := entryLength_error hlength
          exact absurd ⟨htype, shape, hvalue, hlength⟩ hb
        | ok length =>
          cases length with
          | none =>
            simp only [hlength, bind, Except.bind]
            rfl
          | some arrayLength =>
            cases haccess : answers.accessLevel with
            | error status =>
              simp only [hlength, bind, Except.bind]
              rfl
            | ok accessLevel =>
              exact absurd ⟨htype, ⟨shape, arrayLength, hvalue, hlength⟩, accessLevel, haccess⟩ h

/-- Without a range nothing is wrong with it. -/
theorem not_breaks_empty (answers : NodeAnswers) : ¬ answers.Breaks b "" := by
  rintro ⟨-, shape, -, hlength⟩
  unfold entryLength at hlength
  cases shape with
  | scalar => cases hlength
  | array arrayLength =>
    simp only at hlength
    split at hlength <;> cases hlength

theorem localNodeName_eq_error (h : node.identifier = .string "") :
    localNodeName b node = .error .outOfRange := by
  rw [localNodeName, h]
  rfl

theorem exists_localNodeName (h : node.identifier ≠ .string "") :
    ∃ name, localNodeName b node = .ok name := by
  unfold localNodeName
  split
  · rename_i hnil
    exfalso
    cases hnode : node.identifier with
    | string s =>
      rw [hnode] at hnil h
      have hs : s = "" := by simpa [nodeIdName] using hnil
      exact h (by rw [hs])
    | numeric n =>
      rw [hnode] at hnil
      simp [nodeIdName] at hnil
  · exact ⟨_, rfl⟩

end Cases

end OpcUaBackend
