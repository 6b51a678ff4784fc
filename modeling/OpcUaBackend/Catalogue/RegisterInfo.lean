import Mathlib.Tactic.IntervalCases
import OpcUaBackend.Manager.State

/-!
# The register catalogue

The information on a register, and `addProperty`, which adds one to the catalogue. The paths
of registers are those of the device access library, which are given by a parameter.

## Main definitions

* `OpcUABackendRegisterInfo`, `OpcUaBackendRegisterCatalogue`: registers, in the order in which
  they were added
* `RegisterPaths`: the paths of the library
* `addProperty`: a register is added
-/

namespace OpcUaBackend

inductive FundamentalType
  | numeric | string | boolean
  deriving DecidableEq, Repr

structure DataDescriptor where
  fundamentalType : FundamentalType
  isIntegral : Bool
  isSigned : Bool
  nDigits : Nat
  nFractionalDigits : Nat
  deriving DecidableEq, Repr

inductive AccessMode
  | raw | wait_for_new_data
  deriving DecidableEq, Repr

structure OpcUABackendRegisterInfo where
  path : String
  serverAddress : String
  nodeBrowseName : String
  description : String
  dataType : Nat
  dataDescriptor : DataDescriptor
  isReadonly : Bool
  isNumeric : Bool
  namespaceIndex : Nat
  arrayLength : Nat
  accessModes : List AccessMode
  id : UA_NodeId
  indexRange : String
  deriving DecidableEq, Repr

abbrev OpcUaBackendRegisterCatalogue := List OpcUABackendRegisterInfo

/-- `RegisterPath`: the path of a text, as a text again, and the path below another. -/
structure RegisterPaths where
  registerPath : String → String
  below : String → String → String

def Identifier.isNumeric : Identifier → Bool
  | .numeric _ => true
  | .string _ => false

/-- The largest number of decimal digits of a float: the 45 before or behind the decimal dot,
rounded down with the four extra characters. -/
def floatMaxDigits : Nat := 48

/-- The descriptor that `addProperty` gives a data type. -/
def descriptorOf : Nat → Option DataDescriptor
  | 1 => some ⟨.boolean, true, true, 320, 300⟩
  | 2 => some ⟨.numeric, true, true, 4, 300⟩
  | 3 => some ⟨.numeric, true, false, 3, 300⟩
  | 4 => some ⟨.numeric, true, true, 5, 300⟩
  | 5 => some ⟨.numeric, true, false, 6, 300⟩
  | 6 => some ⟨.numeric, true, true, 10, 300⟩
  | 7 => some ⟨.numeric, true, false, 11, 300⟩
  | 8 => some ⟨.numeric, true, true, 320, 300⟩
  | 9 => some ⟨.numeric, true, false, 320, 300⟩
  | 10 => some ⟨.numeric, false, true, floatMaxDigits, 300⟩
  | 11 => some ⟨.numeric, false, true, 300, 300⟩
  | 12 => some ⟨.string, true, true, 320, 300⟩
  | _ => none

theorem descriptorOf_isSome {n : Nat} : (descriptorOf n).isSome = true ↔ 1 ≤ n ∧ n ≤ 12 := by
  constructor
  · intro h
    unfold descriptorOf at h
    split at h <;> first | omega | cases h
  · rintro ⟨hlow, hhigh⟩
    interval_cases n <;> rfl

variable (paths : RegisterPaths)

/-- `getRegisterName`. -/
def OpcUABackendRegisterInfo.getRegisterName (info : OpcUABackendRegisterInfo) : String :=
  paths.registerPath info.nodeBrowseName

/-- `addRegister` of the library's catalogue, which has a register once. -/
def addRegister (entry : OpcUABackendRegisterInfo) (c : OpcUaBackendRegisterCatalogue) :
    Except String OpcUaBackendRegisterCatalogue :=
  if c.any fun info => info.getRegisterName paths == entry.getRegisterName paths then
    .error ("BackendRegisterCatalogue::addRegister(): Register with the name "
      ++ entry.getRegisterName paths ++ " already exists!")
  else .ok (c ++ [entry])

/-- `addProperty`. A register of another data type is not added. -/
def addProperty (node : UA_NodeId) (browseName range : String) (dataType arrayLength : Nat)
    (serverAddress description : String) (isReadonly : Bool) (c : OpcUaBackendRegisterCatalogue) :
    Except String OpcUaBackendRegisterCatalogue :=
  match descriptorOf dataType with
  | none => .ok c
  | some descriptor =>
    addRegister paths
      { path := paths.below (paths.registerPath serverAddress) (paths.registerPath browseName)
        serverAddress := serverAddress
        nodeBrowseName := browseName
        description := description
        dataType := dataType
        dataDescriptor := descriptor
        isReadonly := isReadonly
        isNumeric := node.identifier.isNumeric
        namespaceIndex := node.namespaceIndex
        arrayLength := arrayLength
        accessModes := [.wait_for_new_data]
        id := node
        indexRange := range } c

variable {paths}

/-- A register is added when there is none of its name. -/
theorem addRegister_ok_iff {r : OpcUABackendRegisterInfo} {c c' : OpcUaBackendRegisterCatalogue} :
    addRegister paths r c = .ok c' ↔
      (∀ info ∈ c, info.getRegisterName paths ≠ r.getRegisterName paths) ∧ c' = c ++ [r] := by
  unfold addRegister
  split
  · rename_i hany
    obtain ⟨info, hmem, hname⟩ := List.any_eq_true.mp hany
    refine iff_of_false (by simp) fun hand => hand.1 info hmem (by simpa using hname)
  · rename_i hnone
    have hnew : ∀ info ∈ c, info.getRegisterName paths ≠ r.getRegisterName paths := by
      intro info hmem hname
      exact hnone (List.any_eq_true.mpr ⟨info, hmem, by simpa using hname⟩)
    simp only [Except.ok.injEq]
    exact ⟨fun he => ⟨hnew, he.symm⟩, fun hand => hand.2.symm⟩

theorem addRegister_new {r : OpcUABackendRegisterInfo} {c : OpcUaBackendRegisterCatalogue}
    (hnew : ∀ info ∈ c, info.getRegisterName paths ≠ r.getRegisterName paths) :
    addRegister paths r c = .ok (c ++ [r]) :=
  addRegister_ok_iff.mpr ⟨hnew, rfl⟩

variable (paths) in
/-- The register that is added for a known type. -/
def propertyInfo (node : UA_NodeId) (browseName range : String) (dataType arrayLength : Nat)
    (serverAddress description : String) (isReadonly : Bool) (descriptor : DataDescriptor) :
    OpcUABackendRegisterInfo where
  path := paths.below (paths.registerPath serverAddress) (paths.registerPath browseName)
  serverAddress := serverAddress
  nodeBrowseName := browseName
  description := description
  dataType := dataType
  dataDescriptor := descriptor
  isReadonly := isReadonly
  isNumeric := node.identifier.isNumeric
  namespaceIndex := node.namespaceIndex
  arrayLength := arrayLength
  accessModes := [.wait_for_new_data]
  id := node
  indexRange := range

section Property

variable {node : UA_NodeId} {browseName range serverAddress description : String}
  {dataType arrayLength : Nat} {isReadonly : Bool} {c : OpcUaBackendRegisterCatalogue}

theorem addProperty_of_unknown (h : descriptorOf dataType = none) :
    addProperty paths node browseName range dataType arrayLength serverAddress description
      isReadonly c = .ok c := by
  rw [addProperty, h]

/-- A register of a known type is one and the same whatever it is added to. -/
theorem addProperty_of_known {descriptor : DataDescriptor}
    (h : descriptorOf dataType = some descriptor) :
    addProperty paths node browseName range dataType arrayLength serverAddress description
        isReadonly c
      = addRegister paths (propertyInfo paths node browseName range dataType arrayLength
        serverAddress description isReadonly descriptor) c := by
  rw [addProperty, h]
  rfl

end Property

end OpcUaBackend
