import Mathlib.Data.List.Induction
import OpcUaBackend.Catalogue.Cache
import OpcUaBackend.Foundation.Folds

/-!
# Saving and reading a catalogue

Every register of a catalogue that `addProperty` made is read back from the file that
`saveCatalogue` wrote, with its browse name as a path. The element of the server address has a
text once there is a register. For a catalogue without registers it has none, and reading it
dereferences a null pointer.

## Main definitions

* `LegalCalls`: the calls of `addProperty` that make a catalogue
* `SameRegister`: the data of a register that are kept

## Main results

* `Added.parses`, `Added.parseRegister`: a register is read back
* `readCatalogue_saved`: what a saved file is read as
* `readCatalogue_saveCatalogue_iff`: when a catalogue is read back
-/

namespace OpcUaBackend

open Foundation

variable {φ : Type} (paths : RegisterPaths) (modes : AccessModeTexts) (dom : Dom φ)

/-! ## The calls that make a catalogue -/

/-- The arguments of a call of `addProperty`. -/
structure Property where
  node : UA_NodeId
  browseName : String
  range : String
  dataType : Nat
  arrayLength : Nat
  serverAddress : String
  description : String
  isReadonly : Bool

def addProperties (calls : List Property) : Except String OpcUaBackendRegisterCatalogue :=
  calls.foldlM (fun c p => addProperty paths p.node p.browseName p.range p.dataType p.arrayLength
    p.serverAddress p.description p.isReadonly c) []

/-- A numeric identifier is a number of 32 bits, and another one a text. -/
def Identifier.Legal : Identifier → Prop
  | .numeric n => n < 2 ^ 32
  | .string s => s ≠ "" ∧ XmlText s

/-- A call for a register of a server, of a known type. -/
structure Property.Legal (serverAddress : String) (p : Property) : Prop where
  serverAddress : p.serverAddress = serverAddress
  identifier : p.node.identifier.Legal
  namespaceIndex : p.node.namespaceIndex < 2 ^ 16
  dataType : 1 ≤ p.dataType ∧ p.dataType ≤ 12
  arrayLength : p.arrayLength < 2 ^ 32
  browseName : XmlText p.browseName
  range : XmlText p.range
  description : XmlText p.description

/-- Calls for registers of one server, with names of their own. -/
structure LegalCalls (serverAddress : String) (calls : List Property) : Prop where
  nonempty : serverAddress ≠ ""
  text : XmlText serverAddress
  legal : ∀ p ∈ calls, p.Legal serverAddress
  distinct : (calls.map fun p => paths.registerPath p.browseName).Nodup

/-- The paths of registers are not empty, stay as they are when they are made paths again, and
differ from their texts in slashes only, so that they fit into a document as these do. -/
structure RegisterPaths.Documented (paths : RegisterPaths) : Prop where
  nonempty : ∀ s, paths.registerPath s ≠ ""
  idempotent : ∀ s, paths.registerPath (paths.registerPath s) = paths.registerPath s
  text : ∀ s, XmlText s → XmlText (paths.registerPath s)

/-- Flags are read back from their texts. -/
structure AccessModeTexts.Documented (modes : AccessModeTexts) : Prop where
  deserialize : ∀ mode, modes.deserialize (modes.serialize [mode]) = .ok [mode]
  text : ∀ flags, XmlText (modes.serialize flags)

/-- The data of a register that are kept. -/
structure SameRegister (r r' : OpcUABackendRegisterInfo) : Prop where
  name : r'.getRegisterName paths = r.getRegisterName paths
  path : r'.path = r.path
  serverAddress : r'.serverAddress = r.serverAddress
  id : r'.id = r.id
  namespaceIndex : r'.namespaceIndex = r.namespaceIndex
  isNumeric : r'.isNumeric = r.isNumeric
  dataType : r'.dataType = r.dataType
  dataDescriptor : r'.dataDescriptor = r.dataDescriptor
  description : r'.description = r.description
  length : r'.getNumberOfElements = r.getNumberOfElements
  isReadonly : r'.isReadonly = r.isReadonly
  accessModes : r'.accessModes = r.accessModes
  indexRange : r'.indexRange = r.indexRange

/-! ## The registers of such a catalogue -/

/-- A register that a call has added. -/
structure Added (serverAddress : String) (r : OpcUABackendRegisterInfo) : Prop where
  path : r.path = paths.below (paths.registerPath serverAddress) (paths.registerPath r.nodeBrowseName)
  serverAddress : r.serverAddress = serverAddress
  browseName : XmlText r.nodeBrowseName
  description : XmlText r.description
  dataType : descriptorOf r.dataType = some r.dataDescriptor
  isNumeric : r.isNumeric = r.id.identifier.isNumeric
  namespaceIndex : r.namespaceIndex = r.id.namespaceIndex
  namespaceBound : r.namespaceIndex < 2 ^ 16
  arrayLength : r.arrayLength < 2 ^ 32
  accessModes : r.accessModes = [.wait_for_new_data]
  identifier : r.id.identifier.Legal
  indexRange : XmlText r.indexRange

/-- A register as it is read back: its browse name is a path. -/
def OpcUABackendRegisterInfo.reread (r : OpcUABackendRegisterInfo) : OpcUABackendRegisterInfo :=
  { r with nodeBrowseName := r.getRegisterName paths }

variable {paths modes dom} {serverAddress : String} {r : OpcUABackendRegisterInfo}

theorem sameRegister_reread (hp : paths.Documented) (r : OpcUABackendRegisterInfo) :
    SameRegister paths r (r.reread paths) :=
  ⟨hp.idempotent _, rfl, rfl, rfl, rfl, rfl, rfl, rfl, rfl, rfl, rfl, rfl, rfl⟩

variable (paths) in
/-- A legal call adds a register of its own name. -/
theorem Property.Legal.addProperty {p : Property} (h : p.Legal serverAddress)
    {c : OpcUaBackendRegisterCatalogue}
    (hnew : ∀ info ∈ c, info.getRegisterName paths ≠ paths.registerPath p.browseName) :
    ∃ r, OpcUaBackend.addProperty paths p.node p.browseName p.range p.dataType p.arrayLength
        p.serverAddress p.description p.isReadonly c = .ok (c ++ [r]) ∧
      Added paths serverAddress r ∧ r.getRegisterName paths = paths.registerPath p.browseName := by
  obtain ⟨descriptor, hdescriptor⟩ := Option.isSome_iff_exists.mp (descriptorOf_isSome.mpr h.dataType)
  unfold OpcUaBackend.addProperty
  rw [hdescriptor]
  refine ⟨_, addRegister_new hnew, ?_, rfl⟩
  exact
    { path := by rw [h.serverAddress]
      serverAddress := h.serverAddress
      browseName := h.browseName
      description := h.description
      dataType := hdescriptor
      isNumeric := rfl
      namespaceIndex := rfl
      namespaceBound := h.namespaceIndex
      arrayLength := h.arrayLength
      accessModes := rfl
      identifier := h.identifier
      indexRange := h.range }

theorem addProperties_ok {calls : List Property} (h : LegalCalls paths serverAddress calls) :
    ∃ c, addProperties paths calls = .ok c ∧ (∀ r ∈ c, Added paths serverAddress r) ∧
      c.map (·.getRegisterName paths) = calls.map fun p => paths.registerPath p.browseName := by
  -- by induction on the calls from their end, as registers are added at the end
  suffices hall : ∀ calls : List Property, (∀ p ∈ calls, p.Legal serverAddress) →
      (calls.map fun p => paths.registerPath p.browseName).Nodup →
      ∃ c, addProperties paths calls = .ok c ∧ (∀ r ∈ c, Added paths serverAddress r) ∧
        c.map (·.getRegisterName paths) = calls.map fun p => paths.registerPath p.browseName from
    hall calls h.legal h.distinct
  intro calls hlegal hdistinct
  induction calls using List.reverseRecOn with
  | nil => exact ⟨[], rfl, by simp, rfl⟩
  | append_singleton calls p ih =>
    rw [List.map_append, List.nodup_append] at hdistinct
    obtain ⟨hfirst, -, hnew⟩ := hdistinct
    obtain ⟨c, hc, hregistered, hnames⟩ := ih (fun q hq => hlegal q (by simp [hq])) hfirst
    obtain ⟨r, hadd, hr, hname⟩ := (hlegal p (by simp)).addProperty paths (c := c)
      fun info hmem => hnew _ (hnames ▸ List.mem_map_of_mem hmem) _ (by simp)
    refine ⟨c ++ [r], ?_, ?_, by simp [hnames, hname]⟩
    · unfold addProperties at hc ⊢
      rw [foldlM_append_ok hc, foldlM_cons_ok hadd]
      rfl
    · intro info hmem
      rcases List.mem_append.mp hmem with hold | hlast
      · exact hregistered info hold
      · obtain rfl := List.mem_singleton.mp hlast
        exact hr

/-! ## A register is read back -/

/-- An element with a text. -/
structure IsField (e : Element) (tag content : String) : Prop where
  name : e.name = tag
  text : e.childText = if content = "" then none else some content

theorem RereadAs.isField {tag content : String} {e : Element}
    (h : RereadAs (textNode tag content) e) : IsField e tag content :=
  ⟨h.name, h.text⟩

section Fields

variable {tag content : String} {e : Element}

theorem IsField.childContent (h : IsField e tag content) (hne : content ≠ "") :
    OpcUaBackend.childContent e = .ok content := by
  rw [OpcUaBackend.childContent, h.text, if_neg hne]

theorem IsField.getD (h : IsField e tag content) : e.childText.getD "" = content := by
  rw [h.text]
  split
  · rename_i hempty
    exact hempty.symm
  · rfl

theorem toString_ne_empty (n : Nat) : toString n ≠ "" := by
  intro he
  have hlist := congrArg String.toList he
  rw [Nat.toString_eq_ofList_toDigits, String.toList_ofList] at hlist
  exact Nat.toDigits_ne_nil hlist

theorem IsField.parseTypeId {n : Nat} (h : IsField e tag (toString n)) (hn : n < 2 ^ 31) :
    OpcUaBackend.parseTypeId e = .ok (n : Int) := by
  have hbmod : (n : Int).bmod (2 ^ 32) = n := by
    apply Int.bmod_eq_of_le <;> omega
  unfold OpcUaBackend.parseTypeId
  rw [h.childContent (toString_ne_empty n)]
  show convertToInt (toString n) e.line = _
  rw [convertToInt, stol_toString (by omega)]
  simp only [hbmod]

theorem IsField.parseBool {b : Bool} (h : IsField e tag (boolText b)) :
    OpcUaBackend.parseTypeId e = .ok (b.toNat : Int) :=
  h.parseTypeId (by cases b <;> decide)

theorem IsField.parseLength {n : Nat} (h : IsField e tag (toString n)) (hn : n < 2 ^ 32) :
    OpcUaBackend.parseLength e = .ok n := by
  unfold OpcUaBackend.parseLength
  rw [h.childContent (toString_ne_empty n)]
  show convertToUint (toString n) e.line = _
  rw [convertToUint, stoul_toString (by omega)]
  simp only [Nat.mod_eq_of_lt hn]

theorem cString_eq {s : String} (h : XmlText s) : cString s = s := cString_eq_iff.mpr h.no_null

/-- The text of a node id is read back. -/
theorem parseIdentifier_text {identifier : Identifier} (h : identifier.Legal) :
    parseIdentifier identifier.isNumeric identifier.text = .ok identifier := by
  cases identifier with
  | numeric n =>
    have hn : n < 2 ^ 32 := h
    simp only [parseIdentifier, Identifier.isNumeric, Identifier.text, if_true]
    rw [stoul_toString (by omega)]
    simp only [Nat.mod_eq_of_lt hn]
  | string s =>
    simp only [parseIdentifier, Identifier.isNumeric, Identifier.text, Bool.false_eq_true, if_false]
    rw [cString_eq h.2]

theorem Identifier.Legal.text_ne_empty {identifier : Identifier} (h : identifier.Legal) :
    identifier.text ≠ "" := by
  cases identifier with
  | numeric n => exact toString_ne_empty n
  | string s => exact h.1

end Fields

/-- The variables of `parseRegister` after a register. -/
def registerFields (paths : RegisterPaths) (r : OpcUABackendRegisterInfo) : RegisterFields where
  nodeId := r.id.identifier.text
  name := r.getRegisterName paths
  description := r.description
  indexRange := r.indexRange
  isReadonly := some r.isReadonly
  isNumeric := some r.isNumeric
  typeId := some r.dataType
  namespaceId := some r.namespaceIndex
  length := r.arrayLength
  flags := r.accessModes

/-- Fields with these tags and texts take the variables of `parseRegister` from `p` to `q`. -/
def Parses (modes : AccessModeTexts) (fields : List (String × String)) (p q : RegisterFields) :
    Prop :=
  ∀ es : List Element, List.Forall₂ (fun field e => IsField e field.1 field.2) fields es →
    es.foldlM (parseField modes) p = .ok q

theorem Parses.nil (p : RegisterFields) : Parses modes [] p p := by
  rintro _ ⟨⟩
  rfl

theorem Parses.cons {tag content : String} {fields : List (String × String)}
    {p q s : RegisterFields} (hstep : ∀ e, IsField e tag content → parseField modes p e = .ok q)
    (h : Parses modes fields q s) : Parses modes ((tag, content) :: fields) p s := by
  rintro _ (_ | ⟨hfield, hrest⟩)
  rw [foldlM_cons_ok (hstep _ hfield)]
  exact h _ hrest

/-- The tags and texts of `addRegInfoXmlNode`. -/
def registerTexts (paths : RegisterPaths) (modes : AccessModeTexts)
    (r : OpcUABackendRegisterInfo) : List (String × String) :=
  [("nodeId", r.id.identifier.text), ("name", r.getRegisterName paths),
    ("description", r.description), ("length", toString r.getNumberOfElements),
    ("access_mode", modes.serialize r.accessModes), ("readOnly", boolText r.isReadonly),
    ("typeId", toString r.dataType), ("nameSpace", toString r.namespaceIndex),
    ("isNumeric", boolText r.isNumeric), ("indexRange", r.indexRange)]

section ParseField

variable {content : String} {e : Element} (p : RegisterFields)

theorem parseField_nodeId (he : IsField e "nodeId" content) (hne : content ≠ "") :
    parseField modes p e = .ok { p with nodeId := content } := by
  simp only [parseField, he.name, he.childContent hne]
  rfl

theorem parseField_name (he : IsField e "name" content) (hne : content ≠ "") :
    parseField modes p e = .ok { p with name := content } := by
  simp only [parseField, he.name, he.childContent hne]
  rfl

/-- An empty text leaves the description as it is. -/
theorem parseField_description (he : IsField e "description" content) (hp : p.description = "") :
    parseField modes p e = .ok { p with description := content } := by
  simp only [parseField, he.name, he.text]
  by_cases hempty : content = ""
  · simp only [hempty, if_true]
    rw [← hp]
  · simp only [if_neg hempty]

theorem parseField_length {n : Nat} (he : IsField e "length" (toString n)) (hn : n < 2 ^ 32) :
    parseField modes p e = .ok { p with length := n } := by
  simp only [parseField, he.name, he.parseLength hn]
  rfl

theorem parseField_access_mode {flags : List AccessMode}
    (he : IsField e "access_mode" (modes.serialize flags))
    (hflags : modes.deserialize (modes.serialize flags) = .ok flags) :
    parseField modes p e = .ok { p with flags := flags } := by
  simp only [parseField, he.name, parseAccessMode, he.getD, hflags]
  rfl

theorem toNat_ne_zero (b : Bool) : ((b.toNat : Int) != 0) = b := by
  cases b <;> rfl

theorem parseField_readOnly {b : Bool} (he : IsField e "readOnly" (boolText b)) :
    parseField modes p e = .ok { p with isReadonly := some b } := by
  simp only [parseField, he.name, he.parseBool]
  exact congrArg (fun b => Except.ok { p with isReadonly := some b }) (toNat_ne_zero b)

theorem parseField_isNumeric {b : Bool} (he : IsField e "isNumeric" (boolText b)) :
    parseField modes p e = .ok { p with isNumeric := some b } := by
  simp only [parseField, he.name, he.parseBool]
  exact congrArg (fun b => Except.ok { p with isNumeric := some b }) (toNat_ne_zero b)

theorem parseField_typeId {n : Nat} (he : IsField e "typeId" (toString n)) (hn : n < 2 ^ 31) :
    parseField modes p e = .ok { p with typeId := some n } := by
  have hmod : ((n : Int) % 2 ^ 32).toNat = n := by omega
  simp only [parseField, he.name, he.parseTypeId hn]
  exact congrArg (fun n => Except.ok { p with typeId := some n }) hmod

theorem parseField_nameSpace {n : Nat} (he : IsField e "nameSpace" (toString n))
    (hn : n < 2 ^ 16) : parseField modes p e = .ok { p with namespaceId := some n } := by
  have hmod : ((n : Int) % 2 ^ 16).toNat = n := by omega
  simp only [parseField, he.name, he.parseTypeId (show n < 2 ^ 31 by omega)]
  exact congrArg (fun n => Except.ok { p with namespaceId := some n }) hmod

theorem parseField_indexRange (he : IsField e "indexRange" content) (hp : p.indexRange = "") :
    parseField modes p e = .ok { p with indexRange := content } := by
  simp only [parseField, he.name, he.text]
  by_cases hempty : content = ""
  · simp only [hempty, if_true]
    rw [← hp]
  · simp only [if_neg hempty]

end ParseField

/-- The loop of `parseRegister` over the fields that `addRegInfoXmlNode` writes. -/
theorem Added.parses (hp : paths.Documented) (hm : modes.Documented)
    (h : Added paths serverAddress r) :
    Parses modes (registerTexts paths modes r) {} (registerFields paths r) := by
  have htype : r.dataType ≤ 12 := (descriptorOf_isSome.mp (by rw [h.dataType]; rfl)).2
  have hlength : r.getNumberOfElements = r.arrayLength := Nat.mod_eq_of_lt h.arrayLength
  have hmodes : modes.deserialize (modes.serialize r.accessModes) = .ok r.accessModes := by
    rw [h.accessModes]
    exact hm.deserialize _
  unfold registerTexts
  rw [hlength]
  exact
    .cons (fun _ he => parseField_nodeId _ he h.identifier.text_ne_empty) <|
    .cons (fun _ he => parseField_name _ he (hp.nonempty _)) <|
    .cons (fun _ he => parseField_description _ he rfl) <|
    .cons (fun _ he => parseField_length _ he h.arrayLength) <|
    .cons (fun _ he => parseField_access_mode _ he hmodes) <|
    .cons (fun _ he => parseField_readOnly _ he) <|
    .cons (fun _ he => parseField_typeId _ he (by omega)) <|
    .cons (fun _ he => parseField_nameSpace _ he h.namespaceBound) <|
    .cons (fun _ he => parseField_isNumeric _ he) <|
    .cons (fun _ he => parseField_indexRange _ he rfl) (.nil _)

theorem addRegInfoXmlNode_children (r : OpcUABackendRegisterInfo) :
    addRegInfoXmlNode paths modes r = .element "register" 0
      ((registerTexts paths modes r).map fun field => textNode field.1 field.2) := rfl

/-- The call for a register that was read adds it with a path as its browse name. -/
theorem Added.addProperty_reread (h : Added paths serverAddress r) (hp : paths.Documented)
    (c : OpcUaBackendRegisterCatalogue) :
    addProperty paths ⟨r.namespaceIndex, r.id.identifier⟩ (r.getRegisterName paths) r.indexRange
      r.dataType r.arrayLength serverAddress r.description r.isReadonly c
      = addRegister paths (r.reread paths) c := by
  have hid : (⟨r.namespaceIndex, r.id.identifier⟩ : UA_NodeId) = r.id := by rw [h.namespaceIndex]
  have hpath : paths.below (paths.registerPath serverAddress)
      (paths.registerPath (r.getRegisterName paths)) = r.path := by
    rw [h.path]
    exact congrArg _ (hp.idempotent _)
  unfold addProperty
  rw [h.dataType, hid]
  simp only [hpath]
  congr 1
  rw [OpcUABackendRegisterInfo.reread, ← h.isNumeric, ← h.namespaceIndex, ← h.accessModes,
    ← h.serverAddress]

theorem Added.parseRegister (hp : paths.Documented) (hm : modes.Documented)
    (h : Added paths serverAddress r) {e : Element}
    (he : RereadAs (addRegInfoXmlNode paths modes r) e) {c : OpcUaBackendRegisterCatalogue}
    (hnew : ∀ info ∈ c, info.getRegisterName paths ≠ r.getRegisterName paths) :
    parseRegister paths modes e serverAddress c = .ok (c ++ [r.reread paths]) := by
  have hfields : List.Forall₂ (fun field e => IsField e field.1 field.2)
      (registerTexts paths modes r) e.elements := by
    rw [addRegInfoXmlNode_children] at he
    have hchildren := he.elements fun n hn => by
      obtain ⟨field, -, rfl⟩ := List.mem_map.mp hn
      rfl
    rw [List.forall₂_map_left_iff] at hchildren
    exact hchildren.imp fun _ _ hfield => RereadAs.isField hfield
  have hadd : addRegister paths (r.reread paths) c = .ok (c ++ [r.reread paths]) :=
    addRegister_new fun info hmem => by
      rw [(sameRegister_reread hp r).name]
      exact hnew info hmem
  unfold OpcUaBackend.parseRegister
  rw [h.parses hp hm _ hfields]
  simp only [registerFields, bind, Except.bind, h.isNumeric, parseIdentifier_text h.identifier]
  rw [h.addProperty_reread hp, hadd]
  rfl

/-! ## A catalogue is read back -/

theorem xmlText_toString (n : Nat) : XmlText (toString n) := by
  apply AsciiText.xmlText
  intro c hc
  rw [Nat.toString_eq_ofList_toDigits, String.toList_ofList] at hc
  have hdigit := Nat.isDigit_of_mem_toDigits (by decide) (by decide) hc
  simp only [Char.isDigit, Bool.and_eq_true, decide_eq_true_eq] at hdigit
  obtain ⟨hlow, hhigh⟩ := hdigit
  have hlow : 48 ≤ c.toNat := hlow
  have hhigh : c.toNat ≤ 57 := hhigh
  exact ⟨.inr (.inr (.inr (.inl ⟨by omega, by omega⟩))), by omega⟩

theorem Identifier.Legal.xmlText {identifier : Identifier} (h : identifier.Legal) :
    XmlText identifier.text := by
  cases identifier with
  | numeric n => exact xmlText_toString n
  | string s => exact h.2

theorem Added.plain (hp : paths.Documented) (hm : modes.Documented)
    (h : Added paths serverAddress r) : Plain (addRegInfoXmlNode paths modes r) := by
  refine .elements (by decide) fun n hn => ?_
  simp only [List.mem_cons, List.not_mem_nil, or_false] at hn
  rcases hn with rfl | rfl | rfl | rfl | rfl | rfl | rfl | rfl | rfl | rfl
  · exact .text (by decide) h.identifier.xmlText
  · exact .text (by decide) (hp.text _ h.browseName)
  · exact .text (by decide) h.description
  · exact .text (by decide) (xmlText_toString _)
  · exact .text (by decide) (hm.text _)
  · exact .text (by decide) (xmlText_toString _)
  · exact .text (by decide) (xmlText_toString _)
  · exact .text (by decide) (xmlText_toString _)
  · exact .text (by decide) (xmlText_toString _)
  · exact .text (by decide) h.indexRange

section Catalogue

variable {c : OpcUaBackendRegisterCatalogue}

theorem plain_catalogueDocument (hp : paths.Documented) (hm : modes.Documented)
    (htext : XmlText serverAddress) (h : ∀ r ∈ c, Added paths serverAddress r) :
    Plain (catalogueDocument paths modes c).root.node := by
  refine .elements (show XmlName "catalogue" by decide) fun n hn => ?_
  rcases List.mem_cons.mp hn with rfl | hregister
  · refine .elements (by decide) fun n hn => ?_
    obtain rfl := List.mem_singleton.mp hn
    cases c with
    | nil => exact .elements (by decide) (by simp)
    | cons r c =>
      refine .text (by decide) ?_
      rw [(h r (List.mem_cons_self ..)).serverAddress]
      exact htext
  · obtain ⟨r, hr, rfl⟩ := List.mem_map.mp hregister
    exact (h r hr).plain hp hm

/-- The root of a document that was written for the catalogue and read again. -/
def RootOf (paths : RegisterPaths) (modes : AccessModeTexts) (c : OpcUaBackendRegisterCatalogue)
    (root : Element) : Prop :=
  ∃ general registers, root.elements = general :: registers ∧
    RereadAs (.element "general" 0 [serverAddressNode c]) general ∧
    List.Forall₂ (fun r e => RereadAs (addRegInfoXmlNode paths modes r) e) c registers

theorem rootOf_reread {root : Element}
    (h : RereadAs (catalogueDocument paths modes c).root.node root) :
    RootOf paths modes c root := by
  have hchildren : List.Forall₂ RereadAs (catalogueDocument paths modes c).root.children
      root.elements := by
    refine h.elements fun n hn => ?_
    rcases List.mem_cons.mp hn with rfl | hregister
    · rfl
    · obtain ⟨r, -, rfl⟩ := List.mem_map.mp hregister
      rfl
  obtain ⟨general, registers, hgeneral, hregisters, helements⟩ :=
    List.forall₂_cons_left_iff.mp hchildren
  exact ⟨general, registers, helements, hgeneral, List.forall₂_map_left_iff.mp hregisters⟩

/-- What is read as the server address; without registers its element has no text. -/
def addressRead : OpcUaBackendRegisterCatalogue → Except ReadFailure String
  | [] => .error .undefinedBehaviour
  | r :: _ => if r.serverAddress = "" then .error .undefinedBehaviour else .ok r.serverAddress

theorem readGeneral_serverAddress {e : Element} (h : RereadAs (serverAddressNode c) e)
    (address : String) : readGeneral address e = addressRead c := by
  cases c with
  | nil =>
    have hname : e.name = "serverAddress" := RereadAs.name h
    rw [readGeneral, if_pos hname, childContent, Element.childText, RereadAs.empty h]
    rfl
  | cons r c =>
    have hfield : IsField e "serverAddress" r.serverAddress := RereadAs.isField h
    rw [readGeneral, if_pos hfield.name, childContent, hfield.text, addressRead]
    by_cases hempty : r.serverAddress = ""
    · rw [if_pos hempty, if_pos hempty]
    · rw [if_neg hempty, if_neg hempty]

theorem RootOf.readServerAddress {root : Element} (h : RootOf paths modes c root) :
    readServerAddress root = addressRead c := by
  obtain ⟨general, registers, helements, hgeneral, hregisters⟩ := h
  have hloop : general.elements.foldlM readGeneral "" = addressRead c := by
    have hchildren := hgeneral.elements fun n hn => by
      obtain rfl := List.mem_singleton.mp hn
      cases c <;> rfl
    obtain ⟨e, _, he, hnil, heq⟩ := List.forall₂_cons_left_iff.mp hchildren
    obtain rfl := List.forall₂_nil_left_iff.mp hnil
    rw [heq, List.foldlM_cons, readGeneral_serverAddress he]
    cases addressRead c <;> rfl
  have hregister : ∀ e ∈ registers, e.name = "register" := by
    intro e he
    obtain ⟨r, -, hr⟩ := forall₂_mem_right hregisters he
    exact RereadAs.name hr
  unfold OpcUaBackend.readServerAddress
  rw [helements, List.foldlM_cons, if_pos hgeneral.name, hloop]
  cases addressRead c with
  | error failure => rfl
  | ok address =>
    refine foldlM_const fun e he => if_neg ?_
    rw [hregister e he]
    decide

/-- The second loop of `readCatalogue`. -/
theorem RootOf.foldlM_parseRegister (hp : paths.Documented) (hm : modes.Documented)
    {root : Element} (h : RootOf paths modes c root) (hadded : ∀ r ∈ c, Added paths serverAddress r)
    (hdistinct : (c.map (·.getRegisterName paths)).Nodup) :
    root.elements.foldlM (fun catalogue reg =>
      if reg.name ≠ "general" then parseRegister paths modes reg serverAddress catalogue
      else .ok catalogue) [] = .ok (c.map (·.reread paths)) := by
  obtain ⟨general, registers, helements, hgeneral, hregisters⟩ := h
  have hskip : (if general.name ≠ "general" then
      parseRegister paths modes general serverAddress [] else .ok []) = .ok [] :=
    if_neg (not_not.mpr hgeneral.name)
  rw [helements, foldlM_cons_ok hskip]
  refine foldlM_collect hregisters [] fun before r e he hbegins => ?_
  have hname : e.name = "register" := RereadAs.name he
  have hmem : r ∈ c := hbegins.subset (by simp)
  rw [if_pos (by rw [hname]; decide), List.nil_append]
  refine (hadded r hmem).parseRegister hp hm he fun info hinfo => ?_
  obtain ⟨q, hq, rfl⟩ := List.mem_map.mp hinfo
  rw [(sameRegister_reread hp q).name]
  -- the registers before it have other names
  have hnodup := (hbegins.map (·.getRegisterName paths)).sublist.nodup hdistinct
  rw [List.map_append, List.nodup_append] at hnodup
  exact hnodup.2.2 _ (List.mem_map_of_mem hq) _ (by simp)

end Catalogue

theorem saveCatalogue_file {answers : FileAnswers} {c : OpcUaBackendRegisterCatalogue}
    {xmlfile : String} {files files' : Files φ}
    (h : saveCatalogue paths modes dom answers c xmlfile files = .ok files') :
    files' xmlfile = some (dom.write (catalogueDocument paths modes c)) := by
  unfold saveCatalogue at h
  split at h
  · cases h
  · simp only at h
    split at h
    · cases h
    · split at h
      · cases h
      · split at h
        · cases h
        · rw [← Except.ok.inj h, Function.update_self]

/-- What a saved file is read as. -/
theorem readCatalogue_saved (hp : paths.Documented) (hm : modes.Documented)
    (hd : dom.Documented) (htext : XmlText serverAddress) {c : OpcUaBackendRegisterCatalogue}
    (hadded : ∀ r ∈ c, Added paths serverAddress r)
    (hdistinct : (c.map (·.getRegisterName paths)).Nodup) {xmlfile : String} {files : Files φ}
    (hfile : files xmlfile = some (dom.write (catalogueDocument paths modes c))) :
    readCatalogue paths modes dom xmlfile files
      = (addressRead c).map fun _ => c.map (·.reread paths) := by
  obtain ⟨doc, hparse, huri, hroot⟩ := hd.reread _ (plain_catalogueDocument hp hm htext hadded)
  have hrootOf := rootOf_reread hroot
  have hdoc : createDomParser dom xmlfile files = .ok doc := by
    rw [createDomParser, hfile, hparse]
    rfl
  have hnode : getRootNode doc = .ok doc.root := if_pos huri
  unfold readCatalogue
  rw [hdoc]
  simp only [bind, Except.bind, hnode, hrootOf.readServerAddress]
  cases haddress : addressRead c with
  | error failure => rfl
  | ok address =>
    have hsame : address = serverAddress := by
      cases c with
      | nil => cases haddress
      | cons r c =>
        rw [addressRead] at haddress
        split at haddress
        · cases haddress
        · rw [← Except.ok.inj haddress, (hadded r (List.mem_cons_self ..)).serverAddress]
    subst hsame
    exact hrootOf.foldlM_parseRegister hp hm hadded hdistinct

/-- **The cache.** For legal calls, the saved catalogue is read back with the same registers in
the same order exactly when there is a register. -/
theorem readCatalogue_saveCatalogue_iff (hp : paths.Documented) (hm : modes.Documented)
    (hd : dom.Documented) {calls : List Property} (h : LegalCalls paths serverAddress calls) :
    ∃ c, addProperties paths calls = .ok c ∧
      ∀ answers xmlfile (files files' : Files φ),
        saveCatalogue paths modes dom answers c xmlfile files = .ok files' →
          ((∃ c', readCatalogue paths modes dom xmlfile files' = .ok c' ∧
            List.Forall₂ (SameRegister paths) c c') ↔ calls ≠ []) := by
  obtain ⟨c, hc, hadded, hnames⟩ := addProperties_ok h
  refine ⟨c, hc, fun answers xmlfile files files' hsave => ?_⟩
  have hfile := saveCatalogue_file hsave
  rw [readCatalogue_saved hp hm hd h.text hadded (hnames ▸ h.distinct) hfile]
  have hlength := congrArg List.length hnames
  rw [List.length_map, List.length_map] at hlength
  cases c with
  | nil =>
    obtain rfl := List.eq_nil_of_length_eq_zero hlength.symm
    simp [addressRead, Except.map]
  | cons r c =>
    have hcalls : calls ≠ [] := by
      rintro rfl
      cases hlength
    have haddress : r.serverAddress ≠ "" :=
      (hadded r (List.mem_cons_self ..)).serverAddress ▸ h.nonempty
    rw [addressRead, if_neg haddress]
    refine iff_of_true ⟨_, rfl, ?_⟩ hcalls
    rw [List.forall₂_map_right_iff]
    exact List.forall₂_same.mpr fun q _ => sameRegister_reread hp q

/-! ## Paths and flags as the device access library has them -/

/-- Separators are dropped before others and at the end. -/
def removeExtraSeparators : List Char → List Char
  | [] => []
  | c :: cs =>
    let rest := removeExtraSeparators cs
    if c = '/' ∧ (rest = [] ∨ rest.head? = some '/') then rest else c :: rest

/-- A path begins with a separator. -/
def slashPath (s : String) : String :=
  match removeExtraSeparators ('/' :: s.toList) with
  | [] => "/"
  | cs => String.ofList cs

def slashPaths : RegisterPaths where
  registerPath := slashPath
  below path path' := slashPath (path ++ "/" ++ path')

theorem mem_removeExtraSeparators {c : Char} {cs : List Char}
    (h : c ∈ removeExtraSeparators cs) : c ∈ cs := by
  induction cs with
  | nil => exact h
  | cons d cs ih =>
    rw [removeExtraSeparators] at h
    split at h
    · exact List.mem_cons_of_mem _ (ih h)
    · rcases List.mem_cons.mp h with rfl | hrest
      · exact List.mem_cons_self ..
      · exact List.mem_cons_of_mem _ (ih hrest)

theorem removeExtraSeparators_idempotent (cs : List Char) :
    removeExtraSeparators (removeExtraSeparators cs) = removeExtraSeparators cs := by
  induction cs with
  | nil => rfl
  | cons c cs ih =>
    rw [removeExtraSeparators]
    split
    · exact ih
    · rename_i hkeep
      rw [removeExtraSeparators, ih, if_neg hkeep]

theorem removeExtraSeparators_slash (cs : List Char) :
    removeExtraSeparators ('/' :: cs) = [] ∨
      (removeExtraSeparators ('/' :: cs)).head? = some '/' := by
  rw [removeExtraSeparators]
  split
  · rename_i hdrop
    exact hdrop.2
  · exact .inr rfl

/-- Separators are dropped among the bytes as they are among the characters. -/
theorem removeExtraSeparators_utf8 (cs : List Char) :
    removeExtraSeparators (utf8 cs) = utf8 (removeExtraSeparators cs) := by
  have hothers : ∀ bs l : List Char, '/' ∉ bs →
      removeExtraSeparators (bs ++ l) = bs ++ removeExtraSeparators l := by
    intro bs l hbs
    induction bs with
    | nil => rfl
    | cons b bs ih =>
      rw [List.mem_cons, not_or] at hbs
      rw [List.cons_append, removeExtraSeparators, ih hbs.2,
        if_neg fun hdrop => hbs.1 hdrop.1.symm, List.cons_append]
  induction cs with
  | nil => rfl
  | cons c cs ih =>
    rw [utf8_cons]
    by_cases hc : c = '/'
    · subst hc
      -- a separator is its own byte, and the rest begins with one as its characters do
      have hhead : (utf8 (removeExtraSeparators cs)).head? = some '/' ↔
          (removeExtraSeparators cs).head? = some '/' := utf8_head?_iff (by decide)
      rw [utf8Char_of_ascii (by decide), List.singleton_append, removeExtraSeparators,
        removeExtraSeparators, ih]
      simp only [utf8_eq_nil_iff, hhead]
      split
      · rfl
      · rw [utf8_cons, utf8Char_of_ascii (by decide), List.singleton_append]
    · rw [hothers _ _ fun hmem => hc ((mem_utf8Char_iff (by decide)).mp hmem).symm, ih,
        removeExtraSeparators, if_neg fun hdrop => hc hdrop.1, utf8_cons]

theorem slashPath_of_ne_nil {s : String} (h : removeExtraSeparators ('/' :: s.toList) ≠ []) :
    slashPath s = String.ofList (removeExtraSeparators ('/' :: s.toList)) := by
  unfold slashPath
  split
  · rename_i hnil
    exact absurd hnil h
  · rfl

theorem slashPaths_documented : slashPaths.Documented where
  nonempty s := by
    show slashPath s ≠ ""
    unfold slashPath
    split
    · decide
    · rename_i hne
      exact fun he => hne (by simpa using congrArg String.toList he)
  idempotent s := by
    show slashPath (slashPath s) = slashPath s
    by_cases hnil : removeExtraSeparators ('/' :: s.toList) = []
    · have hroot : slashPath s = "/" := by
        rw [slashPath, hnil]
      rw [hroot]
      decide
    · have hslash := (removeExtraSeparators_slash s.toList).resolve_left hnil
      have hagain : removeExtraSeparators ('/' :: (slashPath s).toList)
          = removeExtraSeparators ('/' :: s.toList) := by
        rw [slashPath_of_ne_nil hnil, String.toList_ofList, removeExtraSeparators,
          removeExtraSeparators_idempotent, if_pos ⟨rfl, .inr hslash⟩]
      rw [slashPath_of_ne_nil (by rwa [hagain]), hagain, slashPath_of_ne_nil hnil]
  text s hs := by
    obtain ⟨cs, hcs, hbytes⟩ := hs
    have hremove : removeExtraSeparators ('/' :: s.toList)
        = utf8 (removeExtraSeparators ('/' :: cs)) := by
      rw [← removeExtraSeparators_utf8, utf8_cons, utf8Char_of_ascii (by decide), hbytes,
        List.singleton_append]
    show XmlText (slashPath s)
    unfold slashPath
    split
    · exact AsciiText.xmlText (by decide)
    · refine ⟨_, fun c hc => ?_, (String.toList_ofList ..).trans hremove⟩
      rcases List.mem_cons.mp (mem_removeExtraSeparators hc) with rfl | hmem
      · decide
      · exact hcs c hmem

def AccessMode.text : AccessMode → List Char
  | .raw => "raw".toList
  | .wait_for_new_data => "wait_for_new_data".toList

/-- The names of flags, with commas between them. -/
def flagTexts : AccessModeTexts where
  serialize flags := String.ofList ((flags.map AccessMode.text).intersperse [',']).flatten
  deserialize s :=
    (s.toList.splitOn ',').mapM fun name =>
      if name = AccessMode.raw.text then .ok .raw
      else if name = AccessMode.wait_for_new_data.text then .ok .wait_for_new_data
      else .error ("Unknown flag string: " ++ String.ofList name)

theorem AccessMode.xmlChar (mode : AccessMode) :
    ∀ c ∈ mode.text, XmlChar c ∧ c.toNat < 128 := by
  have hall : mode.text.all (fun c => decide (XmlChar c ∧ c.toNat < 128)) = true := by
    cases mode <;> decide
  exact fun c hc => of_decide_eq_true (List.all_eq_true.mp hall c hc)

theorem xmlChar_flags {flags : List AccessMode} {c : Char}
    (h : c ∈ ((flags.map AccessMode.text).intersperse [',']).flatten) :
    XmlChar c ∧ c.toNat < 128 := by
  obtain ⟨name, hname, hc⟩ := List.mem_flatten.mp h
  clear h
  induction flags with
  | nil => cases hname
  | cons mode flags ih =>
    cases flags with
    | nil =>
      obtain rfl := List.mem_singleton.mp hname
      exact mode.xmlChar c hc
    | cons mode' flags =>
      rcases List.mem_cons.mp hname with rfl | hname
      · exact mode.xmlChar c hc
      rcases List.mem_cons.mp hname with rfl | hname
      · obtain rfl := List.mem_singleton.mp hc
        decide
      · exact ih hname

theorem flagTexts_documented : flagTexts.Documented where
  deserialize mode := by cases mode <;> decide
  text flags := by
    apply AsciiText.xmlText
    intro c hc
    rw [flagTexts, String.toList_ofList] at hc
    exact xmlChar_flags hc

/-! ## A catalogue of two registers -/

/-- A register with a numeric node id and one with a text, an index range and no description. -/
def twoProperties : List Property :=
  [ { node := ⟨1, .numeric 20001⟩, browseName := "Dummy/scalar", range := "", dataType := 6
      arrayLength := 1, serverAddress := "opc.tcp://localhost:16664"
      description := "A scalar", isReadonly := true },
    { node := ⟨1, .string "Dummy/array"⟩, browseName := "Dummy/array", range := "1:2"
      dataType := 11, arrayLength := 2, serverAddress := "opc.tcp://localhost:16664"
      description := "", isReadonly := false } ]

theorem twoProperties_legal : LegalCalls slashPaths "opc.tcp://localhost:16664" twoProperties where
  nonempty := by decide
  text := AsciiText.xmlText (by decide)
  legal := by
    intro p hp
    simp only [twoProperties, List.mem_cons, List.not_mem_nil, or_false] at hp
    rcases hp with rfl | rfl
    · exact ⟨rfl, show (20001 : Nat) < 2 ^ 32 by decide, by decide, by decide, by decide,
        AsciiText.xmlText (by decide), AsciiText.xmlText (by decide),
        AsciiText.xmlText (by decide)⟩
    · exact ⟨rfl, ⟨by decide, AsciiText.xmlText (by decide)⟩, by decide, by decide, by decide,
        AsciiText.xmlText (by decide), AsciiText.xmlText (by decide),
        AsciiText.xmlText (by decide)⟩
  distinct := by decide

/-- Two registers are read back. -/
theorem readCatalogue_saveCatalogue_two :
    ∃ c files c', addProperties slashPaths twoProperties = .ok c ∧
      saveCatalogue slashPaths flagTexts Dom.tree ⟨.ok "cache.tmp", .ok true, .ok ()⟩ c "cache.xml"
        (fun _ => none) = .ok files ∧
      readCatalogue slashPaths flagTexts Dom.tree "cache.xml" files = .ok c' ∧
      List.Forall₂ (SameRegister slashPaths) c c' := by
  obtain ⟨c, hc, hall⟩ := readCatalogue_saveCatalogue_iff slashPaths_documented
    flagTexts_documented Dom.tree_documented twoProperties_legal
  obtain ⟨c', hread, hsame⟩ := (hall ⟨.ok "cache.tmp", .ok true, .ok ()⟩ "cache.xml"
    (fun _ => none) _ rfl).mpr (List.cons_ne_nil _ _)
  exact ⟨c, _, c', hc, rfl, hread, hsame⟩

/-- A catalogue without registers is not read back. -/
theorem not_readCatalogue_saveCatalogue_nil :
    ¬ ∀ (calls : List Property) (serverAddress : String), LegalCalls slashPaths serverAddress calls →
      ∃ c, addProperties slashPaths calls = .ok c ∧
        ∀ answers xmlfile (files files' : Files (Option Document)),
          saveCatalogue slashPaths flagTexts Dom.tree answers c xmlfile files = .ok files' →
            ∃ c', readCatalogue slashPaths flagTexts Dom.tree xmlfile files' = .ok c' ∧
              List.Forall₂ (SameRegister slashPaths) c c' := by
  intro h
  obtain ⟨c, hc, hall⟩ := h [] "opc.tcp://localhost:16664"
    ⟨by decide, AsciiText.xmlText (by decide), by simp, List.nodup_nil⟩
  obtain rfl : [] = c := Except.ok.inj hc
  obtain ⟨c', hread, -⟩ :=
    hall ⟨.ok "cache.tmp", .ok true, .ok ()⟩ "cache.xml" (fun _ => none) _ rfl
  -- the null pointer of the server address
  have hfails : readCatalogue slashPaths flagTexts Dom.tree "cache.xml"
      (Function.update (Function.update (fun _ => none) "cache.tmp" none) "cache.xml"
        (some (Dom.tree.write (catalogueDocument slashPaths flagTexts []))))
      = .error .undefinedBehaviour := by
    exact readCatalogue_saved (c := []) slashPaths_documented flagTexts_documented
      Dom.tree_documented (AsciiText.xmlText (s := "") (by decide)) (by simp) List.nodup_nil rfl
  exact absurd (hfails.symm.trans hread) (by simp)

end OpcUaBackend
