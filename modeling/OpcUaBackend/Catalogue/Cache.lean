import OpcUaBackend.Catalogue.Entries
import OpcUaBackend.Foundation.Decimal
import OpcUaBackend.Foundation.Dom

/-!
# The catalogue cache

`saveCatalogue` writes a catalogue to a file, and `readCatalogue` reads it back. Each register
has an element with a field for each of its data; the server address is written once, from the
first register.

The library that writes and parses documents is a parameter, as are the texts of access modes
and the paths of registers.

## Main definitions

* `saveCatalogue`: a catalogue is written
* `readCatalogue`: a catalogue is read
-/

namespace OpcUaBackend

open Foundation

/-! ## Writing -/

/-- `AccessModeFlags::serialize` and `deserialize`, with the message of its `logic_error`. -/
structure AccessModeTexts where
  serialize : List AccessMode → String
  deserialize : String → Except String (List AccessMode)

variable {φ : Type} (paths : RegisterPaths) (modes : AccessModeTexts) (dom : Dom φ)

/-- `std::to_string` of a `bool`. -/
def boolText (b : Bool) : String := toString b.toNat

/-- An added child with a child text. -/
def textNode (tag content : String) : XmlNode := .element tag 0 [.text content]

def OpcUABackendRegisterInfo.getNumberOfElements (r : OpcUABackendRegisterInfo) : Nat :=
  r.arrayLength % 2 ^ 32

/-- The text of a node id. -/
def Identifier.text : Identifier → String
  | .numeric n => toString n
  | .string s => s

def addRegInfoXmlNode (r : OpcUABackendRegisterInfo) : XmlNode :=
  .element "register" 0
    [textNode "nodeId" r.id.identifier.text,
      textNode "name" (r.getRegisterName paths),
      textNode "description" r.description,
      textNode "length" (toString r.getNumberOfElements),
      textNode "access_mode" (modes.serialize r.accessModes),
      textNode "readOnly" (boolText r.isReadonly),
      textNode "typeId" (toString r.dataType),
      textNode "nameSpace" (toString r.namespaceIndex),
      textNode "isNumeric" (boolText r.isNumeric),
      textNode "indexRange" r.indexRange]

/-- The element of the server address, which has a text once there is a register. -/
def serverAddressNode : OpcUaBackendRegisterCatalogue → XmlNode
  | [] => .element "serverAddress" 0 []
  | r :: _ => textNode "serverAddress" r.serverAddress

/-- The document that `saveCatalogue` builds. -/
def catalogueDocument (c : OpcUaBackendRegisterCatalogue) : Document where
  namespaceUri := namespaceUri
  root :=
    { name := "catalogue"
      line := 0
      children := .element "general" 0 [serverAddressNode c] :: c.map (addRegInfoXmlNode paths modes) }

/-- What the file system answers: the temporary path; whether the content reaches the file, or the
exception that the writer throws on a bad stream; and whether the file is renamed. -/
structure FileAnswers where
  unique_path : Except String String
  written : Except String Bool
  rename : Except String Unit

abbrev Files (φ : Type) := String → Option φ

/-- How saving a catalogue fails: with a `runtime_error`, or with the `xmlpp::exception` of the
writer. -/
inductive SaveFailure
  | runtimeError (message : String)
  | xmlException (what : String)
  deriving DecidableEq, Repr

/-- `saveCatalogue`: the files afterwards, or the exception that leaves it. -/
def saveCatalogue (answers : FileAnswers) (c : OpcUaBackendRegisterCatalogue) (xmlfile : String)
    (files : Files φ) : Except SaveFailure (Files φ) :=
  match answers.unique_path with
  | .error what => .error (.runtimeError ("Failed to generate temporary path: " ++ what))
  | .ok temporaryName =>
    let content := dom.write (catalogueDocument paths modes c)
    match answers.written with
    -- nothing catches the exception of `write_to_stream_formatted`
    | .error what => .error (.xmlException what)
    | .ok written =>
      -- nothing is renamed where nothing was written
      if !written || dom.isEmpty content then .error (.runtimeError "Failed to save cache File")
      else
        match answers.rename with
        | .error what => .error (.runtimeError ("Failed to replace cache file: " ++ what))
        | .ok () =>
          .ok (Function.update (Function.update files temporaryName none) xmlfile (some content))

/-! ## Reading -/

/-- How reading a file fails: with a `logic_error`, with an exception of `std::stoul` that is not
caught, or with undefined behaviour, the dereference of a null pointer or the use of a variable
without a value. -/
inductive ReadFailure
  | logicError (message : String)
  | standard (error : ConversionError)
  | undefinedBehaviour
  deriving DecidableEq, Repr

/-- `get_child_text()->get_content()`. -/
def childContent (e : Element) : Except ReadFailure String :=
  match e.childText with
  | some content => .ok content
  | none => .error .undefinedBehaviour

def convertToUint (s : String) (line : Nat) : Except ReadFailure Nat :=
  match stoul s with
  | .ok n => .ok (n % 2 ^ 32)
  | .error _ =>
    .error (.logicError ("Failed to parse node at line " ++ toString line ++ ":" ++ "stoul"))

/-- `convertToInt`; the number is cut off to an `int`. -/
def convertToInt (s : String) (line : Nat) : Except ReadFailure Int :=
  match stol s with
  | .ok n => .ok (n.bmod (2 ^ 32))
  | .error _ =>
    .error (.logicError ("Failed to parse node at line " ++ toString line ++ ":" ++ "stol"))

def parseLength (e : Element) : Except ReadFailure Nat := do
  convertToUint (← childContent e) e.line

def parseTypeId (e : Element) : Except ReadFailure Int := do
  convertToInt (← childContent e) e.line

def parseAccessMode (e : Element) : Except ReadFailure (List AccessMode) :=
  (modes.deserialize (e.childText.getD "")).mapError .logicError

/-- The variables of `parseRegister`; some of them have no value at first. -/
structure RegisterFields where
  nodeId : String := ""
  name : String := ""
  description : String := ""
  indexRange : String := ""
  isReadonly : Option Bool := none
  isNumeric : Option Bool := none
  typeId : Option Nat := none
  namespaceId : Option Nat := none
  length : Nat := 0
  flags : List AccessMode := []

/-- The loop of `parseRegister` over the children of a register. -/
def parseField (p : RegisterFields) (e : Element) : Except ReadFailure RegisterFields :=
  match e.name with
  | "name" => do return { p with name := ← childContent e }
  | "nodeId" => do return { p with nodeId := ← childContent e }
  | "length" => do return { p with length := ← parseLength e }
  | "access_mode" => do return { p with flags := ← parseAccessMode modes e }
  -- a description that is missing stays empty
  | "description" =>
    match e.childText with
    | some content => .ok { p with description := content }
    | none => .ok p
  | "readOnly" => do return { p with isReadonly := some ((← parseTypeId e) != 0) }
  -- an `int` becomes an unsigned number by wrapping around
  | "typeId" => do return { p with typeId := some ((← parseTypeId e) % 2 ^ 32).toNat }
  | "nameSpace" => do return { p with namespaceId := some ((← parseTypeId e) % 2 ^ 16).toNat }
  | "isNumeric" => do return { p with isNumeric := some ((← parseTypeId e) != 0) }
  | "indexRange" =>
    match e.childText with
    | some content => .ok { p with indexRange := content }
    | none => .ok p
  | _ => .ok p

/-- The identifier that `parseRegister` makes of the text of a node id. -/
def parseIdentifier (isNumeric : Bool) (nodeId : String) : Except ReadFailure Identifier :=
  if isNumeric then
    match stoul nodeId with
    | .ok n => .ok (.numeric (n % 2 ^ 32))
    | .error error => .error (.standard error)
  else .ok (.string (cString nodeId))

def parseRegister (registerNode : Element) (serverAddress : String)
    (catalogue : OpcUaBackendRegisterCatalogue) :
    Except ReadFailure OpcUaBackendRegisterCatalogue := do
  let p ← registerNode.elements.foldlM (parseField modes) {}
  match p.isNumeric, p.namespaceId with
  | some isNumeric, some namespaceId =>
    -- the node id is made before the other arguments are read
    let identifier ← parseIdentifier isNumeric p.nodeId
    match p.typeId, p.isReadonly with
    | some typeId, some isReadonly =>
      (addProperty paths ⟨namespaceId, identifier⟩ p.name p.indexRange typeId p.length
        serverAddress p.description isReadonly catalogue).mapError .logicError
    | _, _ => .error .undefinedBehaviour
  -- a variable that no element has set is read
  | _, _ => .error .undefinedBehaviour

def createDomParser (xmlfile : String) (files : Files φ) : Except ReadFailure Document :=
  (dom.parse (files xmlfile)).mapError fun what =>
    .logicError ("Error opening " ++ xmlfile ++ ": " ++ what)

/-- `getRootNode`. The exception for another name of the root is made but not thrown. -/
def getRootNode (doc : Document) : Except ReadFailure Element :=
  if doc.namespaceUri = namespaceUri then .ok doc.root
  else .error (.logicError ("Wrong namespace is used: " ++ doc.namespaceUri ++
    "/t -> Should be '" ++ namespaceUri ++ "'"))

/-- The first loop of `readCatalogue`, over the children of the element `general`. -/
def readGeneral (serverAddress : String) (e : Element) : Except ReadFailure String :=
  if e.name = "serverAddress" then childContent e else .ok serverAddress

def readServerAddress (registerList : Element) : Except ReadFailure String :=
  registerList.elements.foldlM (fun serverAddress reg =>
    if reg.name = "general" then reg.elements.foldlM readGeneral serverAddress
    else .ok serverAddress) ""

def readCatalogue (xmlfile : String) (files : Files φ) :
    Except ReadFailure OpcUaBackendRegisterCatalogue := do
  let doc ← createDomParser dom xmlfile files
  let registerList ← getRootNode doc
  let serverAddress ← readServerAddress registerList
  -- every other child of the root is taken for a register
  registerList.elements.foldlM (fun catalogue reg =>
    if reg.name ≠ "general" then parseRegister paths modes reg serverAddress catalogue
    else .ok catalogue) []

end OpcUaBackend
