import Mathlib.Data.List.Forall2
import OpcUaBackend.Foundation.Utf8

/-!
# Documents

The nodes of an XML document as a library presents them, and what a document looks like that
was written with formatting and read again: elements and their texts stay, an empty text is no
child any more, and between elements there are other nodes, such as the white space of the
formatting. A text is a byte string, and fits into a document when its bytes are those of
characters that XML allows.

## Main definitions

* `XmlNode`, `Element`, `Document`: documents
* `XmlText`, `AsciiText`: the texts that fit into a document
* `Plain`: elements that have one text or only elements as children
* `Reread`: how a plain element is read again
* `Dom`: a library that writes and parses documents

## Main results

* `Reread.text`, `Reread.elements`: what the children are read as
* `Dom.tree_documented`: documents that are kept as trees
-/

namespace Foundation

/-- A node of a document. -/
inductive XmlNode
  | element (name : String) (line : Nat) (children : List XmlNode)
  | text (content : String)
  | comment (content : String)

structure Element where
  name : String
  line : Nat
  children : List XmlNode

def Element.node (e : Element) : XmlNode := .element e.name e.line e.children

/-- The cast of a node to an element. -/
def XmlNode.element? : XmlNode → Option Element
  | .element name line children => some ⟨name, line, children⟩
  | _ => none

def XmlNode.text? : XmlNode → Option String
  | .text content => some content
  | _ => none

/-- The children that are elements. -/
def Element.elements (e : Element) : List Element := e.children.filterMap XmlNode.element?

/-- The content of the first child that is a text. -/
def Element.childText (e : Element) : Option String := e.children.findSome? XmlNode.text?

/-- A document: the name space of its root element, and the root. -/
structure Document where
  namespaceUri : String
  root : Element

/-! ## Plain elements -/

/-- The characters that XML allows. -/
def XmlChar (c : Char) : Prop :=
  c = '\t' ∨ c = '\n' ∨ c = '\r' ∨ (0x20 ≤ c.toNat ∧ c.toNat ≤ 0xD7FF) ∨
    (0xE000 ≤ c.toNat ∧ c.toNat ≤ 0xFFFD) ∨ 0x10000 ≤ c.toNat

/-- The bytes of the text are those of characters that XML allows. -/
def XmlText (s : String) : Prop := ∃ cs : List Char, (∀ c ∈ cs, XmlChar c) ∧ s.toList = utf8 cs

/-- ASCII characters that XML allows. -/
def AsciiText (s : String) : Prop := ∀ c ∈ s.toList, XmlChar c ∧ c.toNat < 128

/-- A name made of letters and underscores. -/
def XmlName (s : String) : Prop := s ≠ "" ∧ ∀ c ∈ s.toList, c.isAlpha = true ∨ c = '_'

instance (c : Char) : Decidable (XmlChar c) := by unfold XmlChar; infer_instance

-- the instance is named, since a search may find the one that tries every character there is
instance (s : String) : Decidable (AsciiText s) :=
  List.decidableBAll (fun c => XmlChar c ∧ c.toNat < 128) s.toList

instance (s : String) : Decidable (XmlName s) :=
  @instDecidableAnd _ _ _ (List.decidableBAll (fun c => c.isAlpha = true ∨ c = '_') s.toList)

theorem AsciiText.xmlText {s : String} (h : AsciiText s) : XmlText s :=
  ⟨s.toList, fun c hc => (h c hc).1, (utf8_eq_self fun c hc => (h c hc).2).symm⟩

/-- No null byte is in a text of a document. -/
theorem XmlText.no_null {s : String} (h : XmlText s) : '\x00' ∉ s.toList := by
  obtain ⟨cs, hcs, hs⟩ := h
  intro hmem
  rw [hs, mem_utf8_iff (by decide)] at hmem
  exact absurd (hcs _ hmem) (by decide)

/-- Elements that have one text or only such elements as children. -/
inductive Plain : XmlNode → Prop
  | text {name line content} : XmlName name → XmlText content →
      Plain (.element name line [.text content])
  | elements {name line children} : XmlName name → (∀ n ∈ children, Plain n) →
      Plain (.element name line children)

/-- How a plain element is read that was written with formatting. -/
inductive Reread : XmlNode → XmlNode → Prop
  | emptyText {name line line'} :
      Reread (.element name line [.text ""]) (.element name line' [])
  | text {name line line' content} : content ≠ "" →
      Reread (.element name line [.text content]) (.element name line' [.text content])
  | elements {name line line' children children'} :
      List.Forall₂ Reread children (children'.filter fun n => n.element?.isSome) →
      (children = [] → children' = []) →
      Reread (.element name line children) (.element name line' children')

/-- An element that an element is read as. -/
def RereadAs (n : XmlNode) (e : Element) : Prop := Reread n e.node

section Reread

variable {tag content : String} {line : Nat} {children : List XmlNode} {e : Element}

theorem RereadAs.name (h : RereadAs (.element tag line children) e) : e.name = tag := by
  obtain ⟨tag', line', children'⟩ := e
  cases h <;> rfl

theorem RereadAs.text (h : RereadAs (.element tag line [.text content]) e) :
    e.childText = if content = "" then none else some content := by
  obtain ⟨tag', line', children'⟩ := e
  cases h with
  | emptyText => rfl
  | text hne => simp [Element.childText, XmlNode.text?, hne]
  | elements hchildren _ =>
    -- a text is not read as an element
    obtain ⟨_, _, htext, -⟩ := List.forall₂_cons_left_iff.mp hchildren
    cases htext

theorem RereadAs.empty (h : RereadAs (.element tag line []) e) : e.children = [] := by
  obtain ⟨tag', line', children'⟩ := e
  cases h with
  | elements _ hempty => exact hempty rfl

theorem forall₂_elements {nodes nodes' : List XmlNode}
    (h : List.Forall₂ Reread nodes (nodes'.filter fun n => n.element?.isSome)) :
    List.Forall₂ RereadAs nodes (nodes'.filterMap XmlNode.element?) := by
  induction nodes' generalizing nodes with
  | nil =>
    cases h
    exact .nil
  | cons n nodes' ih =>
    cases n with
    | element name line children =>
      cases h with
      | cons hn hrest => exact .cons hn (ih hrest)
    | text content => exact ih h
    | comment content => exact ih h

theorem RereadAs.elements (h : RereadAs (.element tag line children) e)
    (helements : ∀ n ∈ children, n.element?.isSome = true) :
    List.Forall₂ RereadAs children e.elements := by
  obtain ⟨tag', line', children'⟩ := e
  cases h with
  | emptyText => exact absurd (helements _ (List.mem_singleton_self _)) (by simp [XmlNode.element?])
  | text _ => exact absurd (helements _ (List.mem_singleton_self _)) (by simp [XmlNode.element?])
  | elements hchildren _ => exact forall₂_elements hchildren

end Reread

/-! ## Libraries -/

/-- A library that writes documents and parses files; `φ` are the contents of files. -/
structure Dom (φ : Type) where
  write : Document → φ
  /-- the document of a file, which is nothing where there is none -/
  parse : Option φ → Except String Document
  isEmpty : φ → Bool

/-- Texts are written and read again without loss. -/
structure Dom.Documented {φ : Type} (dom : Dom φ) : Prop where
  reread : ∀ d : Document, Plain d.root.node → ∃ d', dom.parse (some (dom.write d)) = .ok d' ∧
    d'.namespaceUri = d.namespaceUri ∧ RereadAs d.root.node d'.root

mutual

/-- A node as it is read again, without white space. -/
def XmlNode.reread : XmlNode → XmlNode
  | .element name line children => .element name line (rereadAll children)
  | .text content => .text content
  | .comment content => .comment content

def rereadAll : List XmlNode → List XmlNode
  | [] => []
  | n :: nodes =>
    match n with
    | .text "" => rereadAll nodes
    | n => n.reread :: rereadAll nodes

end

theorem forall₂_rereadAll {nodes : List XmlNode}
    (h : ∀ n ∈ nodes, n.element?.isSome = true ∧ Reread n n.reread) :
    List.Forall₂ Reread nodes ((rereadAll nodes).filter fun n => n.element?.isSome) := by
  induction nodes with
  | nil => exact .nil
  | cons n nodes ih =>
    have hrest := ih fun m hm => h m (List.mem_cons_of_mem _ hm)
    obtain ⟨helement, hn⟩ := h n (List.mem_cons_self ..)
    cases n with
    | element tag line children => exact .cons hn hrest
    | text content => cases helement
    | comment content => cases helement

theorem Plain.isElement {n : XmlNode} (h : Plain n) : n.element?.isSome = true := by
  cases h <;> rfl

theorem Plain.reread {n : XmlNode} (h : Plain n) : Reread n n.reread := by
  induction h with
  | @text tag line content _ _ =>
    by_cases hempty : content = ""
    · subst hempty
      exact .emptyText
    · have hkeep : rereadAll [.text content] = [.text content] := by
        rw [rereadAll]
        · rfl
        · rintro ⟨⟩
          exact hempty rfl
      rw [XmlNode.reread, hkeep]
      exact .text hempty
  | elements _ hplain ih =>
    rw [XmlNode.reread]
    refine .elements (forall₂_rereadAll fun n hn => ⟨(hplain n hn).isElement, ih n hn⟩) ?_
    rintro rfl
    rfl

/-- Files that keep documents as trees, and are empty otherwise. -/
def Dom.tree : Dom (Option Document) where
  write d := some d
  parse
    | some (some d) =>
      .ok ⟨d.namespaceUri, ⟨d.root.name, d.root.line, rereadAll d.root.children⟩⟩
    | some none => .error "Document is empty"
    | none => .error "failed to load"
  isEmpty d := d.isNone

theorem Dom.tree_documented : Dom.tree.Documented where
  reread _ hplain := ⟨_, rfl, rfl, hplain.reread⟩

end Foundation
