import OpcUaBackend.Catalogue.MapFile

/-!
# Node ids of map files

An entry of a map file designates its node by two texts, the namespace and the id. An id that is
a number is a numeric node id; any other text stands behind the name of the root node. Which of
the two an id is, and whether an entry is made at all, is decided by the exception that
`std::stoul` throws. It reads the number that a text starts with, after white space and a sign,
and throws where there is none or where it does not fit into 64 bits.

## Main definitions

* `designated`: the node that two texts stand for
* `Designator`: a pv element or a line of the legacy style, with the nodes the parser takes it as
* `Designator.IsUnmistaken`: the texts that `std::stoul` tells apart

## Main results

* `entryNode_eq_designated_iff`: two texts are read as they are meant if and only if they are told
  apart
* `designators_iff`: the same of any two entries of a map file, which then are two nodes
-/

namespace OpcUaBackend

open Foundation

/-! ## What is meant -/

/-- A number of a namespace. -/
def IsNamespace (ns : String) : Prop := ∃ n, numeral? ns = some n ∧ n < 2 ^ 16

/-- The node that two texts stand for, or nothing where one of them is a number out of range. -/
def designated (rootNode node ns : String) : Option UA_NodeId :=
  match numeral? ns with
  | none => none
  | some n =>
    if n < 2 ^ 16 then
      match numeral? node with
      | none => some ⟨n, .string (rootNode ++ node)⟩
      | some id => if id < 2 ^ 32 then some ⟨n, .numeric id⟩ else none
    else none

/-- Texts of ids that may not stand for the same node. -/
def ToldApart (s t : String) : Prop :=
  (IsNumeral s ∧ IsNumeral t ∧ NoLeadingZero s.toList ∧ NoLeadingZero t.toList ∧ s ≠ t) ∨
    ¬ (IsNumeral s ↔ IsNumeral t)

/-! ## What is read -/

/-- What an entry is made of: a pv element, or a line of the legacy style. -/
inductive Designator
  | pv (e : Element) (attributes : List (String × String))
  | line (text : List Char)

namespace Designator

/-- The texts of the id and of the namespace; a line may have none. -/
def fields : Designator → Option (String × String)
  | pv e attributes => some (e.childText.getD "", (attributes.lookup "ns").getD "")
  | line text =>
    if text = [] ∨ text.head? = some '#' ∨ text.head? = some '<' then none
    else
      match tokens isBlank text with
      | [id, ns] => some (String.ofList id, String.ofList ns)
      | [_, id, ns] => some (String.ofList id, String.ofList ns)
      | _ => none

/-- The nodes of the entries that the parser makes of it. -/
def nodes (rootNode : String) : Designator → Except Failure (List UA_NodeId)
  | pv e attributes => do
    let entry ← readElement rootNode e attributes
    return entry.toList.map MapElement.node
  | line text => legacyLine rootNode (fun node _ nodes => .ok (nodes ++ [node])) text []

/-- It is read as it is meant. -/
def IsRight (rootNode : String) (d : Designator) : Prop :=
  d.nodes rootNode
    = .ok (d.fields.bind fun texts => designated rootNode texts.1 texts.2).toList

instance (rootNode : String) (d : Designator) : Decidable (d.IsRight rootNode) :=
  inferInstanceAs (Decidable (_ = _))

end Designator

/-- No node is made of both, where the texts of their ids may not stand for the same node. -/
def AreApart (rootNode : String) (d e : Designator) : Prop :=
  ∀ s ∈ d.fields, ∀ t ∈ e.fields, ToldApart s.1 t.1 →
    ∀ ns, d.nodes rootNode = .ok ns → ∀ ms, e.nodes rootNode = .ok ms → List.Disjoint ns ms

/-! ## The texts that are told apart -/

/-- Where the namespace is right, the id is a number that fits or that `std::stoul` rejects, or a
text without a number at its start. Where it is not, one of the texts is rejected. -/
def IsUnmistaken (rootNode node ns : String) : Prop :=
  (IsNamespace ns → (∃ id, numeral? node = some id ∧ (id < 2 ^ 32 ∨ 2 ^ 64 ≤ id)) ∨
    (leadingNumber node = none ∧ '\x00' ∉ (rootNode ++ node).toList)) ∧
  (¬ IsNamespace ns → (∀ n, leadingNumber ns = some n → 2 ^ 64 ≤ n) ∨
    ∃ id, leadingNumber node = some id ∧ 2 ^ 64 ≤ id)

/-- An element has a text, and the texts are told apart. -/
def Designator.IsUnmistaken (rootNode : String) (d : Designator) : Prop :=
  (∀ e attributes, d = .pv e attributes → e.childText ≠ none) ∧
    ∀ texts ∈ d.fields, OpcUaBackend.IsUnmistaken rootNode texts.1 texts.2

section Texts

variable {rootNode node ns : String} {n : Nat}

theorem designated_of_namespace (hns : numeral? ns = some n) (hn : n < 2 ^ 16) :
    designated rootNode node ns = match numeral? node with
      | none => some ⟨n, .string (rootNode ++ node)⟩
      | some id => if id < 2 ^ 32 then some ⟨n, .numeric id⟩ else none := by
  rw [designated, hns]
  exact if_pos hn

theorem designated_of_not_namespace (h : ¬ IsNamespace ns) :
    designated rootNode node ns = none := by
  rw [designated]
  rcases hns : numeral? ns with - | n
  · rfl
  · exact if_neg fun hn => h ⟨n, hns, hn⟩

theorem entryNode_of_rejected {error : ConversionError} (h : stoul ns = .error error) :
    entryNode rootNode node ns = none := by
  rw [entryNode, h]
  rcases stoul node with (_ | _) | _ <;> rfl

/-- Two texts make no entry if and only if a number is missing or rejected. -/
theorem entryNode_eq_none_iff :
    entryNode rootNode node ns = none ↔
      (∀ n, leadingNumber ns = some n → 2 ^ 64 ≤ n) ∨
        ∃ id, leadingNumber node = some id ∧ 2 ^ 64 ≤ id := by
  rcases hns : leadingNumber ns with - | n
  · exact iff_of_true (entryNode_of_rejected (stoul_of_no_number hns)) (.inl (by simp))
  by_cases hn : 2 ^ 64 ≤ n
  · refine iff_of_true (entryNode_of_rejected (stoul_of_large hns hn)) (.inl ?_)
    rintro _ ⟨⟩
    exact hn
  have hsmall : n < 2 ^ 64 := Nat.not_le.mp hn
  have hleft : ¬ ∀ m, some n = some m → 2 ^ 64 ≤ m := fun h => hn (h n rfl)
  rw [entryNode, stoul_of_small hns hsmall, or_iff_right hleft]
  rcases hnode : leadingNumber node with - | id
  · rw [stoul_of_no_number hnode]
    exact iff_of_false (by simp) (by simp)
  by_cases hid : 2 ^ 64 ≤ id
  · rw [stoul_of_large hnode hid]
    exact iff_of_true rfl ⟨id, rfl, hid⟩
  · rw [stoul_of_small hnode (Nat.not_le.mp hid)]
    refine iff_of_false (by simp) ?_
    rintro ⟨_, ⟨⟩, hle⟩
    exact hid hle

/-- In a namespace, a number is taken as it starts the id, in the width of a numeric id. -/
theorem entryNode_of_namespace (hns : numeral? ns = some n) (hn : n < 2 ^ 16) :
    entryNode rootNode node ns = match stoul node with
      | .ok id => some ⟨n, .numeric (id % 2 ^ 32)⟩
      | .error .invalid_argument => some ⟨n, .string (cString (rootNode ++ node))⟩
      | .error .out_of_range => none := by
  rw [entryNode, stoul_of_numeral hns (by omega)]
  rcases stoul node with (_ | _) | id
  · simp only [stringNode, Nat.mod_eq_of_lt hn]
  · rfl
  · simp only [numericNode, Nat.mod_eq_of_lt hn]

/-- Outside the namespaces an entry is one too many. -/
theorem entryNode_eq_designated_of_not_namespace (h : ¬ IsNamespace ns) :
    entryNode rootNode node ns = designated rootNode node ns ↔
      (∀ n, leadingNumber ns = some n → 2 ^ 64 ≤ n) ∨
        ∃ id, leadingNumber node = some id ∧ 2 ^ 64 ≤ id := by
  rw [designated_of_not_namespace h]
  exact entryNode_eq_none_iff

/-- An id that is a number is narrowed, and one that only starts with a number is taken as it. -/
theorem entryNode_eq_designated_of_namespace (hns : numeral? ns = some n) (hn : n < 2 ^ 16) :
    entryNode rootNode node ns = designated rootNode node ns ↔
      (∃ id, numeral? node = some id ∧ (id < 2 ^ 32 ∨ 2 ^ 64 ≤ id)) ∨
        (leadingNumber node = none ∧ '\x00' ∉ (rootNode ++ node).toList) := by
  rw [entryNode_of_namespace hns hn, designated_of_namespace hns hn]
  rcases hnode : numeral? node with - | id
  · rcases hlead : leadingNumber node with - | m
    · -- a text is passed on as a C string
      rw [stoul_of_no_number hlead]
      simp [cString_eq_iff]
    · -- neither the number at the start nor its rejection is the text
      refine iff_of_false ?_ (by simp)
      by_cases hm : m < 2 ^ 64
      · simp [stoul_of_small hlead hm]
      · simp [stoul_of_large hlead (Nat.not_lt.mp hm)]
  · have hlead := leadingNumber_of_numeral hnode
    rw [hlead]
    simp only [Option.some.injEq, exists_eq_left', reduceCtorEq, false_and, or_false]
    by_cases hid : id < 2 ^ 64
    · rw [stoul_of_numeral hnode hid, or_iff_left (Nat.not_le.mpr hid)]
      change some _ = (if id < 2 ^ 32 then _ else _) ↔ _
      by_cases hsmall : id < 2 ^ 32
      · rw [if_pos hsmall, Nat.mod_eq_of_lt hsmall]
        exact iff_of_true rfl hsmall
      · rw [if_neg hsmall]
        exact iff_of_false (Option.some_ne_none _) hsmall
    · have hle : 2 ^ 64 ≤ id := Nat.not_lt.mp hid
      rw [stoul_of_large hlead hle]
      exact iff_of_true (if_neg (by omega)).symm (.inr hle)

/-- **Two texts are read as they are meant where they are told apart.** -/
theorem entryNode_eq_designated_iff :
    entryNode rootNode node ns = designated rootNode node ns ↔ IsUnmistaken rootNode node ns := by
  rw [IsUnmistaken]
  by_cases h : IsNamespace ns
  · obtain ⟨n, hns, hn⟩ := id h
    rw [entryNode_eq_designated_of_namespace hns hn]
    simp only [h, true_imp_iff, not_true, false_imp_iff, and_true]
  · rw [entryNode_eq_designated_of_not_namespace h]
    simp only [h, false_imp_iff, not_false_iff, true_imp_iff, true_and]

/-- The identifier of a designated node is the number or the text of the id. -/
theorem identifier_of_designated {x : UA_NodeId} (h : designated rootNode node ns = some x) :
    x.identifier = match numeral? node with
      | none => .string (rootNode ++ node)
      | some id => .numeric id := by
  rw [designated] at h
  rcases hns : numeral? ns with - | n <;> rw [hns] at h
  · cases h
  by_cases hn : n < 2 ^ 16
  · rcases hnode : numeral? node with - | id <;> simp only [hn, if_true, hnode] at h
    · cases h
      rfl
    · by_cases hid : id < 2 ^ 32
      · rw [if_pos hid] at h
        cases h
        rfl
      · rw [if_neg hid] at h
        cases h
  · simp only [hn, if_false] at h
    cases h

theorem designated_ne {s t ns ms : String} {x y : UA_NodeId} (happart : ToldApart s t)
    (hx : designated rootNode s ns = some x) (hy : designated rootNode t ms = some y) : x ≠ y := by
  rintro rfl
  have hid := (identifier_of_designated hx).symm.trans (identifier_of_designated hy)
  rcases hs : numeral? s with - | m <;> rcases ht : numeral? t with - | n <;>
    simp only [hs, ht, reduceCtorEq, Identifier.numeric.injEq] at hid
  · -- no text is a number
    have hsn := numeral?_eq_none_iff.mp hs
    have htn := numeral?_eq_none_iff.mp ht
    rcases happart with ⟨hnum, -⟩ | hiff
    · exact hsn hnum
    · exact hiff (iff_of_false hsn htn)
  · subst hid
    rcases happart with ⟨-, -, hszero, htzero, hne⟩ | hiff
    · exact hne (numeral?_injective hs ht hszero htzero)
    · exact hiff (iff_of_true (numeral?_eq_some_iff.mp hs).1 (numeral?_eq_some_iff.mp ht).1)

end Texts

/-! ## The entries of a file -/

namespace Designator

variable {rootNode : String} {e : Element} {attributes : List (String × String)} {text : List Char}

/-- The parsers classify the texts of the two styles by one rule. -/
def read (rootNode : String) (d : Designator) : List UA_NodeId :=
  (d.fields.bind fun texts => entryNode rootNode texts.1 texts.2).toList

theorem nodes_pv {node : String} (h : e.childText = some node) :
    (pv e attributes).nodes rootNode = .ok ((pv e attributes).read rootNode) := by
  have hread : readElement rootNode e attributes
      = .ok (mapElement rootNode node ((attributes.lookup "ns").getD "")
        ((attributes.lookup "range").getD "") ((attributes.lookup "name").getD "")) := by
    rw [readElement, h]
  have hnode : (pv e attributes).read rootNode
      = (entryNode rootNode node ((attributes.lookup "ns").getD "")).toList := by
    change (entryNode rootNode (e.childText.getD "") _).toList = _
    rw [h]
    rfl
  rw [nodes, hread, hnode, mapElement_eq]
  cases entryNode rootNode node ((attributes.lookup "ns").getD "") <;> rfl

theorem nodes_pv_of_no_text (h : e.childText = none) :
    (pv e attributes).nodes rootNode = .error .undefinedBehaviour := by
  rw [nodes, readElement, h]
  rfl

theorem map_lineEntry : (lineEntry rootNode text).map Prod.fst
    = (line text).fields.bind fun texts => entryNode rootNode texts.1 texts.2 := by
  rw [lineEntry, fields]
  split
  · rfl
  · -- a line of two or three tokens has the texts
    rcases tokens isBlank text with - | ⟨a, - | ⟨b, - | ⟨c, - | ⟨d, rest⟩⟩⟩⟩
    · rfl
    · rfl
    · exact (Option.map_map ..).trans Option.map_id'
    · exact (Option.map_map ..).trans Option.map_id'
    · rfl

theorem nodes_line : (line text).nodes rootNode = .ok ((line text).read rootNode) := by
  rw [nodes, legacyLine_eq (by simp), read, ← map_lineEntry]
  rcases lineEntry rootNode text with - | ⟨n, name⟩ <;> rfl

/-- **An entry is made as it is meant where its texts are told apart.** -/
theorem isRight_iff {d : Designator} : d.IsRight rootNode ↔ d.IsUnmistaken rootNode := by
  have hread : d.read rootNode = (d.fields.bind fun texts =>
      designated rootNode texts.1 texts.2).toList ↔
      ∀ texts ∈ d.fields, OpcUaBackend.IsUnmistaken rootNode texts.1 texts.2 := by
    rw [read]
    rcases d.fields with - | texts
    · simp
    · change (entryNode rootNode texts.1 texts.2).toList = (designated rootNode _ _).toList ↔ _
      simp only [Option.mem_def, Option.some.injEq, forall_eq', ← entryNode_eq_designated_iff]
      refine ⟨fun h => ?_, congrArg Option.toList⟩
      simpa using congrArg List.head? h
  cases d with
  | line text =>
    rw [IsRight, nodes_line, Except.ok.injEq, hread]
    simp [IsUnmistaken]
  | pv e attributes =>
    rw [IsUnmistaken]
    rcases htext : e.childText with - | node
    · rw [IsRight, nodes_pv_of_no_text htext]
      exact iff_of_false (by simp) fun h => h.1 e attributes rfl htext
    · rw [IsRight, nodes_pv htext, Except.ok.injEq, hread]
      refine (and_iff_right ?_).symm
      rintro _ _ ⟨⟩ he
      exact Option.some_ne_none _ (htext.symm.trans he)

end Designator

variable {rootNode : String} {d e : Designator}

/-- Two entries that are made as they are meant are two nodes. -/
theorem areApart_of_isRight (hd : d.IsRight rootNode) (he : e.IsRight rootNode) :
    AreApart rootNode d e := by
  intro s hs t ht happart xs hxs ys hys x hx hy
  have hds : xs = (designated rootNode s.1 s.2).toList := by
    have h := hxs.symm.trans hd
    rw [Option.mem_def.mp hs] at h
    exact Except.ok.inj h
  have hes : ys = (designated rootNode t.1 t.2).toList := by
    have h := hys.symm.trans he
    rw [Option.mem_def.mp ht] at h
    exact Except.ok.inj h
  rw [hds, Option.mem_toList] at hx
  rw [hes, Option.mem_toList] at hy
  exact designated_ne happart hx hy rfl

/-- **Any two entries of a map file are the nodes that are meant, and no node twice, if and only if
their texts are told apart.** -/
theorem designators_iff (rootNode : String) (d e : Designator) :
    (d.IsRight rootNode ∧ e.IsRight rootNode ∧ AreApart rootNode d e) ↔
      (d.IsUnmistaken rootNode ∧ e.IsUnmistaken rootNode) := by
  rw [← Designator.isRight_iff, ← Designator.isRight_iff]
  constructor
  · rintro ⟨hd, he, -⟩
    exact ⟨hd, he⟩
  · rintro ⟨hd, he⟩
    exact ⟨hd, he, areApart_of_isRight hd he⟩

/-- A text that starts with digits is taken as the number, also in a line, where it is then the
node of that number. -/
theorem not_isRight_leadingDigits :
    ¬ ((Designator.pv ⟨"pv", 2, [.text "12abc"]⟩ [("ns", "1")]).IsRight "Dummy/" ∧
      (Designator.line "12 1".toList).IsRight "Dummy/" ∧
      AreApart "Dummy/" (.pv ⟨"pv", 2, [.text "12abc"]⟩ [("ns", "1")])
        (.line "12 1".toList)) := by
  rintro ⟨h, -, -⟩
  exact absurd h (by decide)

end OpcUaBackend
