import OpcUaBackend.Catalogue.RoundTrip
import OpcUaBackend.Foundation.Folds

/-!
# Documents that are no cache

`readCatalogue` goes over the children of the root, and `parseRegister` over the fields of a
register, in any order and with any of them missing or given again, where the last one counts.
A number that does not convert is refused with a `logic_error`, on which the constructor of the
backend browses the server. The others pass: a number is read from the start of its text and cut
off to the width of its variable, a field that is missing leaves its variable without a value, and
the text of a field is used whether there is one or not.

## Main definitions

* `TakenFrom`: a register has its data from complete numerals of an element
* `AcceptsOnlyUsable`: what the reader promises
* `FieldBroken`, `FieldRefused`: the fields that a register cannot be read with
* `IsUsableDocument`: the documents for which the promise is kept

## Main results

* `parseField_cases`, `parseRegister_cases`: how a field and a register are read
* `readCatalogue_accepts_iff`: the promise is kept for these documents and no others
-/

namespace OpcUaBackend

open Foundation

variable {φ : Type} {paths : RegisterPaths} {modes : AccessModeTexts} {dom : Dom φ}

/-! ## What the reader promises -/

/-- The text of the last element of a name. -/
def lastText (es : List Element) (tag : String) : Option String :=
  ((es.filter fun e => e.name == tag).getLast?).bind Element.childText

/-- The field has a complete numeral in the range of its variable. -/
def Field (reg : Element) (tag : String) (bound n : Nat) : Prop :=
  ∃ s, lastText reg.elements tag = some s ∧ numeral? s = some n ∧ n < bound

def nameOf (reg : Element) : String := (lastText reg.elements "name").getD ""

/-- The data of a register are the numbers of an element. -/
structure TakenFrom (reg : Element) (r : OpcUABackendRegisterInfo) : Prop where
  name : r.nodeBrowseName = nameOf reg
  readOnly : Field reg "readOnly" 2 r.isReadonly.toNat
  isNumeric : Field reg "isNumeric" 2 r.isNumeric.toNat
  typeId : Field reg "typeId" (2 ^ 32) r.dataType
  nameSpace : Field reg "nameSpace" (2 ^ 16) r.namespaceIndex
  length : Field reg "length" (2 ^ 32) r.arrayLength
  nodeId : ∀ n, r.id.identifier = .numeric n → Field reg "nodeId" (2 ^ 32) n

/-- The elements that are read as registers. -/
def registerElements (root : Element) : List Element :=
  root.elements.filter fun reg => reg.name ≠ "general"

/-- A catalogue is that of the document, and otherwise the exception is the one that the
constructor handles. -/
def AcceptsOnlyUsable (parsed : Except String Document) :
    Except ReadFailure OpcUaBackendRegisterCatalogue → Prop
  | .ok c => ∃ doc, parsed = .ok doc ∧ doc.root.name = "catalogue" ∧
      doc.namespaceUri = namespaceUri ∧ ∀ r ∈ c, ∃ reg ∈ registerElements doc.root, TakenFrom reg r
  | .error (.logicError _) => True
  | .error _ => False

/-! ## The documents for which it is kept -/

/-- The fields with a number that is converted to an `int`. -/
def intTags : List String := ["readOnly", "typeId", "nameSpace", "isNumeric"]

/-- The text of the field is used, and there is none. -/
def FieldBroken (e : Element) : Prop :=
  e.name ∈ "name" :: "nodeId" :: "length" :: intTags ∧ e.childText = none

/-- The text of the field does not convert. -/
def FieldRefused (modes : AccessModeTexts) (e : Element) : Prop :=
  (e.name = "length" ∧ ∃ s ∈ e.childText, ∃ error, stoul s = .error error) ∨
  (e.name ∈ intTags ∧ ∃ s ∈ e.childText, ∃ error, stol s = .error error) ∨
  (e.name = "access_mode" ∧ ∃ what, modes.deserialize (e.childText.getD "") = .error what)

/-- The number of a text as `convertToUint` gives it. -/
def asUint (s : String) : Nat :=
  match stoul s with
  | .ok n => n % 2 ^ 32
  | .error _ => 0

/-- The number of a text as `convertToInt` gives it. -/
def asInt (s : String) : Int :=
  match stol s with
  | .ok n => n.bmod (2 ^ 32)
  | .error _ => 0

/-- A variable stays without a value, or the node id is to be a number and starts with none of 64
bits. -/
def Lacks (reg : Element) : Prop :=
  (∃ tag ∈ intTags, lastText reg.elements tag = none) ∨
    ∃ s, lastText reg.elements "isNumeric" = some s ∧ asInt s ≠ 0 ∧
      ∃ error, stoul ((lastText reg.elements "nodeId").getD "") = .error error

def RegisterRefused (modes : AccessModeTexts) (reg : Element) : Prop :=
  StandsFirst (FieldRefused modes) FieldBroken reg.elements

def RegisterBroken (modes : AccessModeTexts) (reg : Element) : Prop :=
  StandsFirst FieldBroken (FieldRefused modes) reg.elements ∨
    ((∀ e ∈ reg.elements, ¬ FieldRefused modes e ∧ ¬ FieldBroken e) ∧ Lacks reg)

/-- The type is one that `addProperty` adds a register for. -/
def HasKnownType (reg : Element) : Prop :=
  ∃ s, lastText reg.elements "typeId" = some s ∧
    (descriptorOf (asInt s % 2 ^ 32).toNat).isSome = true

/-- Two registers of one name. -/
def ClashesWith (paths : RegisterPaths) (reg reg' : Element) : Prop :=
  HasKnownType reg ∧ HasKnownType reg' ∧
    paths.registerPath (nameOf reg) = paths.registerPath (nameOf reg')

/-- A register is refused, or has the name of an earlier one, and none before it is broken. -/
def RefusedFirst (paths : RegisterPaths) (modes : AccessModeTexts) (regs : List Element) : Prop :=
  ∃ done reg rest, regs = done ++ reg :: rest ∧
    (∀ d ∈ done, ¬ RegisterRefused modes d ∧ ¬ RegisterBroken modes d) ∧
    (RegisterRefused modes reg ∨ (¬ RegisterBroken modes reg ∧ ∃ d ∈ done, ClashesWith paths d reg))

/-- All fields with a number are complete numerals in the range of their variables. -/
structure HasNumerals (reg : Element) : Prop where
  readOnly : ∃ n, Field reg "readOnly" 2 n
  isNumeric : ∃ n, Field reg "isNumeric" 2 n
  typeId : ∃ n, Field reg "typeId" (2 ^ 32) n
  nameSpace : ∃ n, Field reg "nameSpace" (2 ^ 16) n
  length : ∃ n, Field reg "length" (2 ^ 32) n
  nodeId : Field reg "isNumeric" 2 1 → ∃ n, Field reg "nodeId" (2 ^ 32) n

/-- Each element of the server address has a text. -/
def AddressesGiven (root : Element) : Prop :=
  ∀ g ∈ root.elements, g.name = "general" →
    ∀ e ∈ g.elements, e.name = "serverAddress" → e.childText ≠ none

/-- The name space is wrong, or the addresses are given and either a register is refused before
one is broken, or all registers are read and have numerals in a catalogue. -/
def IsUsableDocument (paths : RegisterPaths) (modes : AccessModeTexts) (doc : Document) : Prop :=
  doc.namespaceUri = namespaceUri → AddressesGiven doc.root ∧
    (RefusedFirst paths modes (registerElements doc.root) ∨
      ((∀ reg ∈ registerElements doc.root,
          ¬ RegisterRefused modes reg ∧ ¬ RegisterBroken modes reg) ∧
        doc.root.name = "catalogue" ∧
        ∀ reg ∈ registerElements doc.root, HasKnownType reg → HasNumerals reg))

/-! ## A field -/

section Fields

variable {es : List Element} {e : Element} {tag : String} {p p' : RegisterFields}

theorem lastText_concat :
    lastText (es ++ [e]) tag = if e.name = tag then e.childText else lastText es tag := by
  rw [lastText, List.filter_append]
  by_cases h : e.name = tag
  · rw [if_pos h, List.filter_cons_of_pos (by simpa using h), List.filter_nil,
      List.getLast?_concat]
    rfl
  · rw [if_neg h, List.filter_cons_of_neg (by simpa using h), List.filter_nil, List.append_nil]
    rfl

theorem lastText_concat_of_ne (h : e.name ≠ tag) : lastText (es ++ [e]) tag = lastText es tag := by
  rw [lastText_concat, if_neg h]

theorem childContent_cases {α : Type} (e : Element) (f : String → Except ReadFailure α) :
    (e.childText = none ∧ (childContent e >>= f) = .error .undefinedBehaviour) ∨
      ∃ s, e.childText = some s ∧ (childContent e >>= f) = f s := by
  rw [childContent]
  rcases e.childText with - | s
  · exact .inl ⟨rfl, rfl⟩
  · exact .inr ⟨s, rfl, rfl⟩

theorem convertToUint_cases (s : String) (line : Nat) :
    ((∃ error, stoul s = .error error) ∧ ∃ what, convertToUint s line = .error (.logicError what)) ∨
      ((¬ ∃ error, stoul s = .error error) ∧ convertToUint s line = .ok (asUint s)) := by
  rw [convertToUint, asUint]
  rcases stoul s with error | n
  · exact .inl ⟨⟨error, rfl⟩, _, rfl⟩
  · exact .inr ⟨by simp, rfl⟩

theorem convertToInt_cases (s : String) (line : Nat) :
    ((∃ error, stol s = .error error) ∧ ∃ what, convertToInt s line = .error (.logicError what)) ∨
      ((¬ ∃ error, stol s = .error error) ∧ convertToInt s line = .ok (asInt s)) := by
  rw [convertToInt, asInt]
  rcases stol s with error | n
  · exact .inl ⟨⟨error, rfl⟩, _, rfl⟩
  · exact .inr ⟨by simp, rfl⟩

/-! The fields are read in five ways. -/

variable (modes) in
theorem parseField_asText (h : e.name = "name" ∨ e.name = "nodeId") :
    ∃ f : RegisterFields → String → RegisterFields, ∀ p, parseField modes p e
      = childContent e >>= fun s => .ok (f p s) := by
  rcases h with h | h <;> simp only [parseField, h] <;> exact ⟨_, fun p => rfl⟩

variable (modes) in
theorem parseField_asLength (h : e.name = "length") (p : RegisterFields) :
    parseField modes p e = childContent e >>= fun s =>
      convertToUint s e.line >>= fun n => .ok { p with length := n } := by
  simp only [parseField, h, parseLength]
  rcases childContent e <;> rfl

variable (modes) in
theorem parseField_asInt (h : e.name ∈ intTags) :
    ∃ f : RegisterFields → Int → RegisterFields, ∀ p, parseField modes p e
      = childContent e >>= fun s => convertToInt s e.line >>= fun n => .ok (f p n) := by
  simp only [intTags, List.mem_cons, List.not_mem_nil, or_false] at h
  rcases h with h | h | h | h <;> simp only [parseField, h, parseTypeId] <;>
    exact ⟨_, fun p => by rcases childContent e <;> rfl⟩

variable (modes) in
theorem parseField_asMode (h : e.name = "access_mode") (p : RegisterFields) :
    parseField modes p e = ((modes.deserialize (e.childText.getD "")).mapError .logicError) >>=
      fun flags => .ok { p with flags := flags } := by
  simp only [parseField, h]
  rfl

variable (modes) in
theorem parseField_asOther
    (h : e.name ∉ "access_mode" :: "name" :: "nodeId" :: "length" :: intTags) (p : RegisterFields) :
    ∃ p', parseField modes p e = .ok p' := by
  simp only [intTags, List.mem_cons, List.not_mem_nil, or_false, not_or] at h
  obtain ⟨hmode, hname, hid, hlength, hread, htype, hspace, hnum⟩ := h
  unfold parseField
  split
  all_goals first
    | contradiction
    | exact ⟨_, rfl⟩
    | rcases e.childText <;> exact ⟨_, rfl⟩

theorem not_fieldRefused (h : e.name ∉ "access_mode" :: "length" :: intTags) :
    ¬ FieldRefused modes e := by
  simp only [List.mem_cons, not_or] at h
  rintro (⟨hname, -⟩ | ⟨hname, -⟩ | ⟨hname, -⟩)
  · exact h.2.1 hname
  · exact h.2.2 hname
  · exact h.1 hname

theorem fieldRefused_iff_of_length (h : e.name = "length") :
    FieldRefused modes e ↔ ∃ s ∈ e.childText, ∃ error, stoul s = .error error := by
  rw [FieldRefused, or_iff_left, and_iff_right h]
  rintro (⟨hint, -⟩ | ⟨hmode, -⟩)
  · simp [h, intTags] at hint
  · simp [h] at hmode

theorem fieldRefused_iff_of_int (h : e.name ∈ intTags) :
    FieldRefused modes e ↔ ∃ s ∈ e.childText, ∃ error, stol s = .error error := by
  rw [FieldRefused, or_iff_right, or_iff_left, and_iff_right h]
  · rintro ⟨hmode, -⟩
    simp [hmode, intTags] at h
  · rintro ⟨hlength, -⟩
    simp [hlength, intTags] at h

theorem fieldRefused_iff_of_mode (h : e.name = "access_mode") :
    FieldRefused modes e ↔ ∃ what, modes.deserialize (e.childText.getD "") = .error what := by
  rw [FieldRefused, or_iff_right, or_iff_right, and_iff_right h]
  · rintro ⟨hint, -⟩
    simp [h, intTags] at hint
  · rintro ⟨hlength, -⟩
    simp [h] at hlength

/-- A field whose text is converted is broken where there is no text, and refused where the text
does not convert. -/
theorem parseField_converting {β : Type} {convert : String → Except ReadFailure β}
    {f : RegisterFields → β → RegisterFields} {fails : String → Prop}
    (htag : e.name ∈ "name" :: "nodeId" :: "length" :: intTags)
    (hf : ∀ p, parseField modes p e
      = childContent e >>= fun s => convert s >>= fun n => .ok (f p n))
    (hrefused : FieldRefused modes e ↔ ∃ s ∈ e.childText, fails s)
    (hconvert : ∀ s, (fails s ∧ ∃ what, convert s = .error (.logicError what)) ∨
      (¬ fails s ∧ ∃ n, convert s = .ok n)) :
    (FieldBroken e ∧ ∀ p, parseField modes p e = .error .undefinedBehaviour) ∨
    (FieldRefused modes e ∧ ∀ p, ∃ what, parseField modes p e = .error (.logicError what)) ∨
    (¬ FieldRefused modes e ∧ ¬ FieldBroken e ∧ ∀ p, ∃ p', parseField modes p e = .ok p') := by
  cases hs : e.childText with
  | none =>
    refine .inl ⟨⟨htag, hs⟩, fun p => ?_⟩
    rw [hf, childContent, hs]
    rfl
  | some s =>
    have hread : ∀ p, parseField modes p e = convert s >>= fun n => .ok (f p n) := by
      intro p
      rw [hf, childContent, hs]
      rfl
    rcases hconvert s with ⟨hfails, what, hwhat⟩ | ⟨hfails, n, hn⟩
    · refine .inr (.inl ⟨hrefused.mpr ⟨s, hs, hfails⟩, fun p => ⟨what, ?_⟩⟩)
      rw [hread, hwhat]
      rfl
    · have hbroken : ¬ FieldBroken e := fun hb => Option.some_ne_none s (hs.symm.trans hb.2)
      refine .inr (.inr ⟨fun hr => ?_, hbroken, fun p => ⟨f p n, ?_⟩⟩)
      · obtain ⟨t, ht, hfail⟩ := hrefused.mp hr
        obtain rfl := Option.some.inj (hs.symm.trans ht)
        exact hfails hfail
      · rw [hread, hn]
        rfl

/-- **A field is broken, refused or read.** -/
theorem parseField_cases (modes : AccessModeTexts) (e : Element) :
    (FieldBroken e ∧ ∀ p, parseField modes p e = .error .undefinedBehaviour) ∨
    (FieldRefused modes e ∧ ∀ p, ∃ what, parseField modes p e = .error (.logicError what)) ∨
    (¬ FieldRefused modes e ∧ ¬ FieldBroken e ∧ ∀ p, ∃ p', parseField modes p e = .ok p') := by
  by_cases htext : e.name = "name" ∨ e.name = "nodeId"
  · -- a text is kept as it is
    obtain ⟨f, hf⟩ := parseField_asText modes htext
    have hnot : ¬ FieldRefused modes e := by
      refine not_fieldRefused ?_
      rcases htext with h | h <;> simp [h, intTags]
    refine parseField_converting (by rcases htext with h | h <;> simp [h]) hf
      (iff_of_false hnot ?_) fun s => .inr ⟨not_false, s, rfl⟩
    rintro ⟨s, -, hfalse⟩
    exact hfalse
  by_cases hlength : e.name = "length"
  · refine parseField_converting (by simp [hlength]) (parseField_asLength modes hlength)
      (fieldRefused_iff_of_length hlength) fun s => ?_
    exact (convertToUint_cases s e.line).imp_right (.imp_right fun hok => ⟨_, hok⟩)
  by_cases hint : e.name ∈ intTags
  · obtain ⟨f, hf⟩ := parseField_asInt modes hint
    refine parseField_converting (by simp [hint]) hf (fieldRefused_iff_of_int hint) fun s => ?_
    exact (convertToInt_cases s e.line).imp_right (.imp_right fun hok => ⟨_, hok⟩)
  -- the other fields are read with or without a text
  have hbroken : ¬ FieldBroken e := by
    rintro ⟨hmem, -⟩
    simp only [List.mem_cons] at hmem
    rcases hmem with h | h | h | h
    · exact htext (.inl h)
    · exact htext (.inr h)
    · exact hlength h
    · exact hint h
  by_cases hmode : e.name = "access_mode"
  · have hf := parseField_asMode modes hmode
    rcases hflags : modes.deserialize (e.childText.getD "") with what | flags
    · refine .inr (.inl ⟨(fieldRefused_iff_of_mode hmode).mpr ⟨what, hflags⟩, fun p => ⟨what, ?_⟩⟩)
      rw [hf, hflags]
      rfl
    · refine .inr (.inr ⟨fun hr => ?_, hbroken, fun p => ⟨_, by rw [hf, hflags]; rfl⟩⟩)
      obtain ⟨what, hwhat⟩ := (fieldRefused_iff_of_mode hmode).mp hr
      cases hflags.symm.trans hwhat
  · refine .inr (.inr ⟨not_fieldRefused ?_, hbroken, parseField_asOther modes ?_⟩)
    · simp [hmode, hlength, hint]
    · simp only [List.mem_cons, not_or]
      exact ⟨hmode, fun h => htext (.inl h), fun h => htext (.inr h), hlength, hint⟩

theorem not_fieldBroken_of_refused (h : FieldRefused modes e) : ¬ FieldBroken e := by
  rintro ⟨hmem, hnone⟩
  rcases h with ⟨-, s, hs, -⟩ | ⟨-, s, hs, -⟩ | ⟨hmode, -⟩
  · exact Option.some_ne_none s (hs.symm.trans hnone)
  · exact Option.some_ne_none s (hs.symm.trans hnone)
  · simp [hmode, intTags] at hmem

theorem parseField_of_read (hr : ¬ FieldRefused modes e) (hb : ¬ FieldBroken e)
    (p : RegisterFields) : ∃ p', parseField modes p e = .ok p' := by
  rcases parseField_cases modes e with ⟨h, -⟩ | ⟨h, -⟩ | ⟨-, -, h⟩
  · exact absurd h hb
  · exact absurd h hr
  · exact h p

theorem parseField_of_refused (h : FieldRefused modes e) (p : RegisterFields) :
    ∃ failure, parseField modes p e = .error failure ∧ ∃ what, failure = .logicError what := by
  rcases parseField_cases modes e with ⟨hb, -⟩ | ⟨-, hfail⟩ | ⟨hr, -⟩
  · exact absurd hb (not_fieldBroken_of_refused h)
  · obtain ⟨what, hwhat⟩ := hfail p
    exact ⟨_, hwhat, what, rfl⟩
  · exact absurd h hr

theorem parseField_of_broken (h : FieldBroken e) (p : RegisterFields) :
    ∃ failure, parseField modes p e = .error failure ∧ failure = .undefinedBehaviour := by
  rcases parseField_cases modes e with ⟨-, hfail⟩ | ⟨hr, -⟩ | ⟨-, hb, -⟩
  · exact ⟨_, hfail p, rfl⟩
  · exact absurd h (not_fieldBroken_of_refused hr)
  · exact absurd h hb

/-! ## The fields of a register -/

/-- The variables have the numbers and texts of the last fields. -/
structure FieldsOf (es : List Element) (p : RegisterFields) : Prop where
  name : p.name = (lastText es "name").getD ""
  nodeId : p.nodeId = (lastText es "nodeId").getD ""
  length : p.length = ((lastText es "length").map asUint).getD 0
  isReadonly : p.isReadonly = (lastText es "readOnly").map fun s => asInt s != 0
  isNumeric : p.isNumeric = (lastText es "isNumeric").map fun s => asInt s != 0
  typeId : p.typeId = (lastText es "typeId").map fun s => (asInt s % 2 ^ 32).toNat
  namespaceId : p.namespaceId = (lastText es "nameSpace").map fun s => (asInt s % 2 ^ 16).toNat

theorem parseTypeId_ok {n : Int} (h : parseTypeId e = .ok n) :
    ∃ s, e.childText = some s ∧ n = asInt s := by
  rcases childContent_cases e fun s => convertToInt s e.line with ⟨-, hnone⟩ | ⟨s, hs, hsome⟩
  · cases h.symm.trans hnone
  · rcases convertToInt_cases s e.line with ⟨-, what, hwhat⟩ | ⟨-, hok⟩
    · cases h.symm.trans (hsome.trans hwhat)
    · exact ⟨s, hs, Except.ok.inj (h.symm.trans (hsome.trans hok))⟩

theorem parseLength_ok {n : Nat} (h : parseLength e = .ok n) :
    ∃ s, e.childText = some s ∧ n = asUint s := by
  rcases childContent_cases e fun s => convertToUint s e.line with ⟨-, hnone⟩ | ⟨s, hs, hsome⟩
  · cases h.symm.trans hnone
  · rcases convertToUint_cases s e.line with ⟨-, what, hwhat⟩ | ⟨-, hok⟩
    · cases h.symm.trans (hsome.trans hwhat)
    · exact ⟨s, hs, Except.ok.inj (h.symm.trans (hsome.trans hok))⟩

theorem childContent_ok {s : String} (h : childContent e = .ok s) : e.childText = some s := by
  rw [childContent] at h
  rcases htext : e.childText with - | t
  · rw [htext] at h
    cases h
  · rw [htext] at h
    exact congrArg some (Except.ok.inj h)

/-- A field overwrites what an earlier one of its name gave. -/
theorem FieldsOf.concat (h : FieldsOf es p) (hstep : parseField modes p e = .ok p') :
    FieldsOf (es ++ [e]) p' := by
  obtain ⟨hname, hnodeId, hlength, hreadonly, hnumeric, htypeId, hspace⟩ := h
  unfold parseField at hstep
  split at hstep
  -- the texts
  case h_1 htag | h_2 htag =>
    obtain ⟨s, hs, ⟨⟩⟩ := ok_of_bind hstep
    constructor <;> simp [lastText_concat, childContent_ok hs, *]
  -- the number of elements
  case h_3 htag =>
    obtain ⟨n, hn, ⟨⟩⟩ := ok_of_bind hstep
    obtain ⟨s, hs, rfl⟩ := parseLength_ok hn
    constructor <;> simp [lastText_concat, *]
  case h_4 htag =>
    obtain ⟨flags, -, ⟨⟩⟩ := ok_of_bind hstep
    constructor <;> simp [lastText_concat, *]
  -- the other numbers
  case h_6 htag | h_7 htag | h_8 htag | h_9 htag =>
    obtain ⟨n, hn, ⟨⟩⟩ := ok_of_bind hstep
    obtain ⟨s, hs, rfl⟩ := parseTypeId_ok hn
    constructor <;> simp [lastText_concat, *]
  -- the texts that may be missing
  case h_5 htag | h_10 htag =>
    split at hstep <;> cases hstep <;> constructor <;> simp [lastText_concat, *]
  case h_11 hn hi hl _ _ hr ht hs hm _ =>
    -- no field of another name is looked at
    cases hstep
    exact ⟨by rw [lastText_concat_of_ne hn, hname], by rw [lastText_concat_of_ne hi, hnodeId],
      by rw [lastText_concat_of_ne hl, hlength], by rw [lastText_concat_of_ne hr, hreadonly],
      by rw [lastText_concat_of_ne hm, hnumeric], by rw [lastText_concat_of_ne ht, htypeId],
      by rw [lastText_concat_of_ne hs, hspace]⟩

/-- The loop over the fields leaves the numbers and texts of the last ones. -/
theorem fieldsOf_foldlM (h : es.foldlM (parseField modes) {} = .ok p) : FieldsOf es p := by
  induction es using List.reverseRecOn generalizing p with
  | nil =>
    cases h
    exact ⟨rfl, rfl, rfl, rfl, rfl, rfl, rfl⟩
  | append_singleton es e ih =>
    obtain ⟨q, hq, hstep⟩ := foldlM_concat_iff.mp h
    exact (ih hq).concat hstep

end Fields

/-! ## A register -/

/-- The data of a register are what the conversions make of the last fields. -/
structure StemsFrom (reg : Element) (r : OpcUABackendRegisterInfo) : Prop where
  name : r.nodeBrowseName = nameOf reg
  readOnly : ∃ s, lastText reg.elements "readOnly" = some s ∧ r.isReadonly = (asInt s != 0)
  isNumeric : ∃ s, lastText reg.elements "isNumeric" = some s ∧ r.isNumeric = (asInt s != 0)
  typeId : ∃ s, lastText reg.elements "typeId" = some s ∧ r.dataType = (asInt s % 2 ^ 32).toNat
  nameSpace : ∃ s, lastText reg.elements "nameSpace" = some s ∧
    r.namespaceIndex = (asInt s % 2 ^ 16).toNat
  length : r.arrayLength = ((lastText reg.elements "length").map asUint).getD 0
  nodeId : ∀ n, r.id.identifier = .numeric n →
    n = asUint ((lastText reg.elements "nodeId").getD "")
  kind : r.isNumeric = r.id.identifier.isNumeric

section Registers

variable {reg : Element} {p : RegisterFields}

theorem parseRegister_of_error {failure : ReadFailure}
    (h : reg.elements.foldlM (parseField modes) {} = .error failure) (serverAddress : String)
    (c : OpcUaBackendRegisterCatalogue) :
    parseRegister paths modes reg serverAddress c = .error failure := by
  rw [parseRegister, h]
  rfl

theorem parseIdentifier_error {isNumeric : Bool} {nodeId : String} {failure : ReadFailure}
    (h : parseIdentifier isNumeric nodeId = .error failure) :
    ∃ error, failure = .standard error := by
  rw [parseIdentifier] at h
  split at h
  · split at h
    · cases h
    · rename_i error _
      exact ⟨error, (Except.error.inj h).symm⟩
  · cases h

/-- A register with a variable that has no value, or with a node id that is no number. -/
theorem parseRegister_of_lacks (hfold : reg.elements.foldlM (parseField modes) {} = .ok p)
    (h : Lacks reg) (serverAddress : String) (c : OpcUaBackendRegisterCatalogue) :
    ∃ failure, parseRegister paths modes reg serverAddress c = .error failure ∧
      ∀ what, failure ≠ .logicError what := by
  obtain ⟨-, hnodeId, -, hreadonly, hnumeric, htypeId, hspace⟩ := fieldsOf_foldlM hfold
  simp only [parseRegister, hfold, bind, Except.bind]
  split
  · rename_i isNumeric namespaceId hn hs
    cases hidentifier : parseIdentifier isNumeric p.nodeId with
    | error failure =>
      obtain ⟨error, rfl⟩ := parseIdentifier_error hidentifier
      exact ⟨.standard error, rfl, by simp⟩
    | ok identifier =>
      simp only
      split
      · rename_i typeId isReadonly ht hr
        exfalso
        rcases h with ⟨tag, htag, hnone⟩ | ⟨s, hs', hne, error, herror⟩
        · -- all variables have values
          simp only [intTags, List.mem_cons, List.not_mem_nil, or_false] at htag
          rcases htag with rfl | rfl | rfl | rfl
          · simp [hnone, hr] at hreadonly
          · simp [hnone, ht] at htypeId
          · simp [hnone, hs] at hspace
          · simp [hnone, hn] at hnumeric
        · -- the node id is a number
          have htrue : isNumeric = true := by
            rw [hn, hs'] at hnumeric
            exact (Option.some.inj hnumeric).trans (bne_iff_ne.mpr hne)
          simp only [htrue, parseIdentifier, if_true, hnodeId, herror] at hidentifier
          cases hidentifier
      · exact ⟨.undefinedBehaviour, rfl, by simp⟩
  · exact ⟨.undefinedBehaviour, rfl, by simp⟩

/-- A register that lacks nothing is added if its type is known. -/
theorem parseRegister_of_not_lacks (hfold : reg.elements.foldlM (parseField modes) {} = .ok p)
    (h : ¬ Lacks reg) (serverAddress : String) :
    (HasKnownType reg ∧ ∃ r, StemsFrom reg r ∧ ∀ c, parseRegister paths modes reg serverAddress c
      = (addRegister paths r c).mapError .logicError) ∨
    (¬ HasKnownType reg ∧ ∀ c, parseRegister paths modes reg serverAddress c = .ok c) := by
  obtain ⟨hname, hnodeId, hlength, hreadonly, hnumeric, htypeId, hspace⟩ := fieldsOf_foldlM hfold
  have hsome : ∀ tag ∈ intTags, ∃ s, lastText reg.elements tag = some s := fun tag htag =>
    Option.ne_none_iff_exists'.mp fun hnone => h (.inl ⟨tag, htag, hnone⟩)
  obtain ⟨r, hr⟩ := hsome "readOnly" (by simp [intTags])
  obtain ⟨t, ht⟩ := hsome "typeId" (by simp [intTags])
  obtain ⟨n, hn⟩ := hsome "nameSpace" (by simp [intTags])
  obtain ⟨i, hi⟩ := hsome "isNumeric" (by simp [intTags])
  rw [hr, Option.map_some] at hreadonly
  rw [ht, Option.map_some] at htypeId
  rw [hn, Option.map_some] at hspace
  rw [hi, Option.map_some] at hnumeric
  -- the identifier is a number or a text, as the field says
  obtain ⟨identifier, hidentifier, hkind, hvalue⟩ : ∃ identifier,
      parseIdentifier (asInt i != 0) p.nodeId = .ok identifier ∧
      (asInt i != 0) = identifier.isNumeric ∧
      ∀ n, identifier = .numeric n → n = asUint ((lastText reg.elements "nodeId").getD "") := by
    rw [parseIdentifier, hnodeId]
    by_cases hzero : asInt i = 0
    · exact ⟨_, by rw [hzero]; rfl, by rw [hzero]; rfl, by simp⟩
    · have htrue : (asInt i != 0) = true := by simpa using hzero
      rw [htrue, if_pos rfl, asUint]
      rcases hstoul : stoul ((lastText reg.elements "nodeId").getD "") with error | m
      · exact absurd (.inr ⟨i, hi, hzero, error, hstoul⟩) h
      · refine ⟨_, rfl, rfl, ?_⟩
        rintro _ ⟨⟩
        rfl
  have hparse : ∀ c, parseRegister paths modes reg serverAddress c
      = (addProperty paths ⟨(asInt n % 2 ^ 16).toNat, identifier⟩ p.name p.indexRange
        (asInt t % 2 ^ 32).toNat p.length serverAddress p.description (asInt r != 0)
        c).mapError .logicError := by
    intro c
    simp only [parseRegister, hfold, bind, Except.bind, hnumeric, hspace, htypeId, hreadonly,
      hidentifier]
  rcases hdescriptor : descriptorOf (asInt t % 2 ^ 32).toNat with - | descriptor
  · refine .inr ⟨?_, fun c => ?_⟩
    · rintro ⟨t', ht', hknown⟩
      obtain rfl := Option.some.inj (ht.symm.trans ht')
      rw [hdescriptor] at hknown
      cases hknown
    · rw [hparse, addProperty_of_unknown hdescriptor]
      rfl
  · exact .inl ⟨⟨t, ht, by rw [hdescriptor]; rfl⟩, _,
      ⟨hname, ⟨r, hr, rfl⟩, ⟨i, hi, hkind.symm⟩, ⟨t, ht, rfl⟩, ⟨n, hn, rfl⟩, hlength, hvalue, rfl⟩,
      fun c => by rw [hparse, addProperty_of_known hdescriptor]⟩

/-- The loop over the fields ends with the first that is refused or broken. -/
theorem foldlM_of_refused (h : RegisterRefused modes reg) :
    ∃ what, reg.elements.foldlM (parseField modes) {} = .error (.logicError what) := by
  obtain ⟨failure, hfold, what, rfl⟩ := foldlM_standsFirst (b := {}) h
    (fun e hr hb => parseField_of_read hr hb) fun e he => parseField_of_refused he
  exact ⟨what, hfold⟩

theorem foldlM_of_broken (h : StandsFirst FieldBroken (FieldRefused modes) reg.elements) :
    reg.elements.foldlM (parseField modes) {} = .error .undefinedBehaviour := by
  obtain ⟨failure, hfold, rfl⟩ := foldlM_standsFirst (b := {}) h
    (fun e hb hr => parseField_of_read hr hb) fun e he => parseField_of_broken he
  exact hfold

theorem not_registerBroken_of_refused (h : RegisterRefused modes reg) :
    ¬ RegisterBroken modes reg := by
  rintro (hbroken | ⟨hnone, -⟩)
  · obtain ⟨what, hwhat⟩ := foldlM_of_refused h
    cases hwhat.symm.trans (foldlM_of_broken hbroken)
  · obtain ⟨done, e, rest, heq, -, he⟩ := h
    exact (hnone e (heq ▸ List.mem_append_right _ (List.mem_cons_self ..))).1 he

/-- **A register is refused, broken or read, whatever was read before.** -/
theorem parseRegister_cases (paths : RegisterPaths) (modes : AccessModeTexts) (reg : Element)
    (serverAddress : String) :
    (RegisterRefused modes reg ∧ ∀ c, ∃ what,
      parseRegister paths modes reg serverAddress c = .error (.logicError what)) ∨
    (RegisterBroken modes reg ∧ ∀ c, ∃ failure,
      parseRegister paths modes reg serverAddress c = .error failure ∧
        ∀ what, failure ≠ .logicError what) ∨
    (¬ RegisterRefused modes reg ∧ ¬ RegisterBroken modes reg ∧
      ((HasKnownType reg ∧ ∃ r, StemsFrom reg r ∧ ∀ c, parseRegister paths modes reg serverAddress c
        = (addRegister paths r c).mapError .logicError) ∨
      (¬ HasKnownType reg ∧ ∀ c, parseRegister paths modes reg serverAddress c = .ok c))) := by
  rcases standsFirst_or (FieldRefused modes) FieldBroken reg.elements with h | h | h
  · obtain ⟨what, hfold⟩ := foldlM_of_refused h
    exact .inl ⟨h, fun c => ⟨what, parseRegister_of_error hfold serverAddress c⟩⟩
  · have hfold := foldlM_of_broken h
    exact .inr (.inl ⟨.inl h, fun c => ⟨_, parseRegister_of_error hfold serverAddress c, by simp⟩⟩)
  · obtain ⟨p, hfold⟩ := foldlM_ok_of_forall (f := parseField modes) (b := {})
      fun e he => parseField_of_read (h e he).1 (h e he).2
    by_cases hlacks : Lacks reg
    · exact .inr (.inl ⟨.inr ⟨h, hlacks⟩, fun c => parseRegister_of_lacks hfold hlacks _ c⟩)
    · refine .inr (.inr ⟨?_, ?_, parseRegister_of_not_lacks hfold hlacks serverAddress⟩)
      · rintro ⟨done, e, rest, heq, -, he⟩
        exact (h e (heq ▸ List.mem_append_right _ (List.mem_cons_self ..))).1 he
      · rintro (⟨done, e, rest, heq, -, he⟩ | ⟨-, hlack⟩)
        · exact (h e (heq ▸ List.mem_append_right _ (List.mem_cons_self ..))).2 he
        · exact hlacks hlack

end Registers

/-! ## The catalogue -/

/-- What the loop over the registers has read, and what it made of them. -/
structure ReadSoFar (paths : RegisterPaths) (modes : AccessModeTexts) (done : List Element)
    (c : OpcUaBackendRegisterCatalogue) : Prop where
  read : ∀ reg ∈ done, ¬ RegisterRefused modes reg ∧ ¬ RegisterBroken modes reg
  stems : ∀ r ∈ c, ∃ reg ∈ done, HasKnownType reg ∧ StemsFrom reg r
  added : ∀ reg ∈ done, HasKnownType reg → ∃ r ∈ c, StemsFrom reg r
  apart : done.Pairwise fun reg reg' => ¬ ClashesWith paths reg reg'

section Loop

variable {serverAddress : String} {done regs : List Element} {reg : Element}
  {c c' : OpcUaBackendRegisterCatalogue} {r : OpcUABackendRegisterInfo}

theorem StemsFrom.registerName (h : StemsFrom reg r) :
    r.getRegisterName paths = paths.registerPath (nameOf reg) := by
  rw [OpcUABackendRegisterInfo.getRegisterName, h.name]

/-- A register goes into the catalogue unless one before it has the name. -/
theorem addRegister_stems (h : ReadSoFar paths modes done c) (hr : StemsFrom reg r)
    (hknown : HasKnownType reg) :
    (addRegister paths r c = .ok (c ++ [r]) ∧ ∀ d ∈ done, ¬ ClashesWith paths d reg) ∨
    ((∃ what, addRegister paths r c = .error what) ∧ ∃ d ∈ done, ClashesWith paths d reg) := by
  by_cases hclash : ∃ d ∈ done, ClashesWith paths d reg
  · obtain ⟨d, hd, hdr⟩ := hclash
    refine .inr ⟨?_, d, hd, hdr⟩
    obtain ⟨r', hr', hstems⟩ := h.added d hd hdr.1
    rcases hadd : addRegister paths r c with what | c'
    · exact ⟨what, rfl⟩
    · -- the register of the earlier element has the name
      refine absurd ?_ ((addRegister_ok_iff.mp hadd).1 r' hr')
      rw [hstems.registerName, hr.registerName, hdr.2.2]
  · refine .inl ⟨addRegister_new fun r' hr' hname => hclash ?_, fun d hd hdr => hclash ⟨d, hd, hdr⟩⟩
    obtain ⟨d, hd, hdknown, hstems⟩ := h.stems r' hr'
    exact ⟨d, hd, hdknown, hknown, by rwa [hstems.registerName, hr.registerName] at hname⟩

theorem ReadSoFar.concat_added (h : ReadSoFar paths modes done c)
    (hread : ¬ RegisterRefused modes reg ∧ ¬ RegisterBroken modes reg) (hknown : HasKnownType reg)
    (hr : StemsFrom reg r) (hnew : ∀ d ∈ done, ¬ ClashesWith paths d reg) :
    ReadSoFar paths modes (done ++ [reg]) (c ++ [r]) where
  read := List.forall_mem_append.mpr ⟨h.read, by simpa using hread⟩
  stems := by
    refine List.forall_mem_append.mpr ⟨fun r' hr' => ?_, ?_⟩
    · obtain ⟨d, hd, hrest⟩ := h.stems r' hr'
      exact ⟨d, List.mem_append_left _ hd, hrest⟩
    · simpa using .inr ⟨hknown, hr⟩
  added := by
    refine List.forall_mem_append.mpr ⟨fun d hd hdknown => ?_, ?_⟩
    · obtain ⟨r', hr', hrest⟩ := h.added d hd hdknown
      exact ⟨r', List.mem_append_left _ hr', hrest⟩
    · simpa using fun _ => .inr hr
  apart := by
    refine List.pairwise_append.mpr ⟨h.apart, List.pairwise_singleton .., fun d hd d' hd' => ?_⟩
    obtain rfl := List.mem_singleton.mp hd'
    exact hnew d hd

/-- A register of another type is read and left out. -/
theorem ReadSoFar.concat_skipped (h : ReadSoFar paths modes done c)
    (hread : ¬ RegisterRefused modes reg ∧ ¬ RegisterBroken modes reg)
    (hunknown : ¬ HasKnownType reg) : ReadSoFar paths modes (done ++ [reg]) c where
  read := List.forall_mem_append.mpr ⟨h.read, by simpa using hread⟩
  stems r' hr' := by
    obtain ⟨d, hd, hrest⟩ := h.stems r' hr'
    exact ⟨d, List.mem_append_left _ hd, hrest⟩
  added := List.forall_mem_append.mpr ⟨h.added, by simpa using fun hknown => absurd hknown hunknown⟩
  apart := by
    refine List.pairwise_append.mpr ⟨h.apart, List.pairwise_singleton .., fun d hd d' hd' => ?_⟩
    obtain rfl := List.mem_singleton.mp hd'
    exact fun hclash => hunknown hclash.2.1

/-- One more register is read, or it is refused or broken, or has the name of one before. -/
theorem ReadSoFar.step (h : ReadSoFar paths modes done c) (reg : Element) (serverAddress : String) :
    (∃ c', parseRegister paths modes reg serverAddress c = .ok c' ∧
      ReadSoFar paths modes (done ++ [reg]) c') ∨
    ((RegisterRefused modes reg ∨
        (¬ RegisterBroken modes reg ∧ ∃ d ∈ done, ClashesWith paths d reg)) ∧
      ∃ what, parseRegister paths modes reg serverAddress c = .error (.logicError what)) ∨
    (RegisterBroken modes reg ∧ ∃ failure,
      parseRegister paths modes reg serverAddress c = .error failure ∧
        ∀ what, failure ≠ .logicError what) := by
  rcases parseRegister_cases paths modes reg serverAddress with
    ⟨hrefused, hfail⟩ | ⟨hbroken, hfail⟩ | ⟨hr, hb, ⟨hknown, r, hstems, hadd⟩ | ⟨hunknown, hskip⟩⟩
  · exact .inr (.inl ⟨.inl hrefused, hfail c⟩)
  · exact .inr (.inr ⟨hbroken, hfail c⟩)
  · rcases addRegister_stems h hstems hknown with ⟨hok, hnew⟩ | ⟨⟨what, herror⟩, hclash⟩
    · exact .inl ⟨c ++ [r], by rw [hadd, hok]; rfl, h.concat_added ⟨hr, hb⟩ hknown hstems hnew⟩
    · exact .inr (.inl ⟨.inr ⟨hb, hclash⟩, what, by rw [hadd, herror]; rfl⟩)
  · exact .inl ⟨c, hskip c, h.concat_skipped ⟨hr, hb⟩ hunknown⟩

/-- The loop over the registers. -/
def readRegisters (paths : RegisterPaths) (modes : AccessModeTexts) (serverAddress : String)
    (regs : List Element) : Except ReadFailure OpcUaBackendRegisterCatalogue :=
  regs.foldlM (fun c reg => parseRegister paths modes reg serverAddress c) []

theorem readSoFar_of_ok (h : readRegisters paths modes serverAddress regs = .ok c) :
    ReadSoFar paths modes regs c := by
  rw [readRegisters] at h
  induction regs using List.reverseRecOn generalizing c with
  | nil =>
    cases h
    exact ⟨by simp, by simp, by simp, .nil⟩
  | append_singleton done reg ih =>
    obtain ⟨c₁, hdone, hstep⟩ := foldlM_concat_iff.mp h
    rcases (ih hdone).step reg serverAddress with ⟨c', hok, hread⟩ | ⟨-, what, herror⟩ |
      ⟨-, failure, herror, -⟩
    · obtain rfl := Except.ok.inj (hok.symm.trans hstep)
      exact hread
    · cases herror.symm.trans hstep
    · cases herror.symm.trans hstep

/-- The loop ends with a `logic_error` where a register is refused before one is broken. -/
theorem refusedFirst_of_error {what : String}
    (h : readRegisters paths modes serverAddress regs = .error (.logicError what)) :
    RefusedFirst paths modes regs := by
  obtain ⟨done, reg, rest, c, rfl, hdone, herror⟩ := foldlM_error_split h
  have hread := readSoFar_of_ok hdone
  refine ⟨done, reg, rest, rfl, hread.read, ?_⟩
  rcases hread.step reg serverAddress with ⟨c', hok, -⟩ | ⟨hrefused, -⟩ | ⟨-, failure, hfail, hne⟩
  · cases hok.symm.trans herror
  · exact hrefused
  · exact absurd (Except.error.inj (hfail.symm.trans herror)) (hne what)

variable (paths serverAddress) in
/-- Registers that are neither refused nor broken are read, or one has the name of another. -/
theorem readRegisters_of_read
    (h : ∀ reg ∈ regs, ¬ RegisterRefused modes reg ∧ ¬ RegisterBroken modes reg) :
    (∃ c, readRegisters paths modes serverAddress regs = .ok c) ∨
      ∃ what, readRegisters paths modes serverAddress regs = .error (.logicError what) := by
  rcases hresult : readRegisters paths modes serverAddress regs with failure | c
  · refine .inr ?_
    obtain ⟨done, reg, rest, c, rfl, hdone, herror⟩ := foldlM_error_split hresult
    obtain ⟨hr, hb⟩ := h reg (by simp)
    rcases (readSoFar_of_ok hdone).step reg serverAddress with ⟨c', hok, -⟩ | ⟨-, what, hwhat⟩ |
      ⟨hbroken, -⟩
    · cases hok.symm.trans herror
    · exact ⟨what, congrArg Except.error (Except.error.inj (herror.symm.trans hwhat))⟩
    · exact absurd hbroken hb
  · exact .inl ⟨c, rfl⟩

variable (serverAddress) in
theorem readRegisters_of_refusedFirst (h : RefusedFirst paths modes regs) :
    ∃ what, readRegisters paths modes serverAddress regs = .error (.logicError what) := by
  obtain ⟨done, reg, rest, rfl, hdone, hreg⟩ := h
  rcases readRegisters_of_read paths serverAddress hdone with
    ⟨c, hc⟩ | ⟨what, hwhat⟩
  · rw [readRegisters, foldlM_append_ok hc]
    rcases (readSoFar_of_ok hc).step reg serverAddress with ⟨c', -, hread⟩ | ⟨-, what, hwhat⟩ |
      ⟨hbroken, -⟩
    · -- the register would have been read
      rcases hreg with hrefused | ⟨-, d, hd, hclash⟩
      · exact absurd hrefused (hread.read reg (by simp)).1
      · refine absurd hclash ?_
        exact (List.pairwise_append.mp hread.apart).2.2 d hd reg (List.mem_singleton_self _)
    · exact ⟨what, foldlM_cons_error hwhat⟩
    · rcases hreg with hrefused | ⟨hb, -⟩
      · exact absurd hbroken (not_registerBroken_of_refused hrefused)
      · exact absurd hbroken hb
  · exact ⟨what, foldlM_append_error hwhat⟩

end Loop

/-! ## The numbers of a register -/

section Numbers

variable {s tag : String} {n m bound bound' : Nat} {reg reg' : Element}
  {r : OpcUABackendRegisterInfo}

theorem asUint_of_numeral (h : numeral? s = some n) (hn : n < 2 ^ 32) : asUint s = n := by
  rw [asUint, stoul_of_numeral h (by omega)]
  exact Nat.mod_eq_of_lt hn

theorem asInt_of_numeral (h : numeral? s = some n) (hn : n < 2 ^ 32) :
    asInt s = (n : Int).bmod (2 ^ 32) := by
  rw [asInt, stol_of_numeral h (by omega)]

/-- An `int` that was cut off is cut back to the number. -/
theorem asInt_mod_of_numeral (h : numeral? s = some n) {k : Nat} (hk : k ∣ 2 ^ 32)
    (hn : n < 2 ^ 32) (hnk : n < k) : (asInt s % k).toNat = n := by
  have hdvd : (k : Int) ∣ ((2 ^ 32 : Nat) : Int) := Int.natCast_dvd_natCast.mpr hk
  rw [asInt_of_numeral h hn, ← Int.emod_emod_of_dvd _ hdvd, Int.bmod_emod,
    Int.emod_emod_of_dvd _ hdvd, Int.emod_eq_of_lt (by omega) (by omega)]
  rfl

theorem Field.eq (h : Field reg tag bound n) (h' : Field reg tag bound' m) : n = m := by
  obtain ⟨s, hs, hn, -⟩ := h
  obtain ⟨s', hs', hm, -⟩ := h'
  obtain rfl := Option.some.inj (hs.symm.trans hs')
  exact Option.some.inj (hn.symm.trans hm)

theorem field_of_uint (h : ∃ s, lastText reg.elements tag = some s ∧ n = (asInt s % bound).toNat)
    (hdvd : bound ∣ 2 ^ 32) (hfield : ∃ m, Field reg tag bound m) : Field reg tag bound n := by
  obtain ⟨s, hs, rfl⟩ := h
  obtain ⟨m, s', hs', hm, hlt⟩ := hfield
  obtain rfl := Option.some.inj (hs.symm.trans hs')
  have hle : bound ≤ 2 ^ 32 := Nat.le_of_dvd (by decide) hdvd
  rw [asInt_mod_of_numeral hm hdvd (by omega) hlt]
  exact ⟨s, hs, hm, hlt⟩

theorem field_of_bool {b : Bool}
    (h : ∃ s, lastText reg.elements tag = some s ∧ b = (asInt s != 0))
    (hfield : ∃ m, Field reg tag 2 m) : Field reg tag 2 b.toNat := by
  obtain ⟨s, hs, rfl⟩ := h
  obtain ⟨m, s', hs', hm, hlt⟩ := hfield
  obtain rfl := Option.some.inj (hs.symm.trans hs')
  refine ⟨s, hs, ?_, Bool.toNat_lt _⟩
  rw [hm, asInt_of_numeral hm (by omega)]
  have hcases : m = 0 ∨ m = 1 := by omega
  rcases hcases with rfl | rfl <;> rfl

theorem StemsFrom.takenFrom (h : StemsFrom reg r) (hnumerals : HasNumerals reg) :
    TakenFrom reg r where
  name := h.name
  readOnly := field_of_bool h.readOnly hnumerals.readOnly
  isNumeric := field_of_bool h.isNumeric hnumerals.isNumeric
  typeId := field_of_uint h.typeId (Nat.dvd_refl _) hnumerals.typeId
  nameSpace := field_of_uint h.nameSpace (by decide) hnumerals.nameSpace
  length := by
    obtain ⟨n, s, hs, hn, hlt⟩ := hnumerals.length
    rw [h.length, hs]
    exact ⟨s, hs, hn.trans (congrArg some (asUint_of_numeral hn hlt).symm), by
      rw [Option.map_some, Option.getD_some, asUint_of_numeral hn hlt]
      exact hlt⟩
  nodeId := by
    intro n hid
    have hnumeric : r.isNumeric = true := h.kind.trans (congrArg Identifier.isNumeric hid)
    have hone := field_of_bool h.isNumeric hnumerals.isNumeric
    rw [hnumeric] at hone
    obtain ⟨m, s, hs, hm, hlt⟩ := hnumerals.nodeId hone
    have hn := h.nodeId n hid
    rw [hs, Option.getD_some, asUint_of_numeral hm hlt] at hn
    exact ⟨s, hs, hn ▸ hm, hn ▸ hlt⟩

theorem TakenFrom.hasNumerals (h : TakenFrom reg r)
    (hkind : r.isNumeric = r.id.identifier.isNumeric) : HasNumerals reg where
  readOnly := ⟨_, h.readOnly⟩
  isNumeric := ⟨_, h.isNumeric⟩
  typeId := ⟨_, h.typeId⟩
  nameSpace := ⟨_, h.nameSpace⟩
  length := ⟨_, h.length⟩
  nodeId := by
    intro hone
    have htoNat := h.isNumeric.eq hone
    rcases hid : r.id.identifier with n | text
    · exact ⟨n, h.nodeId n hid⟩
    · rw [hkind, hid] at htoNat
      cases htoNat

theorem TakenFrom.hasKnownType (h : TakenFrom reg' r) (hstems : StemsFrom reg r)
    (hknown : HasKnownType reg) : HasKnownType reg' := by
  obtain ⟨s, hs, hn, hlt⟩ := h.typeId
  obtain ⟨t, ht, htype⟩ := hstems.typeId
  obtain ⟨t', ht', hsome⟩ := hknown
  obtain rfl := Option.some.inj (ht.symm.trans ht')
  rw [← htype] at hsome
  refine ⟨s, hs, ?_⟩
  have hback : (asInt s % 2 ^ 32).toNat = r.dataType :=
    asInt_mod_of_numeral hn (Nat.dvd_refl _) hlt hlt
  rw [hback]
  exact hsome

end Numbers

/-! ## The documents -/

section Documents

variable {root g e : Element} {address : String}

/-- The first loop gets an address, or there is an element of it without a text. -/
theorem readServerAddress_ok (h : AddressesGiven root) :
    ∃ address, readServerAddress root = .ok address := by
  apply foldlM_ok_of_forall
  intro g hg address
  by_cases hname : g.name = "general"
  · simp only [hname, if_true]
    apply foldlM_ok_of_forall
    intro e he address
    rw [readGeneral]
    by_cases haddress : e.name = "serverAddress"
    · obtain ⟨s, hs⟩ := Option.ne_none_iff_exists'.mp (h g hg hname e he haddress)
      exact ⟨s, by rw [if_pos haddress, childContent, hs]⟩
    · exact ⟨address, if_neg haddress⟩
  · exact ⟨address, if_neg hname⟩

theorem readGeneral_error {failure : ReadFailure} (h : readGeneral address e = .error failure) :
    failure = .undefinedBehaviour := by
  rw [readGeneral] at h
  split at h
  · rcases childContent_cases e .ok with ⟨-, hnone⟩ | ⟨s, hs, -⟩
    · rw [childContent] at h
      split at h
      · cases h
      · exact (Except.error.inj h).symm
    · rw [childContent, hs] at h
      cases h
  · cases h

theorem readServerAddress_error (h : ¬ AddressesGiven root) :
    readServerAddress root = .error .undefinedBehaviour := by
  rcases hresult : readServerAddress root with failure | address
  · obtain ⟨done, g, rest, address, -, -, hfail⟩ := foldlM_error_split hresult
    by_cases hname : g.name = "general"
    · simp only [hname, if_true] at hfail
      obtain ⟨done', e, rest', address', -, -, herror⟩ := foldlM_error_split hfail
      rw [readGeneral_error herror]
    · simp only [hname, if_false] at hfail
      cases hfail
  · refine absurd (fun g hg hname e he haddress hnone => ?_) h
    obtain ⟨_, _, hgeneral⟩ := step_of_foldlM_ok hresult hg
    simp only [hname, if_true] at hgeneral
    obtain ⟨_, _, hread⟩ := step_of_foldlM_ok hgeneral he
    rw [readGeneral, if_pos haddress, childContent, hnone] at hread
    cases hread

theorem readCatalogue_eq {doc : Document} {xmlfile : String} {files : Files φ}
    (hdoc : dom.parse (files xmlfile) = .ok doc) (huri : doc.namespaceUri = namespaceUri) :
    readCatalogue paths modes dom xmlfile files = readServerAddress doc.root >>= fun address =>
      readRegisters paths modes address (registerElements doc.root) := by
  rw [readCatalogue, createDomParser, hdoc]
  change (getRootNode doc >>= fun registerList => _) = _
  rw [getRootNode, if_pos huri]
  change (readServerAddress doc.root >>= fun address => _) = _
  refine congrArg _ (funext fun address => ?_)
  rw [readRegisters, registerElements, List.foldlM_filter]
  simp only [decide_eq_true_eq]
  rfl

/-- A catalogue has its data from numerals where all its registers have them. -/
theorem takenFrom_iff {regs : List Element} {c : OpcUaBackendRegisterCatalogue}
    (h : ReadSoFar paths modes regs c) :
    (∀ r ∈ c, ∃ reg ∈ regs, TakenFrom reg r) ↔
      ∀ reg ∈ regs, HasKnownType reg → HasNumerals reg := by
  constructor
  · intro htaken reg hreg hknown
    obtain ⟨r, hr, hstems⟩ := h.added reg hreg hknown
    obtain ⟨reg', hreg', htaken⟩ := htaken r hr
    -- the element of the numerals has the name of the register, and no other element has
    have hsame : reg' = reg := by
      by_contra hne
      have hsymm : Std.Symm fun d d' => ¬ ClashesWith paths d d' :=
        ⟨fun d d' hd hd' => hd ⟨hd'.2.1, hd'.1, hd'.2.2.symm⟩⟩
      refine h.apart.forall hreg' hreg hne ?_
      exact ⟨htaken.hasKnownType hstems hknown, hknown, by rw [← htaken.name, hstems.name]⟩
    subst hsame
    exact htaken.hasNumerals hstems.kind
  · intro hnumerals r hr
    obtain ⟨reg, hreg, hknown, hstems⟩ := h.stems r hr
    exact ⟨reg, hreg, hstems.takenFrom (hnumerals reg hreg hknown)⟩

end Documents

/-- The registers are refused before one is broken, or all are read and have numerals. -/
theorem readRegisters_accepts_iff {doc : Document} (huri : doc.namespaceUri = namespaceUri)
    (address : String) :
    AcceptsOnlyUsable (.ok doc) (readRegisters paths modes address (registerElements doc.root)) ↔
      (RefusedFirst paths modes (registerElements doc.root) ∨
        ((∀ reg ∈ registerElements doc.root,
            ¬ RegisterRefused modes reg ∧ ¬ RegisterBroken modes reg) ∧
          doc.root.name = "catalogue" ∧
          ∀ reg ∈ registerElements doc.root, HasKnownType reg → HasNumerals reg)) := by
  rcases hresult : readRegisters paths modes address (registerElements doc.root) with failure | c
  · -- any other failure is that of a broken register
    have hnone : ∀ rest : Prop, (∀ what, failure ≠ .logicError what) →
        ¬ (RefusedFirst paths modes (registerElements doc.root) ∨
          ((∀ reg ∈ registerElements doc.root,
            ¬ RegisterRefused modes reg ∧ ¬ RegisterBroken modes reg) ∧ rest)) := by
      rintro rest hne (hfirst | ⟨hread, -⟩)
      · obtain ⟨what, hwhat⟩ := readRegisters_of_refusedFirst address hfirst
        exact hne what (Except.error.inj (hresult.symm.trans hwhat))
      · rcases readRegisters_of_read paths address hread with
          ⟨c, hc⟩ | ⟨what, hwhat⟩
        · cases hresult.symm.trans hc
        · exact hne what (Except.error.inj (hresult.symm.trans hwhat))
    cases failure with
    | logicError what => exact iff_of_true trivial (.inl (refusedFirst_of_error hresult))
    | standard error => exact iff_of_false (fun h => h) (hnone _ (by simp))
    | undefinedBehaviour => exact iff_of_false (fun h => h) (hnone _ (by simp))
  · have hread := readSoFar_of_ok hresult
    have hfirst : ¬ RefusedFirst paths modes (registerElements doc.root) := by
      intro hfirst
      obtain ⟨what, hwhat⟩ := readRegisters_of_refusedFirst address hfirst
      cases hresult.symm.trans hwhat
    rw [or_iff_right hfirst, and_iff_right hread.read, ← takenFrom_iff hread]
    constructor
    · rintro ⟨_, ⟨⟩, hname, -, htaken⟩
      exact ⟨hname, htaken⟩
    · rintro ⟨hname, htaken⟩
      exact ⟨doc, rfl, hname, huri, htaken⟩

/-- **The reader accepts only what it can use, or throws the exception that is handled, for these
documents and no others.** -/
theorem readCatalogue_accepts_iff (paths : RegisterPaths) (modes : AccessModeTexts) (dom : Dom φ)
    (xmlfile : String) (files : Files φ) :
    AcceptsOnlyUsable (dom.parse (files xmlfile)) (readCatalogue paths modes dom xmlfile files) ↔
      ∀ doc, dom.parse (files xmlfile) = .ok doc → IsUsableDocument paths modes doc := by
  rcases hdoc : dom.parse (files xmlfile) with what | doc
  · -- a file that is no document is refused
    rw [readCatalogue, createDomParser, hdoc]
    exact iff_of_true trivial (by simp)
  have hall : (∀ d, Except.ok doc = (Except.ok d : Except String Document) →
      IsUsableDocument paths modes d) ↔ IsUsableDocument paths modes doc :=
    ⟨fun h => h doc rfl, by rintro h _ ⟨⟩; exact h⟩
  rw [hall, IsUsableDocument]
  by_cases huri : doc.namespaceUri = namespaceUri
  · rw [readCatalogue_eq hdoc huri]
    simp only [huri, true_imp_iff]
    by_cases haddress : AddressesGiven doc.root
    · obtain ⟨address, hok⟩ := readServerAddress_ok haddress
      rw [hok, and_iff_right haddress]
      exact readRegisters_accepts_iff huri address
    · rw [readServerAddress_error haddress]
      exact iff_of_false (fun h => h) fun h => haddress h.1
  · rw [readCatalogue, createDomParser, hdoc]
    change AcceptsOnlyUsable _ (getRootNode doc >>= fun registerList => _) ↔ _
    rw [getRootNode, if_neg huri]
    exact iff_of_true trivial fun h => absurd h huri

/-- A register without any field: its variables are used without a value. -/
theorem not_acceptsOnlyUsable_empty :
    ¬ AcceptsOnlyUsable
      (Dom.tree.parse (some (some ⟨namespaceUri, ⟨"catalogue", 1, [.element "register" 2 []]⟩⟩)))
      (readCatalogue slashPaths flagTexts Dom.tree "cache.xml" fun _ =>
        some (some ⟨namespaceUri, ⟨"catalogue", 1, [.element "register" 2 []]⟩⟩)) := by
  have hresult : readCatalogue slashPaths flagTexts Dom.tree "cache.xml" (fun _ =>
      some (some ⟨namespaceUri, ⟨"catalogue", 1, [.element "register" 2 []]⟩⟩))
        = .error .undefinedBehaviour := by
    rfl
  rw [hresult]
  exact fun h => h

end OpcUaBackend
