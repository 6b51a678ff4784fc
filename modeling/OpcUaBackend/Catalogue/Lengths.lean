import OpcUaBackend.Catalogue.Isolation
import OpcUaBackend.Catalogue.RoundTrip

/-!
# The lengths of ranges

An entry of a map file may have an index range, and its length is then that of the range.
`addCatalogueEntry` computes it from the text alone: it is the last index less the first, whatever
the length of the array is, of a dimension that a text which is no range does not have. A scalar
has the length one with any range.

The function of the client library that copies a range out of a value is a parameter, as far as
the number of elements goes that it yields.

## Main definitions

* `CopyRange.Documented`: what the function of the library does
* `AdmitsRange`: an entry is added if its range can be copied, with the length of what is copied
* `FitsRange`, `FitsEntry`: the ranges, values and entries for which this is so

## Main results

* `addNamedEntry_cases`: what an entry with a value ends in
* `admitsRange_iff`: entries are admitted as they should be for these ranges and values
-/

namespace OpcUaBackend

/-- `UA_Variant_copyRange`: the number of elements that it yields of a value. -/
abbrev CopyRange := ValueShape → List RangeDimension → Except UA_StatusCode Nat

/-- The last index is cut off at the end of the array; the first one has to lie in it. Of a scalar,
which has to be a string, a scalar is copied. -/
structure CopyRange.Documented (copyRange : CopyRange) : Prop where
  array : ∀ n d, d.min ≤ d.max → d.min < n →
    copyRange (.array n) [d] = .ok (min d.max (n - 1) - d.min + 1)
  outside : ∀ n d, n ≤ d.min ∨ d.max < d.min → ∃ status, copyRange (.array n) [d] = .error status
  scalar : ∀ dimensions n, copyRange .scalar dimensions = .ok n → n = 1

section Ranges

variable (b : CatalogueSource) (copyRange : CopyRange) (range : String) (shape : ValueShape)
  (node : UA_NodeId) (nodeName : Option String)

/-- The text is a range of one dimension, which can be copied out of the value. -/
def IsAdmissible : Prop :=
  ∃ d n, b.numericRange range = [d] ∧ copyRange shape [d] = .ok n

/-- An entry is added only if its range can be copied, and has the length of what is copied.
Otherwise nothing happens. -/
def AdmitsRange : Prop :=
  ∀ answers : NodeAnswers, answers.value = .ok shape → ∀ c,
    (IsAdmissible b copyRange range shape →
      addCatalogueEntry b answers node nodeName range c ≠ .error .undefinedBehaviour ∧
      ∀ c', addCatalogueEntry b answers node nodeName range c = .ok c' → c' = c ∨
        ∃ r, c' = c ++ [r] ∧ copyRange shape (b.numericRange range) = .ok r.arrayLength) ∧
    (¬ IsAdmissible b copyRange range shape →
      addCatalogueEntry b answers node nodeName range c = .ok c)

/-- The range of a scalar can be copied. That of an array has no dimension too few: if it has one,
this lies in the array, and is not all that 32 bits can index. -/
def FitsRange : Prop :=
  match shape with
  | .scalar => IsAdmissible b copyRange range .scalar
  | .array arrayLength =>
    arrayLength ≠ 0 →
      match b.numericRange range with
      | [] => False
      | [d] => d.min ≤ d.max ∧ d.max < arrayLength ∧ d.max - d.min + 1 < 2 ^ 32
      | _ => True

/-- The range fits; where no name can be made, which is found out first, it can be copied. -/
structure FitsEntry : Prop where
  fits : ¬ Nameless node nodeName → FitsRange b copyRange range shape
  nameless : Nameless node nodeName → IsAdmissible b copyRange range shape

end Ranges

section Cases

variable {b : CatalogueSource} {copyRange : CopyRange} {range : String} {shape : ValueShape}
  {answers : NodeAnswers} {node : UA_NodeId} {nodeName : Option String}
  {c c' : OpcUaBackendRegisterCatalogue}

/-- An entry is left out, or breaks, or gives a register of its length. -/
theorem addNamedEntry_cases (hvalue : answers.value = .ok shape) (node : UA_NodeId) (name : String)
    (c : OpcUaBackendRegisterCatalogue) :
    addNamedEntry b answers node name range c = .ok c ∨
    (entryLength b range shape = .error .undefinedBehaviour ∧
      addNamedEntry b answers node name range c = .error .undefinedBehaviour) ∨
    ∃ arrayLength r, entryLength b range shape = .ok (some arrayLength) ∧
      r.arrayLength = arrayLength ∧ addNamedEntry b answers node name range c
        = (addRegister b.paths r c).mapError .logicError := by
  by_cases hbreaks : answers.Breaks b range
  · obtain ⟨shape', hshape', hlength⟩ := hbreaks.value
    obtain rfl := Except.ok.inj (hvalue.symm.trans hshape')
    exact .inr (.inl ⟨hlength, addNamedEntry_breaks hbreaks c⟩)
  by_cases husable : answers.Usable b range
  · obtain ⟨dataType, hdataType, hlow, hhigh⟩ := husable.dataType
    obtain ⟨shape', arrayLength, hshape', hlength⟩ := husable.value
    obtain ⟨accessLevel, haccess⟩ := husable.accessLevel
    obtain rfl := Except.ok.inj (hvalue.symm.trans hshape')
    obtain ⟨r, -, hr, hall⟩ :=
      addNamedEntry_of_length hdataType hlow hhigh hvalue hlength haccess node name
    exact .inr (.inr ⟨arrayLength, r, hlength, hr, hall c⟩)
  · exact .inl (addNamedEntry_unusable husable hbreaks c)

/-- Answers of a server that let an entry be added. -/
def goodAnswers (shape : ValueShape) : NodeAnswers := ⟨.ok 6, .ok "", .ok shape, .ok 0⟩

/-- An entry with a name and a length is added to an empty catalogue. -/
theorem addCatalogueEntry_good {arrayLength : Nat} (hnamed : ¬ Nameless node nodeName)
    (hlength : entryLength b range shape = .ok (some arrayLength)) :
    ∃ r, r.arrayLength = arrayLength ∧
      addCatalogueEntry b (goodAnswers shape) node nodeName range [] = .ok [r] := by
  obtain ⟨name, -, hname⟩ := exists_addNamedEntry (b := b) hnamed
  have hdataType : (goodAnswers shape).dataType = .ok 6 := rfl
  obtain ⟨r, -, hr, hall⟩ :=
    addNamedEntry_of_length hdataType (by decide) (by decide) rfl hlength rfl node name
  refine ⟨r, hr, ?_⟩
  rw [hname, hall, addRegister_new (by simp)]
  rfl

theorem goodAnswers_breaks (hlength : entryLength b range shape = .error .undefinedBehaviour) :
    (goodAnswers shape).Breaks b range :=
  ⟨⟨6, rfl, by decide, by decide⟩, shape, rfl, hlength⟩

/-! ## One dimension -/

theorem entryLength_of_dimension {d : RangeDimension} {n : Nat} (hn : n ≠ 0) (hrange : range ≠ "")
    (hd : b.numericRange range = [d]) : entryLength b range (.array n)
      = .ok (some ((d.max + 2 ^ 32 - d.min + 1) % 2 ^ 32)) := by
  rw [entryLength, if_neg hn, if_neg hrange, hd]

/-- A range that fits can be copied, and its length is that of what is copied. -/
theorem FitsRange.length (h : FitsRange b copyRange range shape) (hcopy : copyRange.Documented)
    (hrange : range ≠ "") {arrayLength : Nat}
    (hlength : entryLength b range shape = .ok (some arrayLength)) :
    ∃ d, b.numericRange range = [d] ∧ copyRange shape [d] = .ok arrayLength := by
  cases shape with
  | scalar =>
    obtain ⟨d, n, hd, hn⟩ := h
    obtain rfl := hcopy.scalar _ _ hn
    obtain rfl : 1 = arrayLength := Option.some.inj (Except.ok.inj hlength)
    exact ⟨d, hd, hn⟩
  | array n =>
    by_cases hzero : n = 0
    · rw [entryLength, if_pos hzero] at hlength
      cases hlength
    have hfits := h hzero
    rw [entryLength, if_neg hzero, if_neg hrange] at hlength
    rcases hd : b.numericRange range with - | ⟨d, - | ⟨d', rest⟩⟩
    · rw [hd] at hlength
      cases hlength
    · rw [hd] at hlength hfits
      obtain ⟨hle, hlt, hbits⟩ := hfits
      obtain rfl := Option.some.inj (Except.ok.inj hlength)
      refine ⟨d, rfl, ?_⟩
      rw [hcopy.array n d hle (by omega)]
      congr 1
      have hmin : min d.max (n - 1) = d.max := by omega
      rw [hmin]
      omega
    · rw [hd] at hlength
      cases hlength

/-- An entry with a range that fits is admitted as it should be. -/
theorem FitsRange.admits (h : FitsRange b copyRange range shape) (hcopy : copyRange.Documented)
    (hrange : range ≠ "") (hnamed : ¬ Nameless node nodeName) :
    AdmitsRange b copyRange range shape node nodeName := by
  intro answers hvalue c
  obtain ⟨name, -, hname⟩ := exists_addNamedEntry (b := b) hnamed
  rw [hname]
  rcases addNamedEntry_cases hvalue node name c with
    hout | ⟨hbreaks, -⟩ | ⟨arrayLength, r, hlength, hr, hadd⟩
  · rw [hout]
    refine ⟨fun _ => ⟨by simp, ?_⟩, fun _ => rfl⟩
    rintro _ ⟨⟩
    exact .inl rfl
  · -- only a text without a dimension breaks
    cases shape with
    | scalar => cases hbreaks
    | array n =>
      by_cases hzero : n = 0
      · rw [entryLength, if_pos hzero] at hbreaks
        cases hbreaks
      · have hfits := h hzero
        rw [entryLength, if_neg hzero, if_neg hrange] at hbreaks
        rcases hd : b.numericRange range with - | ⟨d, - | ⟨d', rest⟩⟩
        · rw [hd] at hfits
          exact hfits.elim
        · rw [hd] at hbreaks
          cases hbreaks
        · rw [hd] at hbreaks
          cases hbreaks
  · obtain ⟨d, hd, hcopied⟩ := h.length hcopy hrange hlength
    rw [hadd]
    refine ⟨fun _ => ?_, fun hnot => absurd ⟨d, arrayLength, hd, hcopied⟩ hnot⟩
    rcases hregister : addRegister b.paths r c with what | c'
    · exact ⟨by simp [Except.mapError], fun c' hc' => by cases hc'⟩
    · refine ⟨by simp [Except.mapError], ?_⟩
      rintro _ ⟨⟩
      exact .inr ⟨r, (addRegister_ok_iff.mp hregister).2, by rw [hd, hr, hcopied]⟩

/-- An entry that is admitted as it should be has a range that fits. -/
theorem AdmitsRange.fits (h : AdmitsRange b copyRange range shape node nodeName)
    (hcopy : copyRange.Documented) (hrange : range ≠ "") (hnamed : ¬ Nameless node nodeName)
    (hbits : ∀ d ∈ b.numericRange range, d.min < 2 ^ 32 ∧ d.max < 2 ^ 32) :
    FitsRange b copyRange range shape := by
  have hcall := h (goodAnswers shape) rfl []
  -- an entry that is added has a range that can be copied
  have hadmissible : ∀ {arrayLength}, entryLength b range shape = .ok (some arrayLength) →
      IsAdmissible b copyRange range shape ∧
        copyRange shape (b.numericRange range) = .ok arrayLength := by
    intro arrayLength hlength
    obtain ⟨r, hr, hadd⟩ := addCatalogueEntry_good hnamed hlength
    by_cases hcan : IsAdmissible b copyRange range shape
    · rcases (hcall.1 hcan).2 _ hadd with hnil | ⟨r', hr', hcopied⟩
      · cases hnil
      · obtain rfl := List.singleton_inj.mp hr'
        exact ⟨hcan, hr ▸ hcopied⟩
    · cases hadd.symm.trans (hcall.2 hcan)
  cases shape with
  | scalar => exact (hadmissible rfl).1
  | array n =>
    intro hzero
    rcases hd : b.numericRange range with - | ⟨d, - | ⟨d', rest⟩⟩
    · -- the missing dimension is used
      have hbreaks : (goodAnswers (.array n)).Breaks b range :=
        goodAnswers_breaks (by rw [entryLength, if_neg hzero, if_neg hrange, hd])
      have hnot : ¬ IsAdmissible b copyRange range (.array n) := by
        rintro ⟨d, n, hone, -⟩
        cases hd.symm.trans hone
      cases (addCatalogueEntry_breaks hnamed hbreaks).symm.trans (hcall.2 hnot)
    · have hcopied := (hadmissible (entryLength_of_dimension hzero hrange hd)).2
      rw [hd] at hcopied
      obtain ⟨hmin, hmax⟩ := hbits d (hd ▸ List.mem_singleton_self _)
      have hinside : ¬ (n ≤ d.min ∨ d.max < d.min) := by
        intro hout
        obtain ⟨status, hfail⟩ := hcopy.outside n d hout
        cases hfail.symm.trans hcopied
      rw [hcopy.array n d (by omega) (by omega)] at hcopied
      have hlength := Except.ok.inj hcopied
      refine ⟨by omega, ?_, ?_⟩ <;> omega
    · exact trivial

end Cases

/-- **Entries with a range are admitted as they should be if and only if the range fits the
value.** -/
theorem admitsRange_iff {b : CatalogueSource} {copyRange : CopyRange}
    (hcopy : copyRange.Documented) {range : String} (hrange : range ≠ "")
    (hbits : ∀ d ∈ b.numericRange range, d.min < 2 ^ 32 ∧ d.max < 2 ^ 32) (shape : ValueShape)
    (node : UA_NodeId) (nodeName : Option String) :
    AdmitsRange b copyRange range shape node nodeName
      ↔ FitsEntry b copyRange range shape node nodeName := by
  constructor
  · intro h
    refine ⟨fun hnamed => h.fits hcopy hrange hnamed hbits, fun hnameless => ?_⟩
    by_contra hnot
    cases (addCatalogueEntry_nameless hnameless).symm.trans ((h (goodAnswers shape) rfl []).2 hnot)
  · intro h
    by_cases hnameless : Nameless node nodeName
    · intro answers hvalue c
      rw [addCatalogueEntry_nameless hnameless]
      refine ⟨fun _ => ⟨by simp, ?_⟩, fun hnot => absurd (h.nameless hnameless) hnot⟩
      rintro _ ⟨⟩
    · exact (h.fits hnameless).admits hcopy hrange hnameless

/-! ## The range "2:5" -/

/-- Arrays are cut off, and no scalar is a string. -/
def cutRange : CopyRange
  | .array n, [d] =>
    if d.min ≤ d.max ∧ d.min < n then .ok (min d.max (n - 1) - d.min + 1)
    else .error ⟨0x80370000, "BadIndexRangeNoData"⟩
  | _, _ => .error ⟨0x80360000, "BadIndexRangeInvalid"⟩

theorem cutRange_documented : cutRange.Documented where
  array n d hle hlt := if_pos ⟨hle, hlt⟩
  outside n d hout := by
    refine ⟨⟨0x80370000, "BadIndexRangeNoData"⟩, if_neg ?_⟩
    omega
  scalar dimensions n hn := by cases hn

/-- The range "2:5" is known to the library, and no other text is a range. -/
def rangeTwoFive : CatalogueSource where
  paths := slashPaths
  numericRange range := if range = "2:5" then [⟨2, 5⟩] else []
  serverAddress := "opc.tcp://localhost:16664"
  rootNode := ""

theorem rangeTwoFive_bounds (range : String) :
    ∀ d ∈ rangeTwoFive.numericRange range, d.min < 2 ^ 32 ∧ d.max < 2 ^ 32 := by
  intro d hd
  simp only [rangeTwoFive] at hd
  split at hd
  · obtain rfl := List.mem_singleton.mp hd
    exact ⟨by decide, by decide⟩
  · cases hd

/-- In an array of eight elements. -/
theorem admitsRange_eight :
    AdmitsRange rangeTwoFive cutRange "2:5" (.array 8) ⟨1, .numeric 7⟩ (some "array") := by
  refine (admitsRange_iff cutRange_documented (by decide) (rangeTwoFive_bounds _) _ _ _).mpr ?_
  refine ⟨fun _ _ => ?_, fun hnameless => by cases hnameless.1⟩
  exact ⟨by decide, by decide, by decide⟩

/-- A text that is no range: its first dimension is used. -/
theorem not_admitsRange_malformed :
    ¬ AdmitsRange rangeTwoFive cutRange "2-5" (.array 8) ⟨1, .numeric 7⟩ (some "array") := by
  intro h
  have hnamed : ¬ Nameless ⟨1, .numeric 7⟩ (some "array") := by simp [Nameless]
  have hcall := h (goodAnswers (.array 8)) rfl []
  have hnot : ¬ IsAdmissible rangeTwoFive cutRange "2-5" (.array 8) := by
    rintro ⟨d, n, hd, -⟩
    cases hd
  have hbreaks : (goodAnswers (.array 8)).Breaks rangeTwoFive "2-5" :=
    goodAnswers_breaks (by rfl)
  cases (addCatalogueEntry_breaks hnamed hbreaks).symm.trans (hcall.2 hnot)

end OpcUaBackend
