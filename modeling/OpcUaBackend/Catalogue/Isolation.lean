import Mathlib.Data.List.Induction
import OpcUaBackend.Catalogue.MapFile

/-!
# Map file entries that do not stop each other

The first element for which `addCatalogueEntry` throws ends the loop over the elements, and the
rest of the file is left to the legacy parser. So the registers of later elements are missing,
unless they have names that are taken already.

## Main definitions

* `Stops`: an element at which the loop ends
* `Isolated`: every usable element has a register, and the legacy parser adds none
* `Isolable`: when this is so

## Main results

* `isolated_iff`: the two are the same
-/

namespace OpcUaBackend

open Foundation

/-! ## Names -/

/-- No name is given, and none can be made. -/
def Nameless (node : UA_NodeId) (nodeName : Option String) : Prop :=
  nodeName = none ∧ node.identifier = .string ""

/-- The register name of a node with or without a given name. -/
def entryPath (b : CatalogueSource) (node : UA_NodeId) (nodeName : Option String) : String :=
  nodeName.elim (entryName b node) b.paths.registerPath

/-- The catalogue has a register of this name. -/
def HasRegister (b : CatalogueSource) (c : OpcUaBackendRegisterCatalogue) (path : String) : Prop :=
  ∃ info ∈ c, info.getRegisterName b.paths = path

section Entry

variable {b : CatalogueSource} {answers : NodeAnswers} {node : UA_NodeId}
  {nodeName : Option String} {range : String} {c c' : OpcUaBackendRegisterCatalogue}

theorem addCatalogueEntry_nameless (h : Nameless node nodeName) :
    addCatalogueEntry b answers node nodeName range c = .error .outOfRange := by
  obtain ⟨rfl, hnode⟩ := h
  rw [addCatalogueEntry, localNodeName_eq_error hnode]
  rfl

theorem exists_addNamedEntry (h : ¬ Nameless node nodeName) :
    ∃ name, b.paths.registerPath name = entryPath b node nodeName ∧ ∀ answers range c,
      addCatalogueEntry b answers node nodeName range c
        = addNamedEntry b answers node name range c := by
  cases nodeName with
  | some name => exact ⟨name, rfl, fun _ _ _ => rfl⟩
  | none =>
    obtain ⟨name, hname⟩ := exists_localNodeName (b := b) fun hnode => h ⟨rfl, hnode⟩
    refine ⟨name, ?_, fun answers range c => ?_⟩
    · rw [entryPath, Option.elim_none, entryName, hname]
    · rw [addCatalogueEntry, hname]
      rfl

/-- A node that has a name and is usable gives a register under its name. -/
theorem addCatalogueEntry_usable (h : ¬ Nameless node nodeName)
    (husable : answers.Usable b range) :
    ∃ entry : OpcUABackendRegisterInfo,
      entry.getRegisterName b.paths = entryPath b node nodeName ∧ ∀ c,
      addCatalogueEntry b answers node nodeName range c
        = (addRegister b.paths entry c).mapError .logicError := by
  obtain ⟨name, hpath, hadd⟩ := exists_addNamedEntry (b := b) h
  obtain ⟨entry, hbrowse, hentry⟩ := addNamedEntry_usable husable node name
  refine ⟨entry, ?_, fun c => (hadd _ _ c).trans (hentry c)⟩
  rw [OpcUABackendRegisterInfo.getRegisterName, hbrowse, hpath]

theorem addCatalogueEntry_breaks (h : ¬ Nameless node nodeName) (hbreaks : answers.Breaks b range) :
    addCatalogueEntry b answers node nodeName range c = .error .undefinedBehaviour := by
  obtain ⟨name, -, hadd⟩ := exists_addNamedEntry (b := b) h
  rw [hadd, addNamedEntry_breaks hbreaks]

theorem addCatalogueEntry_unusable (h : ¬ Nameless node nodeName)
    (husable : ¬ answers.Usable b range) (hbreaks : ¬ answers.Breaks b range) :
    addCatalogueEntry b answers node nodeName range c = .ok c := by
  obtain ⟨name, -, hadd⟩ := exists_addNamedEntry (b := b) h
  rw [hadd, addNamedEntry_unusable husable hbreaks]

theorem addRegister_hasRegister {entry : OpcUABackendRegisterInfo}
    (h : HasRegister b c (entry.getRegisterName b.paths)) :
    ∃ message, addRegister b.paths entry c = .error message := by
  obtain ⟨info, hmem, hname⟩ := h
  cases hadd : addRegister b.paths entry c with
  | error message => exact ⟨message, rfl⟩
  | ok c' => exact absurd hname ((addRegister_ok_iff.mp hadd).1 info hmem)

theorem addRegister_not_hasRegister {entry : OpcUABackendRegisterInfo}
    (h : ¬ HasRegister b c (entry.getRegisterName b.paths)) :
    addRegister b.paths entry c = .ok (c ++ [entry]) :=
  addRegister_new fun info hmem hname => h ⟨info, hmem, hname⟩

theorem hasRegister_append {entry : OpcUABackendRegisterInfo} {path : String} :
    HasRegister b (c ++ [entry]) path
      ↔ HasRegister b c path ∨ entry.getRegisterName b.paths = path := by
  simp [HasRegister, or_and_right, exists_or]

theorem addCatalogueEntry_ne_invalidArgument :
    addCatalogueEntry b answers node nodeName range c ≠ .error .invalidArgument := by
  by_cases hname : Nameless node nodeName
  · rw [addCatalogueEntry_nameless hname]
    simp
  · by_cases husable : answers.Usable b range
    · obtain ⟨entry, -, hadd⟩ := addCatalogueEntry_usable hname husable
      rw [hadd]
      cases addRegister b.paths entry c <;> simp [Except.mapError]
    · by_cases hbreaks : answers.Breaks b range
      · rw [addCatalogueEntry_breaks hname hbreaks]
        simp
      · rw [addCatalogueEntry_unusable hname husable hbreaks]
        simp

end Entry

/-! ## The loop over the elements -/

abbrev MapElement.path (b : CatalogueSource) (element : MapElement) : String :=
  entryPath b element.node element.nodeName

section Elements

variable (b : CatalogueSource) (c : OpcUaBackendRegisterCatalogue)

/-- The name is that of a register of the catalogue or of a usable element. -/
def Taken (done : List (MapElement × NodeAnswers)) (path : String) : Prop :=
  HasRegister b c path ∨ ∃ r ∈ done, r.2.Usable b r.1.range ∧ r.1.path b = path

/-- The loop ends at the element, when it has gone over those before it: a name cannot be made,
the text is not a range, or the name is taken. -/
inductive Stops (done : List (MapElement × NodeAnswers)) (r : MapElement × NodeAnswers) : Prop
  | nameless : Nameless r.1.node r.1.nodeName → Stops done r
  | breaks : r.2.Breaks b r.1.range → Stops done r
  | taken : r.2.Usable b r.1.range → Taken b c done (r.1.path b) → Stops done r

/-- The loop goes over all the elements. -/
def GoesOver (elements : List (MapElement × NodeAnswers)) : Prop :=
  ∀ done r rest, elements = done ++ r :: rest → ¬ Stops b c done r

variable {b c} {c' : OpcUaBackendRegisterCatalogue} {done : List (MapElement × NodeAnswers)}
  {r : MapElement × NodeAnswers}

theorem addElement_stops (htaken : ∀ path, HasRegister b c' path ↔ Taken b c done path)
    (h : Stops b c done r) : ∃ failure, addElement b c' r = .error failure := by
  by_cases hname : Nameless r.1.node r.1.nodeName
  · exact ⟨_, addCatalogueEntry_nameless hname⟩
  · cases h with
    | nameless h => exact absurd h hname
    | breaks h => exact ⟨_, addCatalogueEntry_breaks hname h⟩
    | taken husable h =>
      obtain ⟨entry, hpath, hadd⟩ := addCatalogueEntry_usable (b := b) hname husable
      have hregister : HasRegister b c' (entry.getRegisterName b.paths) :=
        hpath ▸ (htaken _).mpr h
      obtain ⟨message, herror⟩ := addRegister_hasRegister hregister
      refine ⟨.logicError message, ?_⟩
      rw [addElement, hadd, herror]
      rfl

/-- Undefined behaviour comes of a text that is not a range only. -/
theorem addElement_undefinedBehaviour :
    addElement b c' r = .error .undefinedBehaviour
      ↔ r.2.Breaks b r.1.range ∧ ¬ Nameless r.1.node r.1.nodeName := by
  by_cases hname : Nameless r.1.node r.1.nodeName
  · rw [addElement, addCatalogueEntry_nameless hname]
    simp [hname]
  · by_cases hbreaks : r.2.Breaks b r.1.range
    · exact iff_of_true (addCatalogueEntry_breaks hname hbreaks) ⟨hbreaks, hname⟩
    · refine iff_of_false ?_ fun h => hbreaks h.1
      by_cases husable : r.2.Usable b r.1.range
      · obtain ⟨entry, -, hadd⟩ := addCatalogueEntry_usable (b := b) hname husable
        rw [addElement, hadd]
        cases addRegister b.paths entry c' <;> simp [Except.mapError]
      · rw [addElement, addCatalogueEntry_unusable hname husable hbreaks]
        simp

theorem addElement_goes (htaken : ∀ path, HasRegister b c' path ↔ Taken b c done path)
    (h : ¬ Stops b c done r) : ∃ c'', addElement b c' r = .ok c'' ∧
      ∀ path, HasRegister b c'' path ↔ Taken b c (done ++ [r]) path := by
  have hname : ¬ Nameless r.1.node r.1.nodeName := fun hname => h (.nameless hname)
  have hsplit : ∀ path, Taken b c (done ++ [r]) path
      ↔ HasRegister b c' path ∨ r.2.Usable b r.1.range ∧ r.1.path b = path := by
    intro path
    rw [htaken]
    simp only [Taken, List.mem_append, List.mem_singleton, or_and_right, exists_or,
      exists_eq_left, or_assoc]
  by_cases husable : r.2.Usable b r.1.range
  · obtain ⟨entry, hpath, hadd⟩ := addCatalogueEntry_usable (b := b) hname husable
    have hnew : ¬ HasRegister b c' (entry.getRegisterName b.paths) := by
      intro hregister
      rw [hpath] at hregister
      exact h (.taken husable ((htaken _).mp hregister))
    refine ⟨c' ++ [entry], ?_, fun path => ?_⟩
    · rw [addElement, hadd, addRegister_not_hasRegister hnew]
      rfl
    · rw [hsplit, hasRegister_append, hpath]
      simp [husable]
  · have hbreaks : ¬ r.2.Breaks b r.1.range := fun hbreaks => h (.breaks hbreaks)
    refine ⟨c', addCatalogueEntry_unusable hname husable hbreaks, fun path => ?_⟩
    rw [hsplit]
    simp [husable]

/-- Where the loop has gone over all elements, the catalogue has the names of the usable ones. -/
theorem foldlM_taken {elements : List (MapElement × NodeAnswers)}
    (h : elements.foldlM (addElement b) c = .ok c') :
    GoesOver b c elements ∧ ∀ path, HasRegister b c' path ↔ Taken b c elements path := by
  induction elements using List.reverseRecOn generalizing c' with
  | nil =>
    obtain rfl := Except.ok.inj h
    refine ⟨fun done r rest h => ?_, fun path => ?_⟩
    · simp at h
    · simp [Taken]
  | append_singleton done r ih =>
    obtain ⟨c₁, hfold, hadd⟩ := foldlM_concat_iff.mp h
    obtain ⟨hdone, htaken⟩ := ih hfold
    have hgoes : ¬ Stops b c done r := by
      intro hstops
      obtain ⟨failure, herror⟩ := addElement_stops htaken hstops
      simp [hadd] at herror
    constructor
    · intro done' r' rest hsplit
      rcases List.eq_nil_or_concat rest with rfl | ⟨rest, r'', rfl⟩
      · obtain ⟨rfl, rfl⟩ := List.append_singleton_inj.mp hsplit
        exact hgoes
      · rw [List.concat_eq_append, ← List.cons_append, ← List.append_assoc] at hsplit
        exact hdone done' r' rest (List.append_inj_left' hsplit rfl)
    · obtain ⟨c'', hadd', htaken'⟩ := addElement_goes htaken hgoes
      obtain rfl := Except.ok.inj (hadd.symm.trans hadd')
      exact htaken'

theorem GoesOver.foldlM {elements : List (MapElement × NodeAnswers)} (h : GoesOver b c elements) :
    ∃ c', elements.foldlM (addElement b) c = .ok c' := by
  induction elements using List.reverseRecOn with
  | nil => exact ⟨c, rfl⟩
  | append_singleton done r ih =>
    have hdone : GoesOver b c done := by
      rintro done' r' rest rfl
      exact h done' r' (rest ++ [r]) (by simp)
    obtain ⟨c', hfold⟩ := ih hdone
    obtain ⟨c'', hadd, -⟩ := addElement_goes (foldlM_taken hfold).2 (h done r [] rfl)
    exact ⟨c'', foldlM_concat_iff.mpr ⟨c', hfold, hadd⟩⟩

end Elements

/-! ## The lines of the legacy parser -/

/-- The legacy parser makes no entry of the line. -/
def NoEntry (b : CatalogueSource) (entry : List Char × NodeAnswers) : Prop :=
  ∀ node nodeName, lineEntry b.rootNode entry.1 = some (node, nodeName) →
    ¬ Nameless node nodeName → ¬ entry.2.Usable b ""

section Lines

variable {b : CatalogueSource} {c c' : OpcUaBackendRegisterCatalogue}
  {entry : List Char × NodeAnswers}

theorem addLine_noEntry (h : NoEntry b entry) (c : OpcUaBackendRegisterCatalogue) :
    addLine b c entry = .ok c := by
  rw [addLine, legacyLine_eq fun _ _ _ => addCatalogueEntry_ne_invalidArgument]
  cases hentry : lineEntry b.rootNode entry.1 with
  | none => rfl
  | some call =>
    obtain ⟨node, nodeName⟩ := call
    by_cases hname : Nameless node nodeName
    · simp only [addCatalogueEntry_nameless hname]
      rfl
    · simp only [addCatalogueEntry_unusable hname (h node nodeName hentry hname)
        (not_breaks_empty _)]
      rfl

theorem addLine_entry (h : ¬ NoEntry b entry) : ∃ register, ∀ c,
    addLine b c entry = (addRegister b.paths register c).mapError .logicError := by
  unfold NoEntry at h
  push Not at h
  obtain ⟨node, nodeName, hentry, hname, husable⟩ := h
  obtain ⟨register, -, hadd⟩ := addCatalogueEntry_usable (b := b) hname husable
  refine ⟨register, fun c => ?_⟩
  rw [addLine, legacyLine_eq fun _ _ _ => addCatalogueEntry_ne_invalidArgument, hentry]
  simp only [hadd]
  cases addRegister b.paths register c <;> rfl

theorem addLine_grows (h : addLine b c entry = .ok c') : c' = c ∨ c.length < c'.length := by
  by_cases hnone : NoEntry b entry
  · exact .inl (Except.ok.inj ((addLine_noEntry hnone c).symm.trans h)).symm
  · obtain ⟨register, hadd⟩ := addLine_entry hnone
    rw [hadd] at h
    cases hregister : addRegister b.paths register c with
    | error message => simp [hregister, Except.mapError] at h
    | ok c₁ =>
      obtain ⟨-, rfl⟩ := addRegister_ok_iff.mp hregister
      rw [hregister] at h
      obtain rfl := Except.ok.inj h
      simp

/-- The legacy parser leaves the catalogue as it is. -/
theorem addLines_eq_self_iff {answers : Nat → NodeAnswers} {file : MapFile} :
    addLines b answers file c = (c, none) ↔
      ∃ text, file.text = some text ∧ ∀ entry ∈ withAnswers answers (lines text),
        NoEntry b entry := by
  unfold addLines
  cases file.text with
  | none => simp
  | some text =>
    simp only [Option.some.injEq, exists_eq_left']
    rw [foldUntil_eq_self_iff List.length fun _ _ _ => addLine_grows]
    refine forall₂_congr fun entry _ => ⟨fun h => ?_, fun h => addLine_noEntry h c⟩
    by_contra hnone
    obtain ⟨register, hadd⟩ := addLine_entry hnone
    rw [hadd] at h
    cases hregister : addRegister b.paths register c with
    | error message => simp [hregister, Except.mapError] at h
    | ok c₁ =>
      obtain ⟨-, rfl⟩ := addRegister_ok_iff.mp hregister
      simp [hregister, Except.mapError] at h

end Lines

/-! ## Isolation -/

section Isolation

variable (b : CatalogueSource) (answers legacyAnswers : Nat → NodeAnswers) (file : MapFile)
  (c : OpcUaBackendRegisterCatalogue) (elements : List MapElement)

/-- Every usable element has a register under its name in the catalogue that is left, to which
the legacy parser has not added anything; the function returns, or throws as there is no
register. -/
structure Isolated : Prop where
  registered : ∀ r ∈ withAnswers answers elements, r.2.Usable b r.1.range →
    HasRegister b (getNodesFromMapfile b answers legacyAnswers file c).1 (r.1.path b)
  legacy : (getNodesFromMapfile b answers legacyAnswers file c).1 = (addElements b answers file c).1
  returns : (getNodesFromMapfile b answers legacyAnswers file c).2 = none ∨
    (getNodesFromMapfile b answers legacyAnswers file c).1 = [] ∧
      (getNodesFromMapfile b answers legacyAnswers file c).2 = some (noElements file)

/-- No element stops the loop; or from the first one on that does, with an exception, every usable
element has a name that is taken, and the legacy parser finds no entry in the text. -/
inductive Isolable : Prop
  | runs : GoesOver b c (withAnswers answers elements) → Isolable
  | covered {done : List (MapElement × NodeAnswers)} {r : MapElement × NodeAnswers}
      {rest : List (MapElement × NodeAnswers)} :
      withAnswers answers elements = done ++ r :: rest → GoesOver b c done → Stops b c done r →
      ¬ (r.2.Breaks b r.1.range ∧ ¬ Nameless r.1.node r.1.nodeName) →
      (∀ r' ∈ r :: rest, r'.2.Usable b r'.1.range → Taken b c done (r'.1.path b)) →
      (∃ text, file.text = some text ∧ ∀ entry ∈ withAnswers legacyAnswers (lines text),
        NoEntry b entry) → Isolable

variable {b answers legacyAnswers file c elements} {c' : OpcUaBackendRegisterCatalogue}

theorem addElements_eq (hread : readMapFile b.rootNode file = .ok elements)
    (hne : elements ≠ []) : addElements b answers file c
      = foldUntil (addElement b) c (withAnswers answers elements) := by
  obtain ⟨element, rest, rfl⟩ := List.exists_cons_of_ne_nil hne
  rw [addElements, hread]

theorem addLines_ne_noElements {c₁ : OpcUaBackendRegisterCatalogue} :
    addLines b legacyAnswers file c' ≠ (c₁, some (noElements file)) := by
  unfold addLines
  cases file.text with
  | none =>
    intro h
    have hmessage : "Failed reading opcua mapfile: " ++ file.path
        = "No elements added to the catalogue from the map file: " ++ file.path := by
      simpa [noElements] using (Prod.mk.inj h).2
    have hlength := congrArg String.length hmessage
    simp only [String.length_append, Nat.add_right_cancel_iff] at hlength
    exact absurd hlength (by decide)
  | some text =>
    rcases foldUntil_cases (addLine b) c' (withAnswers legacyAnswers (lines text)) with
      ⟨c₂, -, heq⟩ | ⟨_, entry, _, c₂, failure, -, -, herror, heq⟩
    · simp [heq]
    · simp only [heq]
      intro h
      obtain ⟨-, hfailure⟩ := Prod.mk.inj h
      obtain rfl := Option.some.inj hfailure
      by_cases hnone : NoEntry b entry
      · rw [addLine_noEntry hnone] at herror
        cases herror
      · obtain ⟨register, hadd⟩ := addLine_entry hnone
        rw [hadd] at herror
        cases hregister : addRegister b.paths register c₂ <;>
          simp [hregister, Except.mapError, noElements] at herror

variable (file) in
theorem checkElements_eq (c : OpcUaBackendRegisterCatalogue) :
    (checkElements file c).1 = c ∧ ((checkElements file c).2 = none ∨
      c = [] ∧ (checkElements file c).2 = some (noElements file)) := by
  unfold checkElements
  split
  · rename_i h
    exact ⟨rfl, .inr ⟨h, rfl⟩⟩
  · exact ⟨rfl, .inl rfl⟩

section Added

variable {failure : Failure}

theorem getNodesFromMapfile_done (h : addElements b answers file c = (c', none)) :
    getNodesFromMapfile b answers legacyAnswers file c = checkElements file c' := by
  rw [getNodesFromMapfile, h]

theorem getNodesFromMapfile_undefined
    (h : addElements b answers file c = (c', some .undefinedBehaviour)) :
    getNodesFromMapfile b answers legacyAnswers file c = (c', some .undefinedBehaviour) := by
  rw [getNodesFromMapfile, h]

theorem getNodesFromMapfile_legacy (h : addElements b answers file c = (c', some failure))
    (hne : failure ≠ .undefinedBehaviour) :
    getNodesFromMapfile b answers legacyAnswers file c
      = match addLines b legacyAnswers file c' with
        | (c, none) => checkElements file c
        | failed => failed := by
  rw [getNodesFromMapfile, h]
  cases failure with
  | undefinedBehaviour => exact absurd rfl hne
  | _ => rfl

end Added

theorem isolated_of_eq (hlegacy : (addElements b answers file c).1 = c')
    (heq : getNodesFromMapfile b answers legacyAnswers file c = checkElements file c')
    (hregistered : ∀ r ∈ withAnswers answers elements, r.2.Usable b r.1.range →
      HasRegister b c' (r.1.path b)) :
    Isolated b answers legacyAnswers file c elements := by
  obtain ⟨hsame, hreturns⟩ := checkElements_eq file c'
  constructor
  · intro r hr husable
    rw [heq, hsame]
    exact hregistered r hr husable
  · rw [heq, hsame, hlegacy]
  · rw [heq, hsame]
    exact hreturns

theorem Isolable.isolated (hread : readMapFile b.rootNode file = .ok elements)
    (hne : elements ≠ []) (h : Isolable b answers legacyAnswers file c elements) :
    Isolated b answers legacyAnswers file c elements := by
  have hadded : addElements b answers file c
      = foldUntil (addElement b) c (withAnswers answers elements) := addElements_eq hread hne
  cases h with
  | runs hruns =>
    obtain ⟨c', hfold⟩ := hruns.foldlM
    have hall : addElements b answers file c = (c', none) := by
      rw [hadded, ← List.append_nil (withAnswers answers elements), foldUntil_append_ok hfold]
      rfl
    refine isolated_of_eq (by rw [hall]) (getNodesFromMapfile_done hall) fun r hr husable => ?_
    exact ((foldlM_taken hfold).2 _).mpr (.inr ⟨r, hr, husable, rfl⟩)
  | @covered done r rest hsplit hruns hstops hbreaks hnames htext =>
    obtain ⟨c', hfold⟩ := hruns.foldlM
    have htaken := (foldlM_taken hfold).2
    obtain ⟨failure, herror⟩ := addElement_stops htaken hstops
    have hfirst : addElements b answers file c = (c', some failure) := by
      rw [hadded, hsplit, foldUntil_append_ok hfold, foldUntil, herror]
    have hne : failure ≠ .undefinedBehaviour := by
      rintro rfl
      exact hbreaks (addElement_undefinedBehaviour.mp herror)
    refine isolated_of_eq (by rw [hfirst]) ?_ fun r' hr' husable => (htaken _).mpr ?_
    · rw [getNodesFromMapfile_legacy hfirst hne, addLines_eq_self_iff.mpr htext]
    · rw [hsplit, List.mem_append] at hr'
      rcases hr' with hdone | hrest
      · exact .inr ⟨r', hdone, husable, rfl⟩
      · exact hnames r' hrest husable

theorem Isolated.isolable (hread : readMapFile b.rootNode file = .ok elements)
    (hne : elements ≠ []) (h : Isolated b answers legacyAnswers file c elements) :
    Isolable b answers legacyAnswers file c elements := by
  have hadded : addElements b answers file c
      = foldUntil (addElement b) c (withAnswers answers elements) := addElements_eq hread hne
  rcases foldUntil_cases (addElement b) c (withAnswers answers elements) with
    ⟨c', hfold, heq⟩ | ⟨done, r, rest, c', failure, hsplit, hfold, herror, heq⟩
  · exact .runs (foldlM_taken hfold).1
  · rw [heq] at hadded
    obtain ⟨hruns, htaken⟩ := foldlM_taken hfold
    have hstops : Stops b c done r := by
      by_contra hgoes
      obtain ⟨c'', hok, -⟩ := addElement_goes htaken hgoes
      simp [hok] at herror
    have hne : failure ≠ .undefinedBehaviour := by
      rintro rfl
      have hreturns := h.returns
      rw [getNodesFromMapfile_undefined hadded] at hreturns
      simp [noElements] at hreturns
    have hlegacy : addLines b legacyAnswers file c' = (c', none) := by
      have hsame := h.legacy
      have hreturns := h.returns
      rw [getNodesFromMapfile_legacy hadded hne] at hsame hreturns
      rw [hadded] at hsame
      rcases hlines : addLines b legacyAnswers file c' with ⟨c₁, failure'⟩
      rw [hlines] at hsame hreturns
      cases failure' with
      | none =>
        have hc : c₁ = c' := (checkElements_eq file c₁).1.symm.trans hsame
        rw [hc]
      | some failure' =>
        -- nothing that the legacy parser throws is the exception of the check at the end
        rcases hreturns with hnone | ⟨-, hsome⟩
        · cases hnone
        · obtain rfl := Option.some.inj hsome
          exact absurd hlines addLines_ne_noElements
    refine .covered hsplit hruns hstops ?_ ?_ (addLines_eq_self_iff.mp hlegacy)
    · intro hbreaks
      have hundefined : addElement b c' r = .error .undefinedBehaviour :=
        addElement_undefinedBehaviour.mpr hbreaks
      exact hne (Except.error.inj (herror.symm.trans hundefined))
    · intro r' hr' husable
      have hregistered := h.registered r' (hsplit ▸ List.mem_append_right _ hr') husable
      rw [getNodesFromMapfile_legacy hadded hne, hlegacy] at hregistered
      rw [(checkElements_eq file c').1] at hregistered
      exact (htaken _).mp hregistered

/-- **Map file entries do not stop each other exactly when the condition holds.** -/
theorem isolated_iff (hread : readMapFile b.rootNode file = .ok elements) (hne : elements ≠ []) :
    Isolated b answers legacyAnswers file c elements
      ↔ Isolable b answers legacyAnswers file c elements :=
  ⟨Isolated.isolable hread hne, Isolable.isolated hread hne⟩

end Isolation

/-! ## A name that occurs twice -/

def plainSource : CatalogueSource where
  paths := { registerPath := fun name => name, below := fun _ name => name }
  numericRange := fun _ => []
  serverAddress := "opc.tcp://localhost:4840"
  rootNode := ""

/-- A scalar of 32 bits that can be read and written. -/
def scalarAnswers : NodeAnswers where
  dataType := .ok 6
  description := .ok ""
  value := .ok .scalar
  accessLevel := .ok 3

/-- A map file whose second element has the name of the first. -/
def twiceFile : MapFile where
  path := "twice.xml"
  document := .ok
    { namespaceUri := namespaceUri
      nodes :=
        [.element ⟨"pv", 2, [.text "a"]⟩ [("ns", "1"), ("name", "x")],
         .element ⟨"pv", 3, [.text "b"]⟩ [("ns", "1"), ("name", "x")],
         .element ⟨"pv", 4, [.text "c"]⟩ [("ns", "1"), ("name", "y")]] }
  text := some "<opcua_map>".toList

def twiceElements : List MapElement :=
  [⟨⟨1, .string "a"⟩, "", "x"⟩, ⟨⟨1, .string "b"⟩, "", "x"⟩, ⟨⟨1, .string "c"⟩, "", "y"⟩]

theorem readMapFile_twice : readMapFile plainSource.rootNode twiceFile = .ok twiceElements := by
  decide +kernel

theorem scalarAnswers_usable (b : CatalogueSource) (range : String) :
    scalarAnswers.Usable b range :=
  ⟨⟨6, rfl, by decide, by decide⟩, ⟨.scalar, 1, rfl, rfl⟩, 3, rfl⟩

/-- The third element is missing, with a name of its own. -/
theorem not_isolated_twice : ¬ Isolated plainSource (fun _ => scalarAnswers)
    (fun _ => scalarAnswers) twiceFile [] twiceElements := by
  intro h
  have hnames : (getNodesFromMapfile plainSource (fun _ => scalarAnswers)
      (fun _ => scalarAnswers) twiceFile []).1.map OpcUABackendRegisterInfo.nodeBrowseName
      = ["x"] := by
    decide +kernel
  obtain ⟨info, hmem, hname⟩ := h.registered (⟨⟨1, .string "c"⟩, "", "y"⟩, scalarAnswers)
    (.tail _ (.tail _ (.head _))) (scalarAnswers_usable _ _)
  have hbrowse : info.nodeBrowseName ∈ ["x"] := hnames ▸ List.mem_map_of_mem hmem
  have hpath : info.nodeBrowseName = "y" := hname
  rw [hpath] at hbrowse
  exact absurd hbrowse (by decide)

theorem isolated_iff_twice :
    readMapFile plainSource.rootNode twiceFile = .ok twiceElements ∧
      (Isolated plainSource (fun _ => scalarAnswers) (fun _ => scalarAnswers) twiceFile []
          twiceElements ↔
        Isolable plainSource (fun _ => scalarAnswers) (fun _ => scalarAnswers) twiceFile []
          twiceElements) :=
  ⟨readMapFile_twice, isolated_iff readMapFile_twice (by decide)⟩

end OpcUaBackend
