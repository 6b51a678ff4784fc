import OpcUaBackend.Catalogue.RoundTrip
import OpcUaBackend.Foundation.Texts
import OpcUaBackend.Foundation.Utf8

/-!
# The names of registers

A register without a name gets one of its node id: "numeric/" with the number, or the text of the
id, of which the name of the root node is cut off. It is cut off by its length in bytes, whatever
the node is, while a slash at the start is dropped of the text but not of the name of the root.
Where this cuts more than the root, the register has another name, or that of another register.

## Main definitions

* `components`: the parts of a text between slashes
* `expectedName`: the name without the root
* `CutsOnlyRoot`: the nodes of which nothing else is cut off

## Main results

* `slashPaths_normalise`: paths of registers are equal if their parts are
* `isNamed_iff`: the names of a node are right if and only if nothing else is cut off
* `names_iff`: the same of two nodes, whose numbers then are two names
-/

namespace OpcUaBackend

open Foundation

/-! ## Parts of paths -/

def isSlash (c : Char) : Bool := c == '/'

def components (cs : List Char) : List (List Char) := tokens isSlash cs

/-- Only the number and the places of slashes are changed by a path. -/
def RegisterPaths.Normalise (paths : RegisterPaths) : Prop :=
  ∀ s t : String, paths.registerPath s = paths.registerPath t ↔
    components s.toList = components t.toList

section Paths

variable {c : Char} {cs token : List Char}

theorem removeExtraSeparators_cons_of_ne (h : c ≠ '/') :
    removeExtraSeparators (c :: cs) = c :: removeExtraSeparators cs := by
  rw [removeExtraSeparators, if_neg fun hand => h hand.1]

theorem removeExtraSeparators_twice :
    removeExtraSeparators ('/' :: '/' :: cs) = removeExtraSeparators ('/' :: cs) := by
  rw [removeExtraSeparators, if_pos ⟨rfl, removeExtraSeparators_slash cs⟩]

/-- A separator stays before what is no separator. -/
theorem removeExtraSeparators_slash_of_ne (h : c ≠ '/') :
    removeExtraSeparators ('/' :: c :: cs) = '/' :: removeExtraSeparators (c :: cs) := by
  have hkeep : ¬ (('/' : Char) = '/' ∧ (removeExtraSeparators (c :: cs) = [] ∨
      (removeExtraSeparators (c :: cs)).head? = some '/')) := by
    rw [removeExtraSeparators_cons_of_ne h]
    rintro ⟨-, hnil | hhead⟩
    · cases hnil
    · exact h (Option.some.inj hhead)
  rw [removeExtraSeparators, if_neg hkeep]

/-- A path is its parts, with a slash before each. -/
theorem flatMap_tokensFrom (htoken : ∀ d ∈ token, isSlash d = false) :
    ((tokensFrom isSlash token cs).flatMap fun field => '/' :: field)
      = if token = [] then removeExtraSeparators ('/' :: cs)
        else '/' :: (token ++ removeExtraSeparators cs) := by
  induction cs generalizing token with
  | nil =>
    rw [tokensFrom]
    split
    · rfl
    · simp [removeExtraSeparators]
  | cons c cs ih =>
    rw [tokensFrom]
    by_cases hc : isSlash c = true
    · obtain rfl : c = '/' := by simpa [isSlash] using hc
      rw [if_pos hc]
      split
      · rw [ih (by simp), if_pos rfl, removeExtraSeparators_twice]
      · rw [List.flatMap_cons, ih (by simp), if_pos rfl, List.cons_append]
    · have hne : c ≠ '/' := by simpa [isSlash] using hc
      have hlonger : ∀ d ∈ token ++ [c], isSlash d = false :=
        List.forall_mem_append.mpr ⟨htoken, by simpa using hc⟩
      rw [if_neg hc, ih hlonger, if_neg (by simp)]
      split
      · rename_i hnil
        rw [removeExtraSeparators_slash_of_ne hne, removeExtraSeparators_cons_of_ne hne, hnil]
        rfl
      · rw [removeExtraSeparators_cons_of_ne hne, List.append_assoc]
        rfl

theorem flatMap_components :
    ((components cs).flatMap fun field => '/' :: field) = removeExtraSeparators ('/' :: cs) := by
  rw [components, tokens, flatMap_tokensFrom (by simp), if_pos rfl]

variable (cs) in
theorem components_flatMap_components :
    components ((components cs).flatMap fun field => '/' :: field) = components cs :=
  tokens_flatMap rfl fun _ hfield => mem_tokens hfield

theorem components_slashPath (s : String) :
    components (slashPath s).toList = components s.toList := by
  rw [slashPath]
  rcases hpath : removeExtraSeparators ('/' :: s.toList) with - | ⟨c, cs⟩
  · rw [← components_flatMap_components s.toList, flatMap_components, hpath]
    rfl
  · rw [← components_flatMap_components s.toList, flatMap_components, hpath]
    simp

/-- **Paths are equal if their parts are.** -/
theorem slashPaths_normalise : slashPaths.Normalise := by
  intro s t
  change slashPath s = slashPath t ↔ _
  constructor
  · intro h
    rw [← components_slashPath s, h, components_slashPath]
  · intro h
    rw [slashPath, slashPath, ← flatMap_components, ← flatMap_components, h]

end Paths

/-! ## What the names are meant to be -/

/-- A text without one slash at its start. -/
def dropSlash : List Char → List Char
  | [] => []
  | c :: cs => if c = '/' then cs else c :: cs

/-- The name of the root, without a slash at its start and "Dir" at its end. -/
def rootPrefix (rootNode : String) : List Char := dropSlash (localRootName rootNode)

/-- The name of a register without a name of its own. -/
def expectedName (rootNode : String) : Identifier → List Char
  | .numeric n => (nodeIdName (.numeric n)).toList
  | .string s =>
    if rootPrefix rootNode <+: dropSlash s.toList then
      (dropSlash s.toList).drop (rootPrefix rootNode).length
    else dropSlash s.toList

/-- The register is added for the node, with no name given. -/
def IsAdded (b : CatalogueSource) (node : UA_NodeId) (r : OpcUABackendRegisterInfo) : Prop :=
  ∃ answers range c, addCatalogueEntry b answers node none range c = .ok (c ++ [r])

/-- The registers of a node have the name. -/
def IsNamed (b : CatalogueSource) (node : UA_NodeId) : Prop :=
  ∀ r, IsAdded b node r → r.getRegisterName b.paths
    = b.paths.registerPath (String.ofList (expectedName b.rootNode node.identifier))

/-- Registers of two numbers have two names. -/
def NumbersApart (b : CatalogueSource) (node node' : UA_NodeId) : Prop :=
  ∀ n m, node.identifier = .numeric n → node'.identifier = .numeric m → n ≠ m →
    ∀ r r', IsAdded b node r → IsAdded b node' r' →
      r.getRegisterName b.paths ≠ r'.getRegisterName b.paths

/-- Nothing is cut off a number, and of a text only the root and slashes: a slash before the name
of the root is cut off behind it, and where the text has another root, its length is cut off. -/
def CutsOnlyRoot (rootNode : String) : Identifier → Prop
  | .numeric _ => localRootName rootNode = []
  | .string s =>
    s = "" ∨
    if rootPrefix rootNode <+: dropSlash s.toList then
      (localRootName rootNode).head? = some '/' →
        ∀ c ∈ ((dropSlash s.toList).drop (rootPrefix rootNode).length).head?, c = '/'
    else ∀ c ∈ (dropSlash s.toList).take (localRootName rootNode).length, c = '/'

/-! ## What they are -/

section Names

variable {b : CatalogueSource} {node : UA_NodeId} {r : OpcUABackendRegisterInfo} {name : String}
  {rootNode : String}

theorem localNodeName_of_nil (h : (nodeIdName node.identifier).toList = []) :
    localNodeName b node = .error .outOfRange := by
  rw [localNodeName, h]

theorem localNodeName_of_ne_nil (h : (nodeIdName node.identifier).toList ≠ []) :
    localNodeName b node = .ok (String.ofList
      ((dropSlash (nodeIdName node.identifier).toList).drop (localRootName b.rootNode).length)) := by
  obtain ⟨c, cs, htext⟩ := List.exists_cons_of_ne_nil h
  rw [localNodeName, htext]
  rfl

/-- A register that is added has the name that was made. -/
theorem IsAdded.localNodeName_ok (h : IsAdded b node r) :
    ∃ name, localNodeName b node = .ok name ∧ r.nodeBrowseName = name := by
  obtain ⟨answers, range, c, hadd⟩ := h
  obtain ⟨name, hname, hnamed⟩ := ok_of_bind hadd
  change addNamedEntry b answers node name range c = _ at hnamed
  refine ⟨name, hname, ?_⟩
  by_cases husable : answers.Usable b range
  · obtain ⟨entry, hentry, hall⟩ := addNamedEntry_usable husable node name
    rw [hall] at hnamed
    rcases hregister : addRegister b.paths entry c with what | c'
    · rw [hregister] at hnamed
      cases hnamed
    · rw [hregister] at hnamed
      have hlast := (addRegister_ok_iff.mp hregister).2.symm.trans (Except.ok.inj hnamed)
      rw [← List.singleton_inj.mp (List.append_cancel_left hlast)]
      exact hentry
  -- otherwise nothing is added
  by_cases hbreaks : answers.Breaks b range
  · rw [addNamedEntry_breaks hbreaks] at hnamed
    cases hnamed
  · rw [addNamedEntry_unusable husable hbreaks] at hnamed
    have hlength := congrArg List.length (Except.ok.inj hnamed)
    simp at hlength

/-- An empty catalogue takes a register under any name. -/
theorem exists_isAdded (h : localNodeName b node = .ok name) :
    ∃ r, IsAdded b node r ∧ r.nodeBrowseName = name := by
  let answers : NodeAnswers := ⟨.ok 6, .ok "", .ok .scalar, .ok 0⟩
  have husable : answers.Usable b "" :=
    ⟨⟨6, rfl, by decide, by decide⟩, ⟨.scalar, 1, rfl, rfl⟩, 0, rfl⟩
  obtain ⟨r, hr, hall⟩ := addNamedEntry_usable husable node name
  refine ⟨r, ⟨answers, "", [], ?_⟩, hr⟩
  rw [addCatalogueEntry, h]
  change addNamedEntry b answers node name "" [] = _
  rw [hall, addRegister_new (by simp)]
  rfl

/-- No register is added for an empty text. -/
theorem isNamed_of_nil (h : (nodeIdName node.identifier).toList = []) : IsNamed b node := by
  intro r hadded
  obtain ⟨name, hname, -⟩ := hadded.localNodeName_ok
  cases (localNodeName_of_nil h).symm.trans hname

theorem isNamed_iff_of_ne_nil (hpaths : b.paths.Normalise)
    (h : (nodeIdName node.identifier).toList ≠ []) : IsNamed b node ↔
      components ((dropSlash (nodeIdName node.identifier).toList).drop
        (localRootName b.rootNode).length)
      = components (expectedName b.rootNode node.identifier) := by
  have hname := localNodeName_of_ne_nil (b := b) h
  constructor
  · intro hnamed
    obtain ⟨r, hadded, hr⟩ := exists_isAdded hname
    have hpath := (hpaths _ _).mp (hnamed r hadded)
    rwa [hr, String.toList_ofList, String.toList_ofList] at hpath
  · intro hcomponents r hadded
    obtain ⟨name, hok, hr⟩ := hadded.localNodeName_ok
    obtain rfl := Except.ok.inj (hname.symm.trans hok)
    apply (hpaths _ _).mpr
    rw [hr, String.toList_ofList, String.toList_ofList]
    exact hcomponents

/-- Characters at the start do not count if and only if they are slashes. -/
theorem components_drop_iff {cs : List Char} {k : ℕ} :
    components (cs.drop k) = components cs ↔ ∀ c ∈ cs.take k, c = '/' := by
  rw [components, components, tokens_drop_iff]
  simp only [isSlash, beq_iff_eq]

theorem nodeIdName_numeric (n : ℕ) : (nodeIdName (.numeric n)).toList
    = 'n' :: (['u', 'm', 'e', 'r', 'i', 'c', '/'] ++ (toString n).toList) := by
  rw [nodeIdName, String.toList_append]
  rfl

/-- Of a number nothing is cut off if the root has no name. -/
theorem isNamed_numeric_iff (hpaths : b.paths.Normalise) {n : ℕ}
    (hnode : node.identifier = .numeric n) :
    IsNamed b node ↔ CutsOnlyRoot b.rootNode node.identifier := by
  have hne : (nodeIdName node.identifier).toList ≠ [] := by
    rw [hnode, nodeIdName_numeric]
    exact List.cons_ne_nil _ _
  have hslash : dropSlash (nodeIdName (.numeric n)).toList = (nodeIdName (.numeric n)).toList := by
    rw [nodeIdName_numeric]
    rfl
  rw [isNamed_iff_of_ne_nil hpaths hne, hnode, expectedName, hslash, components_drop_iff,
    CutsOnlyRoot, nodeIdName_numeric]
  rcases localRootName b.rootNode with - | ⟨c, cs⟩
  · simp
  · -- the first character of the name is no slash
    refine iff_of_false (fun h => ?_) (List.cons_ne_nil _ _)
    exact absurd (h 'n' (List.mem_cons_self ..)) (by decide)

/-- The name of the root is its prefix, with a slash before it or not. -/
theorem localRootName_cases (rootNode : String) :
    ((localRootName rootNode).head? = some '/' ∧
      (localRootName rootNode).length = (rootPrefix rootNode).length + 1) ∨
    ((localRootName rootNode).head? ≠ some '/' ∧
      (localRootName rootNode).length = (rootPrefix rootNode).length) := by
  rw [rootPrefix]
  rcases localRootName rootNode with - | ⟨c, cs⟩
  · exact .inr ⟨by simp, rfl⟩
  · by_cases hc : c = '/'
    · exact .inl ⟨congrArg some hc, by rw [dropSlash, if_pos hc]; rfl⟩
    · exact .inr ⟨fun h => hc (Option.some.inj h), by rw [dropSlash, if_neg hc]⟩

theorem isNamed_string_iff (hpaths : b.paths.Normalise) {s : String}
    (hnode : node.identifier = .string s) :
    IsNamed b node ↔ CutsOnlyRoot b.rootNode node.identifier := by
  have htext : (nodeIdName node.identifier).toList = s.toList := by rw [hnode, nodeIdName]
  rw [hnode, CutsOnlyRoot]
  by_cases hempty : s = ""
  · exact iff_of_true (isNamed_of_nil (by rw [htext, hempty]; rfl)) (.inl hempty)
  have hne : (nodeIdName node.identifier).toList ≠ [] := by
    rw [htext]
    exact fun h => hempty (String.toList_eq_nil_iff.mp h)
  rw [isNamed_iff_of_ne_nil hpaths hne, htext, hnode, expectedName, or_iff_right hempty]
  by_cases hprefix : rootPrefix b.rootNode <+: dropSlash s.toList
  · rw [if_pos hprefix, if_pos hprefix]
    rcases localRootName_cases b.rootNode with ⟨hhead, hlength⟩ | ⟨hhead, hlength⟩
    · -- one more character is cut off than the prefix has
      rw [hlength, ← List.drop_drop, components_drop_iff]
      simp only [hhead, true_imp_iff]
      rcases (dropSlash s.toList).drop (rootPrefix b.rootNode).length with - | ⟨c, cs⟩ <;> simp
    · rw [hlength]
      exact iff_of_true rfl fun h => absurd h hhead
  · rw [if_neg hprefix, if_neg hprefix, components_drop_iff]

/-- **Registers of a node have its name if and only if only the root is cut off.** -/
theorem isNamed_iff (hpaths : b.paths.Normalise) :
    IsNamed b node ↔ CutsOnlyRoot b.rootNode node.identifier := by
  rcases hnode : node.identifier with n | s
  · rw [← hnode]
    exact isNamed_numeric_iff hpaths hnode
  · rw [← hnode]
    exact isNamed_string_iff hpaths hnode

/-- The parts of the name of a number. -/
theorem components_numeric (n : ℕ) : components (nodeIdName (.numeric n)).toList
    = [['n', 'u', 'm', 'e', 'r', 'i', 'c'], (toString n).toList] := by
  have hdigits : ∀ c ∈ (toString n).toList, isSlash c = false := by
    intro c hc
    rw [isSlash, beq_eq_false_iff_ne]
    rintro rfl
    exact absurd (isDigit_of_mem_toString hc) (by decide)
  have hline : Separated isSlash [['n', 'u', 'm', 'e', 'r', 'i', 'c'], (toString n).toList]
      (['n', 'u', 'm', 'e', 'r', 'i', 'c'] ++ (['/'] ++ ((toString n).toList ++ []))) :=
    .cons (by simp) (by simp [isSlash]) (.last (by simp))
  rw [components, nodeIdName_numeric]
  have htokens := tokens_separated hline (by
    simp only [List.forall_mem_cons, List.not_mem_nil, false_imp_iff, implies_true, and_true]
    exact ⟨⟨by simp, by simp [isSlash]⟩, toString_ne_nil n, hdigits⟩)
  rwa [List.append_nil] at htokens

theorem numbersApart_of_isNamed {node' : UA_NodeId} (hpaths : b.paths.Normalise)
    (h : IsNamed b node) (h' : IsNamed b node') : NumbersApart b node node' := by
  intro n m hn hm hne r r' hr hr' heq
  rw [h r hr, h' r' hr', hpaths, String.toList_ofList, String.toList_ofList, hn, hm, expectedName,
    expectedName, components_numeric, components_numeric] at heq
  exact hne (toString_injective (List.cons.inj (List.cons.inj heq).2).1)

end Names

/-- **Names are right, and those of two numbers differ, if and only if only the root is cut off.**
-/
theorem names_iff {b : CatalogueSource} (hpaths : b.paths.Normalise) (node node' : UA_NodeId) :
    (IsNamed b node ∧ IsNamed b node' ∧ NumbersApart b node node') ↔
      (CutsOnlyRoot b.rootNode node.identifier ∧ CutsOnlyRoot b.rootNode node'.identifier) := by
  rw [← isNamed_iff hpaths, ← isNamed_iff hpaths]
  constructor
  · rintro ⟨h, h', -⟩
    exact ⟨h, h'⟩
  · rintro ⟨h, h'⟩
    exact ⟨h, h', numbersApart_of_isNamed hpaths h h'⟩

-- a root of one character that has two bytes
example : localNodeName ⟨slashPaths, fun _ => [], "", String.ofList (utf8 ['é'])⟩
    ⟨1, .string "//xy"⟩ = .ok "y" := by decide

/-- Without a root, a number and a text. -/
theorem names_withoutRoot :
    IsNamed ⟨slashPaths, fun _ => [], "", ""⟩ ⟨1, .numeric 100⟩ ∧
      IsNamed ⟨slashPaths, fun _ => [], "", ""⟩ ⟨1, .string "/test"⟩ ∧
      NumbersApart ⟨slashPaths, fun _ => [], "", ""⟩ ⟨1, .numeric 100⟩ ⟨1, .string "/test"⟩ := by
  have hroot : localRootName "" = [] := by decide
  refine (@names_iff ⟨slashPaths, fun _ => [], "", ""⟩ slashPaths_normalise _ _).mpr ⟨hroot, ?_⟩
  refine .inr ?_
  rw [if_pos (by decide), hroot]
  intro h
  cases h

/-- A directory as the root, and two numbers: both names are cut off. -/
theorem not_named_controllerDir :
    ¬ (IsNamed ⟨slashPaths, fun _ => [], "", "Test/ControllerDir"⟩ ⟨1, .numeric 1⟩ ∧
      IsNamed ⟨slashPaths, fun _ => [], "", "Test/ControllerDir"⟩ ⟨1, .numeric 2⟩ ∧
      NumbersApart ⟨slashPaths, fun _ => [], "", "Test/ControllerDir"⟩ ⟨1, .numeric 1⟩
        ⟨1, .numeric 2⟩) := by
  rintro ⟨-, -, hapart⟩
  obtain ⟨r, hr, hname⟩ := exists_isAdded
    (show localNodeName ⟨slashPaths, fun _ => [], "", "Test/ControllerDir"⟩ ⟨1, .numeric 1⟩
      = .ok "" by rfl)
  obtain ⟨r', hr', hname'⟩ := exists_isAdded
    (show localNodeName ⟨slashPaths, fun _ => [], "", "Test/ControllerDir"⟩ ⟨1, .numeric 2⟩
      = .ok "" by rfl)
  refine hapart 1 2 rfl rfl (by decide) r r' hr hr' ?_
  rw [OpcUABackendRegisterInfo.getRegisterName, OpcUABackendRegisterInfo.getRegisterName, hname,
    hname']

end OpcUaBackend
