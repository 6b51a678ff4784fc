import OpcUaBackend.Catalogue.Entries
import OpcUaBackend.Foundation.Folds
import OpcUaBackend.Foundation.Unfolding

/-!
# Browsing the server

`browseRecursive` follows the references of the answer to a browse request, into every object
and without a record of the nodes it has seen, and adds an entry for every variable with a
string node id. References behind continuation points are not asked for. So it is called once
for a variable when there is one chain of references to it in the answers, and it returns when
no object it reaches leads back to itself.

## Main definitions

* `AddressSpace`: the nodes of a server and how their references are answered
* `browseRecursive`: browsing, with a bound on its depth
* `CallsOnce`: it returns and has made one call for each variable that is to be found

## Main results

* `browseRecursive_ok_iff`: browsing adds the leaves of the unfolded graph
* `callsOnce_iff`: when every variable is found once
-/

namespace OpcUaBackend

open Foundation

/-! ## The server -/

inductive NodeClass
  | object | variable | other
  deriving DecidableEq, Repr

structure ReferenceDescription where
  nodeClass : NodeClass
  nodeId : UA_NodeId
  deriving DecidableEq, Repr

/-- Finitely many nodes with their forward references: those in the answer to a browse request,
and those behind its continuation points. -/
structure AddressSpace where
  nodes : Finset UA_NodeId
  nodeClass : UA_NodeId → NodeClass
  response : UA_NodeId → List UA_NodeId
  continued : UA_NodeId → List UA_NodeId
  closed : ∀ n, ∀ m ∈ response n ++ continued n, m ∈ nodes

namespace AddressSpace

variable (space : AddressSpace)

def references (n : UA_NodeId) : List UA_NodeId := space.response n ++ space.continued n

/-- `UA_Client_Service_browse` for a node: one result with references. -/
def browse (n : UA_NodeId) : List (List ReferenceDescription) :=
  [(space.response n).map fun m => ⟨space.nodeClass m, m⟩]

end AddressSpace

def Identifier.isString : Identifier → Bool
  | .numeric _ => false
  | .string _ => true

/-! ## Browsing -/

/-- The catalogue, and the nodes for which `addCatalogueEntry` was called, in order. -/
structure Browsed where
  catalogue : OpcUaBackendRegisterCatalogue
  calls : List UA_NodeId := []

section Browsing

variable (b : CatalogueSource) (answers : UA_NodeId → NodeAnswers)

/-- A call of `addCatalogueEntry` for a variable. -/
def addVariable (s : Browsed) (node : UA_NodeId) : Except Failure Browsed :=
  (addCatalogueEntry b (answers node) node none "" s.catalogue).map fun catalogue =>
    { catalogue := catalogue, calls := s.calls ++ [node] }

/-- The body of the loop over the references; nothing comes of a recursion that does not end. -/
def browseReference (recurse : UA_NodeId → Browsed → Option (Except Failure Browsed))
    (r : ReferenceDescription) (s : Browsed) : Option (Except Failure Browsed) :=
  if r.nodeClass = .object then recurse r.nodeId s
  else if r.nodeClass = .variable ∧ r.nodeId.identifier.isString = true then
    some (addVariable b answers s r.nodeId)
  else some (.ok s)

def browseReferences (recurse : UA_NodeId → Browsed → Option (Except Failure Browsed)) :
    List ReferenceDescription → Browsed → Option (Except Failure Browsed)
  | [], s => some (.ok s)
  | r :: references, s =>
    match browseReference b answers recurse r s with
    | some (.ok s) => browseReferences recurse references s
    | other => other

def browseRecursive (space : AddressSpace) :
    Nat → UA_NodeId → Browsed → Option (Except Failure Browsed)
  | 0, _, _ => none
  | fuel + 1, startingNode, s =>
    match space.browse startingNode with
    | [] => some (.ok s)
    | references :: _ => browseReferences b answers (browseRecursive space fuel) references s

end Browsing

/-! ## What is to be found -/

namespace AddressSpace

variable (space : AddressSpace)

/-- A variable with a string node id that is referenced by the start node or by an object that
is reached from it over references to objects. -/
def Relevant (start v : UA_NodeId) : Prop :=
  space.nodeClass v = .variable ∧ v.identifier.isString = true ∧
    ∃ o, Relation.ReflTransGen
      (fun n m => m ∈ space.references n ∧ space.nodeClass m = .object) start o ∧
        v ∈ space.references o

/-- The references in the answers, into objects and to variables with a string node id. -/
def graph : Graph UA_NodeId where
  next := space.response
  inner m := space.nodeClass m = .object
  leaf m := space.nodeClass m = .variable ∧ m.identifier.isString = true

end AddressSpace

/-- Browsing returns, with one call of `addCatalogueEntry` for each relevant variable and none for
another node. -/
def CallsOnce (b : CatalogueSource) (answers : UA_NodeId → NodeAnswers) (space : AddressSpace)
    (start : UA_NodeId) (c : OpcUaBackendRegisterCatalogue) : Prop :=
  ∃ fuel s, browseRecursive b answers space fuel start { catalogue := c } = some (.ok s) ∧
    ∀ v, (space.Relevant start v → s.calls.count v = 1) ∧ (¬ space.Relevant start v → v ∉ s.calls)

section Walk

variable {b : CatalogueSource} {answers : UA_NodeId → NodeAnswers} {space : AddressSpace}
  {s s' : Browsed} {n : UA_NodeId} {fuel : Nat}

theorem browseReference_ok_iff
    {recurse : UA_NodeId → Browsed → Option (Except Failure Browsed)}
    {unfold : UA_NodeId → Option (List (List ℕ × UA_NodeId))}
    (hrec : ∀ m s s', recurse m s = some (.ok s') ↔
      ∃ L, unfold m = some L ∧ (L.map Prod.snd).foldlM (addVariable b answers) s = .ok s')
    (m : UA_NodeId) (i : ℕ) :
    browseReference b answers recurse ⟨space.nodeClass m, m⟩ s = some (.ok s') ↔
      ∃ L, space.graph.unfoldAt unfold i m = some L ∧
        (L.map Prod.snd).foldlM (addVariable b answers) s = .ok s' := by
  unfold browseReference Graph.unfoldAt
  by_cases hobject : space.nodeClass m = .object
  · have hinner : space.graph.inner m = true := decide_eq_true hobject
    have hsnd : ∀ L : List (List ℕ × UA_NodeId),
        (L.map fun q => (i :: q.1, q.2)).map Prod.snd = L.map Prod.snd := by
      intro L
      rw [List.map_map]
      rfl
    rw [if_pos hobject, if_pos hinner, hrec]
    simp [Option.map_eq_some_iff, hsnd]
  · have hinner : ¬ space.graph.inner m = true := fun h => hobject (of_decide_eq_true h)
    rw [if_neg hobject, if_neg hinner]
    by_cases hleaf : space.nodeClass m = .variable ∧ m.identifier.isString = true
    · have hgraph : space.graph.leaf m = true := decide_eq_true hleaf
      rw [if_pos hleaf, if_pos hgraph]
      simp only [Option.some_inj, exists_eq_left', List.map_cons, List.map_nil, List.foldlM_cons,
        List.foldlM_nil, pure, Except.pure]
      cases addVariable b answers s m <;> rfl
    · have hgraph : ¬ space.graph.leaf m = true := fun h => hleaf (of_decide_eq_true h)
      rw [if_neg hleaf, if_neg hgraph]
      simp [pure, Except.pure]

theorem browseReferences_ok_iff
    {recurse : UA_NodeId → Browsed → Option (Except Failure Browsed)}
    {unfold : UA_NodeId → Option (List (List ℕ × UA_NodeId))}
    (hrec : ∀ m s s', recurse m s = some (.ok s') ↔
      ∃ L, unfold m = some L ∧ (L.map Prod.snd).foldlM (addVariable b answers) s = .ok s')
    (ms : List UA_NodeId) (i : ℕ) :
    browseReferences b answers recurse (ms.map fun m => ⟨space.nodeClass m, m⟩) s = some (.ok s') ↔
      ∃ L, space.graph.unfoldFrom unfold i ms = some L ∧
        (L.map Prod.snd).foldlM (addVariable b answers) s = .ok s' := by
  induction ms generalizing i s with
  | nil => simp [browseReferences, Graph.unfoldFrom, pure, Except.pure]
  | cons m ms ih =>
    have hstep : browseReferences b answers recurse
        ((m :: ms).map fun m => ⟨space.nodeClass m, m⟩) s = some (.ok s') ↔
        ∃ s₁, browseReference b answers recurse ⟨space.nodeClass m, m⟩ s = some (.ok s₁) ∧
          browseReferences b answers recurse (ms.map fun m => ⟨space.nodeClass m, m⟩) s₁
            = some (.ok s') := by
      rw [List.map_cons, browseReferences]
      split
      · rename_i s₁ hs₁
        simp [hs₁]
      · rename_i hnot
        constructor
        · intro h
          exact absurd h (hnot s')
        · rintro ⟨s₁, hs₁, -⟩
          exact absurd hs₁ (hnot s₁)
    rw [hstep]
    constructor
    · rintro ⟨s₁, hfirst, hrest⟩
      obtain ⟨first, hat, hadd⟩ := (browseReference_ok_iff hrec m i).mp hfirst
      obtain ⟨rest, hfrom, hadd'⟩ := (ih (i + 1)).mp hrest
      refine ⟨first ++ rest, ?_, ?_⟩
      · rw [Graph.unfoldFrom, hat, Option.bind_some, hfrom]
        rfl
      · rw [List.map_append, foldlM_append_iff]
        exact ⟨s₁, hadd, hadd'⟩
    · rintro ⟨L, hL, hadd⟩
      obtain ⟨first, rest, hat, hfrom, rfl⟩ := Graph.unfoldFrom_cons hL
      rw [List.map_append, foldlM_append_iff] at hadd
      obtain ⟨s₁, hadd, hadd'⟩ := hadd
      exact ⟨s₁, (browseReference_ok_iff hrec m i).mpr ⟨first, hat, hadd⟩,
        (ih (i + 1)).mpr ⟨rest, hfrom, hadd'⟩⟩

/-- **Browsing** adds the leaves of the unfolded graph, in order. -/
theorem browseRecursive_ok_iff :
    browseRecursive b answers space fuel n s = some (.ok s') ↔
      ∃ L, space.graph.unfold fuel n = some L ∧
        (L.map Prod.snd).foldlM (addVariable b answers) s = .ok s' := by
  induction fuel generalizing n s s' with
  | zero => simp [browseRecursive, Graph.unfold]
  | succ fuel ih =>
    have hrec : ∀ m s s', browseRecursive b answers space fuel m s = some (.ok s') ↔
        ∃ L, space.graph.unfold fuel m = some L ∧
          (L.map Prod.snd).foldlM (addVariable b answers) s = .ok s' := fun _ _ _ => ih
    exact browseReferences_ok_iff hrec (space.response n) 0

end Walk

/-! ## The entries -/

/-- The nodes have names, and those for which a register is added have names of their own, which
the catalogue does not have. -/
structure Admissible (b : CatalogueSource) (answers : UA_NodeId → NodeAnswers)
    (c : OpcUaBackendRegisterCatalogue) (S : UA_NodeId → Prop) : Prop where
  named : ∀ v, S v → v.identifier ≠ .string ""
  fresh : ∀ v, S v → (answers v).Usable b "" → ∀ info ∈ c,
    info.getRegisterName b.paths ≠ entryName b v
  distinct : ∀ v w, S v → S w → (answers v).Usable b "" → (answers w).Usable b "" →
    entryName b v = entryName b w → v = w

section Entries

variable {b : CatalogueSource} {answers : UA_NodeId → NodeAnswers}
  {c c' : OpcUaBackendRegisterCatalogue} {v : UA_NodeId}

variable (b answers) in
/-- What a call of `addCatalogueEntry` does for a variable of a known name. -/
theorem addVariable_named (h : v.identifier ≠ .string "") :
    (∃ entry : OpcUABackendRegisterInfo, (answers v).Usable b "" ∧
      entry.getRegisterName b.paths = entryName b v ∧ ∀ c,
      addCatalogueEntry b (answers v) v none "" c
        = (addRegister b.paths entry c).mapError .logicError) ∨
    (¬ (answers v).Usable b "" ∧ ∀ c, addCatalogueEntry b (answers v) v none "" c = .ok c) := by
  obtain ⟨name, hname⟩ := exists_localNodeName (b := b) h
  have hentry : ∀ c, addCatalogueEntry b (answers v) v none "" c
      = addNamedEntry b (answers v) v name "" c := by
    intro c
    rw [addCatalogueEntry, hname]
    rfl
  by_cases husable : (answers v).Usable b ""
  · obtain ⟨entry, hbrowse, hadd⟩ := addNamedEntry_usable husable v name
    refine .inl ⟨entry, husable, ?_, fun c => (hentry c).trans (hadd c)⟩
    rw [OpcUABackendRegisterInfo.getRegisterName, hbrowse, entryName, hname]
  · exact .inr ⟨husable, fun c =>
      (hentry c).trans (addNamedEntry_unusable husable (not_breaks_empty _) c)⟩

theorem addVariable_calls {s s' : Browsed} (h : addVariable b answers s v = .ok s') :
    s'.calls = s.calls ++ [v] := by
  unfold addVariable at h
  cases hadd : addCatalogueEntry b (answers v) v none "" s.catalogue with
  | error failure => rw [hadd] at h; cases h
  | ok catalogue =>
    rw [hadd] at h
    obtain rfl := Except.ok.inj h
    rfl

theorem foldlM_calls {vs : List UA_NodeId} {s s' : Browsed}
    (h : vs.foldlM (addVariable b answers) s = .ok s') : s'.calls = s.calls ++ vs := by
  induction vs generalizing s with
  | nil =>
    obtain rfl := Except.ok.inj h
    simp
  | cons v vs ih =>
    obtain ⟨s₁, hadd, hrest⟩ := foldlM_cons_iff.mp h
    rw [ih hrest, addVariable_calls hadd, List.append_assoc]
    rfl

/-- The call for a first variable, and those for the others. -/
theorem admissible_cons_usable {vs : List UA_NodeId} (hv : v ∉ vs)
    (hnamed : v.identifier ≠ .string "") (husable : (answers v).Usable b "")
    {entry : OpcUABackendRegisterInfo} (hentry : entry.getRegisterName b.paths = entryName b v) :
    Admissible b answers c (· ∈ v :: vs) ↔
      (∀ info ∈ c, info.getRegisterName b.paths ≠ entryName b v) ∧
        Admissible b answers (c ++ [entry]) (· ∈ vs) := by
  constructor
  · rintro ⟨hnames, hfresh, hdistinct⟩
    refine ⟨hfresh v (by simp) husable, fun w hw => hnames w (by simp [hw]), fun w hw hwu => ?_,
      fun w w' hw hw' => hdistinct w w' (by simp [hw]) (by simp [hw'])⟩
    intro info hinfo
    rcases List.mem_append.mp hinfo with hold | hlast
    · exact hfresh w (by simp [hw]) hwu info hold
    · obtain rfl := List.mem_singleton.mp hlast
      rw [hentry]
      intro he
      exact hv (hdistinct v w (by simp) (by simp [hw]) husable hwu he ▸ hw)
  · rintro ⟨hfirst, hnames, hfresh, hdistinct⟩
    have hother : ∀ w ∈ vs, (answers w).Usable b "" → entryName b v ≠ entryName b w := by
      intro w hw hwu
      rw [← hentry]
      exact hfresh w hw hwu entry (by simp)
    refine ⟨fun w hw => ?_, fun w hw hwu info hinfo => ?_, fun w w' hw hw' hwu hwu' he => ?_⟩
    · rcases List.mem_cons.mp hw with rfl | hw
      · exact hnamed
      · exact hnames w hw
    · rcases List.mem_cons.mp hw with rfl | hw
      · exact hfirst info hinfo
      · exact hfresh w hw hwu info (by simp [hinfo])
    · rcases List.mem_cons.mp hw with rfl | hin <;> rcases List.mem_cons.mp hw' with rfl | hin'
      · rfl
      · exact absurd he (hother w' hin' hwu')
      · exact absurd he.symm (hother w hin hwu)
      · exact hdistinct w w' hin hin' hwu hwu' he

theorem admissible_cons_unusable {vs : List UA_NodeId} (hnamed : v.identifier ≠ .string "")
    (husable : ¬ (answers v).Usable b "") :
    Admissible b answers c (· ∈ v :: vs) ↔ Admissible b answers c (· ∈ vs) := by
  constructor
  · rintro ⟨hnames, hfresh, hdistinct⟩
    exact ⟨fun w hw => hnames w (by simp [hw]), fun w hw => hfresh w (by simp [hw]),
      fun w w' hw hw' => hdistinct w w' (by simp [hw]) (by simp [hw'])⟩
  · rintro ⟨hnames, hfresh, hdistinct⟩
    refine ⟨fun w hw => ?_, fun w hw hwu => ?_, fun w w' hw hw' hwu hwu' => ?_⟩
    · rcases List.mem_cons.mp hw with rfl | hw
      · exact hnamed
      · exact hnames w hw
    · rcases List.mem_cons.mp hw with rfl | hw
      · exact absurd hwu husable
      · exact hfresh w hw hwu
    · rcases List.mem_cons.mp hw with rfl | hw
      · exact absurd hwu husable
      · rcases List.mem_cons.mp hw' with rfl | hw'
        · exact absurd hwu' husable
        · exact hdistinct w w' hw hw' hwu hwu'

/-- The calls for different variables all return when the entries are admissible. -/
theorem foldlM_addVariable_iff {vs : List UA_NodeId} (hnodup : vs.Nodup) (s : Browsed) :
    (∃ s', vs.foldlM (addVariable b answers) s = .ok s') ↔
      Admissible b answers s.catalogue (· ∈ vs) := by
  induction vs generalizing s with
  | nil =>
    refine iff_of_true ⟨s, rfl⟩ ⟨?_, ?_, ?_⟩ <;> simp
  | cons v vs ih =>
    obtain ⟨hv, hrest⟩ := List.nodup_cons.mp hnodup
    by_cases hempty : v.identifier = .string ""
    · -- a variable without a name fails
      refine iff_of_false ?_ fun hadm => hadm.named v (by simp) hempty
      rintro ⟨s', hs'⟩
      obtain ⟨s₁, hadd, -⟩ := foldlM_cons_iff.mp hs'
      rw [addVariable, addCatalogueEntry, localNodeName_eq_error hempty] at hadd
      cases hadd
    · rcases addVariable_named b answers hempty with
        ⟨entry, husable, hentry, hcall⟩ | ⟨husable, hcall⟩
      · -- a usable variable is added under a name that no entry has
        have hadd : ∀ s₁, addVariable b answers s v = .ok s₁ ↔
            (∀ info ∈ s.catalogue, info.getRegisterName b.paths ≠ entryName b v) ∧
              s₁ = ⟨s.catalogue ++ [entry], s.calls ++ [v]⟩ := by
          intro s₁
          unfold addVariable
          rw [hcall, ← hentry]
          by_cases hnew : ∀ info ∈ s.catalogue,
              info.getRegisterName b.paths ≠ entry.getRegisterName b.paths
          · rw [addRegister_new hnew]
            exact ⟨fun he => ⟨hnew, (Except.ok.inj he).symm⟩, fun hand => by rw [hand.2]; rfl⟩
          · refine iff_of_false (fun he => hnew ?_) fun hand => hnew hand.1
            cases hregister : addRegister b.paths entry s.catalogue with
            | error message => rw [hregister] at he; cases he
            | ok c => exact (addRegister_ok_iff.mp hregister).1
        rw [admissible_cons_usable hv hempty husable hentry]
        constructor
        · rintro ⟨s', hs'⟩
          obtain ⟨s₁, hfirst, hrest'⟩ := foldlM_cons_iff.mp hs'
          obtain ⟨hnew, rfl⟩ := (hadd s₁).mp hfirst
          exact ⟨hnew, (ih hrest _).mp ⟨s', hrest'⟩⟩
        · rintro ⟨hnew, hadm⟩
          obtain ⟨s', hs'⟩ := (ih hrest ⟨s.catalogue ++ [entry], s.calls ++ [v]⟩).mpr hadm
          exact ⟨s', foldlM_cons_iff.mpr ⟨_, (hadd _).mpr ⟨hnew, rfl⟩, hs'⟩⟩
      · -- one that is not usable leaves no entry
        have hadd : addVariable b answers s v = .ok ⟨s.catalogue, s.calls ++ [v]⟩ := by
          rw [addVariable, hcall]
          rfl
        rw [admissible_cons_unusable hempty husable, foldlM_cons_ok hadd]
        exact ih hrest _

end Entries

/-! ## When every variable is found once -/

section CallsOnce

variable {b : CatalogueSource} {answers : UA_NodeId → NodeAnswers} {space : AddressSpace}
  {start v : UA_NodeId}

theorem AddressSpace.leaf_iff : space.graph.leaf v = true ↔
    space.nodeClass v = .variable ∧ v.identifier.isString = true := decide_eq_true_iff

theorem AddressSpace.Relevant.leaf (h : space.Relevant start v) :
    space.graph.leaf v = true ∧ space.graph.inner v = false := by
  obtain ⟨hclass, hstring, -⟩ := h
  refine ⟨space.leaf_iff.mpr ⟨hclass, hstring⟩, decide_eq_false ?_⟩
  rw [hclass]
  decide

/-- What the answers lead to is to be found. -/
theorem AddressSpace.relevant_of_chain {is : List ℕ} (h : space.graph.Chain start is v)
    (hleaf : space.graph.leaf v = true) : space.Relevant start v := by
  obtain ⟨hclass, hstring⟩ := space.leaf_iff.mp hleaf
  refine ⟨hclass, hstring, ?_⟩
  clear hclass hstring hleaf
  induction h with
  | @last n i m hi =>
    exact ⟨n, .refl, List.mem_append_left _ (List.mem_iff_getElem?.mpr ⟨i, hi⟩)⟩
  | @step n i m is k hi hinner _ ih =>
    obtain ⟨o, hreach, hmem⟩ := ih
    refine ⟨o, .head ⟨List.mem_append_left _ (List.mem_iff_getElem?.mpr ⟨i, hi⟩), ?_⟩ hreach, hmem⟩
    exact of_decide_eq_true hinner

theorem AddressSpace.enters_mem {n m : UA_NodeId} (h : space.graph.Enters n m) :
    m ∈ space.nodes :=
  space.closed n m (List.mem_append_left _ h.1)

/-- **Browsing.** Every variable that is to be found is found once exactly when, in the answers to
the browse requests, no object that is reached leads back to itself and one chain of references
leads to each such variable, and the entries are admissible. -/
theorem callsOnce_iff (b : CatalogueSource) (answers : UA_NodeId → NodeAnswers)
    (space : AddressSpace) (start : UA_NodeId) (c : OpcUaBackendRegisterCatalogue) :
    CallsOnce b answers space start c ↔
      space.graph.Acyclic start ∧
      (∀ v, space.Relevant start v → ∃! is, space.graph.Chain start is v) ∧
      Admissible b answers c (space.Relevant start) := by
  constructor
  · rintro ⟨fuel, s, hbrowse, hcalls⟩
    obtain ⟨L, hL, hadd⟩ := browseRecursive_ok_iff.mp hbrowse
    -- the calls are those of the chains that the recursion follows
    have hlist : s.calls = L.map Prod.snd := foldlM_calls hadd
    rw [hlist] at hcalls
    have hmem : ∀ v, v ∈ L.map Prod.snd ↔ space.Relevant start v := by
      intro v
      refine ⟨fun hv => by_contra fun hnot => (hcalls v).2 hnot hv, fun hv => ?_⟩
      exact List.count_pos_iff.mp ((hcalls v).1 hv ▸ Nat.one_pos)
    have hnodup : (L.map Prod.snd).Nodup := by
      refine List.nodup_iff_count_le_one.mpr fun v => ?_
      by_cases hv : space.Relevant start v
      · exact ((hcalls v).1 hv).le
      · rw [List.count_eq_zero_of_not_mem ((hcalls v).2 hv)]
        exact Nat.zero_le _
    refine ⟨Graph.Ends.acyclic ⟨fuel, L, hL⟩, fun v hv => ?_, ?_⟩
    · exact (Graph.count_unfold_eq_one hL hv.leaf.1 hv.leaf.2).mp ((hcalls v).1 hv)
    · have hadm := (foldlM_addVariable_iff hnodup _).mp ⟨s, hadd⟩
      simpa only [hmem] using hadm
  · rintro ⟨hacyclic, hone, hadm⟩
    -- without a cycle the recursion ends
    obtain ⟨fuel, L, hL⟩ := hacyclic.ends fun n m => space.enters_mem
    have hmem : ∀ v, v ∈ L.map Prod.snd ↔ space.Relevant start v := by
      intro v
      constructor
      · intro hv
        obtain ⟨⟨is, v'⟩, hin, rfl⟩ := List.mem_map.mp hv
        obtain ⟨hchain, hleaf, -⟩ := (Graph.mem_unfold hL).mp hin
        exact space.relevant_of_chain hchain hleaf
      · intro hv
        obtain ⟨is, hchain, -⟩ := hone v hv
        exact (Graph.mem_unfold_iff hL hv.leaf.1 hv.leaf.2).mpr ⟨is, hchain⟩
    have hcount : ∀ v, space.Relevant start v → (L.map Prod.snd).count v = 1 := fun v hv =>
      (Graph.count_unfold_eq_one hL hv.leaf.1 hv.leaf.2).mpr (hone v hv)
    have hnodup : (L.map Prod.snd).Nodup := by
      refine List.nodup_iff_count_le_one.mpr fun v => ?_
      by_cases hv : space.Relevant start v
      · exact (hcount v hv).le
      · rw [List.count_eq_zero_of_not_mem (mt (hmem v).mp hv)]
        exact Nat.zero_le _
    obtain ⟨s, hs⟩ := (foldlM_addVariable_iff hnodup { catalogue := c }).mpr (by
      simpa only [hmem] using hadm)
    refine ⟨fuel, s, browseRecursive_ok_iff.mpr ⟨L, hL, hs⟩, fun v => ?_⟩
    have hlist : s.calls = L.map Prod.snd := foldlM_calls hs
    rw [hlist]
    exact ⟨hcount v, fun hv => mt (hmem v).mp hv⟩

end CallsOnce

/-! ## An object with a reference to its folder -/

def folder : UA_NodeId := ⟨1, .string "Dummy"⟩
def device : UA_NodeId := ⟨1, .string "Dummy/device"⟩

/-- A folder with a device that refers back to it. -/
def circular : AddressSpace where
  nodes := {folder, device}
  nodeClass _ := .object
  response n := if n = folder then [device] else if n = device then [folder] else []
  continued _ := []
  closed := by
    intro n m hm
    rw [List.append_nil] at hm
    split at hm
    · simp [List.mem_singleton.mp hm]
    · split at hm
      · simp [List.mem_singleton.mp hm]
      · cases hm

/-- Browsing does not return, although there is no variable at all. -/
theorem not_callsOnce_circular :
    ¬ ∀ (b : CatalogueSource) (answers : UA_NodeId → NodeAnswers) (space : AddressSpace)
      (start : UA_NodeId) (c : OpcUaBackendRegisterCatalogue),
      Admissible b answers c (space.Relevant start) → CallsOnce b answers space start c := by
  intro h
  have hnone : ∀ v, ¬ circular.Relevant folder v := fun v hv => by cases hv.1
  obtain ⟨fuel, s, hbrowse, -⟩ := h ⟨⟨id, fun _ path => path⟩, fun _ => [], "", ""⟩
    (fun _ => ⟨.ok 6, .ok "", .ok .scalar, .ok 1⟩) circular folder []
    ⟨fun v hv => absurd hv (hnone v), fun v hv => absurd hv (hnone v),
      fun v _ hv => absurd hv (hnone v)⟩
  obtain ⟨L, hL, -⟩ := browseRecursive_ok_iff.mp hbrowse
  have hout : circular.graph.Enters folder device := ⟨by decide, rfl⟩
  have hback : circular.graph.Enters device folder := ⟨by decide, rfl⟩
  exact Graph.Ends.acyclic ⟨fuel, L, hL⟩ folder .refl (.tail (.single hout) hback)

end OpcUaBackend
