import OpcUaBackend.Catalogue.Browse
import OpcUaBackend.Catalogue.Isolation
import OpcUaBackend.Catalogue.RoundTrip

/-!
# The registers of one server

A register is described by its type, by its node and by the address of its server, and no two
registers of a catalogue have the same name. Browsing, both styles of map files and the cache reader
add registers with `addProperty` only, and keep this.

## Main definitions

* `Described`, `RegistersOf`: registers and catalogues

## Main results

* `CatalogueSource.Makes.browseRecursive`, `CatalogueSource.Makes.getNodesFromMapfile`: the server
* `readCatalogue_registersOf`: the cache file
-/

namespace OpcUaBackend

open Foundation

variable {φ : Type}

/-- The register is described by its type, its node and the address of its server. -/
structure Described (paths : RegisterPaths) (serverAddress : String)
    (r : OpcUABackendRegisterInfo) : Prop where
  path : r.path
    = paths.below (paths.registerPath serverAddress) (paths.registerPath r.nodeBrowseName)
  serverAddress : r.serverAddress = serverAddress
  dataType : descriptorOf r.dataType = some r.dataDescriptor
  isNumeric : r.isNumeric = r.id.identifier.isNumeric
  namespaceIndex : r.namespaceIndex = r.id.namespaceIndex
  accessModes : r.accessModes = [.wait_for_new_data]

/-- The registers are those of one server, and no two have the same name. -/
structure RegistersOf (paths : RegisterPaths) (serverAddress : String)
    (c : OpcUaBackendRegisterCatalogue) : Prop where
  described : ∀ r ∈ c, Described paths serverAddress r
  distinct : (c.map (·.getRegisterName paths)).Nodup

section Entries

variable {paths : RegisterPaths} {serverAddress : String} {c c' : OpcUaBackendRegisterCatalogue}

theorem registersOf_nil : RegistersOf paths serverAddress [] := ⟨by simp, .nil⟩

theorem RegistersOf.addRegister {r : OpcUABackendRegisterInfo}
    (h : RegistersOf paths serverAddress c) (hr : Described paths serverAddress r)
    (hadd : addRegister paths r c = .ok c') : RegistersOf paths serverAddress c' := by
  obtain ⟨hnew, rfl⟩ := addRegister_ok_iff.mp hadd
  constructor
  · intro info hmem
    rcases List.mem_append.mp hmem with hold | hlast
    · exact h.described info hold
    · rwa [List.mem_singleton.mp hlast]
  · rw [List.map_append, List.nodup_append]
    refine ⟨h.distinct, List.nodup_singleton _, ?_⟩
    intro name hname name' hname'
    obtain ⟨info, hinfo, rfl⟩ := List.mem_map.mp hname
    rw [List.map_singleton, List.mem_singleton] at hname'
    exact hname' ▸ hnew info hinfo

/-- Whatever its arguments are, `addProperty` adds a register that is described. -/
theorem RegistersOf.addProperty {node : UA_NodeId} {browseName range description : String}
    {dataType arrayLength : Nat} {isReadonly : Bool} (h : RegistersOf paths serverAddress c)
    (hadd : addProperty paths node browseName range dataType arrayLength serverAddress description
      isReadonly c = .ok c') : RegistersOf paths serverAddress c' := by
  cases hdescriptor : descriptorOf dataType with
  | none =>
    rw [addProperty_of_unknown hdescriptor] at hadd
    exact Except.ok.inj hadd ▸ h
  | some descriptor =>
    rw [addProperty_of_known hdescriptor] at hadd
    exact h.addRegister ⟨rfl, rfl, hdescriptor, rfl, rfl, rfl⟩ hadd

end Entries

section Sources

variable {b : CatalogueSource} {c c' : OpcUaBackendRegisterCatalogue}

/-- The catalogue is one of the source's server. -/
abbrev CatalogueSource.Makes (b : CatalogueSource) (c : OpcUaBackendRegisterCatalogue) : Prop :=
  RegistersOf b.paths b.serverAddress c

theorem CatalogueSource.Makes.addNamedEntry {answers : NodeAnswers} {node : UA_NodeId}
    {name range : String} (h : b.Makes c)
    (hadd : addNamedEntry b answers node name range c = .ok c') : b.Makes c' := by
  unfold OpcUaBackend.addNamedEntry at hadd
  split at hadd
  · exact Except.ok.inj hadd ▸ h
  · rename_i dataType hdataType
    split at hadd
    · exact Except.ok.inj hadd ▸ h
    split at hadd
    · exact Except.ok.inj hadd ▸ h
    -- a length and an access level are the last to be missing
    obtain ⟨length, -, hadd⟩ := ok_of_bind hadd
    cases length with
    | none => exact Except.ok.inj hadd ▸ h
    | some arrayLength =>
      simp only at hadd
      split at hadd
      · exact Except.ok.inj hadd ▸ h
      · rename_i accessLevel haccess
        cases hproperty : addProperty b.paths node name range dataType arrayLength b.serverAddress
            answers.descriptionText (accessLevel &&& UA_ACCESSLEVELMASK_WRITE == 0) c with
        | error message => simp [hproperty, Except.mapError] at hadd
        | ok c₁ =>
          simp only [hproperty, Except.mapError, Except.ok.injEq] at hadd
          exact hadd ▸ h.addProperty hproperty

theorem CatalogueSource.Makes.addCatalogueEntry {answers : NodeAnswers} {node : UA_NodeId}
    {nodeName : Option String} {range : String} (h : b.Makes c)
    (hadd : addCatalogueEntry b answers node nodeName range c = .ok c') : b.Makes c' := by
  by_cases hname : Nameless node nodeName
  · rw [addCatalogueEntry_nameless hname] at hadd
    cases hadd
  · obtain ⟨name, -, hnamed⟩ := exists_addNamedEntry (b := b) hname
    exact h.addNamedEntry ((hnamed answers range c).symm.trans hadd)

theorem CatalogueSource.Makes.browseRecursive {answers : UA_NodeId → NodeAnswers}
    {space : AddressSpace} {depth : Nat} {node : UA_NodeId} {s s' : Browsed}
    (h : b.Makes s.catalogue)
    (hbrowse : browseRecursive b answers space depth node s = some (.ok s')) :
    b.Makes s'.catalogue := by
  obtain ⟨leaves, -, hadd⟩ := browseRecursive_ok_iff.mp hbrowse
  refine foldlM_keeps (P := fun s : Browsed => b.Makes s.catalogue) ?_ h hadd
  intro v s s' hs hstep
  unfold addVariable at hstep
  cases hentry : OpcUaBackend.addCatalogueEntry b (answers v) v none "" s.catalogue with
  | error failure => simp [hentry, Except.map] at hstep
  | ok c =>
    simp only [hentry, Except.map, Except.ok.injEq] at hstep
    exact hstep ▸ hs.addCatalogueEntry hentry

/-- The handlers of the legacy parser leave the catalogue as it is, or as an entry has made it. -/
theorem CatalogueSource.Makes.addLine {entry : List Char × NodeAnswers} (h : b.Makes c)
    (hadd : addLine b c entry = .ok c') : b.Makes c' := by
  have hne : ∀ (node : UA_NodeId) (nodeName : Option String) c,
      OpcUaBackend.addCatalogueEntry b entry.2 node nodeName "" c ≠ .error .invalidArgument :=
    fun node nodeName c => addCatalogueEntry_ne_invalidArgument
  rw [OpcUaBackend.addLine, legacyLine_eq hne] at hadd
  cases hline : lineEntry b.rootNode entry.1 with
  | none =>
    simp only [hline] at hadd
    exact Except.ok.inj hadd ▸ h
  | some call =>
    obtain ⟨node, nodeName⟩ := call
    simp only [hline] at hadd
    unfold caught at hadd
    split at hadd
    · exact Except.ok.inj hadd ▸ h
    · exact h.addCatalogueEntry hadd

theorem CatalogueSource.Makes.getNodesFromMapfile {answers legacyAnswers : Nat → NodeAnswers}
    {file : MapFile} (h : b.Makes c)
    (hget : getNodesFromMapfile b answers legacyAnswers file c = (c', none)) : b.Makes c' := by
  have helements : b.Makes (addElements b answers file c).1 := by
    unfold addElements
    split
    · exact h
    · exact h
    · exact foldUntil_keeps (fun entry c c' hc hadd => hc.addCatalogueEntry hadd) h
  -- the legacy parser goes on with the catalogue that the other one left
  have hlines : ∀ {c₁}, b.Makes c₁ → b.Makes (addLines b legacyAnswers file c₁).1 := by
    intro c₁ hc₁
    unfold addLines
    split
    · exact hc₁
    · exact foldUntil_keeps (fun entry c c' hc hadd => hc.addLine hadd) hc₁
  have hcheck : ∀ {added}, b.Makes added → checkElements file added = (c', none) → b.Makes c' := by
    intro added hadded heq
    unfold checkElements at heq
    split at heq
    · cases heq
    · exact (Prod.mk.inj heq).1 ▸ hadded
  unfold OpcUaBackend.getNodesFromMapfile at hget
  simp only at hget
  split at hget
  · rename_i added heq
    refine hcheck ?_ hget
    split at heq
    · rename_i c₁ hadd
      obtain rfl := (Prod.mk.inj heq).1
      simpa [hadd] using helements
    · cases heq
    · rename_i c₁ failure _ hadd
      have hc₁ : b.Makes c₁ := by simpa [hadd] using helements
      simpa [heq] using hlines hc₁
  · rename_i hfailed
    exact absurd hget (hfailed c')

end Sources

/-! ## The cache reader -/

section Reading

variable {paths : RegisterPaths} {modes : AccessModeTexts} {dom : Dom φ}
  {serverAddress : String} {c c' : OpcUaBackendRegisterCatalogue}

theorem RegistersOf.parseRegister {registerNode : Element} (h : RegistersOf paths serverAddress c)
    (hparse : parseRegister paths modes registerNode serverAddress c = .ok c') :
    RegistersOf paths serverAddress c' := by
  unfold OpcUaBackend.parseRegister at hparse
  obtain ⟨p, -, hparse⟩ := ok_of_bind hparse
  split at hparse
  · rename_i isNumeric namespaceId _ _
    obtain ⟨identifier, -, hparse⟩ := ok_of_bind hparse
    split at hparse
    · rename_i typeId isReadonly _ _
      cases hadd : OpcUaBackend.addProperty paths ⟨namespaceId, identifier⟩ p.name p.indexRange
          typeId p.length serverAddress p.description isReadonly c with
      | error message => simp [hadd, Except.mapError] at hparse
      | ok c₁ =>
        simp only [hadd, Except.mapError, Except.ok.injEq] at hparse
        exact hparse ▸ h.addProperty hadd
    · cases hparse
  · cases hparse

theorem readCatalogue_registersOf {xmlfile : String} {files : Files φ}
    (h : readCatalogue paths modes dom xmlfile files = .ok c) :
    ∃ serverAddress, RegistersOf paths serverAddress c := by
  unfold readCatalogue at h
  obtain ⟨doc, -, h⟩ := ok_of_bind h
  obtain ⟨registerList, -, h⟩ := ok_of_bind h
  obtain ⟨serverAddress, -, h⟩ := ok_of_bind h
  refine ⟨serverAddress, foldlM_keeps ?_ registersOf_nil h⟩
  intro reg c c' hc hstep
  split at hstep
  · exact hc.parseRegister hstep
  · exact Except.ok.inj hstep ▸ hc

end Reading

end OpcUaBackend
