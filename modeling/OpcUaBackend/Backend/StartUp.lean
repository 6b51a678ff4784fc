import OpcUaBackend.Accessor.Construction
import OpcUaBackend.Backend.Calls
import OpcUaBackend.Catalogue.Registers

/-!
# The start of the backend

The constructor of `OpcUABackend` makes the catalogue: from the cache file when it can be read, and
from the server otherwise, by browsing or with a map file, after it has connected. A catalogue that
was made from the server is saved when a cache file is named.

## Main definitions

* `Settings`, `Surroundings`: what the constructor is given, and what it meets
* `fillCatalogue`, `construct`: the catalogue is made
* `Served`, `SameAgain`, `Escapes`: what is said of the accessors, of a second start, and of what
  leaves a start

## Main results

* `construct_ok`, `construct_registersOf`, `construct_fresh`: what a start leaves
* `construct_servesRequest`: every register can be accessed
* `construct_again_iff`: when a second start finds the same registers
* `construct_failure`: how a start fails
-/

namespace OpcUaBackend

open Foundation

variable {V φ : Type}

/-! ## What a start is given -/

/-- The libraries: the paths of registers, the texts of access modes, documents, index ranges. -/
structure Libraries (φ : Type) where
  paths : RegisterPaths
  modes : AccessModeTexts
  dom : Dom φ
  numericRange : String → List RangeDimension

/-- The arguments of the constructor that say where the catalogue comes from. -/
structure Settings where
  fileAddress : String
  mapfile : String := ""
  publishingInterval : Nat := 500
  rootNode : String := ""
  rootNS : Nat := 0
  cacheFile : String := ""

/-- What a start meets: the answers to its calls of the client, the server that it browses, the
answers for the entries of the map file by their number, the map file, and the file system. -/
structure Surroundings (V : Type) where
  reset : Replies V := {}
  connect : Replies V := {}
  space : AddressSpace
  answers : UA_NodeId → NodeAnswers
  elementAnswers : Nat → NodeAnswers
  lineAnswers : Nat → NodeAnswers
  document : Except String MapDocument
  text : Option (List Char)
  cache : FileAnswers

/-- What the constructor leaves. -/
structure Started (V φ : Type) where
  world : World V
  catalogue : OpcUaBackendRegisterCatalogue
  files : Files φ

/-- `UA_NS0ID_OBJECTSFOLDER`. -/
def objectsFolder : UA_NodeId := ⟨0, .numeric 85⟩

/-- `UA_NODEID_STRING(_rootNS, _rootNode)`. -/
def Settings.startingNode (settings : Settings) : UA_NodeId :=
  ⟨settings.rootNS % 2 ^ 16, .string (cString settings.rootNode)⟩

/-! ## The constructor -/

/-- The state in which the constructor begins. -/
def Settings.world (settings : Settings) : World V :=
  { serverAddress := settings.fileAddress, publishingInterval := settings.publishingInterval }

section Construct

variable (lib : Libraries φ) (settings : Settings) (env : Surroundings V)

/-- The members of the backend that `addCatalogueEntry` reads. -/
def catalogueSource : CatalogueSource where
  paths := lib.paths
  numericRange := lib.numericRange
  serverAddress := settings.fileAddress
  rootNode := settings.rootNode

def Surroundings.mapFile : MapFile := ⟨settings.mapfile, env.document, env.text⟩

/-- Every exception of a browse from the root node is replaced by one and the same. -/
def replaceException {β : Type} : Except Failure β → Except Failure β
  | .ok b => .ok b
  | .error .undefinedBehaviour => .error .undefinedBehaviour
  | .error _ => .error (.runtimeError
      "root node not formatted correct. Expected ns:nodeid or ns:nodename!")

/-- The catalogue that `fillCatalogue` makes; nothing comes of a recursion that does not end. -/
def gatherRegisters (depth : Nat) : Option (Except Failure OpcUaBackendRegisterCatalogue) :=
  let b := catalogueSource lib settings
  if settings.mapfile = "" then
    let browse (node : UA_NodeId) :=
      (browseRecursive b env.answers env.space depth node { catalogue := [] }).map
        fun browsed => browsed.map Browsed.catalogue
    if settings.rootNode = "" then browse objectsFolder
    else (browse settings.startingNode).map replaceException
  else
    match getNodesFromMapfile b env.elementAnswers env.lineAnswers (env.mapFile settings) [] with
    | (catalogue, none) => some (.ok catalogue)
    | (_, some failure) => some (.error failure)

def SaveFailure.failure : SaveFailure → Failure
  | .runtimeError message => .runtimeError message
  | .xmlException what => .xmlException what

/-- `fillCatalogue`: the catalogue, and the files once it is saved. -/
def fillCatalogue (depth : Nat) (cacheFile : String) (files : Files φ) :
    Option (Except Failure (OpcUaBackendRegisterCatalogue × Files φ)) :=
  (gatherRegisters lib settings env depth).map fun gathered => do
    let catalogue ← gathered
    if cacheFile = "" then return (catalogue, files)
    else
      let files ← (saveCatalogue lib.paths lib.modes lib.dom env.cache catalogue cacheFile
        files).mapError SaveFailure.failure
      return (catalogue, files)

/-- The branches of the constructor that ask the server. -/
def connectAndFill (depth : Nat) (cacheFile : String) (files : Files φ) (w : World V) :
    Option (Except Failure (Started V φ)) :=
  match connect env.reset env.connect w with
  | .threw message _ => some (.error (.runtimeError message))
  | .returned w =>
    (fillCatalogue lib settings env depth cacheFile files).map fun filled =>
      filled.map fun (catalogue, files) => ⟨w, catalogue, files⟩

/-- The constructor. Only a `logic_error` of the cache reader leads to the server. -/
def construct (depth : Nat) (files : Files φ) : Option (Except Failure (Started V φ)) :=
  let w := settings.world
  if settings.cacheFile = "" then connectAndFill lib settings env depth "" files w
  else
    match readCatalogue lib.paths lib.modes lib.dom settings.cacheFile files with
    | .ok catalogue => some (.ok ⟨w, catalogue, files⟩)
    | .error (.logicError _) =>
      connectAndFill lib settings env depth settings.cacheFile files w
    | .error (.standard error) => some (.error (ConversionError.failure error))
    | .error .undefinedBehaviour => some (.error .undefinedBehaviour)

end Construct

/-! ## What a start ends in -/

section Start

variable {lib : Libraries φ} {settings : Settings} {env : Surroundings V} {depth : Nat}
  {files : Files φ} {started : Started V φ}

/-- The catalogue was read from the cache file; neither was the client connected nor a file
written. -/
structure Started.FromCache (lib : Libraries φ) (settings : Settings) (files : Files φ)
    (started : Started V φ) : Prop where
  cacheFile : settings.cacheFile ≠ ""
  catalogue : readCatalogue lib.paths lib.modes lib.dom settings.cacheFile files
    = .ok started.catalogue
  world : started.world = settings.world
  files : started.files = files

/-- The catalogue was made from the server, and saved when there is a cache file. -/
structure Started.FromServer (lib : Libraries φ) (settings : Settings) (env : Surroundings V)
    (depth : Nat) (files : Files φ) (started : Started V φ) : Prop where
  catalogue : gatherRegisters lib settings env depth = some (.ok started.catalogue)
  world : connect env.reset env.connect settings.world = .returned started.world
  unread : settings.cacheFile ≠ "" → ∃ message, readCatalogue lib.paths lib.modes lib.dom
    settings.cacheFile files = .error (.logicError message)
  kept : settings.cacheFile = "" → started.files = files
  saved : settings.cacheFile ≠ "" → saveCatalogue lib.paths lib.modes lib.dom env.cache
    started.catalogue settings.cacheFile files = .ok started.files

theorem fillCatalogue_ok {cacheFile : String} {c : OpcUaBackendRegisterCatalogue}
    {files' : Files φ}
    (h : fillCatalogue lib settings env depth cacheFile files = some (.ok (c, files'))) :
    gatherRegisters lib settings env depth = some (.ok c) ∧
      (cacheFile = "" → files' = files) ∧ (cacheFile ≠ "" →
        saveCatalogue lib.paths lib.modes lib.dom env.cache c cacheFile files = .ok files') := by
  obtain ⟨gathered, hgathered, h⟩ := Option.map_eq_some_iff.mp h
  obtain ⟨c₁, rfl, hfill⟩ := ok_of_bind h
  by_cases hcache : cacheFile = ""
  · rw [if_pos hcache] at hfill
    obtain ⟨rfl, rfl⟩ := Prod.mk.inj (Except.ok.inj hfill)
    exact ⟨hgathered, fun _ => rfl, fun hne => absurd hcache hne⟩
  · rw [if_neg hcache] at hfill
    obtain ⟨files₁, hsave, hfill⟩ := ok_of_bind hfill
    obtain ⟨rfl, rfl⟩ := Prod.mk.inj (Except.ok.inj hfill)
    refine ⟨hgathered, fun he => absurd he hcache, fun _ => ?_⟩
    cases hsaved : saveCatalogue lib.paths lib.modes lib.dom env.cache c₁ cacheFile files with
    | error message => simp [hsaved, Except.mapError] at hsave
    | ok files₂ =>
      rw [hsaved] at hsave
      exact congrArg Except.ok (Except.ok.inj hsave)

theorem connectAndFill_ok
    (hunread : settings.cacheFile ≠ "" → ∃ message, readCatalogue lib.paths lib.modes lib.dom
      settings.cacheFile files = .error (.logicError message))
    (h : connectAndFill lib settings env depth settings.cacheFile files settings.world
      = some (.ok started)) : started.FromServer lib settings env depth files := by
  unfold connectAndFill at h
  split at h
  · cases h
  · rename_i w hconnect
    obtain ⟨filled, hfilled, h⟩ := Option.map_eq_some_iff.mp h
    cases filled with
    | error failure => cases h
    | ok made =>
      obtain ⟨c, files'⟩ := made
      obtain rfl := Except.ok.inj h
      obtain ⟨hgathered, hkept, hsaved⟩ := fillCatalogue_ok hfilled
      exact ⟨hgathered, hconnect, hunread, hkept, hsaved⟩

/-- A start that ends well has read the cache file or asked the server. -/
theorem construct_ok (h : construct lib settings env depth files = some (.ok started)) :
    started.FromCache lib settings files ∨ started.FromServer lib settings env depth files := by
  unfold construct at h
  by_cases hcache : settings.cacheFile = ""
  · rw [if_pos hcache] at h
    refine .inr (connectAndFill_ok (fun hne => absurd hcache hne) ?_)
    rw [hcache]
    exact h
  · rw [if_neg hcache] at h
    split at h
    · rename_i c hread
      obtain rfl := Except.ok.inj (Option.some.inj h)
      exact .inl ⟨hcache, hread, rfl, rfl⟩
    · rename_i message hread
      exact .inr (connectAndFill_ok (fun _ => ⟨message, hread⟩) h)
    · cases h
    · cases h

/-- What browsing or the map file gives is a catalogue of the server. -/
theorem gatherRegisters_makes {c : OpcUaBackendRegisterCatalogue}
    (h : gatherRegisters lib settings env depth = some (.ok c)) :
    (catalogueSource lib settings).Makes c := by
  have hbrowse : ∀ {node},
      (browseRecursive (catalogueSource lib settings) env.answers env.space depth node
        { catalogue := [] }).map (fun browsed => browsed.map Browsed.catalogue) = some (.ok c) →
      (catalogueSource lib settings).Makes c := by
    intro node hnode
    obtain ⟨browsed, hbrowsed, hmap⟩ := Option.map_eq_some_iff.mp hnode
    cases browsed with
    | error failure => cases hmap
    | ok s =>
      have hmakes := CatalogueSource.Makes.browseRecursive (b := catalogueSource lib settings)
        registersOf_nil hbrowsed
      exact Except.ok.inj hmap ▸ hmakes
  unfold gatherRegisters at h
  simp only at h
  split at h
  · split at h
    · exact hbrowse h
    · obtain ⟨browsed, hbrowsed, hreplace⟩ := Option.map_eq_some_iff.mp h
      have hsame : browsed = .ok c := by
        unfold replaceException at hreplace
        split at hreplace
        · exact hreplace
        · cases hreplace
        · cases hreplace
      exact hbrowse (hsame ▸ hbrowsed)
  · split at h
    · rename_i c₁ hget
      obtain rfl := Except.ok.inj (Option.some.inj h)
      exact CatalogueSource.Makes.getNodesFromMapfile (b := catalogueSource lib settings)
        registersOf_nil hget
    · cases h

/-- Wherever it comes from, the catalogue of a backend is well formed. -/
theorem construct_registersOf (h : construct lib settings env depth files = some (.ok started)) :
    ∃ serverAddress, RegistersOf lib.paths serverAddress started.catalogue := by
  rcases construct_ok h with hcache | hserver
  · exact readCatalogue_registersOf hcache.catalogue
  · exact ⟨_, gatherRegisters_makes hserver.catalogue⟩

end Start

/-! ## A server with one variable -/

def scalarNode : UA_NodeId := ⟨1, .string "Dummy/scalar"⟩

def oneVariable : AddressSpace where
  nodes := {objectsFolder, scalarNode}
  nodeClass n := if n = scalarNode then .variable else .object
  response n := if n = objectsFolder then [scalarNode] else []
  continued _ := []
  closed := by
    intro n m hm
    rw [List.append_nil] at hm
    split at hm
    · simp [List.mem_singleton.mp hm]
    · cases hm

def treeLibraries : Libraries (Option Document) where
  paths := slashPaths
  modes := flagTexts
  dom := Dom.tree
  numericRange _ := []

def cachedSettings : Settings :=
  { fileAddress := "opc.tcp://localhost:16664", cacheFile := "cache.xml" }

def dummyServer : Surroundings Nat where
  space := oneVariable
  answers _ := ⟨.ok 6, .ok "A scalar", .ok .scalar, .ok 3⟩
  elementAnswers _ := ⟨.ok 6, .ok "", .ok .scalar, .ok 3⟩
  lineAnswers _ := ⟨.ok 6, .ok "", .ok .scalar, .ok 3⟩
  document := .error "no map file"
  text := none
  cache := ⟨.ok "cache.tmp", .ok true, .ok ()⟩

def scalarRegister : OpcUABackendRegisterInfo where
  path := "/opc.tcp:/localhost:16664/Dummy/scalar"
  serverAddress := "opc.tcp://localhost:16664"
  nodeBrowseName := "Dummy/scalar"
  description := "A scalar"
  dataType := 6
  dataDescriptor := ⟨.numeric, true, true, 10, 300⟩
  isReadonly := false
  isNumeric := false
  namespaceIndex := 1
  arrayLength := 1
  accessModes := [.wait_for_new_data]
  id := scalarNode
  indexRange := ""

def startedScalar : Started Nat (Option Document) where
  world := cachedSettings.world
  catalogue := [scalarRegister]
  files := Function.update (Function.update (fun _ => none) "cache.tmp" none) "cache.xml"
    (some (Dom.tree.write (catalogueDocument slashPaths flagTexts [scalarRegister])))

/-- There is no cache file yet, so the server is browsed. -/
theorem construct_scalar : construct treeLibraries cachedSettings dummyServer 2 (fun _ => none)
    = some (.ok startedScalar) := rfl

/-! ## The accessors of a started backend -/

section Accessors

variable {paths : RegisterPaths} {serverAddress : String} {c : OpcUaBackendRegisterCatalogue}
  {vectors : UserVectors} {r : Replies V} {request : AccessorRequest} {accessor : Accessor}
  {w : World V} {info : OpcUABackendRegisterInfo}

/-- What a request for a window in a register ends in, and the state that it leaves. -/
inductive Served (r : Replies V) (request : AccessorRequest) (accessor : Accessor) (w : World V)
    (info : OpcUABackendRegisterInfo) : Except CreationFailure CreatedAccessor × World V → Prop
  /-- an accessor with this window, and nothing else has changed -/
  | made {a : CreatedAccessor} (flags : .wait_for_new_data ∉ request.flags)
      (window : a.HasWindow request info) (fault : w.fault = none) :
      Served r request accessor w info (.ok a, w)
  /-- an accessor with this window, which is subscribed -/
  | subscribed {a : CreatedAccessor} {w' : World V} (flags : .wait_for_new_data ∈ request.flags)
      (window : a.HasWindow request info)
      (returned : constructAccessor r info.nodeBrowseName info.id accessor w = .returned w')
      (fault : w'.fault = none) : Served r request accessor w info (.ok a, w')
  /-- the exception of the subscription -/
  | threw {message : String} {w' : World V} (flags : .wait_for_new_data ∈ request.flags)
      (threw : constructAccessor r info.nodeBrowseName info.id accessor w = .threw message w') :
      Served r request accessor w info (.error (.runtimeError message), w')
  /-- a fault, while the accessor is subscribed -/
  | faulted {result : Except CreationFailure CreatedAccessor} {w' : World V}
      (flags : .wait_for_new_data ∈ request.flags)
      (returned : constructAccessor r info.nodeBrowseName info.id accessor w = .returned w')
      (fault : w'.fault ≠ none) : Served r request accessor w info (result, w')

/-- The request yields an accessor for the register and the window, in a state without a fault,
unless the subscription throws or meets a fault itself. -/
def ServesRequest (paths : RegisterPaths) (c : OpcUaBackendRegisterCatalogue)
    (vectors : UserVectors) (r : Replies V) (request : AccessorRequest) (accessor : Accessor)
    (w : World V) (info : OpcUABackendRegisterInfo) : Prop :=
  Served r request accessor w info (getRegisterAccessor_impl paths c vectors r request accessor w)

/-- A register is found under its name, since no other one has it. -/
theorem RegistersOf.findRegister (h : RegistersOf paths serverAddress c) (hinfo : info ∈ c) :
    findRegister paths c (info.getRegisterName paths) = some info := by
  unfold OpcUaBackend.findRegister
  cases hfind : c.find? fun other => other.getRegisterName paths == info.getRegisterName paths with
  | none => exact absurd (List.find?_eq_none.mp hfind info hinfo) (by simp)
  | some other =>
    have hmem := List.mem_of_find?_eq_some hfind
    have hname := List.find?_some hfind
    exact congrArg some (List.inj_on_of_nodup_map h.distinct hmem hinfo (by simpa using hname))

/-- A window in the register passes the test. -/
theorem AccessorRequest.InArray.requestWindow {arrayLength : Nat}
    (h : request.InArray arrayLength) :
    requestWindow arrayLength request.numberOfWords.toNat request.wordOffsetInRegister.toNat
      = .ok (request.words arrayLength) := by
  rw [InArray, words] at h
  have hwords : request.numberOfWords.toNat = 0 ↔ request.numberOfWords = 0 :=
    UInt64.toNat_inj (b := 0)
  by_cases hnone : request.numberOfWords = 0
  · rw [if_pos hnone] at h
    have hoffset : request.wordOffsetInRegister.toNat = 0 := by omega
    rw [OpcUaBackend.requestWindow, words, if_pos hnone, hwords.mpr hnone, hoffset]
    simp
  · rw [if_neg hnone] at h
    have hsome : request.numberOfWords.toNat ≠ 0 := fun hzero => hnone (hwords.mp hzero)
    have hsum := Nat.mod_le
      (request.numberOfWords.toNat + request.wordOffsetInRegister.toNat) (2 ^ 64)
    rw [OpcUaBackend.requestWindow, if_neg (by omega), words, if_neg hnone, if_neg hsome]

/-- The constructor of the accessor fails when it cannot be subscribed, and nowhere else. -/
theorem newRegisterAccessor_served {path node_id : String} (hraw : .raw ∉ request.flags)
    (hmemory : vectors.resize (request.words info.arrayLength) = .ok ())
    (hin : request.InArray info.arrayLength) (hfault : w.fault = none) :
    Served r request accessor w info (newRegisterAccessor r vectors path node_id info request.flags
      (request.words info.arrayLength) request.wordOffsetInRegister.toNat accessor w) := by
  have hpartial : ∀ n, (if info.arrayLength ≠ n then true else false) = false ↔
      info.arrayLength = n := by
    intro n
    by_cases h : info.arrayLength = n <;> simp [h]
  rw [newRegisterAccessor, if_neg hraw, hmemory]
  by_cases hwait : .wait_for_new_data ∈ request.flags
  · simp only [hwait, if_true]
    cases hsubscribe : constructAccessor r info.nodeBrowseName info.id accessor w with
    | threw message w' => exact .threw hwait hsubscribe
    | returned w' =>
      by_cases hend : w'.fault = none
      · refine .subscribed hwait ?_ hsubscribe hend
        exact CreatedAccessor.MadeFor.hasWindow
          ⟨rfl, rfl, iff_of_true rfl hwait, hpartial _, rfl, rfl⟩ hin
      · exact .faulted hwait hsubscribe hend
  · simp only [hwait, if_false]
    refine .made hwait ?_ hfault
    exact CreatedAccessor.MadeFor.hasWindow
      ⟨rfl, rfl, iff_of_false (by simp) hwait, hpartial _, rfl, rfl⟩ hin

/-- Each register of a well-formed catalogue serves every request for a window in it. -/
theorem RegistersOf.servesRequest (h : RegistersOf paths serverAddress c) (hinfo : info ∈ c)
    (hname : request.registerPathName = info.getRegisterName paths)
    (hin : request.InArray info.arrayLength) (hraw : .raw ∉ request.flags)
    (hmemory : vectors.resize (request.words info.arrayLength) = .ok ())
    (hfault : w.fault = none) : ServesRequest paths c vectors r request accessor w info := by
  have hfound : OpcUaBackend.findRegister paths c request.registerPathName = some info :=
    hname ▸ h.findRegister hinfo
  have htype : 1 ≤ info.dataType ∧ info.dataType ≤ 12 := by
    apply descriptorOf_isSome.mp
    rw [(h.described info hinfo).dataType]
    rfl
  rw [ServesRequest, getRegisterAccessor_passed hfound hin.requestWindow, newTypedAccessor,
    if_pos htype]
  exact newRegisterAccessor_served hraw hmemory hin hfault

/-- **Every register can be accessed.** Wherever the catalogue of a backend comes from, and in every
state without a fault, an accessor for a window in a register gets this register and this window,
unless it cannot be subscribed. -/
theorem construct_servesRequest {lib : Libraries φ} {settings : Settings} {env : Surroundings V}
    {depth : Nat} {files : Files φ} {started : Started V φ}
    (h : construct lib settings env depth files = some (.ok started))
    (hinfo : info ∈ started.catalogue)
    (hname : request.registerPathName = info.getRegisterName lib.paths)
    (hin : request.InArray info.arrayLength) (hraw : .raw ∉ request.flags)
    (hmemory : vectors.resize (request.words info.arrayLength) = .ok ())
    (hfault : w.fault = none) :
    ServesRequest lib.paths started.catalogue vectors r request accessor w info := by
  obtain ⟨serverAddress, hwell⟩ := construct_registersOf h
  exact hwell.servesRequest hinfo hname hin hraw hmemory hfault

theorem construct_servesRequest_scalar :
    ServesRequest slashPaths startedScalar.catalogue ⟨100, fun _ => true⟩ {}
      ⟨"/Dummy/scalar", 1, 0, [.wait_for_new_data]⟩ 10 startedScalar.world scalarRegister :=
  construct_servesRequest construct_scalar (List.mem_singleton_self _) rfl
    (by rw [AccessorRequest.InArray]; decide) (by decide) rfl rfl

end Accessors

/-! ## The runs that begin with a start -/

theorem World.Fresh.runCallbacks {w : World V} (h : w.Fresh)
    (hmanager : w.subscriptionManager = false) (cs : List (Callback V)) :
    (runCallbacks cs w).Fresh ∧ (runCallbacks cs w).subscriptionManager = false := by
  induction cs generalizing w with
  | nil => exact ⟨h, hmanager⟩
  | cons c cs ih =>
    have hfirst : (runCallback w c).Fresh ∧ (runCallback w c).subscriptionManager = false := by
      obtain ⟨hlifecycle, hasync, hitems, hmap, hhistory, hfault⟩ := h
      cases c with
      | state channelState sessionState =>
        -- without a manager the states are all that is noted
        simp only [runCallback, stateCallback, hmanager, Bool.and_false, Bool.false_and,
          Bool.false_eq_true, if_false]
        exact ⟨⟨hlifecycle, hasync, hitems, hmap, hhistory, hfault⟩, trivial⟩
      | inactivity subId =>
        simp only [runCallback, inactivityCallback, hmanager, Bool.and_false, Bool.false_and,
          Bool.false_eq_true, if_false]
        exact ⟨⟨hlifecycle, hasync, hitems, hmap, hhistory, hfault⟩, trivial⟩
      | deleteSubscription subscriptionId =>
        refine ⟨⟨?_, hasync, hitems, hmap, hhistory, hfault⟩, hmanager⟩
        show { w.toLifecycle with subscriptionActive := false, subscriptionID := 0 } = _
        rw [hlifecycle]
      | dataChange monId value =>
        have hsame : responseHandler monId value w = w := by
          rw [responseHandler, hmap, AList.lookup_empty]
        rw [runCallback, hsame]
        exact ⟨⟨hlifecycle, hasync, hitems, hmap, hhistory, hfault⟩, hmanager⟩
    exact ih hfirst.1 hfirst.2

/-- The runs of the backend begin where its constructor ends. -/
theorem construct_fresh {lib : Libraries φ} {settings : Settings} {env : Surroundings V}
    {depth : Nat} {files : Files φ} {started : Started V φ}
    (h : construct lib settings env depth files = some (.ok started)) : started.world.Fresh := by
  have hbegin : (settings.world : World V).Fresh := ⟨rfl, rfl, rfl, rfl, rfl, rfl⟩
  rcases construct_ok h with hcache | hserver
  · exact hcache.world ▸ hbegin
  · have hreset : (resetClient env.reset (settings.world : World V)).Fresh ∧
        (resetClient env.reset (settings.world : World V)).subscriptionManager = false :=
      hbegin.runCallbacks rfl _
    obtain ⟨hfresh, hmanager⟩ := hreset.1.runCallbacks hreset.2 env.connect.connect.callbacks
    have hworld := hserver.world
    rw [connect] at hworld
    simp only [hmanager, Bool.false_eq_true, if_false] at hworld
    split at hworld
    · exact Result.returned.inj hworld ▸ hfresh
    · cases hworld

/-! ## A second start -/

section Again

variable {lib : Libraries φ} {settings : Settings} {env : Surroundings V} {depth : Nat}
  {files : Files φ} {started : Started V φ}

/-- A document can hold the texts of the register, and its numbers have the size of their types. -/
structure Storable (r : OpcUABackendRegisterInfo) : Prop where
  browseName : XmlText r.nodeBrowseName
  description : XmlText r.description
  indexRange : XmlText r.indexRange
  identifier : r.id.identifier.Legal
  namespaceIndex : r.id.namespaceIndex < 2 ^ 16
  arrayLength : r.arrayLength < 2 ^ 32

theorem Described.added {paths : RegisterPaths} {serverAddress : String}
    {r : OpcUABackendRegisterInfo} (h : Described paths serverAddress r) (hr : Storable r) :
    Added paths serverAddress r where
  path := h.path
  serverAddress := h.serverAddress
  browseName := hr.browseName
  description := hr.description
  dataType := h.dataType
  isNumeric := h.isNumeric
  namespaceIndex := h.namespaceIndex
  namespaceBound := h.namespaceIndex ▸ hr.namespaceIndex
  arrayLength := hr.arrayLength
  accessModes := h.accessModes
  identifier := hr.identifier
  indexRange := hr.indexRange

/-- The second start has the registers of the first one, without asking the server and without
writing a file. -/
structure SameAgain (paths : RegisterPaths) (settings : Settings) (started again : Started V φ) :
    Prop where
  catalogue : List.Forall₂ (SameRegister paths) started.catalogue again.catalogue
  world : again.world = settings.world
  files : again.files = started.files

/-- **Starting twice.** Once the backend has made a catalogue from the server, a start finds the
same registers in the cache file whatever the server does then, exactly if there are any. -/
theorem construct_again_iff (hp : lib.paths.Documented) (hm : lib.modes.Documented)
    (hd : lib.dom.Documented) (haddress : settings.fileAddress ≠ "" ∧ XmlText settings.fileAddress)
    (hcacheFile : settings.cacheFile ≠ "")
    (h : construct lib settings env depth files = some (.ok started))
    (hfirst : ¬ started.FromCache lib settings files)
    (hstorable : ∀ r ∈ started.catalogue, Storable r) :
    (∃ again : Started V φ, SameAgain lib.paths settings started again ∧
      ∀ env' depth', construct lib settings env' depth' started.files = some (.ok again)) ↔
    started.catalogue ≠ [] := by
  have hserver := (construct_ok h).resolve_left hfirst
  have hwell := gatherRegisters_makes hserver.catalogue
  have hread := readCatalogue_saved hp hm hd haddress.2
    (fun r hr => (hwell.described r hr).added (hstorable r hr)) hwell.distinct
    (saveCatalogue_file (hserver.saved hcacheFile))
  constructor
  · rintro ⟨again, -, hagain⟩ hempty
    -- the element of the server address has no text
    rw [hempty] at hread
    have hbroken := hagain env depth
    rw [construct, if_neg hcacheFile, hread] at hbroken
    cases hbroken
  · intro hne
    obtain ⟨r, c, hcatalogue⟩ := List.exists_cons_of_ne_nil hne
    have hr := hwell.described r (hcatalogue ▸ List.mem_cons_self ..)
    have haddr : addressRead started.catalogue = .ok r.serverAddress := by
      rw [hcatalogue, addressRead, if_neg (hr.serverAddress ▸ haddress.1)]
    rw [haddr] at hread
    refine ⟨⟨settings.world, started.catalogue.map (·.reread lib.paths), started.files⟩, ?_, ?_⟩
    · refine ⟨?_, rfl, rfl⟩
      rw [List.forall₂_map_right_iff]
      exact List.forall₂_same.mpr fun q _ => sameRegister_reread hp q
    · intro env' depth'
      rw [construct, if_neg hcacheFile, hread]
      rfl

theorem storable_scalarRegister : Storable scalarRegister where
  browseName := AsciiText.xmlText (by decide)
  description := AsciiText.xmlText (by decide)
  indexRange := AsciiText.xmlText (by decide)
  identifier := ⟨by decide, AsciiText.xmlText (by decide)⟩
  namespaceIndex := by decide
  arrayLength := by decide

theorem construct_again_scalar :
    (∃ again : Started Nat (Option Document),
      SameAgain slashPaths cachedSettings startedScalar again ∧
      ∀ env' depth', construct treeLibraries cachedSettings env' depth' startedScalar.files
        = some (.ok again)) ↔
    startedScalar.catalogue ≠ [] :=
  construct_again_iff slashPaths_documented flagTexts_documented Dom.tree_documented
    ⟨by decide, AsciiText.xmlText (by decide)⟩ (by decide) construct_scalar
    (fun hcache => by
      have hread : Except.error _ = Except.ok _ := hcache.catalogue
      cases hread)
    (fun r hr => List.mem_singleton.mp hr ▸ storable_scalarRegister)

end Again

/-! ## How a start fails -/

section Failures

/-- The exceptions of the device access library. -/
def Failure.IsDeviceAccess : Failure → Prop
  | .logicError _ | .runtimeError _ => True
  | .outOfRange | .invalidArgument | .xmlException _ | .undefinedBehaviour => False

variable {b : CatalogueSource} {c : OpcUaBackendRegisterCatalogue} {failure : Failure}

/-- An entry without a range fails with a `logic_error` unless it has no name. -/
theorem addCatalogueEntry_failure {answers : NodeAnswers} {node : UA_NodeId}
    {nodeName : Option String}
    (h : addCatalogueEntry b answers node nodeName "" c = .error failure) :
    failure = .outOfRange ∧ Nameless node nodeName ∨ ∃ message, failure = .logicError message := by
  by_cases hname : Nameless node nodeName
  · rw [addCatalogueEntry_nameless hname] at h
    exact .inl ⟨(Except.error.inj h).symm, hname⟩
  by_cases husable : answers.Usable b ""
  · obtain ⟨entry, -, hadd⟩ := addCatalogueEntry_usable hname husable
    rw [hadd] at h
    cases hregister : addRegister b.paths entry c with
    | ok c' => simp [hregister, Except.mapError] at h
    | error message =>
      simp only [hregister, Except.mapError, Except.error.injEq] at h
      exact .inr ⟨message, h.symm⟩
  · rw [addCatalogueEntry_unusable hname husable (not_breaks_empty answers)] at h
    cases h

theorem addVariable_failure {answers : UA_NodeId → NodeAnswers} {s : Browsed} {v : UA_NodeId}
    (h : addVariable b answers s v = .error failure) :
    failure = .outOfRange ∧ v.identifier = .string "" ∨
      ∃ message, failure = .logicError message := by
  unfold addVariable at h
  cases hentry : addCatalogueEntry b (answers v) v none "" s.catalogue with
  | ok c => simp [hentry, Except.map] at h
  | error failure' =>
    simp only [hentry, Except.map, Except.error.injEq] at h
    exact (addCatalogueEntry_failure (h ▸ hentry)).imp_left fun hand => ⟨hand.1, hand.2.2⟩

/-- Browsing fails where a variable that it meets does. -/
theorem browseRecursive_failure {answers : UA_NodeId → NodeAnswers} {space : AddressSpace}
    {depth : Nat} {node : UA_NodeId} {s : Browsed}
    (h : browseRecursive b answers space depth node s = some (.error failure)) :
    (failure = .outOfRange ∧ ∃ v ∈ space.nodes, v.identifier = .string "") ∨
      ∃ message, failure = .logicError message := by
  induction depth generalizing node s with
  | zero => cases h
  | succ depth ih =>
    -- by induction on the references of the node
    have hall : ∀ ms : List UA_NodeId, (∀ m ∈ ms, m ∈ space.nodes) → ∀ s,
        browseReferences b answers (browseRecursive b answers space depth)
          (ms.map fun m => ⟨space.nodeClass m, m⟩) s = some (.error failure) →
        (failure = .outOfRange ∧ ∃ v ∈ space.nodes, v.identifier = .string "") ∨
          ∃ message, failure = .logicError message := by
      intro ms hms
      induction ms with
      | nil => exact fun s h => by cases h
      | cons m ms ihms =>
        intro s h
        rw [List.map_cons, browseReferences] at h
        split at h
        · exact ihms (fun n hn => hms n (List.mem_cons_of_mem _ hn)) _ h
        · unfold browseReference at h
          split at h
          · exact ih h
          · split at h
            · apply (addVariable_failure (Option.some.inj h)).imp_left
              rintro ⟨hfailure, hempty⟩
              exact ⟨hfailure, m, hms m (List.mem_cons_self ..), hempty⟩
            · cases h
    exact hall _ (fun m hm => space.closed node m (List.mem_append_left _ hm)) s h

theorem addLines_failure {answers : Nat → NodeAnswers} {file : MapFile}
    {c' : OpcUaBackendRegisterCatalogue}
    (h : addLines b answers file c = (c', some failure)) : failure.IsDeviceAccess := by
  unfold addLines at h
  split at h
  · obtain ⟨-, hfailure⟩ := Prod.mk.inj h
    obtain rfl := Option.some.inj hfailure
    trivial
  · rename_i text _
    rcases foldUntil_cases (addLine b) c (withAnswers answers (lines text)) with
      ⟨c₁, -, heq⟩ | ⟨done, entry, rest, c₁, failure', -, -, hline, heq⟩
    · rw [heq] at h
      cases h
    · rw [heq] at h
      obtain ⟨-, hfailure⟩ := Prod.mk.inj h
      obtain rfl := Option.some.inj hfailure
      have hne : ∀ (node : UA_NodeId) (nodeName : Option String) c,
          addCatalogueEntry b entry.2 node nodeName "" c ≠ .error .invalidArgument :=
        fun node nodeName c => addCatalogueEntry_ne_invalidArgument
      rw [addLine, legacyLine_eq hne] at hline
      split at hline
      · unfold caught at hline
        split at hline
        · cases hline
        · rename_i hcaught
          -- an entry without a name is one of those that are caught
          rcases addCatalogueEntry_failure hline with ⟨rfl, -⟩ | ⟨message, rfl⟩
          · exact absurd hline hcaught
          · trivial
      · cases hline

/-- Undefined behaviour of the map file: an element without a text, or a text that is no range. -/
def BreaksMapFile (b : CatalogueSource) (answers : Nat → NodeAnswers) (file : MapFile) : Prop :=
  readMapFile b.rootNode file = .error .undefinedBehaviour ∨
  ∃ elements, readMapFile b.rootNode file = .ok elements ∧
    ∃ entry ∈ withAnswers answers elements, entry.2.Breaks b entry.1.range

theorem addElements_failure {answers : Nat → NodeAnswers} {file : MapFile}
    (h : (addElements b answers file c).2 = some .undefinedBehaviour) :
    BreaksMapFile b answers file := by
  unfold addElements at h
  split at h
  · rename_i hread
    exact .inl (hread.trans (congrArg Except.error (Option.some.inj h)))
  · cases h
  · rename_i elements _ hread
    refine .inr ⟨elements, hread, ?_⟩
    rcases foldUntil_cases (addElement b) c (withAnswers answers elements) with
      ⟨c₁, -, heq⟩ | ⟨done, entry, rest, c₁, failure', hsplit, -, hadd, heq⟩
    · rw [heq] at h
      cases h
    · rw [heq] at h
      obtain rfl := Option.some.inj h
      refine ⟨entry, ?_, (addElement_undefinedBehaviour.mp hadd).1⟩
      rw [hsplit]
      exact List.mem_append_right _ (List.mem_cons_self ..)

theorem getNodesFromMapfile_failure {answers legacyAnswers : Nat → NodeAnswers} {file : MapFile}
    {c' : OpcUaBackendRegisterCatalogue}
    (h : getNodesFromMapfile b answers legacyAnswers file c = (c', some failure)) :
    failure.IsDeviceAccess ∨ failure = .undefinedBehaviour ∧ BreaksMapFile b answers file := by
  unfold getNodesFromMapfile at h
  simp only at h
  split at h
  · -- everything was read, and nothing was found
    unfold checkElements at h
    split at h
    · obtain ⟨-, hfailure⟩ := Prod.mk.inj h
      obtain rfl := Option.some.inj hfailure
      exact .inl trivial
    · cases h
  · split at h
    · cases h
    · rename_i hadd
      obtain ⟨-, hfailure⟩ := Prod.mk.inj h
      obtain rfl := Option.some.inj hfailure
      exact .inr ⟨rfl, addElements_failure (by rw [hadd])⟩
    · exact .inl (addLines_failure h)

variable (lib : Libraries φ) (settings : Settings) (env : Surroundings V) (files : Files φ) in
/-- What leaves a start although it is no exception of the device access library. -/
inductive Escapes : Failure → Prop
  /-- a numeric node id of the cache file is no number, or too large a one -/
  | cachedNumber {error : ConversionError} (cacheFile : settings.cacheFile ≠ "")
      (read : readCatalogue lib.paths lib.modes lib.dom settings.cacheFile files
        = .error (.standard error)) : Escapes (ConversionError.failure error)
  /-- the cache file lacks something that is read -/
  | cachedDocument (cacheFile : settings.cacheFile ≠ "")
      (read : readCatalogue lib.paths lib.modes lib.dom settings.cacheFile files
        = .error .undefinedBehaviour) : Escapes .undefinedBehaviour
  /-- a variable has an empty node id, and browsing does not begin at a root node -/
  | emptyNodeId {v : UA_NodeId} (mapfile : settings.mapfile = "")
      (rootNode : settings.rootNode = "") (node : v ∈ env.space.nodes)
      (empty : v.identifier = .string "") : Escapes .outOfRange
  /-- the map file leads to undefined behaviour -/
  | mapFile (mapfile : settings.mapfile ≠ "")
      (breaks : BreaksMapFile (catalogueSource lib settings) env.elementAnswers
        (env.mapFile settings)) : Escapes .undefinedBehaviour
  /-- the stream of the temporary cache file is bad -/
  | badStream {what : String} (cacheFile : settings.cacheFile ≠ "")
      (written : env.cache.written = .error what) : Escapes (.xmlException what)

variable {lib : Libraries φ} {settings : Settings} {env : Surroundings V} {depth : Nat}
  {files : Files φ}

theorem gatherRegisters_failure
    (h : gatherRegisters lib settings env depth = some (.error failure)) :
    failure.IsDeviceAccess ∨ Escapes lib settings env files failure := by
  unfold gatherRegisters at h
  simp only at h
  split at h
  · rename_i hmapfile
    split at h
    · rename_i hroot
      obtain ⟨browsed, hbrowsed, hmap⟩ := Option.map_eq_some_iff.mp h
      cases browsed with
      | ok s => cases hmap
      | error failure' =>
        obtain rfl := Except.error.inj hmap
        rcases browseRecursive_failure hbrowsed with ⟨rfl, v, hv, hempty⟩ | ⟨message, rfl⟩
        · exact .inr (.emptyNodeId hmapfile hroot hv hempty)
        · exact .inl trivial
    · -- the handler of a browse from the root node replaces them all
      obtain ⟨browsed, hbrowsed, hreplace⟩ := Option.map_eq_some_iff.mp h
      unfold replaceException at hreplace
      split at hreplace
      · cases hreplace
      · exfalso
        obtain ⟨inner, hinner, hmap⟩ := Option.map_eq_some_iff.mp hbrowsed
        cases inner with
        | ok s => cases hmap
        | error failure' =>
          obtain rfl := Except.error.inj hmap
          -- no variable leads to undefined behaviour
          rcases browseRecursive_failure hinner with ⟨hne, -⟩ | ⟨message, hne⟩ <;> cases hne
      · obtain rfl := Except.error.inj hreplace
        exact .inl trivial
  · rename_i hmapfile
    split at h
    · cases h
    · rename_i hget
      obtain rfl := Except.error.inj (Option.some.inj h)
      rcases getNodesFromMapfile_failure hget with hthrown | ⟨rfl, hbreaks⟩
      · exact .inl hthrown
      · exact .inr (.mapFile hmapfile hbreaks)

/-- A catalogue that is not saved ends in a `runtime_error`, or the writer has thrown. -/
theorem saveCatalogue_failure {answers : FileAnswers} {c : OpcUaBackendRegisterCatalogue}
    {cacheFile : String} {e : SaveFailure}
    (h : saveCatalogue lib.paths lib.modes lib.dom answers c cacheFile files = .error e) :
    e.failure.IsDeviceAccess ∨ ∃ what, answers.written = .error what ∧ e = .xmlException what := by
  unfold saveCatalogue at h
  split at h
  · obtain rfl := Except.error.inj h
    exact .inl trivial
  · simp only at h
    split at h
    · rename_i what hwritten
      exact .inr ⟨what, hwritten, (Except.error.inj h).symm⟩
    · split at h
      · obtain rfl := Except.error.inj h
        exact .inl trivial
      · split at h
        · obtain rfl := Except.error.inj h
          exact .inl trivial
        · cases h

theorem connectAndFill_failure {w : World V}
    (h : connectAndFill lib settings env depth settings.cacheFile files w
      = some (.error failure)) :
    failure.IsDeviceAccess ∨ Escapes lib settings env files failure := by
  unfold connectAndFill at h
  split at h
  · obtain rfl := Except.error.inj (Option.some.inj h)
    exact .inl trivial
  · obtain ⟨filled, hfilled, hmap⟩ := Option.map_eq_some_iff.mp h
    cases filled with
    | ok made => cases hmap
    | error failure' =>
      obtain rfl := Except.error.inj hmap
      obtain ⟨gathered, hgathered, hfill⟩ := Option.map_eq_some_iff.mp hfilled
      cases gathered with
      | error failure'' =>
        obtain rfl := Except.error.inj hfill
        exact gatherRegisters_failure hgathered
      | ok c =>
        by_cases hcache : settings.cacheFile = ""
        · rw [hcache] at hfill
          cases hfill
        · have hfill' : (if settings.cacheFile = "" then .ok (c, files)
              else ((saveCatalogue lib.paths lib.modes lib.dom env.cache c settings.cacheFile
                files).mapError SaveFailure.failure).bind fun files => .ok (c, files))
              = Except.error failure' := hfill
          rw [if_neg hcache] at hfill'
          cases hsave : saveCatalogue lib.paths lib.modes lib.dom env.cache c settings.cacheFile
            files with
          | ok files' => simp [hsave, Except.mapError, Except.bind] at hfill'
          | error e =>
            simp only [hsave, Except.mapError, Except.bind, Except.error.injEq] at hfill'
            rw [← hfill']
            apply (saveCatalogue_failure hsave).imp_right
            rintro ⟨what, hwritten, rfl⟩
            exact .badStream hcache hwritten

/-- **What leaves a start** is an exception of the device access library, but for a cache file or
a map file that is broken, for a server with an empty node id, and for a temporary file that cannot
be written. -/
theorem construct_failure (h : construct lib settings env depth files = some (.error failure)) :
    failure.IsDeviceAccess ∨ Escapes lib settings env files failure := by
  unfold construct at h
  by_cases hcache : settings.cacheFile = ""
  · rw [if_pos hcache] at h
    rw [← hcache] at h
    exact connectAndFill_failure h
  · rw [if_neg hcache] at h
    split at h
    · cases h
    · exact connectAndFill_failure h
    · rename_i hread
      obtain rfl := Except.error.inj (Option.some.inj h)
      exact .inr (.cachedNumber hcache hread)
    · rename_i hread
      obtain rfl := Except.error.inj (Option.some.inj h)
      exact .inr (.cachedDocument hcache hread)

/-- A server that does not answer the request for a connection in time. -/
def silentServer : Surroundings Nat :=
  { dummyServer with connect := { connect := { result := ⟨0x800A0000, "BadTimeout"⟩ } } }

theorem construct_failure_silent : ∃ failure,
    construct treeLibraries cachedSettings silentServer 2 (fun _ => none)
      = some (.error failure) ∧
    (failure.IsDeviceAccess ∨
      Escapes treeLibraries cachedSettings silentServer (fun _ => none) failure) := by
  have h : construct treeLibraries cachedSettings silentServer 2 (fun _ => none)
      = some (.error (.runtimeError
        ("Failed to connect to opc server: opc.tcp://localhost:16664"
          ++ " with reason: " ++ "BadTimeout"))) := rfl
  exact ⟨_, h, construct_failure h⟩

end Failures

end OpcUaBackend
