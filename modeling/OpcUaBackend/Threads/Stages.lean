import OpcUaBackend.Threads.Effects

/-!
# The registration that a thread is in

A registration of an item is three operations on the stack of its thread: the request, what
follows its answer under `client_lock`, and the insertion into the map under the mutex. The
callbacks inside the request run before the rest. So a stack has what is left of one
registration at most, and as long as it has something left, the thread runs operations of
callbacks only, besides those of the registration.

## Main definitions

* `Op.isNested`, `Op.isClient`: the operations of callbacks, and of the client thread
* `Code.stage`, `CallStage`: what is left of a registration
* `Code.Nested`: nothing but operations of callbacks stands before a registration

## Main results

* `Op.exec_inner`, `Op.exec_client`: what these operations put on a stack is of the same kind
* `client_keepsItems`: the client thread adds no item and removes none
* `Nesting.step`: the stacks have this form in every state
-/

namespace OpcUaBackend

open Foundation

variable {V : Type}

/-! ## Operations of callbacks and of the client thread -/

/-- The operation belongs to a callback. -/
def Op.isNested : Op V → Bool
  | raise _ _ => true
  | clearActive _ => true
  | clearRun => true
  | testActive _ => true
  | clearSubscriptionActive => true
  | testThread _ => true
  | recordRemoval => true
  | clearAsync => true
  | library (.subscriptionsDelete _) _ => true
  | callback _ => true
  | testConnection => true
  | closeSession => true
  | pushData _ _ => true
  | clearID => true
  | resetItems => true
  | _ => false

/-- The operation belongs to `runClient`, or to a callback in it. -/
def Op.isClient (i : Op V) : Bool :=
  i.isNested || match i with
    | testRun => true
    | library .runIterate _ => true
    | iterated _ => true
    | testRemoval _ => true
    | clearRemoval => true
    | leaveCleanUp => true
    | finish => true
    | _ => false

/-- The operation belongs to the registration of an item. -/
def Op.isStage : Op V → Bool
  | library (.createDataChange _ _) _ => true
  | created _ _ => true
  | answered _ _ _ => true
  | _ => false

/-- The code runs operations of the kind only. -/
def Code.only (kind : Op V → Bool) (code : Code V) : Bool :=
  code.all fun
    | .run j => kind j
    | _ => true

theorem Code.only_mem {kind : Op V → Bool} {code : Code V} (h : Code.only kind code = true)
    {j : Op V} (hj : .run j ∈ code) : kind j = true :=
  List.all_eq_true.mp h _ hj

theorem Code.only_callbacks {kind : Op V → Bool} (callbacks : List (Callback V))
    (hkind : ∀ c, kind (.callback c) = true) :
    Code.only kind (callbacks.map fun c => .run (.callback c)) = true := by
  refine List.all_eq_true.mpr fun x hx => ?_
  obtain ⟨c, -, rfl⟩ := List.mem_map.mp hx
  exact hkind c

section Closed

variable {p p' : Process V} {next : Next (Op V) Lock} {code : Code V}

theorem Code.only_mono {kind kind' : Op V → Bool}
    (hmono : ∀ j, kind j = true → kind' j = true) (h : Code.only kind code = true) :
    Code.only kind' code = true := by
  refine List.all_eq_true.mpr fun x hx => ?_
  cases x with
  | run j => exact hmono j (Code.only_mem h hx)
  | lock l => rfl
  | unlock l => rfl

/-- An operation of a callback or of a registration puts operations of callbacks on the stack. -/
theorem Op.exec_inner {i : Op V} (hi : i.isNested = true ∨ i.isStage = true)
    (he : i.exec p = some (p', next)) :
    ∃ code, next = .into code ∧ Code.only Op.isNested code = true := by
  cases i <;> try (rcases hi with hi | hi <;> cases hi <;> done)
  case callback c =>
    cases c <;> simp only [Op.exec, enterCallback] at he <;> repeat' split at he
    all_goals exact ⟨_, (Process.into_eq.mp he).2.symm, rfl⟩
  case library call callbacks =>
    exact ⟨_, (Process.into_eq.mp he).2.symm, Code.only_callbacks callbacks fun _ => rfl⟩
  case created result i =>
    simp only [Op.exec] at he
    split at he
    all_goals exact ⟨_, (Process.into_eq.mp he).2.symm, rfl⟩
  case answered result i browseName =>
    simp only [Op.exec] at he
    split at he
    all_goals exact ⟨_, (Process.into_eq.mp he).2.symm, rfl⟩
  all_goals
    simp only [Op.exec] at he
    refine ⟨_, (Process.into_eq.mp he).2.symm, ?_⟩
    repeat' split
    all_goals rfl

/-- An operation of the client thread puts such operations on the stack. -/
theorem Op.exec_client {i : Op V} (hi : i.isClient = true) (he : i.exec p = some (p', next)) :
    ∃ code, next = .into code ∧ Code.only Op.isClient code = true := by
  by_cases hnested : i.isNested = true
  · obtain ⟨code, hcode, honly⟩ := Op.exec_inner (.inl hnested) he
    exact ⟨code, hcode, Code.only_mono (fun j hj => by simp [Op.isClient, hj]) honly⟩
  cases i <;> try (first | exact absurd rfl hnested | cases hi <;> done)
  case library call callbacks =>
    exact ⟨_, (Process.into_eq.mp he).2.symm, Code.only_callbacks callbacks fun _ => rfl⟩
  all_goals
    simp only [Op.exec] at he
    refine ⟨_, (Process.into_eq.mp he).2.symm, ?_⟩
    repeat' split
    all_goals rfl

/-- An operation of the client thread leaves every item in its slot, with its name and its
accessors. -/
theorem Op.exec_keepsItems {i : Op V} (hi : i.isClient = true) (he : i.exec p = some (p', next)) :
    p'.items.base = p.items.base ∧
      p'.items.elems.map (fun item => (item.browseName, item.accessors))
        = p.items.elems.map fun item => (item.browseName, item.accessors) := by
  by_cases hplain : i.isPlain = true
  · rw [(Op.exec_plain hplain he).items]
    exact ⟨rfl, rfl⟩
  by_cases hitems : i.changesItems = true
  · cases i <;> try (cases hitems; done)
    case resetItems =>
      obtain ⟨rfl, -⟩ := Process.into_eq.mp he
      simp [Process.on, OpcUaBackend.resetMonitoredItems, SlotDeque.map, Function.comp_def]
    all_goals cases hi
  · have hframe := Op.exec_frame (by simpa using hplain) (by simpa using hitems) he
    have hcore := congrArg (List.map fun item : MonitorItem => (item.browseName, item.accessors))
      hframe.core
    exact ⟨hframe.base, by simpa only [List.map_map, Function.comp_def, MonitorItem.core] using hcore⟩

end Closed

section Client

variable {α : Type} [DecidableEq α] {s s' : State V α} {m : Move (Thread α) (Entry V)}

/-- The client thread runs operations of its own only. -/
theorem Step.client_only (hs : (threads V α).Step s m s')
    (h : Code.only Op.isClient (s.stack .client) = true) :
    Code.only Op.isClient (s'.stack .client) = true := by
  refine List.all_eq_true.mpr fun x hx => ?_
  rcases hs.mem_stack hx with hold | ⟨c, code, -, hcode, hmem⟩ |
    ⟨i, rest, p', code, -, hstack, hexec, hmem⟩
  · exact List.all_eq_true.mp h x hold
  · cases c with
    | runClient iterate removal =>
      obtain ⟨place, -, hplace⟩ := Option.bind_eq_some_iff.mp hcode
      have honly : Code.only Op.isClient code = true := by
        cases place <;> cases hplace <;> rfl
      exact List.all_eq_true.mp honly x hmem
    | _ => cases hcode
  · have hi : i.isClient = true :=
      Code.only_mem h (hstack ▸ List.mem_cons_self ..)
    obtain ⟨code', hcode', honly⟩ := Op.exec_client hi hexec
    cases hcode'
    exact List.all_eq_true.mp honly x hmem

theorem reach_client_only {guard : State V α → Move (Thread α) (Entry V) → Prop}
    (h : (threads V α).machine.Reach guard s) :
    Code.only Op.isClient (s.stack .client) = true := by
  refine h.invariant (I := fun s => Code.only Op.isClient (s.stack .client) = true)
    (fun s hinit => ?_) fun s m s' hI _ hs => Step.client_only hs.1 hI
  have hempty : s.stack .client = [] := hinit.2.1 .client
  rw [hempty]
  rfl

/-- **The client thread** adds no item and removes none, in no state of a run. So the item that a
single application thread looks up at a position, or under a name, is the one it found there
before it released the mutex. -/
theorem client_keepsItems {guard : State V α → Move (Thread α) (Entry V) → Prop}
    (h : (threads V α).machine.Reach guard s) (hs : (threads V α).Step s (.advance .client) s') :
    s'.shared.items.base = s.shared.items.base ∧
      s'.shared.items.elems.map (fun item => (item.browseName, item.accessors))
        = s.shared.items.elems.map fun item => (item.browseName, item.accessors) := by
  rcases hs.shared with heq | ⟨t, i, rest, next, hm, hstack, hexec⟩
  · rw [heq]
    exact ⟨rfl, rfl⟩
  · obtain rfl := Move.advance.inj hm
    have hi : i.isClient = true :=
      Code.only_mem (reach_client_only h) (hstack ▸ List.mem_cons_self ..)
    exact Op.exec_keepsItems hi hexec

end Client

/-! ## What is left of a registration -/

/-- The operations of registrations in the code. -/
def Code.stage (code : Code V) : List (Op V) :=
  code.filterMap fun
    | .run j => if j.isStage then some j else none
    | _ => none

/-- Where the registration of an item stands: before the request, after it, and after
`client_lock` is released. -/
inductive CallStage
  | idle
  | requesting (result : MonitoredItemCreateResult) (i : Nat) (browseName : String)
  | answered (result : MonitoredItemCreateResult) (i : Nat) (browseName : String)
  | inserting (result : MonitoredItemCreateResult) (i : Nat) (browseName : String)

/-- What is left at a stage. -/
inductive CallStage.Leaves : CallStage → List (Op V) → Prop
  | idle : Leaves .idle []
  | requesting {request result callbacks i browseName} :
      Leaves (.requesting result i browseName)
        [.library (.createDataChange request result) callbacks, .created result i,
          .answered result i browseName]
  | answered {result i browseName} :
      Leaves (.answered result i browseName) [.created result i, .answered result i browseName]
  | inserting {result i browseName} :
      Leaves (.inserting result i browseName) [.answered result i browseName]

/-- Operations of callbacks only stand before what is left of a registration. -/
def Code.Nested : Code V → Prop
  | [] => True
  | .run i :: rest => (i.isNested = false → i.isStage = false → Code.stage rest = []) ∧ Nested rest
  | .lock _ :: rest => Nested rest
  | .unlock _ :: rest => Nested rest

section Stack

variable {code code' : Code V}

theorem Code.stage_append : Code.stage (code ++ code') = Code.stage code ++ Code.stage code' :=
  List.filterMap_append

theorem Code.stage_run {i : Op V} {rest : Code V} :
    Code.stage (.run i :: rest) = (if i.isStage then [i] else []) ++ Code.stage rest := by
  simp only [Code.stage, List.filterMap_cons]
  by_cases hi : i.isStage = true <;> simp [hi]

theorem Code.mem_of_stage {i : Op V} (h : i ∈ Code.stage code) : .run i ∈ code := by
  obtain ⟨x, hx, hi⟩ := List.mem_filterMap.mp h
  cases x with
  | run j =>
    simp only at hi
    split at hi
    · exact Option.some.inj hi ▸ hx
    · cases hi
  | lock l => cases hi
  | unlock l => cases hi

/-- Operations that are in no registration leave nothing. -/
theorem Code.stage_eq_nil (h : ∀ j, .run j ∈ code → j.isStage = false) : Code.stage code = [] := by
  refine List.filterMap_eq_nil_iff.mpr fun x hx => ?_
  cases x with
  | run j => simp [h j hx]
  | lock l => rfl
  | unlock l => rfl

theorem Op.isAwaited_of_isStage {i : Op V} (h : i.isStage = true) : i.isAwaited = true := by
  cases i <;> try cases h
  case library call callbacks => cases call <;> first | rfl | cases h
  all_goals rfl

theorem Code.stage_of_unawaited (h : Code.unawaited code = true) : Code.stage code = [] := by
  refine Code.stage_eq_nil fun j hj => ?_
  by_contra hstage
  have hawaited := Op.isAwaited_of_isStage (by simpa using hstage)
  simp [Code.unawaited_mem h hj] at hawaited

theorem Op.not_isStage_of_isNested {i : Op V} (h : i.isNested = true) : i.isStage = false := by
  cases i <;> try rfl
  case library call callbacks => cases call <;> first | rfl | cases h
  all_goals cases h

theorem Op.not_isStage_of_isClient {i : Op V} (h : i.isClient = true) : i.isStage = false := by
  by_cases hnested : i.isNested = true
  · exact Op.not_isStage_of_isNested hnested
  cases i <;> try rfl
  case library call callbacks =>
    cases call <;> first | rfl | simp [Op.isClient, Op.isNested] at h
  all_goals simp [Op.isClient, Op.isNested] at h

theorem Code.nested_of_stage (h : Code.stage code = []) : Code.Nested code := by
  induction code with
  | nil => trivial
  | cons x rest ih =>
    cases x with
    | run i =>
      rw [Code.stage_run, List.append_eq_nil_iff] at h
      exact ⟨fun _ _ => h.2, ih h.2⟩
    | lock l => exact ih h
    | unlock l => exact ih h

theorem Code.Nested.append (hcode : Code.only Op.isNested code = true) (h : Code.Nested code') :
    Code.Nested (code ++ code') := by
  induction code with
  | nil => exact h
  | cons x rest ih =>
    obtain ⟨hx, hrest⟩ : _ ∧ Code.only Op.isNested rest = true := by
      simpa [Code.only] using hcode
    cases x with
    | run i => exact ⟨fun hi => absurd hx (by simp [hi]), ih hrest⟩
    | lock l => exact ih hrest
    | unlock l => exact ih hrest

theorem Code.stage_of_nested (hcode : Code.only Op.isNested code = true) :
    Code.stage code = [] :=
  Code.stage_eq_nil fun _ hj => Op.not_isStage_of_isNested (Code.only_mem hcode hj)

end Stack

/-! ## The stages of a registration -/

/-- An operation takes the registration from one stage to another. -/
inductive CallStage.Goes (p : Process V) : Op V → CallStage → CallStage → Prop
  | inner {i stage} : i.isNested = true → Goes p i stage stage
  | outer {i} : i.isNested = false → i.isStage = false → Goes p i .idle .idle
  | enter {reply i item} : (activateIfAsync i p.toWorld).items.elems[i]? = some item →
      item.isMonitored = false →
      Goes p (.monitorItem reply i) .idle (.requesting reply.result i item.browseName)
  | request {request result callbacks i browseName} :
      Goes p (.library (.createDataChange request result) callbacks)
        (.requesting result i browseName) (.answered result i browseName)
  | release {result i browseName} :
      Goes p (.created result i) (.answered result i browseName) (.inserting result i browseName)
  | insert {result i browseName} :
      Goes p (.answered result i browseName) (.inserting result i browseName) .idle

theorem CallStage.Leaves.idle_eq {stage : CallStage} (h : stage.Leaves ([] : List (Op V))) :
    stage = .idle := by
  cases h
  rfl

theorem CallStage.Leaves.inserting_eq {result : MonitoredItemCreateResult} {i : Nat}
    {browseName : String} {left : List (Op V)}
    (h : (CallStage.inserting result i browseName).Leaves left) :
    left = [.answered result i browseName] := by
  cases h
  rfl

section Goes

variable {p p' : Process V} {next : Next (Op V) Lock} {rest : Code V} {stage : CallStage}

theorem monitorItem_enters {reply : Reply V MonitoredItemCreateResult} {i : Nat} {code : Code V}
    (hrest : Code.stage rest = []) (he : monitorItem reply i p = some (p', .into code)) :
    Code.Nested (code ++ rest) ∧ ∃ stage', stage'.Leaves (Code.stage (code ++ rest)) ∧
      CallStage.Goes p (.monitorItem reply i) .idle stage' := by
  have hnone : Code.stage code = [] → Code.Nested (code ++ rest) ∧
      ∃ stage', stage'.Leaves (Code.stage (code ++ rest)) ∧
        CallStage.Goes p (.monitorItem reply i) .idle stage' := by
    intro hcode
    have hstage : Code.stage (code ++ rest) = [] := by rw [Code.stage_append, hcode, hrest]; rfl
    exact ⟨Code.nested_of_stage hstage, .idle, hstage ▸ .idle, .outer rfl rfl⟩
  simp only [monitorItem] at he
  split at he
  · obtain rfl := Next.into.inj (Process.into_eq.mp he).2
    exact hnone rfl
  · rename_i item hitem
    split at he
    · obtain rfl := Next.into.inj (Process.into_eq.mp he).2
      exact hnone rfl
    · rename_i hmon
      split at he
      · obtain rfl := Next.into.inj (Process.into_eq.mp he).2
        exact hnone rfl
      · obtain rfl := Next.into.inj (Process.into_eq.mp he).2
        have hstage : ∀ {P : Prop} {j : Op V}, j.isStage = true → j.isStage = false → P :=
          fun htrue hfalse => by simp [htrue] at hfalse
        refine ⟨⟨fun _ => hstage rfl, fun _ => hstage rfl, fun _ => hstage rfl,
          Code.nested_of_stage hrest⟩, _, ?_, .enter hitem (by simpa using hmon)⟩
        rw [Code.stage_append, hrest]
        exact .requesting

/-- **The stage** after an operation of the thread. -/
theorem Code.Nested.goes {i : Op V} (hn : Code.Nested (.run i :: rest))
    (hl : stage.Leaves (Code.stage (.run i :: rest))) (he : i.exec p = some (p', next)) :
    Code.Nested (next.stack rest) ∧
      ∃ stage', stage'.Leaves (Code.stage (next.stack rest)) ∧ stage.Goes p i stage' := by
  obtain ⟨hi, hrest⟩ := hn
  rw [Code.stage_run] at hl
  by_cases hnested : i.isNested = true
  · obtain ⟨code, rfl, honly⟩ := Op.exec_inner (.inl hnested) he
    rw [if_neg (by simp [Op.not_isStage_of_isNested hnested])] at hl
    refine ⟨hrest.append honly, stage, ?_, .inner hnested⟩
    rw [Next.stack, Code.stage_append, Code.stage_of_nested honly]
    exact hl
  by_cases hstage : i.isStage = true
  · obtain ⟨code, rfl, honly⟩ := Op.exec_inner (.inr hstage) he
    rw [if_pos hstage] at hl
    rw [Next.stack, Code.stage_append, Code.stage_of_nested honly]
    refine ⟨hrest.append honly, ?_⟩
    generalize Code.stage rest = left at hl
    cases hl with
    | requesting => exact ⟨_, .answered, .request⟩
    | answered => exact ⟨_, .inserting, .release⟩
    | inserting => exact ⟨_, .idle, .insert⟩
  -- the operation is in no registration, and none is left
  have hnone : Code.stage rest = [] := hi (by simpa using hnested) (by simpa using hstage)
  rw [if_neg hstage, hnone] at hl
  obtain rfl := hl.idle_eq
  have houter : CallStage.Goes p i .idle .idle := .outer (by simpa using hnested) (by simpa using hstage)
  cases next with
  | out => exact ⟨trivial, .idle, .idle, houter⟩
  | into code =>
    by_cases hmon : ∃ reply k, i = .monitorItem reply k
    · obtain ⟨reply, k, rfl⟩ := hmon
      exact monitorItem_enters hnone he
    · have hcode : Code.stage (code ++ rest) = [] := by
        rw [Code.stage_append, hnone, List.append_nil]
        refine Code.stage_eq_nil fun j hj => ?_
        by_contra hj'
        have hawaited := Op.isAwaited_of_isStage (by simpa using hj')
        cases Op.exec_puts he hj hawaited with
        | clearAsync => exact hnested rfl
        | pushData => exact hnested rfl
        | request => exact hmon ⟨_, _, rfl⟩
        | created => exact hmon ⟨_, _, rfl⟩
        | answered => exact hmon ⟨_, _, rfl⟩
      exact ⟨Code.nested_of_stage hcode, .idle, hcode ▸ .idle, houter⟩

end Goes

/-! ## Every run -/

/-- The client thread runs operations of its own only, and the application thread is in a
registration at the given stage. -/
structure Nesting (s : State V Unit) (stage : CallStage) : Prop where
  client : Code.only Op.isClient (s.stack .client) = true
  nested : Code.Nested (s.stack (.app ()))
  left : stage.Leaves (Code.stage (s.stack (.app ())))

/-- An operation of the client thread leaves the stage, and one of the application thread takes
the registration further. -/
def CallStage.Moves (p : Process V) : Thread Unit → Op V → CallStage → CallStage → Prop
  | .client, i, stage, stage' => i.isClient = true ∧ stage' = stage
  | .app (), i, stage, stage' => stage.Goes p i stage'

theorem Code.only_append {kind : Op V → Bool} {code code' : Code V}
    (h : Code.only kind code = true) (h' : Code.only kind code' = true) :
    Code.only kind (code ++ code') = true := by
  unfold Code.only at h h' ⊢
  rw [List.all_append, h, h']
  rfl

theorem Code.only_tail {kind : Op V → Bool} {x : Instr (Op V) Lock} {rest : Code V}
    (h : Code.only kind (x :: rest) = true) : Code.only kind rest = true := by
  unfold Code.only at h ⊢
  rw [List.all_cons, Bool.and_eq_true] at h
  exact h.2

theorem Entry.code_client {c : Entry V} {p : Process V} {code : Code V}
    (h : c.code (α := Unit) .client p = some code) : Code.only Op.isClient code = true := by
  cases c with
  | runClient iterate removal =>
    obtain ⟨place, -, hcode⟩ := Option.bind_eq_some_iff.mp h
    cases place <;> cases hcode <;> rfl
  | _ => cases h

variable {s s' : State V Unit} {m : Move (Thread Unit) (Entry V)} {stage : CallStage}

/-- Taking or releasing a lock leaves the nesting as it is. -/
theorem Nesting.afterLock {t : Thread Unit} {l : Lock} {rest : Code V} (h : Nesting s stage)
    (hstack : s.stack t = .lock l :: rest ∨ s.stack t = .unlock l :: rest)
    (hstack' : s'.stack = Function.update s.stack t rest) : Nesting s' stage := by
  obtain ⟨hclient, hnested, hleft⟩ := h
  cases t with
  | client =>
    have honly : Code.only Op.isClient rest = true := by
      rcases hstack with hstack | hstack
      · exact Code.only_tail (hstack ▸ hclient)
      · exact Code.only_tail (hstack ▸ hclient)
    exact ⟨by simpa [hstack'] using honly, by simpa [hstack'] using hnested,
      by simpa [hstack'] using hleft⟩
  | app a =>
    -- a lock is no operation, so that the stages are those of the rest
    have hrest : Code.Nested rest ∧ stage.Leaves (Code.stage rest) := by
      rcases hstack with hstack | hstack
      · rw [hstack] at hnested hleft
        exact ⟨hnested, hleft⟩
      · rw [hstack] at hnested hleft
        exact ⟨hnested, hleft⟩
    exact ⟨by simpa [hstack'] using hclient, by simpa [hstack'] using hrest.1,
      by simpa [hstack'] using hrest.2⟩

/-- What a step does to the stacks. -/
theorem Nesting.step (h : Nesting s stage) (hs : (threads V Unit).Step s m s') :
    ∃ stage', Nesting s' stage' ∧ (s'.shared = s.shared ∧ stage' = stage ∨
      ∃ t i rest next, m = .advance t ∧ s.stack t = .run i :: rest ∧
        i.exec s.shared = some (s'.shared, next) ∧ CallStage.Moves s.shared t i stage stage') := by
  obtain ⟨hclient, hnested, hleft⟩ := id h
  cases hs with
  | @enter t c code hempty hcode =>
    -- what is entered is registering nothing yet
    refine ⟨stage, ?_, .inl ⟨rfl, rfl⟩⟩
    cases t with
    | client => exact ⟨by simpa using Entry.code_client hcode, by simpa using hnested,
        by simpa using hleft⟩
    | app a =>
      have hcode' : c.code (.app a) s.shared = some code := hcode
      have hstage := Code.stage_of_unawaited (Entry.code_unawaited hcode')
      rw [hempty] at hleft
      obtain rfl := hleft.idle_eq
      exact ⟨by simpa using hclient, by simpa using Code.nested_of_stage hstage,
        by simpa [hstage] using CallStage.Leaves.idle⟩
  | lock hstack _ => exact ⟨stage, h.afterLock (.inl hstack) rfl, .inl ⟨rfl, rfl⟩⟩
  | unlock hstack => exact ⟨stage, h.afterLock (.inr hstack) rfl, .inl ⟨rfl, rfl⟩⟩
  | @run t i rest shared next hstack hexec =>
    cases t with
    | client =>
      rw [hstack] at hclient
      have hi : i.isClient = true := Code.only_mem hclient (List.mem_cons_self ..)
      obtain ⟨code, rfl, honly⟩ := Op.exec_client hi hexec
      refine ⟨stage, ?_, .inr ⟨.client, i, rest, _, rfl, hstack, hexec, hi, rfl⟩⟩
      exact ⟨by simpa [Next.stack] using Code.only_append honly (Code.only_tail hclient),
        by simpa using hnested, by simpa using hleft⟩
    | app a =>
      rw [hstack] at hnested hleft
      obtain ⟨hn, stage', hl, hgoes⟩ := hnested.goes hleft hexec
      refine ⟨stage', ?_, .inr ⟨.app a, i, rest, next, rfl, hstack, hexec, hgoes⟩⟩
      exact ⟨by simpa using hclient, by simpa using hn, by simpa using hl⟩

end OpcUaBackend
