import OpcUaBackend.Manager.Routing
import OpcUaBackend.Threads.Code

/-!
# What an operation can do

Most operations touch only the flags of the manager and of the backend. `Op.isPlain` names them,
and `Op.exec_plain` says what they leave alone. Four operations are put on a stack by one
operation only: the rest of `deactivate` after the flags are cleared, the critical section of
`responseHandler` after its test, and the request for a monitored item with what follows it.

## Main definitions

* `Op.isPlain`, `Plain`: operations that touch no item, no queue and no address
* `Op.movesClient`: operations that start, move or join the client thread
* `Op.isAwaited`, `Puts`: the operations that follow a certain other one

## Main results

* `Op.exec_plain`: what a plain operation leaves alone
* `Op.exec_thread`: the other operations leave the client thread alone
* `Op.exec_puts`: where an awaited operation comes from
-/

namespace OpcUaBackend

open Foundation

variable {V α : Type}

/-! ## Plain operations -/

/-- The operation touches no item, no queue and no address. -/
def Op.isPlain : Op V → Bool
  | raise _ _ => false
  | clearActive _ => false
  | clearAsync => false
  | pushData _ _ => false
  | resetItems => false
  | monitorItem _ _ => false
  | created _ _ => false
  | answered _ _ _ => false
  | setAsync => false
  | activateItems => false
  | enterItem _ _ _ _ => false
  | leaveItem _ _ _ => false
  | setExternalError _ _ => false
  | popNotification _ => false
  | copyVariant _ _ => false
  | overwrite _ _ _ => false
  | _ => true

/-- The call of the library that the operation makes. -/
def Op.call? : Op V → Option LibraryCall
  | library call _ => some call
  | _ => none

/-- What the operation adds to the history when it is a call of the library. -/
def Op.callEvents (i : Op V) (p : Process V) : List (Event V) :=
  (i.call?.bind (LibraryCall.event? p.toWorld)).toList

/-- The operation `i` takes `p` to a `p'` that differs by flags and a library call, and perhaps
by registrations that are gone. -/
structure Plain (i : Op V) (p p' : Process V) : Prop where
  items : p'.items = p.items
  subscriptionMap : p'.subscriptionMap = p.subscriptionMap
  asyncReadActive : p'.asyncReadActive = p.asyncReadActive
  accessors : p'.accessors = p.accessors
  excepted : p'.excepted = p.excepted
  deactivated : p'.deactivated = p.deactivated
  registered : p'.registered = p.registered ∨ p'.registered = []
  history : p'.history = i.callEvents p ++ p.history

namespace Plain

variable {i : Op V}

protected theorem refl (hi : i.call? = none) (p : Process V) : Plain i p p :=
  ⟨rfl, rfl, rfl, rfl, rfl, rfl, .inl rfl, by rw [Op.callEvents, hi]; rfl⟩

end Plain

section Operations

variable {p p' : Process V} {next : Next (Op V) Lock}

theorem enterCallback_plain {c : Callback V} (he : enterCallback c p = some (p', next)) :
    Plain (.callback c) p p' := by
  cases c with
  | state channelState sessionState =>
    obtain ⟨rfl, -⟩ := Process.into_eq.mp he
    exact ⟨rfl, rfl, rfl, rfl, rfl, rfl, .inl rfl, rfl⟩
  | inactivity subId =>
    simp only [enterCallback] at he
    split at he <;> obtain ⟨rfl, -⟩ := Process.into_eq.mp he <;> exact .refl rfl p
  | deleteSubscription subId =>
    obtain ⟨rfl, -⟩ := Process.into_eq.mp he
    exact ⟨rfl, rfl, rfl, rfl, rfl, rfl, .inr rfl, rfl⟩
  | dataChange monId value =>
    simp only [enterCallback] at he
    split at he
    · obtain ⟨rfl, -⟩ := Process.into_eq.mp he
      exact .refl rfl p
    · split at he
      · obtain ⟨rfl, -⟩ := Process.into_eq.mp he
        exact ⟨rfl, rfl, rfl, rfl, rfl, rfl, .inl rfl, rfl⟩
      · split at he <;> obtain ⟨rfl, -⟩ := Process.into_eq.mp he <;> exact .refl rfl p

/-- **A plain operation** leaves items, queues and addresses alone. -/
theorem Op.exec_plain {i : Op V} (hi : i.isPlain = true) (he : i.exec p = some (p', next)) :
    Plain i p p' := by
  cases i <;> try cases hi
  case callback c => exact enterCallback_plain he
  case library call callbacks =>
    obtain ⟨rfl, -⟩ := Process.into_eq.mp he
    refine ⟨rfl, rfl, rfl, rfl, rfl, rfl, ?_, rfl⟩
    by_cases hcall : call.isSubscription = true
    · exact .inr (if_pos hcall)
    · exact .inl (if_neg hcall)
  case storeID response noexcept =>
    simp only [Op.exec] at he
    split at he
    · obtain ⟨rfl, -⟩ := Process.into_eq.mp he
      exact ⟨rfl, rfl, rfl, rfl, rfl, rfl, .inl rfl, rfl⟩
    · split at he
      · obtain ⟨rfl, -⟩ := Process.into_eq.mp he
        exact ⟨rfl, rfl, rfl, rfl, rfl, rfl, .inl rfl, rfl⟩
      · obtain ⟨rfl, -⟩ := Process.out_eq.mp he
        exact .refl rfl p
  case testStart =>
    simp only [Op.exec] at he
    split at he <;> obtain ⟨rfl, -⟩ := Process.into_eq.mp he <;>
      exact ⟨rfl, rfl, rfl, rfl, rfl, rfl, .inl rfl, rfl⟩
  case spawn =>
    simp only [Op.exec] at he
    split at he <;> obtain ⟨rfl, -⟩ := Process.into_eq.mp he <;>
      exact ⟨rfl, rfl, rfl, rfl, rfl, rfl, .inl rfl, rfl⟩
  case join =>
    simp only [Op.exec] at he
    split at he
    · obtain ⟨rfl, -⟩ := Process.into_eq.mp he
      exact .refl rfl p
    · split at he
      · obtain ⟨rfl, -⟩ := Process.into_eq.mp he
        exact ⟨rfl, rfl, rfl, rfl, rfl, rfl, .inl rfl, rfl⟩
      · cases he
  case connected r =>
    simp only [Op.exec] at he
    split at he
    · obtain ⟨rfl, -⟩ := Process.into_eq.mp he
      exact .refl rfl p
    · obtain ⟨rfl, -⟩ := Process.out_eq.mp he
      exact .refl rfl p
  case finishOpen =>
    simp only [Op.exec] at he
    split at he
    · obtain ⟨rfl, -⟩ := Process.into_eq.mp he
      exact ⟨rfl, rfl, rfl, rfl, rfl, rfl, .inl rfl, rfl⟩
    · obtain ⟨rfl, -⟩ := Process.out_eq.mp he
      exact .refl rfl p
  case testFunctional r =>
    simp only [Op.exec] at he
    split at he <;> obtain ⟨rfl, -⟩ := Process.into_eq.mp he <;>
      exact ⟨rfl, rfl, rfl, rfl, rfl, rfl, .inl rfl, rfl⟩
  case testOpened =>
    simp only [Op.exec] at he
    split at he
    · obtain ⟨rfl, -⟩ := Process.into_eq.mp he
      exact .refl rfl p
    · obtain ⟨rfl, -⟩ := Process.out_eq.mp he
      exact .refl rfl p
  case checkActiveException =>
    simp only [Op.exec] at he
    split at he
    · obtain ⟨rfl, -⟩ := Process.out_eq.mp he
      exact .refl rfl p
    · obtain ⟨rfl, -⟩ := Process.into_eq.mp he
      exact .refl rfl p
  case throw =>
    obtain ⟨rfl, -⟩ := Process.out_eq.mp he
    exact .refl rfl p
  -- the others set a flag or test one
  all_goals
    obtain ⟨rfl, -⟩ := Process.into_eq.mp he
    exact ⟨rfl, rfl, rfl, rfl, rfl, rfl, .inl rfl, rfl⟩

/-! ## Operations that keep the items -/

/-- The operation changes more of the items than their flags. -/
def Op.changesItems : Op V → Bool
  | resetItems => true
  | answered _ _ _ => true
  | enterItem _ _ _ _ => true
  | leaveItem _ _ _ => true
  | _ => false

theorem pushData_frame (monId : Nat) (value : DataValue V) (w : World V) :
    Frame w (pushData monId value w) := by
  unfold pushData
  split
  · exact fail_frame w _
  · split
    · exact fail_frame w _
    · refine Frame.trans (mapSlots_frame w fun q item => ?_) (pushAll_frame _ _ _)
      split <;> rfl

theorem pushInitialValue_returned {front : Option (DataValue V)} {tmp a : Accessor}
    {w w' : World V} (h : pushInitialValue front tmp a w = .returned w') : Frame w w' := by
  have hframe := pushInitialValue_frame w front tmp a
  rwa [h] at hframe

/-- The loop over the elements fails where there is no value, and else leaves other data. -/
theorem overwriteValue_cases {accessor : Accessor} {payload : V} {converts : Bool}
    (he : overwriteValue accessor payload converts p = some (p', next)) :
    (p' = p.on (·.fail .nullPointer) ∧ next = .into []) ∨
      (p' = p.on (ownTransfer accessor
        { (p.accessors accessor).data with value := some payload }) ∧
        (next = .into [] ∨ next = .out)) := by
  unfold overwriteValue at he
  simp only at he
  split at he
  · obtain ⟨rfl, rfl⟩ := Process.into_eq.mp he
    exact .inl ⟨rfl, rfl⟩
  · split at he
    · obtain ⟨rfl, rfl⟩ := Process.into_eq.mp he
      exact .inr ⟨rfl, .inl rfl⟩
    · obtain ⟨rfl, rfl⟩ := Process.out_eq.mp he
      exact .inr ⟨rfl, .inr rfl⟩

/-- **The others** change flags of items, queues and local events. -/
theorem Op.exec_frame {i : Op V} (hplain : i.isPlain = false) (hitems : i.changesItems = false)
    (he : i.exec p = some (p', next)) : Frame p.toWorld p'.toWorld := by
  cases i <;> try first | cases hplain; done | cases hitems; done
  case raise message deactivating =>
    obtain ⟨rfl, -⟩ := Process.into_eq.mp he
    exact handleException_frame p.toWorld message
  case clearActive removal =>
    obtain ⟨rfl, -⟩ := Process.into_eq.mp he
    exact clearActive_frame p.toWorld
  case pushData monId value =>
    obtain ⟨rfl, -⟩ := Process.into_eq.mp he
    exact pushData_frame monId value p.toWorld
  case monitorItem reply i =>
    have hactivate := activateIfAsync_frame p.toWorld i
    simp only [Op.exec, OpcUaBackend.monitorItem] at he
    repeat' split at he
    all_goals
      obtain ⟨rfl, -⟩ := Process.into_eq.mp he
      first
        | exact hactivate
        | exact hactivate.trans (fail_frame _ _)
  case created result i =>
    simp only [Op.exec] at he
    split at he <;> obtain ⟨rfl, -⟩ := Process.into_eq.mp he <;> exact .refl _
  case activateItems =>
    obtain ⟨rfl, -⟩ := Process.into_eq.mp he
    exact activateItems_frame p.toWorld
  case setExternalError browseName reporter =>
    obtain ⟨rfl, -⟩ := Process.into_eq.mp he
    exact setExternalError_frame p.toWorld browseName reporter
  case popNotification accessor =>
    obtain ⟨rfl, -⟩ := Process.into_eq.mp he
    exact popNotification_frame p.toWorld accessor
  case copyVariant accessor value =>
    obtain ⟨rfl, -⟩ := Process.into_eq.mp he
    exact ownTransfer_frame p.toWorld accessor value
  case overwrite accessor payload converts =>
    rcases overwriteValue_cases he with ⟨rfl, -⟩ | ⟨rfl, -⟩
    · exact fail_frame p.toWorld _
    · exact ownTransfer_frame p.toWorld accessor _
  -- the flag of asynchronous reading
  all_goals
    obtain ⟨rfl, -⟩ := Process.into_eq.mp he
    exact .of_flags rfl rfl rfl rfl rfl rfl id

/-! ## The client thread -/

/-- The operation starts the client thread, moves it or joins it. -/
def Op.movesClient : Op V → Bool
  | spawn => true
  | assignThread => true
  | join => true
  | testRun => true
  | iterated _ => true
  | leaveCleanUp => true
  | finish => true
  | _ => false

theorem enterItem_thread {r : Replies V} {browseName : String} {node : UA_NodeId}
    {accessor : Accessor} (he : enterItem r browseName node accessor p = some (p', next)) :
    p'.client = p.client ∧ p'.opcuaThread = p.opcuaThread := by
  unfold enterItem at he
  simp only at he
  split at he
  · obtain ⟨rfl, -⟩ := Process.into_eq.mp he
    exact ⟨rfl, rfl⟩
  · split at he
    · obtain ⟨rfl, -⟩ := Process.into_eq.mp he
      exact ⟨rfl, rfl⟩
    · split at he
      · split at he
        · rename_i w hpush
          obtain ⟨rfl, -⟩ := Process.into_eq.mp he
          exact ⟨rfl, (pushInitialValue_returned hpush).opcuaThread⟩
        · obtain ⟨rfl, -⟩ := Process.out_eq.mp he
          exact ⟨rfl, rfl⟩
      · obtain ⟨rfl, -⟩ := Process.into_eq.mp he
        exact ⟨rfl, rfl⟩

/-- The other operations leave the client thread and its object alone. -/
theorem Op.exec_thread {i : Op V} (hi : i.movesClient = false)
    (he : i.exec p = some (p', next)) :
    p'.client = p.client ∧ p'.opcuaThread = p.opcuaThread := by
  by_cases hframed : i.isPlain = false ∧ i.changesItems = false
  · refine ⟨?_, (Op.exec_frame hframed.1 hframed.2 he).opcuaThread⟩
    obtain ⟨hplain, hitems⟩ := hframed
    cases i <;> try first | cases hplain; done | cases hitems; done
    case overwrite accessor payload converts =>
      rcases overwriteValue_cases he with ⟨rfl, -⟩ | ⟨rfl, -⟩ <;> rfl
    all_goals
      simp only [Op.exec, OpcUaBackend.monitorItem] at he
      repeat' split at he
      all_goals
        obtain ⟨rfl, -⟩ := Process.into_eq.mp he
        rfl
  cases i <;> try first | cases hi; done | exact absurd ⟨rfl, rfl⟩ hframed
  case enterItem r browseName node accessor => exact enterItem_thread he
  case callback c =>
    cases c <;> simp only [Op.exec, enterCallback] at he <;> repeat' split at he
    all_goals
      obtain ⟨rfl, -⟩ := Process.into_eq.mp he
      exact ⟨rfl, rfl⟩
  case answered result i browseName =>
    simp only [Op.exec] at he
    split at he
    · rename_i hgood
      obtain ⟨rfl, -⟩ := Process.into_eq.mp he
      simp only [Process.on, monitoringAnswered, if_pos hgood, and_self]
    · obtain ⟨rfl, -⟩ := Process.into_eq.mp he
      exact ⟨rfl, rfl⟩
  all_goals
    simp only [Op.exec, OpcUaBackend.leaveItem] at he
    repeat' split at he
    all_goals first
      | obtain ⟨rfl, -⟩ := Process.into_eq.mp he
        exact ⟨rfl, rfl⟩
      | obtain ⟨rfl, -⟩ := Process.out_eq.mp he
        exact ⟨rfl, rfl⟩

/-! ## Data that is pushed -/

/-- The item at the address that the map keeps for an id. -/
def World.target (w : World V) (monId : Nat) : Option MonitorItem :=
  (w.subscriptionMap.lookup monId).bind w.items.get?

/-- When the event is a push of data, then into the queue of one of these accessors. -/
def Event.GivesData (as : List Accessor) (e : Event V) : Prop :=
  ∀ a v, e = .pushed a (.data v) → a ∈ as

/-- The accessors that the operation may give data. -/
def Op.givesData (p : Process V) : Op V → List Accessor
  | pushData monId _ => (p.target monId).elim [] (·.accessors)
  | enterItem _ browseName _ accessor =>
    (p.find? browseName).elim [] fun (_, item) => if item.active then [accessor] else []
  | _ => []

section GivesData

variable {w w' : World V} {as : List Accessor}

theorem pushAll_givesData (value : DataValue V) (as : List Accessor) (w : World V) :
    Extends (Event.GivesData as) w.history (w.pushAll (.data value) as).history := by
  refine ⟨_, (pushAll_delivered _ as w).history, fun e he a v hpush => ?_⟩
  subst hpush
  simp only [List.mem_reverse, List.mem_map, Event.pushed.injEq] at he
  obtain ⟨b, hb, rfl, -⟩ := he
  exact hb

theorem handleException_givesData (message : String) (w : World V) :
    Extends (Event.GivesData []) w.history (handleException message w).history := by
  refine ⟨_, (pushAll_delivered _ _ _).history, fun e he a v hpush => ?_⟩
  subst hpush
  simp at he

theorem record_givesData {e : Event V} (he : ∀ a v, e ≠ .pushed a (.data v)) (w : World V) :
    Extends (Event.GivesData as) w.history (w.record e).history := by
  refine ⟨[e], rfl, fun e' he' a v hpush => ?_⟩
  obtain rfl := List.mem_singleton.mp he'
  exact absurd hpush (he a v)

theorem activateIfAsync_givesData (i : Nat) (w : World V) :
    Extends (Event.GivesData as) w.history (activateIfAsync i w).history := by
  unfold activateIfAsync activateItem
  split
  · split
    · exact .refl _
    · exact record_givesData (by simp) _
  · exact .refl _

theorem pushInitialValue_givesData {front : Option (DataValue V)} {tmp a : Accessor}
    (h : pushInitialValue front tmp a w = .returned w') :
    Extends (Event.GivesData [a]) w.history w'.history := by
  have hpush : ∀ data : DataValue V, (if data.hasValue then
      Result.returned (w.push (.data data) a) else .returned w) = .returned w' →
        Extends (Event.GivesData [a]) w.history w'.history := by
    intro data hdata
    split at hdata
    · obtain rfl := Result.returned.inj hdata
      exact pushAll_givesData data [a] w
    · obtain rfl := Result.returned.inj hdata
      exact .refl _
  unfold pushInitialValue at h
  simp only at h
  split at h
  · exact hpush _ h
  · exact hpush _ h
  · split at h
    · cases h
    · exact hpush _ h

theorem pushData_givesData (monId : Nat) (value : DataValue V) (w : World V) :
    Extends (Event.GivesData ((w.target monId).elim [] (·.accessors))) w.history
      (pushData monId value w).history := by
  unfold pushData World.target
  split
  · exact .refl _
  · rename_i q hlookup
    rw [hlookup, Option.bind_some]
    split
    · exact .refl _
    · rename_i item hget
      rw [hget]
      exact pushAll_givesData ..

theorem enterItem_givesData {r : Replies V} {browseName : String} {node : UA_NodeId}
    {accessor : Accessor} (he : enterItem r browseName node accessor p = some (p', next)) :
    Extends (Event.GivesData ((Op.enterItem r browseName node accessor).givesData p)) p.history
      p'.history := by
  have hrecord : ∀ {as}, Extends (Event.GivesData as) p.history
      (p.toWorld.record (.subscribed accessor browseName)).history :=
    record_givesData (by simp) p.toWorld
  have hfind : (p.toWorld.record (.subscribed accessor browseName)).find? browseName
      = p.find? browseName := rfl
  unfold enterItem at he
  simp only [Process.on, hfind] at he
  split at he
  · obtain ⟨rfl, -⟩ := Process.into_eq.mp he
    exact hrecord
  · rename_i i item hitem
    split at he
    · obtain ⟨rfl, -⟩ := Process.into_eq.mp he
      exact hrecord
    · split at he
      · rename_i hactive
        simp only [Op.givesData, hitem, Option.elim_some, hactive, if_true]
        split at he
        · rename_i hpush
          obtain ⟨rfl, -⟩ := Process.into_eq.mp he
          have hgives := pushInitialValue_givesData hpush
          exact hrecord.trans hgives
        · obtain ⟨rfl, -⟩ := Process.out_eq.mp he
          exact hrecord
      · obtain ⟨rfl, -⟩ := Process.into_eq.mp he
        exact hrecord

/-- **Data** is given by the critical section of `responseHandler` and by `subscribe` only. -/
theorem Op.exec_givesData {i : Op V} (he : i.exec p = some (p', next)) :
    Extends (Event.GivesData (i.givesData p)) p.history p'.history := by
  by_cases hplain : i.isPlain = true
  · -- the event of a plain operation is a call of the library
    refine ⟨_, (Op.exec_plain hplain he).history, fun e hmem a v hpush => ?_⟩
    subst hpush
    cases i <;> simp only [Op.callEvents, Op.call?] at hmem <;> try cases hmem
    case library call callbacks => cases call <;> simp [LibraryCall.event?] at hmem
  cases i <;> try exact absurd rfl hplain
  case raise message deactivating =>
    obtain ⟨rfl, -⟩ := Process.into_eq.mp he
    exact handleException_givesData message p.toWorld
  case clearActive removal =>
    obtain ⟨rfl, -⟩ := Process.into_eq.mp he
    have hhistory : (OpcUaBackend.clearActive p.toWorld).history = p.history := by
      unfold OpcUaBackend.clearActive
      simp only
      split <;> rfl
    exact ⟨[], hhistory, by simp⟩
  case pushData monId value =>
    obtain ⟨rfl, -⟩ := Process.into_eq.mp he
    exact pushData_givesData monId value p.toWorld
  case monitorItem reply i =>
    simp only [Op.exec, OpcUaBackend.monitorItem] at he
    repeat' split at he
    all_goals
      obtain ⟨rfl, -⟩ := Process.into_eq.mp he
      exact activateIfAsync_givesData i p.toWorld
  case created result i =>
    simp only [Op.exec] at he
    split at he <;> obtain ⟨rfl, -⟩ := Process.into_eq.mp he <;> exact .refl _
  case answered result i browseName =>
    simp only [Op.exec] at he
    split at he
    · rename_i hgood
      obtain ⟨rfl, -⟩ := Process.into_eq.mp he
      have hhistory : (monitoringAnswered i browseName result p.toWorld).history = p.history := by
        unfold monitoringAnswered
        rw [if_pos hgood]
      exact ⟨[], hhistory, by simp⟩
    · obtain ⟨rfl, -⟩ := Process.into_eq.mp he
      exact .refl _
  case activateItems =>
    obtain ⟨rfl, -⟩ := Process.into_eq.mp he
    refine ⟨_, rfl, fun e he a v hpush => ?_⟩
    subst hpush
    simp at he
  case enterItem r browseName node accessor => exact enterItem_givesData he
  case leaveItem r browseName accessor =>
    simp only [Op.exec, OpcUaBackend.leaveItem] at he
    repeat' split at he
    all_goals
      obtain ⟨rfl, -⟩ := Process.into_eq.mp he
      exact .refl _
  case setExternalError browseName reporter =>
    obtain ⟨rfl, -⟩ := Process.into_eq.mp he
    show Extends _ p.history (OpcUaBackend.setExternalError browseName reporter p.toWorld).history
    unfold OpcUaBackend.setExternalError
    split
    · exact .refl _
    · exact record_givesData (by simp) _
  case copyVariant accessor value =>
    obtain ⟨rfl, -⟩ := Process.into_eq.mp he
    exact record_givesData (e := .transferred accessor) (by simp) p.toWorld
  case overwrite accessor payload converts =>
    rcases overwriteValue_cases he with ⟨rfl, -⟩ | ⟨rfl, -⟩
    · exact .refl _
    · exact record_givesData (e := .transferred accessor) (by simp) p.toWorld
  -- the others make no event
  all_goals
    obtain ⟨rfl, -⟩ := Process.into_eq.mp he
    exact .refl _

end GivesData

/-! ## Operations on a stack -/

/-- The code runs an operation of the kind. -/
def Code.runs (kind : Op V → Bool) (code : Code V) : Bool :=
  code.any fun
    | .run j => kind j
    | _ => false

theorem Code.runs_iff {kind : Op V → Bool} {code : Code V} :
    Code.runs kind code = true ↔ ∃ j, .run j ∈ code ∧ kind j = true := by
  unfold Code.runs
  rw [List.any_eq_true]
  constructor
  · rintro ⟨x, hx, hkind⟩
    cases x with
    | run j => exact ⟨j, hx, hkind⟩
    | lock l => cases hkind
    | unlock l => cases hkind
  · rintro ⟨j, hj, hkind⟩
    exact ⟨_, hj, hkind⟩

/-- The operation follows a certain other one: the end of `deactivate` the clearing of the flags,
the critical section of `responseHandler` its test, and the request for a monitored item, with
what comes after it, the start of the loop body. -/
def Op.isAwaited : Op V → Bool
  | clearAsync => true
  | pushData _ _ => true
  | library (.createDataChange _ _) _ => true
  | created _ _ => true
  | answered _ _ _ => true
  | _ => false

def Code.unawaited (code : Code V) : Bool :=
  code.all fun
    | .run j => !j.isAwaited
    | _ => true

theorem Code.unawaited_mem {code : Code V} (h : Code.unawaited code = true) {j : Op V}
    (hj : .run j ∈ code) : j.isAwaited = false := by
  simpa using List.all_eq_true.mp h _ hj

/-- The operation `i`, run in `p`, puts the awaited operation on the stack. -/
inductive Puts (p : Process V) : Op V → Op V → Prop
  | clearAsync {removal} : Puts p (.clearActive removal) .clearAsync
  | pushData {monId value q item} : p.subscriptionMap.lookup monId = some q →
      p.items.get? q = some item → item.active = true →
      Puts p (.callback (.dataChange monId value)) (.pushData monId value)
  | request {reply i item} (request) : (activateIfAsync i p.toWorld).items.elems[i]? = some item →
      item.isMonitored = false →
      Puts p (.monitorItem reply i) (.library (.createDataChange request reply.result)
        reply.callbacks)
  | created {reply i item} : (activateIfAsync i p.toWorld).items.elems[i]? = some item →
      item.isMonitored = false → Puts p (.monitorItem reply i) (.created reply.result i)
  | answered {reply i item} : (activateIfAsync i p.toWorld).items.elems[i]? = some item →
      item.isMonitored = false →
      Puts p (.monitorItem reply i) (.answered reply.result i item.browseName)

theorem enterCallback_puts {c : Callback V} {code : Code V} {j : Op V}
    (he : enterCallback c p = some (p', .into code)) (hj : .run j ∈ code)
    (hawaited : j.isAwaited = true) : Puts p (.callback c) j := by
  have hnone : Code.unawaited code = true → Puts p (.callback c) j := fun h => by
    simp [Code.unawaited_mem h hj] at hawaited
  cases c with
  | state channelState sessionState =>
    obtain ⟨-, hcode⟩ := Process.into_eq.mp he
    obtain rfl := Next.into.inj hcode
    exact hnone rfl
  | inactivity subId =>
    simp only [enterCallback] at he
    split at he <;> obtain ⟨-, hcode⟩ := Process.into_eq.mp he <;>
      obtain rfl := Next.into.inj hcode <;> exact hnone rfl
  | deleteSubscription subId =>
    obtain ⟨-, hcode⟩ := Process.into_eq.mp he
    obtain rfl := Next.into.inj hcode
    exact hnone rfl
  | dataChange monId value =>
    simp only [enterCallback] at he
    split at he
    · obtain ⟨-, hcode⟩ := Process.into_eq.mp he
      obtain rfl := Next.into.inj hcode
      exact hnone rfl
    · rename_i q hlookup
      split at he
      · obtain ⟨-, hcode⟩ := Process.into_eq.mp he
        obtain rfl := Next.into.inj hcode
        exact hnone rfl
      · rename_i item hget
        split at he
        · rename_i hactive
          obtain ⟨-, hcode⟩ := Process.into_eq.mp he
          obtain rfl := Next.into.inj hcode
          obtain rfl : j = .pushData monId value := by simpa using hj
          exact .pushData hlookup hget hactive
        · obtain ⟨-, hcode⟩ := Process.into_eq.mp he
          obtain rfl := Next.into.inj hcode
          exact hnone rfl

theorem monitorItem_puts {reply : Reply V MonitoredItemCreateResult} {i : Nat} {code : Code V}
    {j : Op V} (he : monitorItem reply i p = some (p', .into code)) (hj : .run j ∈ code)
    (hawaited : j.isAwaited = true) : Puts p (.monitorItem reply i) j := by
  have hnone : Code.unawaited code = true → Puts p (.monitorItem reply i) j := fun h => by
    simp [Code.unawaited_mem h hj] at hawaited
  unfold monitorItem at he
  simp only at he
  split at he
  · obtain ⟨-, hcode⟩ := Process.into_eq.mp he
    obtain rfl := Next.into.inj hcode
    exact hnone rfl
  · rename_i item hitem
    split at he
    · obtain ⟨-, hcode⟩ := Process.into_eq.mp he
      obtain rfl := Next.into.inj hcode
      exact hnone rfl
    · rename_i hmon
      have hmon' : item.isMonitored = false := by simpa using hmon
      split at he
      · obtain ⟨-, hcode⟩ := Process.into_eq.mp he
        obtain rfl := Next.into.inj hcode
        exact hnone rfl
      · obtain ⟨-, hcode⟩ := Process.into_eq.mp he
        obtain rfl := Next.into.inj hcode
        simp only [Code.createDataChange, List.mem_cons, Instr.run.injEq, reduceCtorEq,
          List.not_mem_nil, or_false, false_or] at hj
        rcases hj with rfl | rfl | rfl
        · exact .request _ hitem hmon'
        · exact .created hitem hmon'
        · exact .answered hitem hmon'

/-- **An awaited operation** is put on a stack by the operation it follows. -/
theorem Op.exec_puts {i j : Op V} {code : Code V} (he : i.exec p = some (p', .into code))
    (hj : .run j ∈ code) (hawaited : j.isAwaited = true) : Puts p i j := by
  have hnone : Code.unawaited code = true → Puts p i j := fun h => by
    simp [Code.unawaited_mem h hj] at hawaited
  cases i
  case callback c => exact enterCallback_puts he hj hawaited
  case monitorItem reply i => exact monitorItem_puts he hj hawaited
  case clearActive removal =>
    obtain ⟨-, hcode⟩ := Process.into_eq.mp he
    obtain rfl := Next.into.inj hcode
    simp only [List.mem_cons, Instr.run.injEq, reduceCtorEq, List.not_mem_nil, or_false,
      false_or] at hj
    rcases hj with rfl | rfl | rfl
    · cases hawaited
    · cases hawaited
    · exact .clearAsync
  case library call callbacks =>
    obtain ⟨-, hcode⟩ := Process.into_eq.mp he
    obtain rfl := Next.into.inj hcode
    exact hnone (List.all_eq_true.mpr (by simp [Op.isAwaited]))
  case loopItems replies =>
    obtain ⟨-, hcode⟩ := Process.into_eq.mp he
    obtain rfl := Next.into.inj hcode
    exact hnone (List.all_eq_true.mpr (by simp [Op.isAwaited]))
  case enterItem r browseName node accessor =>
    simp only [Op.exec, OpcUaBackend.enterItem] at he
    refine hnone ?_
    repeat' split at he
    all_goals first
      | cases he; done
      | obtain ⟨-, hcode⟩ := Process.into_eq.mp he
        obtain rfl := Next.into.inj hcode
        rfl
  case leaveItem r browseName accessor =>
    simp only [Op.exec, OpcUaBackend.leaveItem] at he
    refine hnone ?_
    repeat' split at he
    all_goals
      obtain ⟨-, hcode⟩ := Process.into_eq.mp he
      obtain rfl := Next.into.inj hcode
      rfl
  case overwrite accessor payload converts =>
    rcases overwriteValue_cases he with ⟨-, hcode⟩ | ⟨-, hcode | hcode⟩ <;> cases hcode <;>
      exact hnone rfl
  -- the code of the others is a list, in each branch
  all_goals
    refine hnone ?_
    simp only [Op.exec] at he
    repeat' split at he
    all_goals first
      | cases he; done
      | obtain ⟨-, hcode⟩ := Process.into_eq.mp he
        obtain rfl := Next.into.inj hcode
        rfl

end Operations

theorem Entry.code_unawaited {t : Thread α} {c : Entry V} {p : Process V} {code : Code V}
    (h : c.code t p = some code) : Code.unawaited code = true := by
  cases t with
  | client =>
    cases c with
    | runClient iterate removal =>
      obtain ⟨place, -, hcode⟩ := Option.bind_eq_some_iff.mp h
      cases place <;> cases hcode <;> rfl
    | _ => cases h
  | app a =>
    cases c
    all_goals cases h; try rfl

variable [DecidableEq α]

theorem Step.plain {s s' : State V α} {t : Thread α} {i : Op V} {rest : Code V}
    (hs : (threads V α).Step s (.advance t) s') (hstack : s.stack t = .run i :: rest)
    (hi : i.isPlain = true) : Plain i s.shared s'.shared := by
  obtain ⟨next, hexec⟩ := hs.of_run hstack
  have hexec' : i.exec s.shared = some (s'.shared, next) := hexec
  exact Op.exec_plain hi hexec'

/-- An awaited operation on a stack was there before, or the thread ran the operation that it
follows. -/
theorem Step.awaited {s s' : State V α} {m : Move (Thread α) (Entry V)} {t : Thread α} {j : Op V}
    (hs : (threads V α).Step s m s') (hj : .run j ∈ s'.stack t) (hawaited : j.isAwaited = true) :
    .run j ∈ s.stack t ∨
      ∃ i rest, m = .advance t ∧ s.stack t = .run i :: rest ∧ Puts s.shared i j := by
  rcases hs.mem_stack hj with hold | ⟨c, code, -, hcode, hmem⟩ |
    ⟨i, rest, p', code, hm, hstack, hexec, hmem⟩
  · exact .inl hold
  · have := Code.unawaited_mem (Entry.code_unawaited hcode) hmem
    simp [this] at hawaited
  · exact .inr ⟨i, rest, hm, hstack, Op.exec_puts hexec hmem hawaited⟩

end OpcUaBackend
