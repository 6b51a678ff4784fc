import OpcUaBackend.Manager.Activation
import OpcUaBackend.Threads.Effects

/-!
# Inactive items

`deactivate` clears the flags of the items that are in `subscriptionMap`, while an activation
sets those of all items, before they are in the map. So a deactivation leaves no item active
when every active item is in the map, and as long as no item is activated while a thread is
between the clearing of the flags and the end of `deactivate`. Then without asynchronous reading
no item is active, whatever the threads do.

## Main definitions

* `World.Inactive`, `World.ActiveInMap`: no item is active, and every active item is in the map
* `Settling`: the condition on a step
* `Settled`: the invariant

## Main results

* `Settled.step`: what every step under the condition preserves
* `reach_inactive`: without asynchronous reading no item is active, and nothing is pushed
-/

namespace OpcUaBackend

open Foundation

variable {V α : Type}

/-! ## The condition -/

/-- No item is active. -/
def World.Inactive (w : World V) : Prop := ∀ item ∈ w.items.elems, item.active = false

/-- Every active item is in the map. -/
def World.ActiveInMap (w : World V) : Prop :=
  ∀ i < w.items.size, ∀ item ∈ w.items.elems[i]?, item.active = true →
    w.items.slot i ∈ w.subscriptionMap.entries.map (·.2)

instance (w : World V) : Decidable w.Inactive := by
  unfold World.Inactive; infer_instance

instance (w : World V) : Decidable w.ActiveInMap := by
  unfold World.ActiveInMap; infer_instance

def Op.isClearAsync : Op V → Bool
  | clearAsync => true
  | _ => false

def Op.isSetAsync : Op V → Bool
  | setAsync => true
  | _ => false

/-- A thread has cleared the flags in `deactivate`, and is still in it. -/
def State.Clearing (s : State V α) : Prop := ∃ t, Code.runs Op.isClearAsync (s.stack t) = true

/-- The condition on a step: `deactivate` clears the flags when every active item is in the map,
and an item is activated only while asynchronous reading is active and no thread is between the
clearing and the end of `deactivate`. -/
def Settling (s : State V α) (_ : Thread α) : Op V → Prop
  | .clearActive _ => s.shared.ActiveInMap
  | .monitorItem _ _ => s.shared.asyncReadActive = true → ¬ s.Clearing
  | .activateItems => s.shared.asyncReadActive = true ∧ ¬ s.Clearing
  | _ => True

instance (s : State V Unit) : Decidable s.Clearing :=
  inferInstanceAs (Decidable (∃ t, Code.runs Op.isClearAsync (s.stack t) = true))

instance (s : State V Unit) (t : Thread Unit) (i : Op V) : Decidable (Settling s t i) := by
  unfold Settling; cases i <;> infer_instance

/-! ## Operations that activate nothing -/

/-- The operation activates items. -/
def Op.Activates (p : Process V) : Op V → Prop
  | monitorItem _ _ => p.asyncReadActive = true
  | activateItems => True
  | _ => False

/-- `w'` has the same asynchronous reading as `w`, and no item is active when none was. -/
structure Fades (w w' : World V) : Prop where
  asyncReadActive : w'.asyncReadActive = w.asyncReadActive
  inactive : w.Inactive → w'.Inactive

section Fades

variable {w w' : World V}

theorem Calm.fades (h : Calm w w') : Fades w w' := by
  refine ⟨h.asyncReadActive, fun hin item' hmem => ?_⟩
  have hcalm := List.mem_map_of_mem (f := MonitorItem.calm) hmem
  rw [h.items] at hcalm
  obtain ⟨item, hitem, heq⟩ := List.mem_map.mp hcalm
  rw [← (MonitorItem.calm_inj heq).1]
  exact hin item hitem

theorem handleException_calm (message : String) (w : World V) :
    Calm w (handleException message w) := by
  have hmap : Calm w { w with items := w.items.map MonitorItem.raise } := by
    refine ⟨rfl, rfl, ?_⟩
    rw [SlotDeque.elems_map, List.map_map]
    refine List.map_congr_left fun item _ => ?_
    simp only [Function.comp_apply, MonitorItem.raise]
    split <;> rfl
  exact hmap.trans (pushAll_calm _ _ _)

theorem pushData_calm (monId : Nat) (value : DataValue V) (w : World V) :
    Calm w (pushData monId value w) := by
  unfold pushData
  split
  · exact ⟨rfl, rfl, rfl⟩
  · split
    · exact ⟨rfl, rfl, rfl⟩
    · refine Calm.trans (mapSlots_calm (fun q item => ?_) w) (pushAll_calm _ _ _)
      split <;> rfl

theorem clearActive_asyncReadActive (w : World V) :
    (clearActive w).asyncReadActive = w.asyncReadActive := by
  unfold clearActive
  simp only
  split <;> rfl

theorem clearActive_fades (w : World V) : Fades w (clearActive w) := by
  refine ⟨clearActive_asyncReadActive w, fun hin item' hmem => ?_⟩
  obtain ⟨i, hi⟩ := List.mem_iff_getElem?.mp hmem
  rw [clearActive_getElem?] at hi
  obtain ⟨item, hitem, rfl⟩ := Option.map_eq_some_iff.mp hi
  split
  · rfl
  · exact hin item (List.mem_of_getElem? hitem)

/-- With every active item in the map, no item is active after the clearing. -/
theorem clearActive_inactive (h : w.ActiveInMap) : (clearActive w).Inactive := by
  intro item' hmem
  obtain ⟨i, hi⟩ := List.mem_iff_getElem?.mp hmem
  rw [clearActive_getElem?] at hi
  obtain ⟨item, hitem, rfl⟩ := Option.map_eq_some_iff.mp hi
  split
  · rfl
  · rename_i hslot
    by_contra hactive
    have hlt : i < w.items.size := (List.getElem?_eq_some_iff.mp hitem).1
    exact hslot (h i hlt item hitem (by simpa using hactive))

/-- An initial value is pushed, or not. -/
theorem pushInitialValue_calm {front : Option (DataValue V)} {tmp a : Accessor} {w w' : World V}
    (he : pushInitialValue front tmp a w = .returned w') : Calm w w' := by
  have hpush : ∀ data : DataValue V, (if data.hasValue then
      Result.returned (w.push (.data data) a) else .returned w) = .returned w' → Calm w w' := by
    intro data hdata
    split at hdata
    · obtain rfl := Result.returned.inj hdata
      exact ⟨rfl, rfl, rfl⟩
    · obtain rfl := Result.returned.inj hdata
      exact .refl w
  unfold pushInitialValue at he
  simp only at he
  split at he
  · exact hpush _ he
  · exact hpush _ he
  · split at he
    · cases he
    · exact hpush _ he

protected theorem Fades.refl (w : World V) : Fades w w := ⟨rfl, id⟩

protected theorem Fades.trans {w'' : World V} (h : Fades w w') (h' : Fades w' w'') :
    Fades w w'' :=
  ⟨h'.asyncReadActive.trans h.asyncReadActive, fun hin => h'.inactive (h.inactive hin)⟩

/-- Every active item was active before. -/
theorem Fades.of_items (hasync : w'.asyncReadActive = w.asyncReadActive)
    (hitems : ∀ item' ∈ w'.items.elems, item'.active = false ∨ ∃ item ∈ w.items.elems,
      item'.active = item.active) : Fades w w' := by
  refine ⟨hasync, fun hin item' hmem => ?_⟩
  rcases hitems item' hmem with hnot | ⟨item, hitem, heq⟩
  · exact hnot
  · rw [heq]
    exact hin item hitem

theorem Fades.of_eq (hasync : w'.asyncReadActive = w.asyncReadActive)
    (hitems : w'.items = w.items) : Fades w w' :=
  .of_items hasync fun item' hmem => .inr ⟨item', hitems ▸ hmem, rfl⟩

/-- A change of one item that leaves its flag alone. -/
theorem Fades.modify (hasync : w'.asyncReadActive = w.asyncReadActive) {i : Nat}
    {f : MonitorItem → MonitorItem} (hitems : w'.items = w.items.modify i f)
    (hf : ∀ item, (f item).active = item.active) : Fades w w' := by
  refine .of_items hasync fun item' hmem => ?_
  obtain ⟨j, hj⟩ := List.mem_iff_getElem?.mp hmem
  rw [hitems, SlotDeque.elems_modify, List.getElem?_modify] at hj
  obtain ⟨item, hitem, rfl⟩ := Option.map_eq_some_iff.mp hj
  refine .inr ⟨item, List.mem_of_getElem? hitem, ?_⟩
  split
  · exact hf item
  · rfl

end Fades

section Operations

variable {p p' : Process V} {next : Next (Op V) Lock}

theorem Plain.fades {i : Op V} (h : Plain i p p') : Fades p.toWorld p'.toWorld :=
  ⟨h.asyncReadActive, fun hin => by rw [World.Inactive, h.items]; exact hin⟩

theorem monitorItem_fades {reply : Reply V MonitoredItemCreateResult} {i : Nat}
    (hasync : p.asyncReadActive = false) (he : monitorItem reply i p = some (p', next)) :
    Fades p.toWorld p'.toWorld := by
  have hidle : p.on (activateIfAsync i) = p := by simp [Process.on, activateIfAsync, hasync]
  unfold monitorItem at he
  simp only [hidle] at he
  repeat' split at he
  all_goals
    obtain ⟨rfl, -⟩ := Process.into_eq.mp he
    exact .of_eq rfl rfl

theorem enterItem_fades {r : Replies V} {browseName : String} {node : UA_NodeId}
    {accessor : Accessor} (he : enterItem r browseName node accessor p = some (p', next)) :
    Fades p.toWorld p'.toWorld := by
  unfold enterItem at he
  simp only at he
  split at he
  · obtain ⟨rfl, -⟩ := Process.into_eq.mp he
    refine .of_items rfl fun item' hmem => ?_
    rcases List.mem_append.mp hmem with hold | hnew
    · exact .inr ⟨item', hold, rfl⟩
    · obtain rfl := List.mem_singleton.mp hnew
      exact .inl rfl
  · split at he
    · obtain ⟨rfl, -⟩ := Process.into_eq.mp he
      exact .of_eq rfl rfl
    · split at he
      · split at he
        · rename_i hpush
          obtain ⟨rfl, -⟩ := Process.into_eq.mp he
          refine Fades.trans ?_ (pushInitialValue_calm hpush).fades
          exact .modify rfl rfl fun _ => rfl
        · obtain ⟨rfl, -⟩ := Process.out_eq.mp he
          exact .modify rfl rfl fun _ => rfl
      · obtain ⟨rfl, -⟩ := Process.into_eq.mp he
        exact .modify rfl rfl fun _ => rfl

theorem leaveItem_fades {r : Replies V} {browseName : String} {accessor : Accessor}
    (he : leaveItem r browseName accessor p = some (p', next)) : Fades p.toWorld p'.toWorld := by
  unfold leaveItem at he
  split at he
  · obtain ⟨rfl, -⟩ := Process.into_eq.mp he
    exact .refl _
  · split at he
    · split at he
      · obtain ⟨rfl, -⟩ := Process.into_eq.mp he
        exact .modify rfl rfl fun _ => rfl
      · obtain ⟨rfl, -⟩ := Process.into_eq.mp he
        exact .of_eq rfl rfl
    · obtain ⟨rfl, -⟩ := Process.into_eq.mp he
      exact .of_items rfl fun item' hmem => .inr ⟨item', List.mem_of_mem_eraseIdx hmem, rfl⟩

theorem answered_fades {result : MonitoredItemCreateResult} {i : Nat} {browseName : String}
    (hgood : result.statusCode.isGood = true) (w : World V) :
    Fades w (monitoringAnswered i browseName result w) := by
  unfold monitoringAnswered
  rw [if_pos hgood]
  exact .modify rfl rfl fun _ => rfl

theorem setExternalError_fades (browseName : String) (reporter : Accessor) (w : World V) :
    Fades w (setExternalError browseName reporter w) := by
  unfold setExternalError
  split
  · exact .refl w
  · exact .modify rfl rfl fun _ => rfl

/-- **An operation** that activates nothing, and begins or ends no asynchronous reading. -/
theorem Op.exec_fades {i : Op V} (hactivates : ¬ i.Activates p)
    (hsets : i.isClearAsync = false ∧ i.isSetAsync = false) (he : i.exec p = some (p', next)) :
    Fades p.toWorld p'.toWorld := by
  by_cases hplain : i.isPlain = true
  · exact (Op.exec_plain hplain he).fades
  · cases i <;> try exact absurd rfl hplain
    case raise message deactivating =>
      obtain ⟨rfl, -⟩ := Process.into_eq.mp he
      exact (handleException_calm message p.toWorld).fades
    case clearActive removal =>
      obtain ⟨rfl, -⟩ := Process.into_eq.mp he
      exact clearActive_fades p.toWorld
    case clearAsync => cases hsets.1
    case setAsync => cases hsets.2
    case activateItems => exact absurd trivial hactivates
    case pushData monId value =>
      obtain ⟨rfl, -⟩ := Process.into_eq.mp he
      exact (pushData_calm monId value p.toWorld).fades
    case resetItems =>
      obtain ⟨rfl, -⟩ := Process.into_eq.mp he
      refine .of_items rfl fun item' hmem => ?_
      obtain ⟨item, hitem, rfl⟩ := List.mem_map.mp hmem
      exact .inr ⟨item, hitem, rfl⟩
    case monitorItem reply i =>
      exact monitorItem_fades (by simpa [Op.Activates] using hactivates) he
    case created result i =>
      simp only [Op.exec] at he
      split at he <;> obtain ⟨rfl, -⟩ := Process.into_eq.mp he <;> exact .refl _
    case answered result i browseName =>
      simp only [Op.exec] at he
      split at he
      · rename_i hgood
        obtain ⟨rfl, -⟩ := Process.into_eq.mp he
        exact answered_fades hgood p.toWorld
      · obtain ⟨rfl, -⟩ := Process.into_eq.mp he
        exact .refl _
    case enterItem r browseName node accessor => exact enterItem_fades he
    case leaveItem r browseName accessor => exact leaveItem_fades he
    case setExternalError browseName reporter =>
      obtain ⟨rfl, -⟩ := Process.into_eq.mp he
      exact setExternalError_fades browseName reporter p.toWorld
    case popNotification accessor =>
      obtain ⟨rfl, -⟩ := Process.into_eq.mp he
      exact ⟨rfl, id⟩
    case copyVariant accessor value =>
      obtain ⟨rfl, -⟩ := Process.into_eq.mp he
      exact ⟨rfl, id⟩
    case overwrite accessor payload converts =>
      rcases overwriteValue_cases he with ⟨rfl, -⟩ | ⟨rfl, -⟩ <;> exact ⟨rfl, id⟩

theorem Op.exec_inactive {i : Op V} (hactivates : ¬ i.Activates p) (hin : p.Inactive)
    (he : i.exec p = some (p', next)) : p'.Inactive := by
  by_cases hclear : i.isClearAsync = true
  · cases i <;> cases hclear
    obtain ⟨rfl, -⟩ := Process.into_eq.mp he
    exact hin
  by_cases hset : i.isSetAsync = true
  · cases i <;> cases hset
    obtain ⟨rfl, -⟩ := Process.into_eq.mp he
    exact hin
  exact (Op.exec_fades hactivates ⟨by simpa using hclear, by simpa using hset⟩ he).inactive hin

/-- An operation that activates an item does so while asynchronous reading is active, or leaves
it as it is. -/
theorem Op.exec_activates {i : Op V} (hactivates : i.Activates p)
    (he : i.exec p = some (p', next)) : p'.asyncReadActive = p.asyncReadActive := by
  cases i <;> try exact hactivates.elim
  case monitorItem reply i =>
    have hasync : (activateIfAsync i p.toWorld).asyncReadActive = p.asyncReadActive := by
      unfold activateIfAsync activateItem
      repeat' split
      all_goals rfl
    simp only [Op.exec, OpcUaBackend.monitorItem] at he
    repeat' split at he
    all_goals
      obtain ⟨rfl, -⟩ := Process.into_eq.mp he
      exact hasync
  case activateItems =>
    obtain ⟨rfl, -⟩ := Process.into_eq.mp he
    rfl

end Operations

/-! ## Every run -/

/-- Without asynchronous reading, and at the end of `deactivate`, no item is active. -/
structure Settled (s : State V α) : Prop where
  inactive : s.shared.asyncReadActive = false → s.shared.Inactive
  clearing : s.Clearing → s.shared.Inactive

variable [DecidableEq α] {s s' : State V α} {m : Move (Thread α) (Entry V)}

/-- A thread is at the end of `deactivate` because it was, or because it clears the flags now. -/
theorem State.Clearing.of_step (hs : (threads V α).Step s m s') (h : s'.Clearing) :
    s.Clearing ∨
      ∃ t removal rest, m = .advance t ∧ s.stack t = .run (.clearActive removal) :: rest := by
  obtain ⟨t, ht⟩ := h
  obtain ⟨j, hj, hkind⟩ := Code.runs_iff.mp ht
  obtain rfl : j = .clearAsync := by cases j <;> first | rfl | cases hkind
  rcases Step.awaited hs hj rfl with hold | ⟨i, rest, hm, hstack, hputs⟩
  · exact .inl ⟨t, Code.runs_iff.mpr ⟨_, hold, rfl⟩⟩
  · cases hputs
    exact .inr ⟨t, _, rest, hm, hstack⟩

/-- What every step under the condition preserves. -/
theorem Settled.step (h : Settled s) (hg : OnRun Settling s m)
    (hs : (threads V α).Step s m s') : Settled s' := by
  constructor
  · intro hasync
    rcases hs.shared with hsame | ⟨t, i, rest, next, rfl, hstack, hexec⟩
    · rw [hsame] at hasync ⊢
      exact h.inactive hasync
    have hcond : Settling s t i := hg.run hstack
    by_cases hclear : i.isClearAsync = true
    · -- the end of `deactivate`
      have hin := h.clearing ⟨t, Code.runs_iff.mpr ⟨i, by simp [hstack], hclear⟩⟩
      refine Op.exec_inactive (fun hact => ?_) hin hexec
      cases i <;> first | cases hclear; done | exact hact
    by_cases hset : i.isSetAsync = true
    · cases i <;> cases hset
      obtain ⟨heq, -⟩ := Process.into_eq.mp hexec
      rw [← heq] at hasync
      cases hasync
    by_cases hact : i.Activates s.shared
    · rw [Op.exec_activates hact hexec] at hasync
      cases i <;> try exact hact.elim
      case monitorItem reply i =>
        have hactive : s.shared.asyncReadActive = true := hact
        simp [hasync] at hactive
      case activateItems =>
        have hboth : s.shared.asyncReadActive = true ∧ ¬ s.Clearing := hcond
        simp [hasync] at hboth
    · have hfades := Op.exec_fades hact ⟨by simpa using hclear, by simpa using hset⟩ hexec
      exact hfades.inactive (h.inactive (hfades.asyncReadActive ▸ hasync))
  · intro hclearing
    -- a thread that was about to end `deactivate`, or that gets there by this step
    rcases hclearing.of_step hs with hold | ⟨t, removal, rest, rfl, hstack⟩
    · rcases hs.shared with hsame | ⟨t, i, rest, next, rfl, hstack, hexec⟩
      · rw [hsame]
        exact h.clearing hold
      · have hcond : Settling s t i := hg.run hstack
        refine Op.exec_inactive (fun hact => ?_) (h.clearing hold) hexec
        cases i <;> try exact hact.elim
        case monitorItem reply i => exact hcond hact hold
        case activateItems => exact hcond.2 hold
    · have hcond : Settling s t (.clearActive removal) := hg.run hstack
      obtain ⟨next, hexec⟩ := hs.of_run hstack
      obtain ⟨heq, -⟩ := Process.into_eq.mp hexec
      rw [← heq]
      exact clearActive_inactive hcond

theorem reach_settled (h : (threads V α).machine.Reach (OnRun Settling) s) : Settled s := by
  refine h.invariant (fun s hinit => ?_) fun s m s' hI hg hs => hI.step hg hs.1
  obtain ⟨hfresh, hstack, -⟩ := hinit
  have hin : s.shared.Inactive := by
    rw [World.Inactive, hfresh.world.items]
    simp
  exact ⟨fun _ => hin, fun _ => hin⟩

/-! ## What is not pushed -/

theorem World.Inactive.handleException {w : World V} (h : w.Inactive) (message : String) :
    (handleException message w).accessors = w.accessors := by
  have hnone : w.items.elems.filter MonitorItem.raises = [] := by
    refine List.filter_eq_nil_iff.mpr fun item hmem => ?_
    simp [MonitorItem.raises, h item hmem]
  unfold OpcUaBackend.handleException
  simp only [hnone]
  rfl

theorem World.Inactive.subscribe {w : World V} (h : w.Inactive) (hasync : w.asyncReadActive = false)
    (r : Replies V) (browseName : String) (node : UA_NodeId) (accessor : Accessor) :
    (subscribe r browseName node accessor w).world.accessors = w.accessors := by
  have hasync' : (w.record (.subscribed accessor browseName)).asyncReadActive = false := hasync
  unfold OpcUaBackend.subscribe
  simp only
  split
  · rw [if_neg (by simp [hasync'])]
    rfl
  · rename_i i item hfind
    have hitem : item.active = false :=
      h item (List.mem_of_getElem? (World.find?_eq_some hfind).1)
    split
    · rfl
    · simp [hitem, Result.world, World.record]

/-- **Inactivity.** In every run in which each deactivation finds its active items in the map and
no item is activated outside of asynchronous reading, no item is active without it, and neither
an exception nor a further accessor pushes anything. -/
theorem reach_inactive (h : (threads V α).machine.Reach (OnRun Settling) s)
    (hasync : s.shared.asyncReadActive = false) :
    s.shared.Inactive ∧
      (∀ message, (handleException message s.shared.toWorld).accessors = s.shared.accessors) ∧
        ∀ r browseName node accessor,
          (subscribe r browseName node accessor s.shared.toWorld).world.accessors
            = s.shared.accessors := by
  have hin := (reach_settled h).inactive hasync
  exact ⟨hin, hin.handleException, fun r browseName node accessor =>
    hin.subscribe hasync r browseName node accessor⟩

/-- A register is read asynchronously until an exception is set. The numbers are those of the
steps of the opening and of the activation. -/
def readUntilException (r : Replies Nat) (opening activating : Nat) :
    List (Move (Thread Unit) (Entry Nat)) :=
  Entry.steps (.app ()) (.constructAccessor {} "a" ⟨1, .string "a"⟩ 10) 6
    ++ Entry.steps (.app ()) (.openDevice {} { r with connect := connecting.connect }) opening
    ++ Entry.steps (.app ()) (.activateAsyncRead r) activating
    ++ Entry.steps (.app ()) (.setException {}) 13

theorem reach_inactive_readUntilException :
    ((threads Nat Unit).after (Program.start {}) (readUntilException {} 40 13)).shared.Inactive :=
  (reach_inactive (Program.reach_after (readUntilException {} 40 13)
    (Program.reach_start Process.fresh_default) (by decide +kernel)) (by decide +kernel)).1

/-- The answers of a server that has no such node. -/
def refusing : Replies Nat :=
  { createDataChange := fun _ =>
      { result := { statusCode := ⟨0x80340000, "BadNodeIdUnknown"⟩, monitoredItemId := 0 } } }

/-- An item that was never monitored stays active. -/
theorem not_inactive_refusing :
    ¬ ∀ s : State Nat Unit, (threads Nat Unit).machine.Reachable s → (∀ t, s.stack t = []) →
      s.shared.asyncReadActive = false → s.shared.Inactive := by
  intro h
  have hempty : ∀ t, (((threads Nat Unit).after (Program.start {})
      (readUntilException refusing 45 26)).stack t).isEmpty = true := by decide +kernel
  have hin := h _ (Program.reach_after (readUntilException refusing 45 26)
    (Program.reach_start Process.fresh_default) (by decide +kernel))
    (fun t => List.isEmpty_iff.mp (hempty t)) (by decide +kernel)
  exact absurd hin (by decide +kernel)

end OpcUaBackend
