import OpcUaBackend.Manager.Activation
import OpcUaBackend.Manager.InitialValue
import OpcUaBackend.Threads.Effects

/-!
# The queues of the accessors

A notification is pushed by `handleException`, by the critical section of `responseHandler`, and by
`subscribe` for the initial value of its accessor. The accessor takes notifications out of its queue
while the client thread pushes. In every interleaving it gets them in the order in which they were
pushed and none twice, what it misses was overwritten by a later one in a full queue, and the one
pushed last is never lost. It keeps the value it took last until it makes a transfer of its own,
which changes what it keeps.

The first two push to all accessors of an item. So two accessors of one item get the same
notifications from the later subscription on, whatever the threads do.

## Main definitions

* `pushesTo`, `queueUses`: what is pushed to an accessor, and how its queue is used in a run
* `Together`: two accessors are in the same lists

## Main results

* `after_deliversInOrder`: what an accessor gets
* `steps_together`: two accessors of one item get the same
-/

namespace OpcUaBackend

open Foundation

variable {V α : Type}

/-! ## What is pushed -/

/-- The notifications that the events push to the accessor, in the order of their pushes. -/
def pushesTo (a : Accessor) (es : List (Event V)) : List (Notification V) :=
  es.reverse.filterMap (Event.pushedTo a)

section Pushes

variable {a : Accessor} {es es' : List (Event V)}

theorem pushesTo_append : pushesTo a (es' ++ es) = pushesTo a es ++ pushesTo a es' := by
  rw [pushesTo, List.reverse_append, List.filterMap_append, pushesTo, pushesTo]

theorem pushesTo_of_none (h : ∀ e ∈ es, e.pushedTo a = none) : pushesTo a es = [] := by
  rw [pushesTo, List.filterMap_eq_nil_iff]
  exact fun e he => h e (List.mem_reverse.mp he)

/-- Each time the accessor is in the list, the notification is pushed to it. -/
theorem pushesTo_pushes (n : Notification V) (as : List Accessor) :
    pushesTo a (pushes n as) = List.replicate (as.count a) n := by
  rw [pushesTo, pushes, List.reverse_reverse, List.filterMap_map]
  induction as with
  | nil => rfl
  | cons b as ih =>
    by_cases hb : b = a
    · rw [hb, List.count_cons_self, List.replicate_succ, ← ih,
        List.filterMap_cons_some (b := n) (by simp [Event.pushedTo])]
    · rw [List.count_cons_of_ne hb, ← ih,
        List.filterMap_cons_none (by simp [Event.pushedTo, hb])]

end Pushes

/-! ## What the operations do to a queue -/

/-- The queue of an accessor. -/
abbrev World.queue (w : World V) (a : Accessor) : BoundedQueue (Notification V) :=
  (w.accessors a).notifications

/-- What an accessor keeps after it has taken a notification out of its queue: a value, when there
is one. -/
def Notification.keep (data : DataValue V) : Notification V → DataValue V
  | .data value => if value.hasValue then value else data
  | .exception _ => data

/-- The events `es` are new, and what they push is pushed to each queue, and nothing else happens
to the accessors. -/
structure PushesOnly (es : List (Event V)) (w w' : World V) : Prop where
  history : w'.history = es ++ w.history
  queue : ∀ a, w'.queue a = (w.queue a).uses ((pushesTo a es).map .push)
  data : ∀ a, (w'.accessors a).data = (w.accessors a).data

/-- The events push nothing. -/
def Event.PushesNone (e : Event V) : Prop := ∀ a, e.pushedTo a = none

namespace PushesOnly

variable {es es' : List (Event V)} {w w' w'' : World V}

protected theorem refl (w : World V) : PushesOnly [] w w := ⟨rfl, fun _ => rfl, fun _ => rfl⟩

protected theorem trans (h : PushesOnly es w w') (h' : PushesOnly es' w' w'') :
    PushesOnly (es' ++ es) w w'' where
  history := by rw [h'.history, h.history, List.append_assoc]
  queue a := by
    rw [h'.queue, h.queue, ← BoundedQueue.uses_append, pushesTo_append, List.map_append]
  data a := (h'.data a).trans (h.data a)

/-- A step that leaves the accessors alone. -/
theorem of_accessors (haccessors : w'.accessors = w.accessors)
    (hhistory : w'.history = es ++ w.history) (hes : ∀ e ∈ es, e.PushesNone) :
    PushesOnly es w w' where
  history := hhistory
  queue a := by
    rw [pushesTo_of_none fun e he => hes e he a, World.queue, haccessors]
    rfl
  data a := by rw [haccessors]

theorem push (w : World V) (n : Notification V) (b : Accessor) :
    PushesOnly [.pushed b n] w (w.push n b) where
  history := rfl
  queue a := by
    by_cases hab : b = a
    · subst hab
      simp [World.queue, World.push, World.record, pushesTo, Event.pushedTo, BoundedQueue.use]
    · have hother : (w.push n b).accessors a = w.accessors a :=
        Function.update_of_ne (Ne.symm hab) _ _
      rw [World.queue, hother, pushesTo_of_none (by simp [Event.pushedTo, hab])]
      rfl
  data a := by
    by_cases hab : b = a
    · subst hab
      simp [World.push, World.record]
    · have hother : (w.push n b).accessors a = w.accessors a :=
        Function.update_of_ne (Ne.symm hab) _ _
      rw [hother]

theorem pushAll (w : World V) (n : Notification V) (as : List Accessor) :
    PushesOnly (pushes n as) w (w.pushAll n as) := by
  induction as generalizing w with
  | nil => exact .refl w
  | cons b as ih =>
    have h := (push w n b).trans (ih (w.push n b))
    have hevents : pushes n as ++ [.pushed b n] = pushes n (b :: as) := by simp [pushes]
    exact hevents ▸ h

end PushesOnly

/-- The operation pushes into queues, takes something out of one, or is a transfer of an
accessor's own, which changes the data it keeps. -/
def Op.movesQueues : Op V → Bool
  | raise _ _ => true
  | pushData _ _ => true
  | enterItem _ _ _ _ => true
  | popNotification _ => true
  | copyVariant _ _ => true
  | overwrite _ _ _ => true
  | _ => false

section Operations

variable {p p' : Process V} {next : Next (Op V) Lock}

theorem activateIfAsync_pushesNone (w : World V) (i : Nat) :
    (activateIfAsync i w).accessors = w.accessors ∧
      ∃ es, (activateIfAsync i w).history = es ++ w.history ∧ ∀ e ∈ es, e.PushesNone := by
  have hnone : ∃ es : List (Event V), w.history = es ++ w.history ∧ ∀ e ∈ es, e.PushesNone :=
    ⟨[], rfl, by simp⟩
  unfold activateIfAsync
  split
  · unfold activateItem
    split
    · exact ⟨rfl, hnone⟩
    · exact ⟨rfl, [_], rfl, by simp [Event.PushesNone, Event.pushedTo]⟩
  · exact ⟨rfl, hnone⟩

/-- The other operations leave the accessors alone and push nothing. -/
theorem Op.exec_keepsQueues {i : Op V} (hi : i.movesQueues = false)
    (he : i.exec p = some (p', next)) :
    p'.accessors = p.accessors ∧
      ∃ es, p'.history = es ++ p.history ∧ ∀ e ∈ es, e.PushesNone := by
  have hnone : ∃ es : List (Event V), p.history = es ++ p.history ∧ ∀ e ∈ es, e.PushesNone :=
    ⟨[], rfl, by simp⟩
  by_cases hplain : i.isPlain = true
  · have h := Op.exec_plain hplain he
    refine ⟨h.accessors, _, h.history, fun e hmem a => ?_⟩
    -- no call of the library is a push
    obtain ⟨call, -, hevent⟩ := Option.bind_eq_some_iff.mp (Option.mem_toList.mp hmem)
    cases call <;> cases hevent <;> rfl
  cases i <;> try first | cases hi; done | exact absurd rfl hplain
  case clearActive removal =>
    obtain ⟨rfl, -⟩ := Process.into_eq.mp he
    refine ⟨?_, [], clearActive_history p.toWorld, by simp⟩
    show (OpcUaBackend.clearActive p.toWorld).accessors = p.accessors
    unfold OpcUaBackend.clearActive
    simp only
    split <;> rfl
  case monitorItem reply i =>
    have hactivate := activateIfAsync_pushesNone p.toWorld i
    simp only [Op.exec, OpcUaBackend.monitorItem] at he
    repeat' split at he
    all_goals
      obtain ⟨rfl, -⟩ := Process.into_eq.mp he
      exact hactivate
  case answered result i browseName =>
    simp only [Op.exec] at he
    split at he
    · rename_i hgood
      obtain ⟨rfl, -⟩ := Process.into_eq.mp he
      simp only [Process.on, monitoringAnswered, if_pos hgood, true_and]
      exact hnone
    · obtain ⟨rfl, -⟩ := Process.into_eq.mp he
      exact ⟨rfl, hnone⟩
  case activateItems =>
    obtain ⟨rfl, -⟩ := Process.into_eq.mp he
    refine ⟨rfl, _, rfl, fun e hmem a => ?_⟩
    obtain ⟨item, -, rfl⟩ := List.mem_map.mp (List.mem_reverse.mp hmem)
    rfl
  case leaveItem r browseName accessor =>
    simp only [Op.exec, OpcUaBackend.leaveItem] at he
    repeat' split at he
    all_goals
      obtain ⟨rfl, -⟩ := Process.into_eq.mp he
      exact ⟨rfl, hnone⟩
  case setExternalError browseName reporter =>
    obtain ⟨rfl, -⟩ := Process.into_eq.mp he
    simp only [Process.on, OpcUaBackend.setExternalError]
    split
    · exact ⟨rfl, hnone⟩
    · exact ⟨rfl, [_], rfl, by simp [Event.PushesNone, Event.pushedTo]⟩
  case created result i =>
    simp only [Op.exec] at he
    split at he <;> obtain ⟨rfl, -⟩ := Process.into_eq.mp he <;> exact ⟨rfl, hnone⟩
  all_goals
    obtain ⟨rfl, -⟩ := Process.into_eq.mp he
    exact ⟨rfl, hnone⟩

theorem handleException_pushesOnly (w : World V) (message : String) :
    PushesOnly (pushes (.exception message)
      ((w.items.elems.filter MonitorItem.raises).flatMap (·.accessors))) w
      (handleException message w) := by
  have hmark : PushesOnly [] w { w with items := w.items.map MonitorItem.raise } :=
    .of_accessors rfl rfl (by simp)
  have h := hmark.trans (PushesOnly.pushAll _ (.exception message)
    ((w.items.elems.filter MonitorItem.raises).flatMap (·.accessors)))
  rwa [List.append_nil] at h

/-- Data goes to all accessors of an item. -/
theorem pushData_pushesOnly (w : World V) (monId : Nat) (value : DataValue V) :
    ∃ as, PushesOnly (pushes (.data value) as) w (pushData monId value w) ∧
      (as = [] ∨ ∃ item ∈ w.items.elems, as = item.accessors) := by
  have hfail : PushesOnly (pushes (.data value) []) w (w.fail .danglingPointer) :=
    .of_accessors rfl rfl (by simp [pushes])
  unfold pushData
  split
  · exact ⟨[], hfail, .inl rfl⟩
  · split
    · exact ⟨[], hfail, .inl rfl⟩
    · rename_i q _ item hitem
      obtain ⟨i, rfl, hi⟩ := (SlotDeque.get?_eq_some _).mp hitem
      have hclear : PushesOnly [] w { w with
          items := w.items.mapSlots fun q' item =>
            if q' = w.items.slot i then { item with hasException := false } else item } :=
        .of_accessors rfl rfl (by simp)
      have h := hclear.trans (PushesOnly.pushAll _ (.data value) item.accessors)
      rw [List.append_nil] at h
      exact ⟨item.accessors, h, .inr ⟨item, List.mem_of_getElem? hi, rfl⟩⟩

/-- A subscription pushes to its own accessor only. -/
theorem enterItem_pushesOnly {r : Replies V} {browseName : String} {node : UA_NodeId}
    {accessor : Accessor} (he : enterItem r browseName node accessor p = some (p', next)) :
    ∃ es, PushesOnly es p.toWorld p'.toWorld ∧
      ∀ a, a ≠ accessor → ∀ e ∈ es, e.pushedTo a = none := by
  have hrecord : ∀ w' : World V, w'.accessors = p.accessors →
      w'.history = .subscribed accessor browseName :: p.history →
      PushesOnly [.subscribed accessor browseName] p.toWorld w' := fun w' hsame hhistory =>
    .of_accessors hsame hhistory (by simp [Event.PushesNone, Event.pushedTo])
  have hsilent : ∀ a, a ≠ accessor → ∀ e ∈ [Event.subscribed (V := V) accessor browseName],
      e.pushedTo a = none := by simp [Event.pushedTo]
  unfold enterItem at he
  simp only at he
  split at he
  · obtain ⟨rfl, -⟩ := Process.into_eq.mp he
    exact ⟨_, hrecord _ rfl rfl, hsilent⟩
  · split at he
    · obtain ⟨rfl, -⟩ := Process.into_eq.mp he
      exact ⟨_, hrecord _ rfl rfl, hsilent⟩
    · rename_i i item _ tmp _
      split at he
      · split at he
        · rename_i w hpush
          obtain ⟨rfl, -⟩ := Process.into_eq.mp he
          -- the initial value, if there is one
          have hworld := congrArg Result.world hpush
          rcases pushInitialValue_world r.frontOfException tmp accessor _ with
            hsame | ⟨f, hfail⟩ | ⟨value, hvalue⟩
          · rw [hsame] at hworld
            subst hworld
            exact ⟨_, hrecord _ rfl rfl, hsilent⟩
          · rw [hfail] at hworld
            subst hworld
            exact ⟨_, hrecord _ rfl rfl, hsilent⟩
          · rw [hvalue] at hworld
            subst hworld
            refine ⟨[.pushed accessor (.data value), .subscribed accessor browseName],
              PushesOnly.trans ?_ (.push _ (.data value) accessor), ?_⟩
            · exact hrecord _ rfl rfl
            intro a ha e hmem
            rcases List.mem_cons.mp hmem with rfl | hsubscribed
            · simp [Event.pushedTo, Ne.symm ha]
            · exact hsilent a ha e hsubscribed
        · obtain ⟨rfl, -⟩ := Process.out_eq.mp he
          exact ⟨_, hrecord _ rfl rfl, hsilent⟩
      · obtain ⟨rfl, -⟩ := Process.into_eq.mp he
        exact ⟨_, hrecord _ rfl rfl, hsilent⟩

/-- A transfer of an accessor's own uses no queue, and leaves the data of the others. -/
theorem ownTransfer_queue (accessor : Accessor) (data : DataValue V) (w : World V) :
    (ownTransfer accessor data w).history = [.transferred accessor] ++ w.history ∧
      ∀ a, (ownTransfer accessor data w).queue a = w.queue a ∧
        (accessor ≠ a → ((ownTransfer accessor data w).accessors a).data = (w.accessors a).data) := by
  refine ⟨rfl, fun a => ?_⟩
  by_cases ha : accessor = a
  · subst ha
    exact ⟨by simp [World.queue, ownTransfer, World.record], fun hne => absurd rfl hne⟩
  · have hother : (ownTransfer accessor data w).accessors a = w.accessors a :=
      Function.update_of_ne (Ne.symm ha) _ _
    exact ⟨congrArg (·.notifications) hother, fun _ => congrArg (·.data) hother⟩

/-- How an operation that adds these events uses the queue of an accessor. -/
def Op.queueUses (a : Accessor) (es : List (Event V)) :
    Op V → List (BoundedQueue.Use (Notification V))
  | popNotification b => if b = a then [.pop] else []
  | _ => (pushesTo a es).map .push

/-- Between two states the accessor's queue is used so; and the accessor keeps what is taken out,
unless it makes a transfer of its own. -/
structure UsedBy (a : Accessor) (us : List (BoundedQueue.Use (Notification V)))
    (es : List (Event V)) (w w' : World V) : Prop where
  queue : w'.queue a = (w.queue a).uses us
  data : .transferred a ∉ es →
    (w'.accessors a).data = ((w.queue a).taken us).foldl Notification.keep (w.accessors a).data

/-- **What an operation does to a queue.** -/
theorem Op.exec_queue {i : Op V} (he : i.exec p = some (p', next)) :
    ∃ es, p'.history = es ++ p.history ∧
      ∀ a, UsedBy a (i.queueUses a es) es p.toWorld p'.toWorld ∧
        BoundedQueue.pushed (i.queueUses a es) = pushesTo a es := by
  have hpushes : (∀ b, i ≠ .popNotification b) → ∀ {es}, PushesOnly es p.toWorld p'.toWorld →
      ∃ es, p'.history = es ++ p.history ∧
        ∀ a, UsedBy a (i.queueUses a es) es p.toWorld p'.toWorld ∧
          BoundedQueue.pushed (i.queueUses a es) = pushesTo a es := by
    intro hi es h
    have huses : ∀ a, i.queueUses a es = (pushesTo a es).map .push := by
      intro a
      cases i <;> first | rfl | exact absurd rfl (hi _)
    refine ⟨es, h.history, fun a => ?_⟩
    rw [huses, BoundedQueue.pushed_map]
    exact ⟨⟨h.queue a, fun _ => by rw [BoundedQueue.taken_push]; exact h.data a⟩, rfl⟩
  -- a transfer of an accessor's own pushes nothing
  have htransfer : (∀ a es, i.queueUses a es = (pushesTo a es).map .push) →
      ∀ accessor data, p'.toWorld = ownTransfer accessor data p.toWorld →
      ∃ es, p'.history = es ++ p.history ∧
        ∀ a, UsedBy a (i.queueUses a es) es p.toWorld p'.toWorld ∧
          BoundedQueue.pushed (i.queueUses a es) = pushesTo a es := by
    intro huses accessor data hworld
    obtain ⟨hhistory, hsame⟩ := ownTransfer_queue accessor data p.toWorld
    refine ⟨[.transferred accessor], (congrArg World.history hworld).trans hhistory, fun a => ?_⟩
    have hnone : pushesTo a [(.transferred accessor : Event V)] = [] := rfl
    rw [huses, hnone, hworld]
    refine ⟨⟨(hsame a).1, fun hown => (hsame a).2 ?_⟩, rfl⟩
    rintro rfl
    exact hown (List.mem_singleton_self _)
  by_cases hmoves : i.movesQueues = true
  · cases i <;> try (cases hmoves; done)
    case raise message deactivating =>
      obtain ⟨rfl, -⟩ := Process.into_eq.mp he
      exact hpushes (by simp) (handleException_pushesOnly p.toWorld message)
    case pushData monId value =>
      obtain ⟨rfl, -⟩ := Process.into_eq.mp he
      obtain ⟨as, h, -⟩ := pushData_pushesOnly p.toWorld monId value
      exact hpushes (by simp) h
    case enterItem r browseName node accessor =>
      obtain ⟨es, h, -⟩ := enterItem_pushesOnly he
      exact hpushes (by simp) h
    case popNotification b =>
      obtain ⟨rfl, -⟩ := Process.into_eq.mp he
      refine ⟨[], rfl, fun a => ?_⟩
      simp only [Op.queueUses]
      by_cases hb : b = a
      · subst hb
        rw [if_pos rfl]
        refine ⟨⟨?_, fun _ => ?_⟩, rfl⟩
        · simp [World.queue, Process.on, OpcUaBackend.popNotification, BoundedQueue.use]
        · simp only [Process.on, OpcUaBackend.popNotification, Function.update_self, World.queue,
            BoundedQueue.taken, List.append_nil]
          cases (p.accessors b).notifications.front? with
          | none => rfl
          | some n => cases n <;> rfl
      · rw [if_neg hb]
        have hother : (Process.on p (OpcUaBackend.popNotification b)).accessors a = p.accessors a :=
          Function.update_of_ne (Ne.symm hb) _ _
        exact ⟨⟨congrArg (·.notifications) hother, fun _ => congrArg (·.data) hother⟩, rfl⟩
    case copyVariant accessor value =>
      obtain ⟨rfl, -⟩ := Process.into_eq.mp he
      exact htransfer (fun _ _ => rfl) accessor value rfl
    case overwrite accessor payload converts =>
      rcases overwriteValue_cases he with ⟨rfl, -⟩ | ⟨rfl, -⟩
      · exact hpushes (by simp) (.of_accessors rfl (List.nil_append _).symm (by simp))
      · exact htransfer (fun _ _ => rfl) accessor _ rfl
  · obtain ⟨haccessors, es, hhistory, hes⟩ := Op.exec_keepsQueues (by simpa using hmoves) he
    refine hpushes ?_ (.of_accessors haccessors hhistory hes)
    rintro b rfl
    exact hmoves rfl

end Operations

/-! ## What an accessor gets -/

section Runs

variable [DecidableEq α]

/-- How a move uses the queue of the accessor. -/
def stepUses (a : Accessor) (s : State V α) :
    Move (Thread α) (Entry V) → List (BoundedQueue.Use (Notification V))
  | .enter _ _ => []
  | .advance t =>
    match s.stack t with
    | .run i :: _ => i.queueUses a
        (newEvents s.shared.history ((threads V α).after s [.advance t]).shared.history)
    | _ => []

/-- How a list of moves uses the queue of the accessor. -/
def queueUses (a : Accessor) : State V α → List (Move (Thread α) (Entry V)) →
    List (BoundedQueue.Use (Notification V))
  | _, [] => []
  | s, m :: ms => stepUses a s m ++ queueUses a ((threads V α).after s [m]) ms

theorem newEvents_self (h : List (Event V)) : newEvents h h = [] := newEvents_append [] h

/-- A move that cannot be made uses no queue. -/
theorem stepUses_of_none {s : State V α} {m : Move (Thread α) (Entry V)}
    (h : (threads V α).step? s m = none) (a : Accessor) : stepUses a s m = [] := by
  have hstays : (threads V α).after s [m] = s := by simp [Program.after, h]
  cases m with
  | enter t c => rfl
  | advance t =>
    rw [stepUses]
    split
    · rename_i i rest hstack
      rw [hstays, newEvents_self]
      cases i with
      | popNotification b =>
        -- an accessor never waits for its queue
        simp [Program.step?, hstack, threads, Op.exec, Process.into] at h
      | _ => rfl
    · rfl

theorem UsedBy.append {a : Accessor} {us us' : List (BoundedQueue.Use (Notification V))}
    {es es' : List (Event V)} {w w' w'' : World V} (h : UsedBy a us es w w')
    (h' : UsedBy a us' es' w' w'') : UsedBy a (us ++ us') (es' ++ es) w w'' where
  queue := by rw [h'.queue, h.queue, BoundedQueue.uses_append]
  data hown := by
    rw [List.mem_append, not_or] at hown
    rw [h'.data hown.1, h.data hown.2, h.queue, BoundedQueue.taken_append, List.foldl_append]

theorem step_queue (s : State V α) (m : Move (Thread α) (Entry V)) :
    ∃ es, ((threads V α).after s [m]).shared.history = es ++ s.shared.history ∧
      ∀ a, UsedBy a (stepUses a s m) es s.shared.toWorld
          ((threads V α).after s [m]).shared.toWorld ∧
        BoundedQueue.pushed (stepUses a s m) = pushesTo a es := by
  cases hm : (threads V α).step? s m with
  | none =>
    have hstays : (threads V α).after s [m] = s := by simp [Program.after, hm]
    refine ⟨[], by rw [hstays, List.nil_append], fun a => ?_⟩
    rw [hstays, stepUses_of_none hm]
    exact ⟨⟨rfl, fun _ => rfl⟩, rfl⟩
  | some s' =>
    have hafter : (threads V α).after s [m] = s' := by simp [Program.after, hm]
    have hquiet : s'.shared = s.shared → (∀ a, stepUses a s m = []) →
        ∃ es, s'.shared.history = es ++ s.shared.history ∧
          ∀ a, UsedBy a (stepUses a s m) es s.shared.toWorld s'.shared.toWorld ∧
            BoundedQueue.pushed (stepUses a s m) = pushesTo a es := by
      intro hsame huses
      refine ⟨[], by rw [hsame, List.nil_append], fun a => ?_⟩
      rw [hsame, huses]
      exact ⟨⟨rfl, fun _ => rfl⟩, rfl⟩
    rw [hafter]
    cases Program.step?_sound hm with
    | enter _ _ => exact hquiet rfl fun a => rfl
    | lock hstack _ => exact hquiet rfl fun a => by rw [stepUses, hstack]
    | unlock hstack => exact hquiet rfl fun a => by rw [stepUses, hstack]
    | @run t i rest shared next hstack hexec =>
      obtain ⟨es, hhistory, hqueue⟩ := Op.exec_queue hexec
      refine ⟨es, hhistory, fun a => ?_⟩
      have huses : stepUses a s (.advance t) = i.queueUses a es := by
        rw [stepUses, hstack, hafter]
        show i.queueUses a (newEvents s.shared.history shared.history) = _
        rw [hhistory, newEvents_append]
      rw [huses]
      exact hqueue a

/-- Between two states the queue of the accessor is used as `us` says, with the pushes of the
history. -/
structure DeliversInOrder (a : Accessor) (us : List (BoundedQueue.Use (Notification V)))
    (s s' : State V Unit) : Prop where
  pushes : ∃ es, s'.shared.history = es ++ s.shared.history ∧
    BoundedQueue.pushed us = pushesTo a es
  queue : s'.shared.queue a = (s.shared.queue a).uses us
  /-- what it takes, and what it still finds, comes in the order of the pushes, and once -/
  ordered : ((s.shared.queue a).taken us ++ (s'.shared.queue a).elems).Sublist
    ((s.shared.queue a).elems ++ BoundedQueue.pushed us)
  /-- what it misses was overwritten -/
  missing : ((s.shared.queue a).taken us ++ (s'.shared.queue a).elems
    ++ (s.shared.queue a).overwritten us).Perm
      ((s.shared.queue a).elems ++ BoundedQueue.pushed us)
  /-- and what was pushed last is not missing -/
  newest : ((s.shared.queue a).taken us ++ (s'.shared.queue a).elems).getLast?
    = ((s.shared.queue a).elems ++ BoundedQueue.pushed us).getLast?
  bounded : 0 < (s.shared.queue a).capacity →
    (s.shared.queue a).elems.length ≤ (s.shared.queue a).capacity →
    (s'.shared.queue a).elems.length ≤ (s.shared.queue a).capacity
  /-- of what it takes it keeps the last value, as long as it makes no transfer of its own -/
  data : .transferred a ∉ newEvents s.shared.history s'.shared.history →
    (s'.shared.accessors a).data = ((s.shared.queue a).taken us).foldl Notification.keep
      (s.shared.accessors a).data

theorem after_queue (a : Accessor) (s : State V α) (ms : List (Move (Thread α) (Entry V))) :
    ∃ es, ((threads V α).after s ms).shared.history = es ++ s.shared.history ∧
      UsedBy a (queueUses a s ms) es s.shared.toWorld
        ((threads V α).after s ms).shared.toWorld ∧
      BoundedQueue.pushed (queueUses a s ms) = pushesTo a es := by
  induction ms generalizing s with
  | nil => exact ⟨[], rfl, ⟨rfl, fun _ => rfl⟩, rfl⟩
  | cons m ms ih =>
    obtain ⟨es, hhistory, hstep⟩ := step_queue s m
    obtain ⟨hqueue, hpushed⟩ := hstep a
    obtain ⟨es', hhistory', hqueue', hpushed'⟩ := ih ((threads V α).after s [m])
    have hafter : (threads V α).after s (m :: ms)
        = (threads V α).after ((threads V α).after s [m]) ms := rfl
    rw [hafter, queueUses]
    refine ⟨es' ++ es, ?_, hqueue.append hqueue', ?_⟩
    · rw [hhistory', hhistory, List.append_assoc]
    · rw [BoundedQueue.pushed_append, hpushed, hpushed', pushesTo_append]

/-- **What an accessor gets.** In every interleaving of the application thread and the client
thread an accessor gets what is pushed to it in order and once, but for what is overwritten while
its queue is full. -/
theorem after_deliversInOrder (a : Accessor) (s : State V Unit)
    (ms : List (Move (Thread Unit) (Entry V))) :
    DeliversInOrder a (queueUses a s ms) s ((threads V Unit).after s ms) := by
  obtain ⟨es, hhistory, ⟨hqueue, hdata⟩, hpushed⟩ := after_queue a s ms
  have hnew : newEvents s.shared.history ((threads V Unit).after s ms).shared.history = es := by
    rw [hhistory, newEvents_append]
  refine ⟨⟨es, hhistory, hpushed⟩, hqueue, ?_, ?_, ?_, ?_, fun hown => hdata (hnew ▸ hown)⟩
  · rw [hqueue]
    exact BoundedQueue.taken_append_sublist _ _
  · rw [hqueue]
    exact BoundedQueue.taken_append_perm _ _
  · rw [hqueue]
    exact BoundedQueue.getLast?_taken_append _ _
  · rw [hqueue]
    exact fun hcapacity hlength => BoundedQueue.length_uses_le hcapacity hlength _

end Runs

/-! ## Two accessors of one item -/

/-- The two accessors are in the same lists, and equally often. -/
def Together (a b : Accessor) (w : World V) : Prop :=
  ∀ item ∈ w.items.elems, item.accessors.count a = item.accessors.count b

instance Together.decidable (a b : Accessor) (w : World V) : Decidable (Together a b w) :=
  inferInstanceAs (Decidable (∀ item ∈ w.items.elems, _))

/-- The accessor that the operation adds to a list or takes out of one. -/
def Op.lists? : Op V → Option Accessor
  | enterItem _ _ _ accessor => some accessor
  | leaveItem _ _ accessor => some accessor
  | _ => none

/-- The operation is about neither of the two accessors. -/
def Bystanding (a b : Accessor) (_ : State V α) (_ : Thread α) (i : Op V) : Prop :=
  i.lists? ≠ some a ∧ i.lists? ≠ some b

instance (a b : Accessor) (s : State V α) (t : Thread α) (i : Op V) :
    Decidable (Bystanding a b s t i) :=
  inferInstanceAs (Decidable (_ ∧ _))

namespace Together

variable {a b : Accessor} {w w' : World V}

/-- Lists that are as before. -/
theorem of_lists (h : Together a b w)
    (hlists : w'.items.elems.map (·.accessors) = w.items.elems.map (·.accessors)) :
    Together a b w' := by
  intro item hmem
  have hlist : item.accessors ∈ w.items.elems.map (·.accessors) :=
    hlists ▸ List.mem_map_of_mem hmem
  obtain ⟨item', hmem', heq⟩ := List.mem_map.mp hlist
  exact heq ▸ h item' hmem'

theorem frame (h : Together a b w) (hframe : Frame w w') : Together a b w' := by
  apply h.of_lists
  have hcore := congrArg (List.map fun item : MonitorItem => item.accessors) hframe.core
  simpa only [List.map_map, Function.comp_def, MonitorItem.core] using hcore

/-- One list is changed, by as many of the one as of the other. -/
theorem modify (h : Together a b w) (i : Nat) {f : MonitorItem → MonitorItem}
    (hf : ∀ item ∈ w.items.elems, (f item).accessors.count a = (f item).accessors.count b)
    (hitems : w'.items = w.items.modify i f) : Together a b w' := by
  intro item hmem
  rw [hitems] at hmem
  obtain ⟨j, hj⟩ := List.mem_iff_getElem?.mp hmem
  rw [SlotDeque.elems_modify, List.getElem?_modify] at hj
  obtain ⟨item', hitem', heq⟩ := Option.map_eq_some_iff.mp hj
  have hmem' := List.mem_of_getElem? hitem'
  split at heq
  · exact heq ▸ hf item' hmem'
  · exact heq ▸ h item' hmem'

/-- Over some of the items the two are counted equally often. -/
theorem count_flatMap (h : Together a b w) {items : List MonitorItem}
    (hitems : ∀ item ∈ items, item ∈ w.items.elems) :
    (items.flatMap (·.accessors)).count a = (items.flatMap (·.accessors)).count b := by
  induction items with
  | nil => rfl
  | cons item items ih =>
    rw [List.flatMap_cons, List.count_append, List.count_append,
      h item (hitems item (List.mem_cons_self ..)),
      ih fun x hx => hitems x (List.mem_cons_of_mem _ hx)]

end Together

section Broadcast

variable {a b : Accessor} {p p' : Process V} {next : Next (Op V) Lock}

/-- The lists of accessors that an operation changes keep the two together. -/
theorem Together.exec {i : Op V} (h : Together a b p.toWorld) (ha : i.lists? ≠ some a)
    (hb : i.lists? ≠ some b) (he : i.exec p = some (p', next)) : Together a b p'.toWorld := by
  by_cases hplain : i.isPlain = true
  · exact h.of_lists (by rw [(Op.exec_plain hplain he).items])
  by_cases hitems : i.changesItems = true
  · cases i <;> try (cases hitems; done)
    case resetItems =>
      obtain ⟨rfl, -⟩ := Process.into_eq.mp he
      apply h.of_lists
      simp [Process.on, resetMonitoredItems, Function.comp_def]
    case answered result i browseName =>
      simp only [Op.exec] at he
      split at he
      · rename_i hgood
        obtain ⟨rfl, -⟩ := Process.into_eq.mp he
        apply h.modify i (f := MonitorItem.monitor result.monitoredItemId)
        · exact fun item hmem => h item hmem
        · show (monitoringAnswered i browseName result p.toWorld).items = _
          rw [monitoringAnswered, if_pos hgood]
      · obtain ⟨rfl, -⟩ := Process.into_eq.mp he
        exact h
    case enterItem r browseName node accessor =>
      have hother : accessor ≠ a ∧ accessor ≠ b :=
        ⟨fun he => ha (congrArg some he), fun he => hb (congrArg some he)⟩
      have hcount : ∀ as : List Accessor, as.count a = as.count b →
          (as ++ [accessor]).count a = (as ++ [accessor]).count b := by
        intro as has
        rw [List.count_append, List.count_append, has, List.count_singleton,
          List.count_singleton]
        simp [hother.1, hother.2]
      simp only [Op.exec, enterItem] at he
      split at he
      · obtain ⟨rfl, -⟩ := Process.into_eq.mp he
        intro item hmem
        rcases List.mem_append.mp hmem with hold | hnew
        · exact h item hold
        · exact List.mem_singleton.mp hnew ▸ hcount [] rfl
      · split at he
        · obtain ⟨rfl, -⟩ := Process.into_eq.mp he
          exact h
        · rename_i i item _ _ tmp _
          have hadd : ∀ w' : World V, w'.items = p.items.modify i (fun item =>
              { item with accessors := item.accessors ++ [accessor] }) → Together a b w' :=
            fun w' hsame => h.modify i (fun item hmem => hcount _ (h item hmem)) hsame
          split at he
          · split at he
            · rename_i w hpush
              obtain ⟨rfl, -⟩ := Process.into_eq.mp he
              exact (hadd _ rfl).frame (pushInitialValue_returned hpush)
            · obtain ⟨rfl, -⟩ := Process.out_eq.mp he
              exact hadd _ rfl
          · obtain ⟨rfl, -⟩ := Process.into_eq.mp he
            exact hadd _ rfl
    case leaveItem r browseName accessor =>
      have hother : a ≠ accessor ∧ b ≠ accessor :=
        ⟨fun he => ha (congrArg some he.symm), fun he => hb (congrArg some he.symm)⟩
      simp only [Op.exec, leaveItem] at he
      split at he
      · obtain ⟨rfl, -⟩ := Process.into_eq.mp he
        exact h
      · rename_i i item _
        split at he
        · split at he
          · obtain ⟨rfl, -⟩ := Process.into_eq.mp he
            refine h.modify i (fun item hmem => ?_) rfl
            show (item.accessors.erase accessor).count a = (item.accessors.erase accessor).count b
            rw [List.count_erase_of_ne hother.1, List.count_erase_of_ne hother.2]
            exact h item hmem
          · obtain ⟨rfl, -⟩ := Process.into_eq.mp he
            exact h
        · obtain ⟨rfl, -⟩ := Process.into_eq.mp he
          intro item hmem
          exact h item (List.mem_of_mem_eraseIdx hmem)
  · exact h.frame (Op.exec_frame (by simpa using hplain) (by simpa using hitems) he)

/-- What an operation pushes to the one it pushes to the other. -/
theorem Together.pushes {i : Op V} (h : Together a b p.toWorld) (ha : i.lists? ≠ some a)
    (hb : i.lists? ≠ some b) (he : i.exec p = some (p', next)) :
    ∃ es, p'.history = es ++ p.history ∧ pushesTo a es = pushesTo b es := by
  have hnone : ∀ es : List (Event V), (∀ e ∈ es, e.pushedTo a = none) →
      (∀ e ∈ es, e.pushedTo b = none) → pushesTo a es = pushesTo b es := by
    intro es hesa hesb
    rw [pushesTo_of_none hesa, pushesTo_of_none hesb]
  by_cases hmoves : i.movesQueues = true
  · cases i <;> try (cases hmoves; done)
    case raise message deactivating =>
      obtain ⟨rfl, -⟩ := Process.into_eq.mp he
      refine ⟨_, (handleException_pushesOnly p.toWorld message).history, ?_⟩
      rw [pushesTo_pushes, pushesTo_pushes,
        h.count_flatMap fun item hmem => List.mem_of_mem_filter hmem]
    case pushData monId value =>
      obtain ⟨rfl, -⟩ := Process.into_eq.mp he
      obtain ⟨as, hpushes, has⟩ := pushData_pushesOnly p.toWorld monId value
      refine ⟨_, hpushes.history, ?_⟩
      rw [pushesTo_pushes, pushesTo_pushes]
      rcases has with rfl | ⟨item, hitem, rfl⟩
      · rfl
      · rw [h item hitem]
    case enterItem r browseName node accessor =>
      obtain ⟨es, hpushes, hother⟩ := enterItem_pushesOnly he
      have hne : a ≠ accessor ∧ b ≠ accessor :=
        ⟨fun he => ha (congrArg some he.symm), fun he => hb (congrArg some he.symm)⟩
      exact ⟨es, hpushes.history, hnone es (hother a hne.1) (hother b hne.2)⟩
    case popNotification c =>
      obtain ⟨rfl, -⟩ := Process.into_eq.mp he
      exact ⟨[], rfl, rfl⟩
    case copyVariant accessor value =>
      obtain ⟨rfl, -⟩ := Process.into_eq.mp he
      exact ⟨[.transferred accessor], rfl, rfl⟩
    case overwrite accessor payload converts =>
      rcases overwriteValue_cases he with ⟨rfl, -⟩ | ⟨rfl, -⟩
      · exact ⟨[], rfl, rfl⟩
      · exact ⟨[.transferred accessor], rfl, rfl⟩
  · obtain ⟨-, es, hhistory, hes⟩ := Op.exec_keepsQueues (by simpa using hmoves) he
    exact ⟨es, hhistory, hnone es (fun e hmem => hes e hmem a) fun e hmem => hes e hmem b⟩

/-- **Two accessors of one item** get the same notifications in the same order, in every
interleaving of the application thread and the client thread in which neither is subscribed
again or unsubscribed. -/
theorem steps_together {s s' : State V Unit} {ms : List (Move (Thread Unit) (Entry V))}
    (h : (threads V Unit).machine.Steps (OnRun (Bystanding a b)) s ms s')
    (hs : Together a b s.shared.toWorld) :
    Together a b s'.shared.toWorld ∧
      ∃ es, s'.shared.history = es ++ s.shared.history ∧ pushesTo a es = pushesTo b es := by
  induction h with
  | nil s => exact ⟨hs, [], rfl, rfl⟩
  | @cons s m s₁ ms s' hguard hstep _ ih =>
    have hfirst : Together a b s₁.shared.toWorld ∧
        ∃ es, s₁.shared.history = es ++ s.shared.history ∧ pushesTo a es = pushesTo b es := by
      rcases hstep.1.shared with hsame | ⟨t, i, rest, next, rfl, hstack, hexec⟩
      · rw [hsame]
        exact ⟨hs, [], rfl, rfl⟩
      · obtain ⟨ha, hb⟩ := OnRun.run hguard hstack
        exact ⟨hs.exec ha hb hexec, hs.pushes ha hb hexec⟩
    obtain ⟨htogether, es, hhistory, hsame⟩ := hfirst
    obtain ⟨htogether', es', hhistory', hsame'⟩ := ih htogether
    refine ⟨htogether', es' ++ es, ?_, ?_⟩
    · rw [hhistory', hhistory, List.append_assoc]
    · rw [pushesTo_append, pushesTo_append, hsame, hsame']

/-- Two accessors of one register, before and after a value arrives. -/
def bothSubscribed : List (Move (Thread Unit) (Entry Nat)) :=
  Entry.steps (.app ()) (.constructAccessor {} "a" ⟨1, .string "a"⟩ 10) 6
    ++ Entry.steps (.app ()) (.constructAccessor {} "a" ⟨1, .string "a"⟩ 11) 6
    ++ Entry.steps (.app ()) (.openDevice {} connecting) 40
    ++ Entry.steps (.app ()) (.activateAsyncRead {}) 13

def valueArrives : List (Move (Thread Unit) (Entry Nat)) :=
  let iteration : Entry Nat :=
    .runClient { result := .good, callbacks := [.dataChange 1 { value := some 7 }] }
      { result := .good }
  Entry.steps .client iteration 1 ++ Entry.steps .client iteration 8

theorem steps_together_valueArrives :
    let s : State Nat Unit := (threads Nat Unit).after (Program.start {}) bothSubscribed
    let s' := (threads Nat Unit).after s valueArrives
    Together 10 11 s'.shared.toWorld ∧
      ∃ es, s'.shared.history = es ++ s.shared.history ∧ pushesTo 10 es = pushesTo 11 es := by
  intro s s'
  exact steps_together (Program.steps_after valueArrives (by decide +kernel)) (by decide +kernel)

end Broadcast

end OpcUaBackend
