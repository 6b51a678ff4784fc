import OpcUaBackend.Manager.Membership
import OpcUaBackend.Threads.Queues

/-!
# The lifetimes of the accessors

The manager keeps plain pointers to the accessors. An accessor enters a list in the critical
section of `subscribe` and leaves it in that of `unsubscribe`, which its destructor calls, while
other threads deliver values and exceptions to the accessors of all items.

Each accessor is subscribed once, and unsubscribed at most once, after that and under the same
name. Then in every interleaving the lists are a roster of the accessors whose subscription has
begun and not ended, so that no accessor is looked for in vain, and nothing is pushed to an
accessor before it is subscribed or after it has left.

## Main definitions

* `Op.attendance`, `attended`: who is subscribed and unsubscribed by the operations of a run
* `HoldsSubscribed`: the lists hold the accessors that are subscribed

## Main results

* `Op.exec_lists`: what an operation does to the accessor lists
* `Op.exec_pushesListed`: an operation pushes to accessors that are listed
* `after_lifetimes`: the lists, and the pushes, in every interleaving
-/

namespace OpcUaBackend

open Foundation

variable {V α : Type}

/-! ## What the operations do to the lists -/

/-- The accessor that the operation subscribes or unsubscribes, under its name. -/
def Op.attendance : Op V → Option (Attendance String Accessor)
  | enterItem _ browseName _ accessor => some (.join browseName accessor)
  | leaveItem _ browseName accessor => some (.leave browseName accessor)
  | _ => none

section Operations

variable {w w' : World V} {p p' : Process V} {next : Next (Op V) Lock}

theorem Frame.lists (h : Frame w w') : w'.lists = w.lists := by
  have hcore := congrArg (List.map MonitorItem.listing) h.core
  rwa [List.map_map, List.map_map] at hcore

/-- The accessor is put at the end of the list that is found. -/
theorem enlist_lists {browseName : String} {i : Nat} {item : MonitorItem} (a : Accessor)
    (hfind : w.find? browseName = some (i, item))
    (hitems : w'.items = w.items.modify i (MonitorItem.enlist a)) :
    w'.lists = enter browseName a w.lists := by
  obtain ⟨before, after, hsplit, rfl, rfl, hbefore⟩ := World.find?_split hfind
  rw [World.lists, hitems, SlotDeque.elems_modify, hsplit, modify_split, World.lists, hsplit,
    List.map_append, List.map_append, List.map_cons, List.map_cons]
  exact (enter_append (not_mem_keys_before hbefore) item.accessors).symm

/-- The critical section of `subscribe`: the accessor enters the list of its name. -/
theorem enterItem_lists {r : Replies V} {browseName : String} {node : UA_NodeId} {a : Accessor}
    (ho : p.Occupied) (he : enterItem r browseName node a p = some (p', next)) :
    p'.lists = enter browseName a p.lists ∧
      ∀ f, p'.fault = some f → f.isMissing = true → p.fault = some f := by
  have hfind' : (p.toWorld.record (.subscribed a browseName)).find? browseName
      = p.find? browseName := rfl
  simp only [enterItem, Process.on, hfind'] at he
  cases hfind : p.find? browseName with
  | none =>
    rw [hfind] at he
    obtain ⟨rfl, -⟩ := Process.into_eq.mp he
    refine ⟨?_, fun f hf _ => hf⟩
    rw [enter_of_not_mem (not_mem_keys_of_find?_none hfind)]
    exact List.map_append
  | some found =>
    obtain ⟨i, item⟩ := found
    rw [hfind] at he
    simp only at he
    split at he
    · -- the list that is found is not empty
      rename_i hnil
      have hitem := List.mem_of_getElem? (World.find?_eq_some hfind).1
      exact absurd (List.getLast?_eq_none_iff.mp hnil) (ho.accessors item hitem)
    · rename_i tmp _
      have henlist : ∀ w' : World V, w'.items = p.items.modify i (MonitorItem.enlist a) →
          w'.lists = enter browseName a p.lists := fun w' hitems => enlist_lists a hfind hitems
      split at he
      · split at he
        · -- the initial value
          rename_i w hpush
          obtain ⟨rfl, -⟩ := Process.into_eq.mp he
          have hworld : _ = w := congrArg Result.world hpush
          subst hworld
          refine ⟨?_, fun f hf hmissing => ?_⟩
          · apply (pushInitialValue_lists r.frontOfException tmp a _).trans
            exact henlist _ rfl
          · have hfault := pushInitialValue_fault r.frontOfException tmp a _ f hf hmissing
            exact hfault
        · obtain ⟨rfl, -⟩ := Process.out_eq.mp he
          exact ⟨henlist _ rfl, fun f hf _ => hf⟩
      · obtain ⟨rfl, -⟩ := Process.into_eq.mp he
        exact ⟨henlist _ rfl, fun f hf _ => hf⟩

/-- The critical section of `unsubscribe`: the accessor leaves the list of its name, where it is
found when it is listed. -/
theorem leaveItem_lists {r : Replies V} {browseName : String} {a : Accessor}
    (he : leaveItem r browseName a p = some (p', next)) :
    p'.lists = quit browseName a p.lists ∧
      (a ∈ membersOf browseName p.lists → p'.fault = p.fault) := by
  simp only [leaveItem] at he
  split at he
  · rename_i hfind
    obtain ⟨rfl, -⟩ := Process.into_eq.mp he
    exact ⟨(quit_of_not_mem (not_mem_keys_of_find?_none hfind)).symm, fun _ => rfl⟩
  · rename_i i item hfind
    obtain ⟨before, after, hsplit, rfl, rfl, hbefore⟩ := World.find?_split hfind
    have hkeys := not_mem_keys_before hbefore
    have hlists : p.lists = before.map MonitorItem.listing ++
        (item.browseName, item.accessors) :: after.map MonitorItem.listing := by
      rw [World.lists, hsplit, List.map_append, List.map_cons]
      rfl
    rw [hlists, quit_append hkeys, membersOf_append hkeys]
    split at he
    · rename_i hlen
      rw [if_pos hlen]
      split at he
      · obtain ⟨rfl, -⟩ := Process.into_eq.mp he
        refine ⟨?_, fun _ => rfl⟩
        simp only [World.lists, SlotDeque.elems_modify, hsplit, modify_split, List.map_append,
          List.map_cons]
        rfl
      · -- an accessor that is not listed: nothing is erased
        rename_i ha
        obtain ⟨rfl, -⟩ := Process.into_eq.mp he
        refine ⟨?_, fun hlisted => absurd hlisted ha⟩
        rw [List.erase_of_not_mem ha]
        exact hlists
    · rename_i hlen
      rw [if_neg hlen]
      obtain ⟨rfl, -⟩ := Process.into_eq.mp he
      refine ⟨?_, fun _ => rfl⟩
      simp only [World.lists, SlotDeque.elems_erase, hsplit, eraseIdx_split, List.map_append]

/-- **What an operation does to the accessor lists**, where none is empty. -/
theorem Op.exec_lists {i : Op V} (ho : p.Occupied) (he : i.exec p = some (p', next)) :
    p'.lists = (i.attendance.toList).foldr (fun e gs => e.apply gs) p.lists := by
  by_cases hplain : i.isPlain = true
  · have hnone : i.attendance = none := by
      cases i <;> first | rfl | cases hplain
    rw [hnone, World.lists, (Op.exec_plain hplain he).items]
    rfl
  by_cases hitems : i.changesItems = true
  · cases i <;> try (cases hitems; done)
    case resetItems =>
      obtain ⟨rfl, -⟩ := Process.into_eq.mp he
      simp only [Op.attendance, Option.toList_none, List.foldr_nil]
      simp [Process.on, World.lists, resetMonitoredItems, MonitorItem.listing, Function.comp_def]
    case answered result i browseName =>
      simp only [Op.exec] at he
      split at he
      · rename_i hgood
        obtain ⟨rfl, -⟩ := Process.into_eq.mp he
        simp only [Process.on, monitoringAnswered, if_pos hgood]
        exact modify_lists p.toWorld (f := MonitorItem.monitor result.monitoredItemId)
          (fun item => rfl) i
      · obtain ⟨rfl, -⟩ := Process.into_eq.mp he
        rfl
    case enterItem r browseName node accessor => exact (enterItem_lists ho he).1
    case leaveItem r browseName accessor => exact (leaveItem_lists he).1
  · have hnone : i.attendance = none := by
      cases i <;> first | rfl | exact absurd rfl hitems
    rw [hnone]
    exact (Op.exec_frame (by simpa using hplain) (by simpa using hitems) he).lists

theorem Op.exec_occupied {i : Op V} (ho : p.Occupied) (he : i.exec p = some (p', next)) :
    p'.Occupied := by
  rw [World.Occupied, Op.exec_lists ho he]
  cases i.attendance with
  | none => exact ho
  | some e =>
    cases e with
    | join => exact occupied_enter ho
    | leave => exact occupied_quit ho

/-! ## Accessors that are looked for -/

theorem fail_missing {f g : Fault} (hf : f.isMissing = false) (h : (w.fail f).fault = some g)
    (hmissing : g.isMissing = true) : w.fault = some g := by
  rcases fail_fault w h with hold | rfl
  · exact hold
  · rw [hf] at hmissing
    cases hmissing

theorem pushData_missing {monId : Nat} {value : DataValue V} {f : Fault}
    (h : (pushData monId value w).fault = some f) (hmissing : f.isMissing = true) :
    w.fault = some f := by
  unfold pushData at h
  split at h
  · exact fail_missing rfl h hmissing
  · split at h
    · exact fail_missing rfl h hmissing
    · rwa [pushAll_fault] at h

theorem monitorItem_fault {reply : Reply V MonitoredItemCreateResult} {i : Nat}
    (ho : p.Occupied) (he : monitorItem reply i p = some (p', next)) {f : Fault}
    (hf : p'.fault = some f) : p.fault = some f := by
  have hfault := activateIfAsync_fault i p.toWorld
  have hold : (activateIfAsync i p.toWorld).fault = some f → p.fault = some f := fun h =>
    hfault.symm.trans h
  simp only [monitorItem, Process.on] at he
  split at he
  · obtain ⟨rfl, -⟩ := Process.into_eq.mp he
    exact hold hf
  · rename_i item hitem
    split at he
    · obtain ⟨rfl, -⟩ := Process.into_eq.mp he
      exact hold hf
    · split at he
      · -- an item without accessors
        rename_i hnil
        have hmem : item.listing ∈ p.lists := by
          rw [← (activateIfAsync_frame p.toWorld i).lists]
          exact List.mem_map_of_mem (List.mem_of_getElem? hitem)
        exact absurd (List.head?_eq_none_iff.mp hnil) (ho _ hmem)
      · obtain ⟨rfl, -⟩ := Process.into_eq.mp he
        exact hold hf

/-- No accessor is missing where no list is empty and only listed accessors leave. -/
theorem Op.exec_missing {i : Op V} (ho : p.Occupied) (he : i.exec p = some (p', next))
    (hleave : ∀ browseName a, i.attendance = some (.leave browseName a) →
      a ∈ membersOf browseName p.lists) :
    ∀ f, p'.fault = some f → f.isMissing = true → p.fault = some f := by
  intro f hf hmissing
  cases i
  case enterItem r browseName node accessor => exact (enterItem_lists ho he).2 f hf hmissing
  case leaveItem r browseName accessor =>
    rw [← (leaveItem_lists he).2 (hleave browseName accessor rfl)]
    exact hf
  case monitorItem reply i => exact monitorItem_fault ho he hf
  case raise message deactivating =>
    obtain ⟨rfl, -⟩ := Process.into_eq.mp he
    exact (handleException_fault message p.toWorld).symm.trans hf
  case pushData monId value =>
    obtain ⟨rfl, -⟩ := Process.into_eq.mp he
    exact pushData_missing hf hmissing
  case clearActive removal =>
    obtain ⟨rfl, -⟩ := Process.into_eq.mp he
    have hclear : (OpcUaBackend.clearActive p.toWorld).fault = some f := hf
    unfold OpcUaBackend.clearActive at hclear
    simp only at hclear
    split at hclear
    · exact hclear
    · exact fail_missing rfl hclear hmissing
  case callback c =>
    cases c <;> simp only [Op.exec, enterCallback] at he <;> repeat' split at he
    all_goals
      obtain ⟨rfl, -⟩ := Process.into_eq.mp he
      first
        | exact hf
        | exact fail_missing rfl hf hmissing
  case answered result i browseName =>
    simp only [Op.exec] at he
    split at he
    · obtain ⟨rfl, -⟩ := Process.into_eq.mp he
      exact (monitoringAnswered_fault i browseName result p.toWorld).symm.trans hf
    · obtain ⟨rfl, -⟩ := Process.into_eq.mp he
      exact hf
  case setExternalError browseName reporter =>
    obtain ⟨rfl, -⟩ := Process.into_eq.mp he
    simp only [Process.on, OpcUaBackend.setExternalError] at hf
    split at hf <;> exact hf
  case overwrite accessor payload converts =>
    rcases overwriteValue_cases he with ⟨rfl, -⟩ | ⟨rfl, -⟩
    · exact fail_missing rfl hf hmissing
    · exact hf
  -- the others report no fault, or that the program ends
  all_goals
    simp only [Op.exec] at he
    repeat' split at he
    all_goals first
      | cases he; done
      | obtain ⟨rfl, -⟩ := Process.into_eq.mp he
        first
          | exact hf
          | exact fail_missing rfl hf hmissing
      | obtain ⟨rfl, -⟩ := Process.out_eq.mp he
        exact hf

/-! ## Accessors that are given notifications -/

/-- **An operation pushes to accessors that are listed** when it is done. -/
theorem Op.exec_pushesListed {i : Op V} (ho : p.Occupied) (he : i.exec p = some (p', next)) :
    ∃ es, p'.history = es ++ p.history ∧
      ∀ a, pushesTo a es ≠ [] → ∃ l ∈ p'.lists, a ∈ l.2 := by
  have hlisted : ∀ {a : Accessor} {item : MonitorItem}, i.attendance = none →
      item ∈ p.items.elems → a ∈ item.accessors → ∃ l ∈ p'.lists, a ∈ l.2 := by
    intro a item hnone hitem ha
    rw [Op.exec_lists ho he, hnone]
    exact ⟨item.listing, List.mem_map_of_mem hitem, ha⟩
  have hmember : ∀ {a : Accessor} {n : Notification V} {as : List Accessor},
      pushesTo a (pushes n as) ≠ [] → a ∈ as := by
    intro a n as hpushed
    rw [pushesTo_pushes] at hpushed
    apply List.count_pos_iff.mp
    exact Nat.pos_of_ne_zero fun hzero => hpushed (by rw [hzero, List.replicate_zero])
  by_cases hmoves : i.movesQueues = true
  · cases i <;> try (cases hmoves; done)
    case raise message deactivating =>
      have hrest := Process.into_eq.mp he
      obtain ⟨rfl, -⟩ := hrest
      refine ⟨_, (handleException_pushesOnly p.toWorld message).history, fun a hpushed => ?_⟩
      obtain ⟨item, hitem, ha⟩ := List.mem_flatMap.mp (hmember hpushed)
      exact hlisted rfl (List.mem_of_mem_filter hitem) ha
    case pushData monId value =>
      have hrest := Process.into_eq.mp he
      obtain ⟨rfl, -⟩ := hrest
      obtain ⟨as, hpushes, has⟩ := pushData_pushesOnly p.toWorld monId value
      refine ⟨_, hpushes.history, fun a hpushed => ?_⟩
      have ha := hmember hpushed
      rcases has with rfl | ⟨item, hitem, rfl⟩
      · cases ha
      · exact hlisted rfl hitem ha
    case enterItem r browseName node accessor =>
      -- the initial value of the accessor that enters
      obtain ⟨es, hpushes, hother⟩ := enterItem_pushesOnly he
      refine ⟨es, hpushes.history, fun a hpushed => ?_⟩
      obtain rfl : a = accessor := by
        by_contra hne
        exact hpushed (pushesTo_of_none (hother a hne))
      rw [(enterItem_lists ho he).1]
      exact exists_mem_enter browseName a p.lists
    case popNotification b =>
      obtain ⟨rfl, -⟩ := Process.into_eq.mp he
      exact ⟨[], rfl, fun a hpushed => absurd rfl hpushed⟩
    case copyVariant accessor value =>
      obtain ⟨rfl, -⟩ := Process.into_eq.mp he
      exact ⟨[.transferred accessor], rfl, fun a hpushed => absurd rfl hpushed⟩
    case overwrite accessor payload converts =>
      rcases overwriteValue_cases he with ⟨rfl, -⟩ | ⟨rfl, -⟩
      · exact ⟨[], rfl, fun a hpushed => absurd rfl hpushed⟩
      · exact ⟨[.transferred accessor], rfl, fun a hpushed => absurd rfl hpushed⟩
  · obtain ⟨-, es, hhistory, hes⟩ := Op.exec_keepsQueues (by simpa using hmoves) he
    exact ⟨es, hhistory, fun a hpushed =>
      absurd (pushesTo_of_none fun e hmem => hes e hmem a) hpushed⟩

end Operations

/-- Neither critical section waits. -/
theorem Op.attendance_of_none {i : Op V} {p : Process V} (he : i.exec p = none) :
    i.attendance = none := by
  cases i <;> try rfl
  case enterItem r browseName node accessor =>
    simp only [Op.exec, OpcUaBackend.enterItem] at he
    repeat' split at he
    all_goals cases he
  case leaveItem r browseName accessor =>
    simp only [Op.exec, OpcUaBackend.leaveItem] at he
    repeat' split at he
    all_goals cases he

/-! ## Runs -/

section Runs

variable [DecidableEq α]

/-- The accessor that a move subscribes or unsubscribes. -/
def stepAttendance (s : State V α) :
    Move (Thread α) (Entry V) → Option (Attendance String Accessor)
  | .enter _ _ => none
  | .advance t =>
    match s.stack t with
    | .run i :: _ => i.attendance
    | _ => none

/-- Who is subscribed and unsubscribed by the moves, the latest first. -/
def attended : State V α → List (Move (Thread α) (Entry V)) → List (Attendance String Accessor)
  | _, [] => []
  | s, m :: ms => attended ((threads V α).after s [m]) ms ++ (stepAttendance s m).toList

theorem attended_append (s : State V α) (ms ms' : List (Move (Thread α) (Entry V))) :
    attended s (ms ++ ms') = attended ((threads V α).after s ms) ms' ++ attended s ms := by
  induction ms generalizing s with
  | nil => exact (List.append_nil _).symm
  | cons m ms ih =>
    rw [List.cons_append, attended, attended, ih, List.append_assoc]
    rfl

theorem attended_concat (s : State V α) (ms : List (Move (Thread α) (Entry V)))
    (m : Move (Thread α) (Entry V)) :
    attended s (ms ++ [m]) =
      (stepAttendance ((threads V α).after s ms) m).toList ++ attended s ms := by
  rw [attended_append]
  rfl

theorem after_concat (s : State V α) (ms : List (Move (Thread α) (Entry V)))
    (m : Move (Thread α) (Entry V)) :
    (threads V α).after s (ms ++ [m]) = (threads V α).after ((threads V α).after s ms) [m] :=
  List.foldl_append ..

/-- What a move does to the accessor lists, and to whom it pushes. -/
structure StepListed (s : State V α) (m : Move (Thread α) (Entry V)) (s' : State V α) : Prop where
  lists : s'.shared.lists =
    (stepAttendance s m).toList.foldr (fun e gs => e.apply gs) s.shared.lists
  occupied : s'.shared.Occupied
  pushes : ∃ es, s'.shared.history = es ++ s.shared.history ∧
    ∀ a, pushesTo a es ≠ [] → ∃ l ∈ s'.shared.lists, a ∈ l.2
  missing : (∀ browseName a, stepAttendance s m = some (.leave browseName a) →
    a ∈ membersOf browseName s.shared.lists) →
      ∀ f, s'.shared.fault = some f → f.isMissing = true → s.shared.fault = some f

theorem step_listed {s : State V α} (ho : s.shared.Occupied) (m : Move (Thread α) (Entry V)) :
    StepListed s m ((threads V α).after s [m]) := by
  have hquiet : ∀ {s' : State V α}, s'.shared = s.shared → stepAttendance s m = none →
      StepListed s m s' := by
    intro s' hsame hnone
    refine ⟨?_, ?_, ⟨[], ?_, fun a hpushed => absurd rfl hpushed⟩, ?_⟩
    · rw [hsame, hnone]
      rfl
    · rwa [hsame]
    · rw [hsame, List.nil_append]
    · rw [hsame]
      exact fun _ f hf _ => hf
  cases hm : (threads V α).step? s m with
  | none =>
    have hstays : (threads V α).after s [m] = s := by simp [Program.after, hm]
    rw [hstays]
    apply hquiet rfl
    cases m with
    | enter t c => rfl
    | advance t =>
      rw [stepAttendance]
      split
      · rename_i i rest hstack
        simp only [Program.step?, hstack, Option.map_eq_none_iff] at hm
        exact Op.attendance_of_none hm
      · rfl
  | some s' =>
    have hafter : (threads V α).after s [m] = s' := by simp [Program.after, hm]
    rw [hafter]
    cases Program.step?_sound hm with
    | enter _ _ => exact hquiet rfl rfl
    | lock hstack _ => exact hquiet rfl (by rw [stepAttendance, hstack])
    | unlock hstack => exact hquiet rfl (by rw [stepAttendance, hstack])
    | @run t i rest shared next hstack hexec =>
      have hattendance : stepAttendance s (.advance t) = i.attendance := by
        rw [stepAttendance, hstack]
      refine ⟨?_, Op.exec_occupied ho hexec, Op.exec_pushesListed ho hexec, ?_⟩
      · rw [hattendance]
        exact Op.exec_lists ho hexec
      · rw [hattendance]
        exact Op.exec_missing ho hexec

/-- In every run no list is empty, and the lists are those of the roster. -/
theorem after_replay {s : State V α} (hs : (threads V α).machine.init s)
    (ms : List (Move (Thread α) (Entry V))) :
    ((threads V α).after s ms).shared.Occupied ∧
      ((threads V α).after s ms).shared.lists =
        (attended s ms).foldr (fun e gs => e.apply gs) [] := by
  induction ms using List.reverseRecOn with
  | nil =>
    have hnil : s.shared.lists = [] := by
      rw [World.lists, hs.1.world.items]
      rfl
    exact ⟨by simp [World.Occupied, Program.after, hnil], hnil⟩
  | append_singleton ms m ih =>
    obtain ⟨ho, hlists⟩ := ih
    have hstep := step_listed ho m
    rw [after_concat, attended_concat, List.foldr_append, ← hlists]
    exact ⟨hstep.occupied, hstep.lists⟩

/-- The lists of the manager hold the accessors that are subscribed, in the order of their
subscriptions, and no accessor was looked for in vain. -/
structure HoldsSubscribed (es : List (Attendance String Accessor)) (w : World V) : Prop where
  distinct : (w.lists.map Prod.fst).Nodup
  nodup : ∀ l ∈ w.lists, l.2 ≠ [] ∧ l.2.Nodup
  members : ∀ browseName, membersOf browseName w.lists = present browseName es
  found : ∀ f, w.fault = some f → f.isMissing = false

theorem HoldsSubscribed.mem_present {es : List (Attendance String Accessor)} {w : World V}
    (h : HoldsSubscribed es w) {l : String × List Accessor} (hl : l ∈ w.lists) {a : Accessor}
    (ha : a ∈ l.2) : .join l.1 a ∈ es ∧ .leave l.1 a ∉ es := by
  apply Foundation.mem_present.mp
  rwa [← h.members, membersOf_of_mem h.distinct hl]

theorem after_holdsSubscribed {s : State V α} (hs : (threads V α).machine.init s)
    (ms : List (Move (Thread α) (Entry V))) (h : Along Attendance.Allowed (attended s ms)) :
    HoldsSubscribed (attended s ms) ((threads V α).after s ms).shared.toWorld := by
  obtain ⟨roster, hgroups, hmembers⟩ := Roster.replay h
  have hlists := (after_replay hs ms).2
  rw [← hgroups] at hlists
  refine ⟨hlists ▸ roster.distinct, fun l hl => ?_, fun browseName => ?_, ?_⟩
  · rw [hlists] at hl
    exact ⟨roster.occupied l hl, roster.nodup l hl⟩
  · rw [hlists]
    exact hmembers browseName
  · -- move by move: whoever leaves is listed at that time
    clear hlists hgroups hmembers roster
    induction ms using List.reverseRecOn with
    | nil =>
      intro f hf
      have hnone : s.shared.fault = some f := hf
      rw [hs.1.world.fault] at hnone
      cases hnone
    | append_singleton ms m ih =>
      rw [attended_concat] at h
      intro f hf
      rw [after_concat] at hf
      by_contra hmissing
      rw [Bool.not_eq_false] at hmissing
      have hold := (step_listed (after_replay hs ms).1 m).missing ?_ f hf hmissing
      · rw [ih h.of_append f hold] at hmissing
        cases hmissing
      · intro browseName a hleave
        rw [hleave, Option.toList_some, List.singleton_append] at h
        obtain ⟨roster, hgroups, hmembers⟩ := Roster.replay h.2
        rw [(after_replay hs ms).2, ← hgroups]
        apply (hmembers browseName).symm ▸ Foundation.mem_present.mpr h.1

/-- **The lifetimes of the accessors.** In every interleaving of the application thread and the
client thread that subscribes each accessor once, and unsubscribes it at most once, after that and
under the same name, the lists hold the accessors that are subscribed. Whatever is pushed in the
second part of a run is pushed to accessors that had not left in the first. -/
theorem after_lifetimes {s : State V Unit} (hs : (threads V Unit).machine.init s)
    (ms ms' : List (Move (Thread Unit) (Entry V)))
    (h : Along Attendance.Allowed (attended s (ms ++ ms'))) :
    HoldsSubscribed (attended s (ms ++ ms'))
        ((threads V Unit).after s (ms ++ ms')).shared.toWorld ∧
      ∃ es, ((threads V Unit).after s (ms ++ ms')).shared.history
          = es ++ ((threads V Unit).after s ms).shared.history ∧
        ∀ a, pushesTo a es ≠ [] → ∃ browseName, .join browseName a ∈ attended s (ms ++ ms') ∧
          .leave browseName a ∉ attended s ms := by
  refine ⟨after_holdsSubscribed hs _ h, ?_⟩
  induction ms' using List.reverseRecOn with
  | nil =>
    rw [List.append_nil]
    exact ⟨[], rfl, fun a hpushed => absurd rfl hpushed⟩
  | append_singleton ms' m ih =>
    rw [← List.append_assoc] at h ⊢
    have hearlier : ∀ e ∈ attended s (ms ++ ms'), e ∈ attended s (ms ++ ms' ++ [m]) := by
      intro e he
      rw [attended_concat]
      exact List.mem_append_right _ he
    have hpast := h
    rw [attended_concat] at hpast
    obtain ⟨es, hhistory, hes⟩ := ih hpast.of_append
    obtain ⟨es', hhistory', hes'⟩ := (step_listed (after_replay hs (ms ++ ms')).1 m).pushes
    rw [after_concat]
    refine ⟨es' ++ es, by rw [hhistory', hhistory, List.append_assoc], fun a hpushed => ?_⟩
    by_cases hold : pushesTo a es = []
    · -- pushed by the last move, to an accessor that is listed after it
      rw [pushesTo_append, hold, List.nil_append] at hpushed
      obtain ⟨l, hl, ha⟩ := hes' a hpushed
      rw [← after_concat] at hl
      obtain ⟨hjoined, hstayed⟩ := (after_holdsSubscribed hs _ h).mem_present hl ha
      refine ⟨l.1, hjoined, fun hleft => hstayed (hearlier _ ?_)⟩
      rw [attended_append]
      exact List.mem_append_right _ hleft
    · obtain ⟨browseName, hjoined, hstayed⟩ := hes a hold
      exact ⟨browseName, hearlier _ hjoined, hstayed⟩

/-- The first of two accessors is destroyed before a value arrives. -/
def firstDestroyed : List (Move (Thread Unit) (Entry Nat)) :=
  bothSubscribed ++ Entry.steps (.app ()) (.destroyAccessor {} "a" 10) 3

theorem attended_firstDestroyed :
    attended (Program.start {} : State Nat Unit) (firstDestroyed ++ valueArrives)
      = [.leave "a" 10, .join "a" 11, .join "a" 10] := by
  decide +kernel

theorem after_lifetimes_firstDestroyed :
    HoldsSubscribed (attended (Program.start {}) (firstDestroyed ++ valueArrives))
        ((threads Nat Unit).after (Program.start {})
          (firstDestroyed ++ valueArrives)).shared.toWorld ∧
      ∃ es, ((threads Nat Unit).after (Program.start {})
          (firstDestroyed ++ valueArrives)).shared.history
            = es ++ ((threads Nat Unit).after (Program.start {}) firstDestroyed).shared.history ∧
        ∀ a, pushesTo a es ≠ [] → ∃ browseName,
          .join browseName a ∈ attended (Program.start {}) (firstDestroyed ++ valueArrives) ∧
            .leave browseName a ∉ attended (Program.start {}) firstDestroyed := by
  have hs : (threads Nat Unit).machine.init (Program.start {}) :=
    ⟨Process.fresh_default, fun _ => rfl, fun _ => rfl⟩
  apply after_lifetimes hs
  rw [attended_firstDestroyed]
  decide

/-- The value goes to the other one. -/
example :
    let s : State Nat Unit := (threads Nat Unit).after (Program.start {}) firstDestroyed
    let s' : State Nat Unit := (threads Nat Unit).after s valueArrives
    pushesTo 10 (newEvents s.shared.history s'.shared.history) = [] ∧
      pushesTo 11 (newEvents s.shared.history s'.shared.history) = [.data { value := some 7 }] := by
  decide +kernel

end Runs

end OpcUaBackend
