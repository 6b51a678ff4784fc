import OpcUaBackend.Foundation.Roster
import OpcUaBackend.Manager.Changes

/-!
# The accessor lists of the manager

`subscribe` and `unsubscribe` are the only functions that change an accessor list: an accessor
enters the list of its browse name, which is created with its first accessor, and leaves it
again, and with its last accessor the item goes. In every run in which each accessor is
subscribed once and unsubscribed at most once, the lists are a roster of the accessors that
are subscribed.

The list is changed first. Where `subscribe` is left by an exception afterwards, the accessor,
whose construction has failed, stays in its list.

## Main definitions

* `Call.attendance`, `attendances`: who is subscribed and unsubscribed by a run
* `World.Occupied`: no accessor list is empty
* `SubscribeFails`: the states and answers for which `subscribe` throws
* `AllOrNothing`: a failed construction leaves nothing behind

## Main results

* `Call.exec_lists`: what a call does to the accessor lists
* `run_lists`: the accessor lists in every run
* `constructAccessor_allOrNothing_iff`: a construction is all or nothing unless it fails so
-/

namespace OpcUaBackend

open Foundation Relation

variable {V : Type} {w w' : World V}

/-! ## Items by name -/

/-- The items before and after the one found. -/
theorem World.find?_split {browseName : String} {i : Nat} {item : MonitorItem}
    (h : w.find? browseName = some (i, item)) :
    ∃ before after, w.items.elems = before ++ item :: after ∧ before.length = i ∧
      item.browseName = browseName ∧ ∀ other ∈ before, other.browseName ≠ browseName := by
  obtain ⟨hitem, hname⟩ := World.find?_eq_some h
  unfold World.find? at h
  obtain ⟨j, hj, hfound⟩ := Option.bind_eq_some_iff.mp h
  obtain ⟨_, -, heq⟩ := Option.map_eq_some_iff.mp hfound
  obtain ⟨rfl, -⟩ := Prod.mk.inj heq
  obtain ⟨hlt, -, hbefore⟩ := List.findIdx?_eq_some_iff_getElem.mp hj
  refine ⟨w.items.elems.take j, w.items.elems.drop (j + 1), ?_, ?_, hname, ?_⟩
  · obtain ⟨_, hget⟩ := List.getElem?_eq_some_iff.mp hitem
    rw [← hget, List.getElem_cons_drop, List.take_append_drop]
  · exact List.length_take_of_le hlt.le
  · intro other hother
    obtain ⟨k, hk, rfl⟩ := List.mem_take_iff_getElem.mp hother
    simpa using hbefore k (lt_of_lt_of_le hk (Nat.min_le_left ..))

theorem modify_split (before after : List MonitorItem) (item : MonitorItem)
    (f : MonitorItem → MonitorItem) :
    (before ++ item :: after).modify before.length f = before ++ f item :: after := by
  induction before with
  | nil => rfl
  | cons other before ih => rw [List.cons_append, List.length_cons, List.modify_succ_cons, ih,
      List.cons_append]

theorem eraseIdx_split (before after : List MonitorItem) (item : MonitorItem) :
    (before ++ item :: after).eraseIdx before.length = before ++ after := by
  rw [List.eraseIdx_append_of_length_le le_rfl, Nat.sub_self, List.eraseIdx_cons_zero]

/-- No name is found exactly when no list stands under it. -/
theorem not_mem_keys_of_find?_none {browseName : String} (h : w.find? browseName = none) :
    browseName ∉ w.lists.map Prod.fst := by
  intro hmem
  obtain ⟨l, hl, rfl⟩ := List.mem_map.mp hmem
  obtain ⟨item, hitem, rfl⟩ := List.mem_map.mp hl
  exact World.find?_eq_none h item hitem rfl

theorem not_mem_keys_before {browseName : String} {before : List MonitorItem}
    (h : ∀ other ∈ before, other.browseName ≠ browseName) :
    browseName ∉ (before.map MonitorItem.listing).map Prod.fst := by
  intro hmem
  obtain ⟨l, hl, hname⟩ := List.mem_map.mp hmem
  obtain ⟨other, hother, rfl⟩ := List.mem_map.mp hl
  exact h other hother hname

/-! ## Who is subscribed -/

/-- The accessor that the call subscribes or unsubscribes, under its name. -/
def Call.attendance : Call V → Option (Attendance String Accessor)
  | .constructAccessor _ browseName _ accessor => some (.join browseName accessor)
  | .subscribe _ browseName _ accessor => some (.join browseName accessor)
  | .unsubscribe _ browseName accessor => some (.leave browseName accessor)
  | _ => none

/-- Who is subscribed and unsubscribed by the calls, the latest first. -/
def attendances (cs : List (Call V)) : List (Attendance String Accessor) :=
  (cs.filterMap Call.attendance).reverse

/-- No accessor list is empty. -/
def World.Occupied (w : World V) : Prop := ∀ l ∈ w.lists, l.2 ≠ []

theorem World.Occupied.accessors (h : w.Occupied) :
    ∀ item ∈ w.items.elems, item.accessors ≠ [] :=
  fun item hitem => h item.listing (List.mem_map_of_mem hitem)

/-- Where no list is empty, changes find every accessor they look for. -/
theorem Changes.fault (h : Changes w w') (ho : w.Occupied) :
    ∀ f, w'.fault = some f → f.isMissing = true → w.fault = some f := by
  induction h with
  | refl => exact fun f hf _ => hf
  | @tail w₁ w₂ h₁ hstep ih =>
    intro f hf hmissing
    refine ih f ?_ hmissing
    have ho₁ : w₁.Occupied := by rwa [World.Occupied, Changes.lists h₁]
    cases hstep with
    | quiet hq =>
      refine (hq.fault f hf hmissing).resolve_right fun ⟨item, hitem, hnil⟩ => ?_
      exact ho₁.accessors item hitem hnil
    | alarm => exact hf
    | deliver => rwa [pushAll_fault] at hf
    | activate ha => rwa [ha.fault] at hf

/-! ## Subscribing -/

/-- The item of the first accessor of a register. -/
def newItem (browseName : String) (node : UA_NodeId) (accessor : Accessor) : MonitorItem :=
  { node := node, accessors := [accessor], browseName := browseName }

/-- The accessor is the next one of the item. -/
def MonitorItem.enlist (accessor : Accessor) (item : MonitorItem) : MonitorItem :=
  { item with accessors := item.accessors ++ [accessor] }

/-- What `subscribe` does: it adds an item, and changes follow; or it finds an empty list; or
the accessor is added to the item found, and it gets its initial value when that is active. -/
theorem subscribe_cases (r : Replies V) (browseName : String) (node : UA_NodeId) (a : Accessor)
    (w : World V) :
    (w.find? browseName = none ∧
      Changes { w.record (.subscribed a browseName) with
        items := w.items.pushBack (newItem browseName node a) }
        (subscribe r browseName node a w).world) ∨
    ∃ i item, w.find? browseName = some (i, item) ∧
      ((item.accessors.getLast? = none ∧ subscribe r browseName node a w =
          .returned ((w.record (.subscribed a browseName)).fail .noAccessor)) ∨
        ∃ tmp, item.accessors.getLast? = some tmp ∧
          let w₁ : World V := { w.record (.subscribed a browseName) with
            items := w.items.modify i (MonitorItem.enlist a) }
          subscribe r browseName node a w =
            if item.active then pushInitialValue r.frontOfException tmp a w₁
            else .returned w₁) := by
  unfold subscribe
  simp only
  cases hfind : w.find? browseName with
  | none =>
    refine .inl ⟨rfl, ?_⟩
    have hfind' : (w.record (.subscribed a browseName)).find? browseName = none := hfind
    rw [hfind']
    simp only
    split
    · exact (ensureSubscription_changes _ r).trans
        (andThen_changes fun w => addMonitoredItems_changes w _)
    · exact .refl
  | some found =>
    obtain ⟨i, item⟩ := found
    refine .inr ⟨i, item, rfl, ?_⟩
    have hfind' : (w.record (.subscribed a browseName)).find? browseName = some (i, item) := hfind
    rw [hfind']
    simp only
    cases hlast : item.accessors.getLast? with
    | none => exact .inl ⟨rfl, rfl⟩
    | some tmp => exact .inr ⟨tmp, rfl, rfl⟩

@[simp] theorem pushInitialValue_lists (front : Option (DataValue V)) (tmp a : Accessor)
    (w : World V) : (pushInitialValue front tmp a w).world.lists = w.lists := by
  have hitems : (pushInitialValue front tmp a w).world.items = w.items := by
    unfold pushInitialValue
    simp only
    split
    · split <;> rfl
    · split <;> rfl
    · split
      · rfl
      · split <;> rfl
  rw [World.lists, hitems, World.lists]

theorem pushInitialValue_fault (front : Option (DataValue V)) (tmp a : Accessor) (w : World V) :
    ∀ f, (pushInitialValue front tmp a w).world.fault = some f → f.isMissing = true →
      w.fault = some f := by
  intro f hf hmissing
  unfold pushInitialValue at hf
  simp only at hf
  split at hf
  · split at hf <;> exact hf
  · split at hf <;> exact hf
  · split at hf
    · exact (fail_fault w hf).resolve_right fun h => absurd hmissing (by rw [← h]; decide)
    · split at hf <;> exact hf

/-- The accessor enters the list of its name. -/
theorem subscribe_lists (r : Replies V) (browseName : String) (node : UA_NodeId) (a : Accessor)
    (ho : w.Occupied) :
    (subscribe r browseName node a w).world.lists = enter browseName a w.lists := by
  rcases subscribe_cases r browseName node a w with
    ⟨hfind, hch⟩ | ⟨i, item, hfind, ⟨hnil, -⟩ | ⟨tmp, -, heq⟩⟩
  · rw [hch.lists, enter_of_not_mem (not_mem_keys_of_find?_none hfind)]
    exact List.map_append
  · have hitem := List.mem_of_getElem? (World.find?_eq_some hfind).1
    exact absurd (List.getLast?_eq_none_iff.mp hnil) (ho.accessors item hitem)
  · obtain ⟨before, after, hsplit, rfl, rfl, hbefore⟩ := World.find?_split hfind
    have hlists : World.lists { w.record (.subscribed a item.browseName) with
        items := w.items.modify before.length (MonitorItem.enlist a) } =
        enter item.browseName a w.lists := by
      have hkeys := not_mem_keys_before hbefore
      simp only [World.lists, SlotDeque.elems_modify, hsplit, modify_split, List.map_append,
        List.map_cons]
      exact (enter_append hkeys item.accessors).symm
    rw [heq]
    split
    · rw [pushInitialValue_lists]
      exact hlists
    · exact hlists

/-- The accessor leaves the list of its name. -/
theorem unsubscribe_lists (r : Replies V) (browseName : String) (a : Accessor) (w : World V) :
    (unsubscribe r browseName a w).lists = quit browseName a w.lists := by
  unfold unsubscribe
  split
  · rename_i hfind
    exact (quit_of_not_mem (not_mem_keys_of_find?_none hfind)).symm
  · rename_i i item hfind
    obtain ⟨before, after, hsplit, rfl, rfl, hbefore⟩ := World.find?_split hfind
    have hquit : quit item.browseName a w.lists = before.map MonitorItem.listing ++
        if 1 < item.accessors.length
        then (item.browseName, item.accessors.erase a) :: after.map MonitorItem.listing
        else after.map MonitorItem.listing := by
      rw [World.lists, hsplit, List.map_append, List.map_cons]
      exact quit_append (not_mem_keys_before hbefore) item.accessors
    rw [hquit]
    split
    · split
      · simp only [World.lists, SlotDeque.elems_modify, hsplit, modify_split, List.map_append,
          List.map_cons]
        rfl
      · -- an accessor that is not listed: nothing is erased
        rename_i ha
        rw [List.erase_of_not_mem ha]
        simp only [World.lists, World.fail, hsplit, List.map_append, List.map_cons]
        rfl
    · have herase : World.lists { w with
          subscriptionMap := w.subscriptionMap.erase item.id
          items := w.items.erase before.length } =
          before.map MonitorItem.listing ++ after.map MonitorItem.listing := by
        simp only [World.lists, SlotDeque.elems_erase, hsplit, eraseIdx_split, List.map_append]
      simp only
      split
      · rw [(unsubscribeItem_changes _ r item.browseName item.id).lists]
        exact herase
      · exact herase

/-- An accessor that is listed is found when it leaves. -/
theorem unsubscribe_fault (r : Replies V) {browseName : String} {a : Accessor} (ho : w.Occupied)
    (ha : a ∈ membersOf browseName w.lists) :
    ∀ f, (unsubscribe r browseName a w).fault = some f → f.isMissing = true →
      w.fault = some f := by
  intro f hf hmissing
  unfold unsubscribe at hf
  split at hf
  · exact hf
  · rename_i i item hfind
    obtain ⟨before, after, hsplit, rfl, rfl, hbefore⟩ := World.find?_split hfind
    have hmembers : membersOf item.browseName w.lists = item.accessors := by
      rw [World.lists, hsplit, List.map_append, List.map_cons]
      exact membersOf_append (not_mem_keys_before hbefore) item.accessors
    have ha' : a ∈ item.accessors := hmembers ▸ ha
    by_cases hlen : 1 < item.accessors.length
    · rw [if_pos hlen, if_pos ha'] at hf
      exact hf
    · rw [if_neg hlen] at hf
      let w₁ : World V := { w with
        subscriptionMap := w.subscriptionMap.erase item.id
        items := w.items.erase before.length }
      have ho₁ : w₁.Occupied := by
        intro l hl
        exact ho l (((List.eraseIdx_sublist ..).map MonitorItem.listing).subset hl)
      simp only at hf
      split at hf
      · exact (unsubscribeItem_changes w₁ r item.browseName item.id).fault ho₁ f hf hmissing
      · exact hf

/-! ## Calls -/

theorem constructAccessor_changes (r : Replies V) (browseName : String) (node : UA_NodeId)
    (a : Accessor) (w : World V) :
    Changes (subscribe r browseName node a { w with subscriptionManager := true }).world
      (constructAccessor r browseName node a w).world := by
  refine andThen_changes fun w => ?_
  split
  · exact start_changes w
  · exact .refl

/-- The accessor enters the list of its name, also when its construction fails. -/
theorem constructAccessor_lists (r : Replies V) (browseName : String) (node : UA_NodeId)
    (a : Accessor) (ho : w.Occupied) :
    (constructAccessor r browseName node a w).world.lists = enter browseName a w.lists := by
  have ho' : World.Occupied { w with subscriptionManager := true } := ho
  rw [(constructAccessor_changes r browseName node a w).lists, subscribe_lists r browseName node a
    ho']
  rfl

/-- **What a call does to the accessor lists.** -/
theorem Call.exec_lists (c : Call V) (ho : w.Occupied) :
    (c.exec w).world.lists = (c.attendance.toList).foldr (fun e gs => e.apply gs) w.lists := by
  by_cases hc : c.isAboutAccessor = false
  · have hnone : c.attendance = none := by
      cases c <;> first | rfl | cases hc
    rw [hnone]
    exact (Call.exec_changes w hc).lists
  · cases c with
    | constructAccessor r name node a => exact constructAccessor_lists r name node a ho
    | subscribe r name node a => exact subscribe_lists r name node a ho
    | unsubscribe r name a => exact unsubscribe_lists r name a w
    | popNotification => rfl
    | ownTransfer => rfl
    | _ => exact absurd rfl hc

theorem Call.exec_occupied (c : Call V) (ho : w.Occupied) : (c.exec w).world.Occupied := by
  rw [World.Occupied, c.exec_lists ho]
  cases c.attendance with
  | none => exact ho
  | some e =>
    cases e with
    | join => exact occupied_enter ho
    | leave => exact occupied_quit ho

theorem subscribe_fault (r : Replies V) (browseName : String) (node : UA_NodeId) (a : Accessor)
    (ho : w.Occupied) :
    ∀ f, (subscribe r browseName node a w).world.fault = some f → f.isMissing = true →
      w.fault = some f := by
  intro f hf hmissing
  rcases subscribe_cases r browseName node a w with
    ⟨hfind, hch⟩ | ⟨i, item, hfind, ⟨hnil, -⟩ | ⟨tmp, -, heq⟩⟩
  · refine hch.fault ?_ f hf hmissing
    intro l hl
    have hl' : l ∈ (w.items.elems ++ [newItem browseName node a]).map MonitorItem.listing := hl
    rw [List.map_append] at hl'
    rcases List.mem_append.mp hl' with hl' | hl'
    · exact ho l hl'
    · rw [List.mem_singleton.mp hl']
      simp [MonitorItem.listing, newItem]
  · have hitem := List.mem_of_getElem? (World.find?_eq_some hfind).1
    exact absurd (List.getLast?_eq_none_iff.mp hnil) (ho.accessors item hitem)
  · rw [heq] at hf
    split at hf
    · have hold := pushInitialValue_fault _ _ _ _ f hf hmissing
      exact hold
    · exact hf

/-- Where no list is empty and only listed accessors are unsubscribed, no accessor is missing. -/
theorem Call.exec_fault (c : Call V) (ho : w.Occupied)
    (hleave : ∀ browseName a, c.attendance = some (.leave browseName a) →
      a ∈ membersOf browseName w.lists) :
    ∀ f, (c.exec w).world.fault = some f → f.isMissing = true → w.fault = some f := by
  by_cases hc : c.isAboutAccessor = false
  · exact (Call.exec_changes w hc).fault ho
  · cases c with
    | constructAccessor r name node a =>
      intro f hf hmissing
      have ho' : World.Occupied { w with subscriptionManager := true } := ho
      have ho₁ := (Call.subscribe r name node a).exec_occupied ho'
      have hf₁ := (constructAccessor_changes r name node a w).fault ho₁ f hf hmissing
      exact subscribe_fault r name node a ho' f hf₁ hmissing
    | subscribe r name node a => exact subscribe_fault r name node a ho
    | unsubscribe r name a => exact unsubscribe_fault r ho (hleave name a rfl)
    | popNotification => exact fun f hf _ => hf
    | ownTransfer => exact fun f hf _ => hf
    | _ => exact absurd rfl hc

/-! ## Runs -/

theorem attendances_concat (cs : List (Call V)) (c : Call V) :
    attendances (cs ++ [c]) = c.attendance.toList ++ attendances cs := by
  unfold attendances
  rw [List.filterMap_append, List.reverse_append]
  cases hc : c.attendance <;> simp [hc]

theorem run_concat (w : World V) (cs : List (Call V)) (c : Call V) :
    Call.run w (cs ++ [c]) = (c.exec (Call.run w cs)).world :=
  List.foldl_concat ..

theorem run_replay (hw : w.Fresh) (cs : List (Call V)) :
    (Call.run w cs).Occupied ∧
      (Call.run w cs).lists = (attendances cs).foldr (fun e gs => e.apply gs) [] := by
  induction cs using List.reverseRecOn with
  | nil =>
    have hnil : w.lists = [] := by rw [World.lists, hw.items]; rfl
    exact ⟨by simp [World.Occupied, Call.run, hnil], hnil⟩
  | append_singleton cs c ih =>
    obtain ⟨ho, hlists⟩ := ih
    rw [run_concat]
    refine ⟨c.exec_occupied ho, ?_⟩
    rw [c.exec_lists ho, hlists, attendances_concat, List.foldr_append]

/-- In every reachable state, by any calls, no list is empty. -/
theorem reach_occupied (h : (calls V).Reachable w) : w.Occupied := by
  refine h.invariant (I := World.Occupied) (fun w hw => (run_replay hw []).1) ?_
  rintro w c w' ho - ⟨-, rfl, -⟩
  exact c.exec_occupied ho

/-- **The accessor lists.** In every run that subscribes each accessor once, and unsubscribes it
at most once and under the same name, the names of the items are distinct, no list is empty or
holds an accessor twice, the accessors listed under a name are those subscribed under it and not
yet unsubscribed, in the order of the subscriptions, and no accessor is ever missing where one is
looked for. A removal leaves the other lists as they are. -/
theorem run_lists (hw : w.Fresh) (cs : List (Call V))
    (h : Along Attendance.Allowed (attendances cs)) :
    ((Call.run w cs).lists.map Prod.fst).Nodup ∧
      (∀ l ∈ (Call.run w cs).lists, l.2 ≠ [] ∧ l.2.Nodup) ∧
      (∀ browseName, membersOf browseName (Call.run w cs).lists =
        present browseName (attendances cs)) ∧
      (∀ f, (Call.run w cs).fault = some f → f.isMissing = false) ∧
      ∀ r browseName a, (unsubscribe r browseName a (Call.run w cs)).lists.filter
        (·.1 ≠ browseName) = (Call.run w cs).lists.filter (·.1 ≠ browseName) := by
  have hrun := (run_replay hw cs).2
  obtain ⟨roster, hgroups, hmembers⟩ := Roster.replay h
  rw [← hgroups] at hrun
  refine ⟨hrun ▸ roster.distinct, fun l hl => ?_, fun name => ?_, ?_, fun r name a => ?_⟩
  · rw [hrun] at hl
    exact ⟨roster.occupied l hl, roster.nodup l hl⟩
  · rw [hrun]
    exact hmembers name
  · -- call by call: whoever is unsubscribed is listed at that time
    clear hrun hgroups hmembers roster
    induction cs using List.reverseRecOn with
    | nil =>
      intro f hf
      have hnone : w.fault = some f := hf
      rw [hw.fault] at hnone
      cases hnone
    | append_singleton cs c ih =>
      rw [attendances_concat] at h
      intro f hf
      rw [run_concat] at hf
      by_contra hmissing
      rw [Bool.not_eq_false] at hmissing
      have hpast := ih h.of_append
      have hold := c.exec_fault (run_replay hw cs).1 (fun name a hc => ?_) f hf hmissing
      · rw [hpast f hold] at hmissing
        cases hmissing
      · rw [hc, Option.toList_some, List.singleton_append] at h
        obtain ⟨roster, hgroups, hmembers⟩ := Roster.replay h.2
        rw [(run_replay hw cs).2, ← hgroups]
        have hin : a ∈ roster.members name := by
          rw [hmembers name]
          exact mem_present.mpr h.1
        exact hin
  · rw [unsubscribe_lists]
    exact filter_quit name a _

/-- Three accessors of two registers. One of them leaves, and the device is activated, gets an
exception and is prepared again in between. -/
def threeAccessors : List (Call Nat) :=
  [.subscribe {} "a" ⟨1, .string "a"⟩ 10, .subscribe {} "b" ⟨1, .string "b"⟩ 11, .activate {},
    .subscribe {} "a" ⟨1, .string "a"⟩ 12, .deactivateAllAndPushException {} "lost",
    .unsubscribe {} "a" 10, .resetMonitoredItems, .prepare {}]

theorem run_lists_threeAccessors :
    Along Attendance.Allowed (attendances threeAccessors) ∧
      (Call.run {} threeAccessors).lists = [("a", [12]), ("b", [11])] ∧
      ((Call.run {} threeAccessors).lists.map Prod.fst).Nodup :=
  ⟨by decide, by decide, (run_lists World.fresh_default threeAccessors (by decide)).1⟩

/-! ## Constructions that fail -/

/-- The call returns. -/
def Result.Returns : Result V → Prop
  | .returned _ => True
  | .threw _ _ => False

instance : (r : Result V) → Decidable r.Returns
  | .returned _ => .isTrue trivial
  | .threw _ _ => .isFalse id

/-- `front()` of the accessor's queue is an exception, and is thrown on. -/
def FrontThrows (frontOfException : Option (DataValue V)) (s : AccessorState V) : Prop :=
  match s.notifications.front? with
  | some (.exception _) => frontOfException = none
  | _ => False

/-- The steps of `subscribe` that throw: the register has no item, asynchronous reading is active
and the subscription that is needed is refused; or its item is active and the accessor from which
the initial value is to be taken holds an exception. -/
def SubscribeFails (r : Replies V) (browseName : String) (w : World V) : Prop :=
  match w.find? browseName with
  | none => w.asyncReadActive = true ∧ w.subscriptionActive = false ∧
      r.subscriptionsCreate.result.serviceResult.isGood = false
  | some (_, item) => item.active = true ∧
      ∃ tmp ∈ item.accessors.getLast?, FrontThrows r.frontOfException (w.accessors tmp)

theorem ensureSubscription_returns (r : Replies V) (w : World V) :
    (ensureSubscription r w).Returns ↔ w.subscriptionActive = true ∨
      r.subscriptionsCreate.result.serviceResult.isGood = true := by
  unfold ensureSubscription
  split
  · rename_i hactive
    exact iff_of_true trivial (.inl hactive)
  · rename_i hactive
    unfold createSubscription requestSubscription
    simp only
    split
    · rename_i hgood
      exact iff_of_true trivial (.inr hgood)
    · rename_i hgood
      exact iff_of_false id (not_or.mpr ⟨hactive, hgood⟩)

theorem andThen_returns {r : Result V} {f : World V → Result V} (hf : ∀ w, (f w).Returns) :
    (r.andThen f).Returns ↔ r.Returns := by
  cases r with
  | returned w => exact iff_of_true (hf w) trivial
  | threw => exact Iff.rfl

theorem pushInitialValue_returns (front : Option (DataValue V)) (tmp a : Accessor) (w : World V) :
    (pushInitialValue front tmp a w).Returns ↔ ¬ FrontThrows front (w.accessors tmp) := by
  unfold pushInitialValue FrontThrows
  simp only
  cases (w.accessors tmp).notifications.front? with
  | none =>
    simp only [not_false_eq_true, iff_true]
    split <;> trivial
  | some n =>
    cases n with
    | data value =>
      simp only [not_false_eq_true, iff_true]
      split <;> trivial
    | exception message =>
      cases front with
      | none => exact iff_of_false id (not_not.mpr rfl)
      | some value =>
        refine iff_of_true ?_ (Option.some_ne_none value)
        simp only
        split <;> trivial

theorem subscribe_returns (r : Replies V) (browseName : String) (node : UA_NodeId) (a : Accessor)
    (ho : w.Occupied) :
    (subscribe r browseName node a w).Returns ↔ ¬ SubscribeFails r browseName w := by
  unfold subscribe SubscribeFails
  simp only
  have hfind : (w.record (.subscribed a browseName)).find? browseName = w.find? browseName := rfl
  rw [hfind]
  cases hfound : w.find? browseName with
  | none =>
    simp only
    split
    · rename_i hasync
      have hasync' : w.asyncReadActive = true := hasync
      rw [andThen_returns, ensureSubscription_returns]
      · show w.subscriptionActive = true ∨ _ ↔ _
        rw [and_iff_right hasync', ← Bool.not_eq_true, ← Bool.not_eq_true, ← not_or, not_not]
      · exact fun _ => trivial
    · rename_i hasync
      exact iff_of_true trivial fun h => hasync h.1
  | some found =>
    obtain ⟨i, item⟩ := found
    simp only
    cases hlast : item.accessors.getLast? with
    | none =>
      have hitem := List.mem_of_getElem? (World.find?_eq_some hfound).1
      exact absurd (List.getLast?_eq_none_iff.mp hlast) (ho.accessors item hitem)
    | some tmp =>
      simp only
      split
      · rename_i hactive
        rw [pushInitialValue_returns]
        simp [hactive, World.record]
      · rename_i hactive
        exact iff_of_true trivial fun h => hactive h.1

theorem constructAccessor_returns (r : Replies V) (browseName : String) (node : UA_NodeId)
    (a : Accessor) (ho : w.Occupied) :
    (constructAccessor r browseName node a w).Returns ↔ ¬ SubscribeFails r browseName w := by
  have ho' : World.Occupied { w with subscriptionManager := true } := ho
  rw [constructAccessor, andThen_returns, subscribe_returns r browseName node a ho']
  · rfl
  · intro w
    split <;> trivial

/-- The accessor is listed exactly when its construction returns, and when it throws the manager
holds what it held before. -/
def AllOrNothing (r : Replies V) (browseName : String) (node : UA_NodeId) (a : Accessor)
    (w : World V) : Prop :=
  ((∃ item ∈ (constructAccessor r browseName node a w).world.items.elems, a ∈ item.accessors) ↔
      (constructAccessor r browseName node a w).Returns) ∧
    (¬ (constructAccessor r browseName node a w).Returns →
      (constructAccessor r browseName node a w).world.items = w.items ∧
        (constructAccessor r browseName node a w).world.subscriptionMap = w.subscriptionMap)

/-- **Registration.** The construction of an accessor is all or nothing if and only if no step of
`subscribe` throws: the accessor is listed before the steps that can. -/
theorem constructAccessor_allOrNothing_iff (h : (calls V).Reachable w) (r : Replies V)
    (browseName : String) (node : UA_NodeId) (a : Accessor) :
    AllOrNothing r browseName node a w ↔ ¬ SubscribeFails r browseName w := by
  have ho := reach_occupied h
  have hlisted : ∃ item ∈ (constructAccessor r browseName node a w).world.items.elems,
      a ∈ item.accessors := by
    obtain ⟨l, hl, ha⟩ := exists_mem_enter browseName a w.lists
    rw [← constructAccessor_lists r browseName node a ho] at hl
    obtain ⟨item, hitem, rfl⟩ := List.mem_map.mp hl
    exact ⟨item, hitem, ha⟩
  rw [← constructAccessor_returns r browseName node a ho]
  constructor
  · exact fun hall => hall.1.mp hlisted
  · exact fun hret => ⟨iff_of_true hlisted hret, fun hthrew => absurd hret hthrew⟩

/-- The device is activated without a register, and the server deletes the subscription that
nothing uses. -/
def deletedUnused : List (Call Nat) :=
  [.openDevice {} {} { connect := { result := .good, callbacks := [.state .open .activated] } },
    .activateAsyncRead {}, .callbacks [.deleteSubscription 1]]

theorem constructAccessor_allOrNothing_deletedUnused :
    AllOrNothing {} "a" ⟨1, .string "a"⟩ 10 (Call.run {} deletedUnused) :=
  (constructAccessor_allOrNothing_iff
    (reach_run deletedUnused (.init World.fresh_default) (by decide)) {} "a" ⟨1, .string "a"⟩
    10).mpr fun h => by
      have hgood : (true : Bool) = false := h.2.2
      cases hgood

/-- The server refuses the next subscription. -/
def refusedSubscription : Replies Nat :=
  { subscriptionsCreate := { result := ⟨⟨0x80770000, "BadTooManySubscriptions"⟩, 0, 0⟩ } }

/-- The construction of the first accessor throws, and the accessor stays in the list of a new
item. -/
theorem not_allOrNothing_refusedSubscription :
    ¬ ∀ w : World Nat, (calls Nat).Reachable w → ∀ r browseName node a,
      AllOrNothing r browseName node a w := by
  intro h
  have hthrows : ¬ (constructAccessor refusedSubscription "a" ⟨1, .string "a"⟩ 10
      (Call.run {} deletedUnused)).Returns := by decide
  have hw := (h _ (reach_run deletedUnused (.init World.fresh_default) (by decide))
    refusedSubscription "a" ⟨1, .string "a"⟩ 10).1
  exact hthrows (hw.mp ⟨newItem "a" ⟨1, .string "a"⟩ 10, by decide, by decide⟩)

end OpcUaBackend
