import OpcUaBackend.Manager.Bookkeeping

/-!
# Delivery of exceptions

An exception is pushed to the accessors of an item when the item is active and its flag
`hasException` is clear, and the flag is then set; only a data value clears it. The flag is
right when it is set exactly for the items whose accessors have been told. It survives an
activation of its item, of one that is active too, and the report of one accessor's failed
transfer sets it for the other accessors too: until the next data value, exceptions are then
hidden from them.

## Main definitions

* `Notified`: an accessor has learned of an exception since the latest activation
* `Pending`: an exception is the last thing pushed to an accessor
* `Hidden`: the flag of the item hides exceptions from the accessor
* `Event.NotRepeated`: an exception that does not repeat a pending one
* `Alert`: the invariant

## Main results

* `Alert.handleException`, `Alert.told`: after an exception every accessor of an active item is
  told, unless exceptions are hidden from it
* `reach_exceptions`: the same in every run, and no exception is repeated
-/

namespace OpcUaBackend

open Foundation

variable {V : Type} {w w' : World V}

/-! ## The history of an accessor -/

def Notification.isException : Notification V → Bool
  | .data _ => false
  | .exception _ => true

/-- What is pushed to the accessor: an exception or a data value. An accessor starts with its
subscription. -/
def Event.news (a : Accessor) : Event V → Option Bool
  | .pushed b n => if b = a then some n.isException else none
  | .subscribed b _ => if b = a then some false else none
  | _ => none

section Signals

variable (browseName : String) (a : Accessor)

/-- What the event means for an accessor of the item: as `Event.news`, where each activation of
the item counts as a new start, and the report of a failed transfer of the accessor's own as an
exception. -/
def Event.alert : Event V → Option Bool
  | .activated name _ _ => if name = browseName then some false else none
  | .reported b name _ => if b = a ∧ name = browseName then some true else none
  | e => e.news a

/-- Whether the flag of the item hides exceptions from the accessor from now on. It does after
an activation of the item that found the flag set, whether the item was active before or not, and
after a report of another accessor that found it clear. -/
def Event.hides : Event V → Option Bool
  | .pushed b _ => if b = a then some false else none
  | .activated name hasException _ => if name = browseName then some hasException else none
  | .subscribed b _ => if b = a then some false else none
  | .reported b name hasException =>
    if name = browseName then
      if b = a then some false else if hasException then none else some true
    else none
  | _ => none

/-- Since the latest activation of the item, the last thing that the accessor learned is an
exception, its own failed transfer included. -/
def Notified (h : List (Event V)) : Prop := h.findSome? (Event.alert browseName a) = some true

/-- The last element pushed to the accessor is an exception. -/
def Pending (h : List (Event V)) : Prop := h.findSome? (Event.news a) = some true

/-- The flag of the item hides exceptions from the accessor: since the latest activation of the
item, which found the flag set, or since another accessor's report set it, nothing was pushed to
the accessor. -/
def Hidden (h : List (Event V)) : Prop := h.findSome? (Event.hides browseName a) = some true

/-- The accessor has been subscribed for the item. -/
def Subscribed (h : List (Event V)) : Prop := .subscribed a browseName ∈ h

instance (h : List (Event V)) : Decidable (Notified browseName a h) := by
  unfold Notified; infer_instance

instance (h : List (Event V)) : Decidable (Hidden browseName a h) := by
  unfold Hidden; infer_instance

end Signals

/-- An exception is not pushed to an accessor that has one already, without a data value in
between, whatever is activated in the meantime. -/
def Event.NotRepeated (past : List (Event V)) : Event V → Prop
  | .pushed a (.exception _) => ¬ Pending a past
  | _ => True

/-- The event says nothing about items and accessors. -/
def Event.Remote (e : Event V) : Prop := e.isLocal = false

section Remote

variable {e : Event V} {browseName : String} {a : Accessor} {h h' : List (Event V)}

theorem Event.Remote.alert (he : e.Remote) : e.alert browseName a = none := by
  cases e <;> simp_all [Event.Remote, Event.isLocal, Event.alert, Event.news]

theorem Event.Remote.hides (he : e.Remote) : e.hides browseName a = none := by
  cases e <;> simp_all [Event.Remote, Event.isLocal, Event.hides]

theorem Event.Remote.news (he : e.Remote) : e.news a = none := by
  cases e <;> simp_all [Event.Remote, Event.isLocal, Event.news]

theorem Event.Remote.notRepeated (he : e.Remote) : e.NotRepeated h := by
  cases e <;> simp_all [Event.Remote, Event.isLocal, Event.NotRepeated]

/-- Events that carry no signal do not change the latest one. -/
theorem findSome?_extends {β : Type} {f : Event V → Option β} {P : Event V → Prop}
    (hP : ∀ e, P e → f e = none) (hx : Extends P h h') : h'.findSome? f = h.findSome? f := by
  obtain ⟨es, rfl, hes⟩ := hx
  rw [List.findSome?_append, List.findSome?_eq_none_iff.mpr fun e he => hP e (hes e he),
    Option.none_or]

theorem notified_remote (hx : Extends Event.Remote h h') :
    Notified browseName a h' ↔ Notified browseName a h := by
  unfold Notified
  rw [findSome?_extends (fun _ => Event.Remote.alert) hx]

theorem hidden_remote (hx : Extends Event.Remote h h') :
    Hidden browseName a h' ↔ Hidden browseName a h := by
  unfold Hidden
  rw [findSome?_extends (fun _ => Event.Remote.hides) hx]

theorem pending_remote (hx : Extends Event.Remote h h') : Pending a h' ↔ Pending a h := by
  unfold Pending
  rw [findSome?_extends (fun _ => Event.Remote.news) hx]

theorem subscribed_remote (hx : Extends Event.Remote h h') :
    Subscribed browseName a h' ↔ Subscribed browseName a h := by
  obtain ⟨es, rfl, hes⟩ := hx
  unfold Subscribed
  rw [List.mem_append]
  refine or_iff_right fun hmem => ?_
  exact absurd (hes _ hmem) (by simp [Event.Remote, Event.isLocal])

end Remote

/-! ## The invariant -/

/-- For an active item the flag `hasException` is set exactly when its accessors are told or
exceptions are hidden from them; and it is set for an inactive item where they are, or where an
exception is pending. -/
structure Alert (w : World V) : Prop where
  names : (w.items.elems.map (·.browseName)).Nodup
  distinct : ∀ item ∈ w.items.elems, item.accessors.Nodup
  subscribed : ∀ item ∈ w.items.elems, ∀ a ∈ item.accessors,
    Subscribed item.browseName a w.history
  once : ∀ a name name', Subscribed name a w.history → Subscribed name' a w.history → name = name'
  heard : ∀ item ∈ w.items.elems, item.active = true → item.hasException = true →
    ∀ a ∈ item.accessors, Notified item.browseName a w.history ∨ Hidden item.browseName a w.history
  flagged : ∀ item ∈ w.items.elems, ∀ a ∈ item.accessors,
    Notified item.browseName a w.history ∨ Hidden item.browseName a w.history →
      item.hasException = true
  apart : ∀ item ∈ w.items.elems, ∀ a ∈ item.accessors, Hidden item.browseName a w.history →
    ¬ Notified item.browseName a w.history
  pending : ∀ item ∈ w.items.elems, ∀ a ∈ item.accessors, Pending a w.history →
    item.hasException = true
  repeated : Along Event.NotRepeated w.history

/-- The item `item'` is as `item` was, with fewer accessors perhaps, and perhaps inactive. -/
structure MonitorItem.Quieter (item' item : MonitorItem) : Prop where
  browseName : item'.browseName = item.browseName
  accessors : item'.accessors.Sublist item.accessors
  hasException : item'.hasException = item.hasException
  active : item'.active = true → item.active = true

protected theorem MonitorItem.Quieter.refl (item : MonitorItem) : item.Quieter item :=
  ⟨rfl, List.Sublist.refl _, rfl, fun h => h⟩

theorem Alert.quiet (h : Alert w)
    (hnames : (w'.items.elems.map (·.browseName)).Sublist (w.items.elems.map (·.browseName)))
    (hitems : ∀ item' ∈ w'.items.elems, ∃ item ∈ w.items.elems, item'.Quieter item)
    (hx : Extends Event.Remote w.history w'.history) : Alert w' := by
  refine ⟨h.names.sublist hnames, ?distinct, ?subscribed, ?once, ?heard, ?flagged, ?apart,
    ?pending, ?repeated⟩
  case distinct =>
    intro item' hmem
    obtain ⟨item, hitem, hq⟩ := hitems item' hmem
    exact (h.distinct item hitem).sublist hq.accessors
  case subscribed =>
    intro item' hmem a ha
    obtain ⟨item, hitem, hq⟩ := hitems item' hmem
    rw [subscribed_remote hx, hq.browseName]
    exact h.subscribed item hitem a (hq.accessors.subset ha)
  case once =>
    intro a name name' hn hn'
    rw [subscribed_remote hx] at hn hn'
    exact h.once a name name' hn hn'
  case heard =>
    intro item' hmem hact hex a ha
    obtain ⟨item, hitem, hq⟩ := hitems item' hmem
    rw [notified_remote hx, hidden_remote hx, hq.browseName]
    exact h.heard item hitem (hq.active hact) (hq.hasException ▸ hex) a (hq.accessors.subset ha)
  case flagged =>
    intro item' hmem a ha hp
    obtain ⟨item, hitem, hq⟩ := hitems item' hmem
    rw [notified_remote hx, hidden_remote hx, hq.browseName] at hp
    exact hq.hasException ▸ h.flagged item hitem a (hq.accessors.subset ha) hp
  case apart =>
    intro item' hmem a ha hp
    obtain ⟨item, hitem, hq⟩ := hitems item' hmem
    rw [hidden_remote hx, hq.browseName] at hp
    rw [notified_remote hx, hq.browseName]
    exact h.apart item hitem a (hq.accessors.subset ha) hp
  case pending =>
    intro item' hmem a ha hp
    obtain ⟨item, hitem, hq⟩ := hitems item' hmem
    rw [pending_remote hx] at hp
    exact hq.hasException ▸ h.pending item hitem a (hq.accessors.subset ha) hp
  case repeated =>
    exact h.repeated.extend hx fun _ _ => Event.Remote.notRepeated

theorem Alert.quiet_of_names (h : Alert w)
    (hnames : w'.items.elems.map (·.browseName) = w.items.elems.map (·.browseName))
    (hitems : ∀ item' ∈ w'.items.elems, ∃ item ∈ w.items.elems, item'.Quieter item)
    (hx : Extends Event.Remote w.history w'.history) : Alert w' :=
  h.quiet (hnames ▸ List.Sublist.refl _) hitems hx

/-- A change of flags of the manager, the client thread and the connection. -/
theorem Alert.of_items (h : Alert w) (hitems : w'.items = w.items)
    (hx : Extends Event.Remote w.history w'.history) : Alert w' :=
  h.quiet (by rw [hitems]) (fun item hmem => ⟨item, hitems ▸ hmem, .refl item⟩) hx

/-- Two items with a common accessor are the same. -/
theorem Alert.item_unique (h : Alert w) {item item' : MonitorItem} (hitem : item ∈ w.items.elems)
    (hitem' : item' ∈ w.items.elems) {a : Accessor} (ha : a ∈ item.accessors)
    (ha' : a ∈ item'.accessors) : item = item' := by
  have hname := h.once a _ _ (h.subscribed item hitem a ha) (h.subscribed item' hitem' a ha')
  exact List.inj_on_of_nodup_map h.names hitem hitem' hname

/-! ## Pushes in the history -/

section Pushes

variable {n : Notification V} {as : List Accessor} {h : List (Event V)} {browseName : String}
  {a : Accessor}

/-- The events of pushing `n` to the accessors `as`, newest first. -/
def pushes (n : Notification V) (as : List Accessor) : List (Event V) :=
  (as.map fun a => .pushed a n).reverse

theorem pushes_cons (b : Accessor) :
    pushes n (b :: as) ++ h = pushes n as ++ .pushed b n :: h := by
  simp [pushes]

theorem mem_pushes {e : Event V} : e ∈ pushes n as ↔ ∃ b ∈ as, .pushed b n = e := by
  simp [pushes]

theorem findSome?_pushes {β : Type} {f : Event V → Option β} {signal : β}
    (hf : ∀ b, f (.pushed b n) = if b = a then some signal else none) :
    (pushes n as ++ h).findSome? f = if a ∈ as then some signal else h.findSome? f := by
  induction as generalizing h with
  | nil => simp [pushes]
  | cons b as ih =>
    rw [pushes_cons, ih, List.findSome?_cons, hf]
    by_cases hab : a ∈ as
    · simp [hab]
    · by_cases hb : b = a
      · simp [hb]
      · have hb' : a ≠ b := Ne.symm hb
        simp [hab, hb, hb']

theorem notified_pushes : Notified browseName a (pushes n as ++ h) ↔
    if a ∈ as then n.isException = true else Notified browseName a h := by
  unfold Notified
  rw [findSome?_pushes fun b => rfl]
  split <;> simp

theorem pending_pushes : Pending a (pushes n as ++ h) ↔
    if a ∈ as then n.isException = true else Pending a h := by
  unfold Pending
  rw [findSome?_pushes fun b => rfl]
  split <;> simp

theorem hidden_pushes : Hidden browseName a (pushes n as ++ h) ↔
    a ∉ as ∧ Hidden browseName a h := by
  unfold Hidden
  rw [findSome?_pushes fun b => rfl]
  split <;> simp_all

theorem subscribed_pushes :
    Subscribed browseName a (pushes n as ++ h) ↔ Subscribed browseName a h := by
  unfold Subscribed
  rw [List.mem_append]
  refine or_iff_right fun hmem => ?_
  obtain ⟨b, -, hb⟩ := mem_pushes.mp hmem
  cases hb

/-- Pushing an exception once to each of several accessors where none is pending repeats none. -/
theorem notRepeated_pushes (hnodup : as.Nodup) (hh : Along Event.NotRepeated h)
    (has : ∀ b ∈ as, ¬ Pending b h) :
    Along Event.NotRepeated (pushes n as ++ h) := by
  induction as generalizing h with
  | nil => exact hh
  | cons b as ih =>
    obtain ⟨hb, hnodup'⟩ := List.nodup_cons.mp hnodup
    rw [pushes_cons]
    -- the push to `b` changes nothing for the accessors after it
    refine ih hnodup' (along_cons.mpr ⟨?_, hh⟩) fun c hc => ?_
    · cases n with
      | data value => trivial
      | exception message => exact has b (List.mem_cons_self ..)
    · have hne : b ≠ c := fun he => hb (he ▸ hc)
      have hstep : (.pushed b n :: h : List (Event V)) = pushes n [b] ++ h := by simp [pushes]
      rw [hstep, pending_pushes, if_neg (by simpa using hne.symm)]
      exact has c (List.mem_cons_of_mem _ hc)

end Pushes

theorem pushAll_history (n : Notification V) (as : List Accessor) (w : World V) :
    (w.pushAll n as).history = pushes n as ++ w.history := by
  induction as generalizing w with
  | nil => rfl
  | cons a as ih => exact (ih (w.push n a)).trans (pushes_cons a).symm

theorem pushAll_items (n : Notification V) (as : List Accessor) (w : World V) :
    (w.pushAll n as).items = w.items := by
  induction as generalizing w with
  | nil => rfl
  | cons a as ih => exact ih (w.push n a)

/-! ## Telling accessors -/

/-- The item `item'` is `item` after `n` was pushed to the accessors `as`: its flag is set only
where they are told, and it is where one of them has an exception pending. -/
structure MonitorItem.After (n : Notification V) (as : List Accessor)
    (item' item : MonitorItem) : Prop where
  browseName : item'.browseName = item.browseName
  accessors : item'.accessors = item.accessors
  told : item'.active = true → item'.hasException = true → ∀ a ∈ item.accessors,
    if a ∈ as then n.isException = true else item.active = true ∧ item.hasException = true
  flagged : ∀ a ∈ item.accessors,
    (if a ∈ as then n.isException = true else item.hasException = true) →
      item'.hasException = true

theorem Alert.pushed (h : Alert w) (n : Notification V) (as : List Accessor)
    (hnames : w'.items.elems.map (·.browseName) = w.items.elems.map (·.browseName))
    (hitems : ∀ item' ∈ w'.items.elems, ∃ item ∈ w.items.elems, item'.After n as item)
    (hhist : w'.history = pushes n as ++ w.history) (hnodup : as.Nodup)
    (has : ∀ a ∈ as, ∃ item ∈ w.items.elems, a ∈ item.accessors ∧
      (n.isException = true → item.hasException = false)) : Alert w' := by
  refine ⟨hnames ▸ h.names, ?distinct, ?subscribed, ?once, ?heard, ?flagged, ?apart, ?pending,
    ?repeated⟩
  case distinct =>
    intro item' hmem
    obtain ⟨item, hitem, ha⟩ := hitems item' hmem
    exact ha.accessors ▸ h.distinct item hitem
  case subscribed =>
    intro item' hmem a hacc
    obtain ⟨item, hitem, ha⟩ := hitems item' hmem
    rw [hhist, subscribed_pushes, ha.browseName]
    exact h.subscribed item hitem a (ha.accessors ▸ hacc)
  case once =>
    intro a name name' hn hn'
    rw [hhist, subscribed_pushes] at hn hn'
    exact h.once a name name' hn hn'
  case heard =>
    intro item' hmem hact hex a hacc
    obtain ⟨item, hitem, ha⟩ := hitems item' hmem
    have hacc' : a ∈ item.accessors := ha.accessors ▸ hacc
    have htold := ha.told hact hex a hacc'
    rw [hhist, notified_pushes, hidden_pushes, ha.browseName]
    split at htold
    · -- an accessor that is told: the exception is its last news
      rename_i hin
      exact .inl (by rwa [if_pos hin])
    · -- nothing is pushed to the others, so their news is as it was
      rename_i hout
      rw [if_neg hout]
      exact (h.heard item hitem htold.1 htold.2 a hacc').imp id fun hhid => ⟨hout, hhid⟩
  case flagged =>
    intro item' hmem a hacc hp
    obtain ⟨item, hitem, ha⟩ := hitems item' hmem
    have hacc' : a ∈ item.accessors := ha.accessors ▸ hacc
    rw [hhist, notified_pushes, hidden_pushes, ha.browseName] at hp
    refine ha.flagged a hacc' ?_
    by_cases hin : a ∈ as
    · rw [if_pos hin] at hp ⊢
      exact hp.resolve_right fun hhid => hhid.1 hin
    · rw [if_neg hin] at hp ⊢
      exact h.flagged item hitem a hacc' (hp.imp id And.right)
  case apart =>
    intro item' hmem a hacc hhid
    obtain ⟨item, hitem, ha⟩ := hitems item' hmem
    rw [hhist, hidden_pushes, ha.browseName] at hhid
    rw [hhist, notified_pushes, if_neg hhid.1, ha.browseName]
    exact h.apart item hitem a (ha.accessors ▸ hacc) hhid.2
  case pending =>
    intro item' hmem a hacc hp
    obtain ⟨item, hitem, ha⟩ := hitems item' hmem
    have hacc' : a ∈ item.accessors := ha.accessors ▸ hacc
    rw [hhist, pending_pushes] at hp
    refine ha.flagged a hacc' ?_
    by_cases hin : a ∈ as
    · rw [if_pos hin] at hp ⊢
      exact hp
    · rw [if_neg hin] at hp ⊢
      exact h.pending item hitem a hacc' hp
  case repeated =>
    rw [hhist]
    cases n with
    -- a data value is no exception, so it repeats none
    | data value =>
      have hx : Extends (fun e => ∃ a, e = .pushed a (.data value)) w.history
          (pushes (.data value) as ++ w.history) := by
        refine ⟨pushes (.data value) as, rfl, fun e he => ?_⟩
        obtain ⟨b, -, hb⟩ := mem_pushes.mp he
        exact ⟨b, hb.symm⟩
      refine h.repeated.extend hx ?_
      rintro past _ ⟨a, rfl⟩
      trivial
    | exception message =>
      -- an accessor with an exception pending belongs to an item whose flag is set
      refine notRepeated_pushes hnodup h.repeated fun a ha hp => ?_
      obtain ⟨item, hitem, hacc, hclear⟩ := has a ha
      have hset := h.pending item hitem a hacc hp
      rw [hclear rfl] at hset
      cases hset

/-- The accessors that `handleException` pushes to, those of the items that raise. -/
theorem Alert.mem_raising (h : Alert w) {item : MonitorItem} (hitem : item ∈ w.items.elems)
    {a : Accessor} (ha : a ∈ item.accessors) :
    a ∈ (w.items.elems.filter MonitorItem.raises).flatMap (·.accessors) ↔
      item.raises = true := by
  rw [List.mem_flatMap]
  constructor
  · rintro ⟨item', hmem, ha'⟩
    obtain ⟨hitem', hraises⟩ := List.mem_filter.mp hmem
    rwa [h.item_unique hitem hitem' ha ha']
  · exact fun hraises => ⟨item, List.mem_filter.mpr ⟨hitem, hraises⟩, ha⟩

theorem Alert.nodup_raising (h : Alert w) :
    ((w.items.elems.filter MonitorItem.raises).flatMap (·.accessors)).Nodup := by
  refine List.nodup_flatMap.mpr ⟨fun item hmem => ?_, ?_⟩
  · exact h.distinct item (List.mem_filter.mp hmem).1
  · have hpair : w.items.elems.Pairwise fun item item' => item.browseName ≠ item'.browseName :=
      List.pairwise_map.mp h.names
    refine (hpair.filter _).imp_of_mem fun hmem hmem' hne => ?_
    intro a ha ha'
    exact hne (congrArg _ (h.item_unique (List.mem_filter.mp hmem).1 (List.mem_filter.mp hmem').1
      ha ha'))

theorem MonitorItem.raise_eq (item : MonitorItem) :
    item.raise = { item with hasException := item.active || item.hasException } := by
  obtain ⟨node, accessors, id, active, isMonitored, hasException, browseName⟩ := item
  cases active <;> cases hasException <;> rfl

/-- **After an exception** the flags of the active items mean that their accessors are told. -/
theorem Alert.handleException (h : Alert w) (message : String) :
    Alert (handleException message w) := by
  let as := (w.items.elems.filter MonitorItem.raises).flatMap (·.accessors)
  have hitems : (OpcUaBackend.handleException message w).items
      = w.items.map MonitorItem.raise := pushAll_items _ _ _
  have hhist : (OpcUaBackend.handleException message w).history
      = pushes (.exception message) as ++ w.history := pushAll_history _ _ _
  refine h.pushed _ _ ?_ ?_ hhist h.nodup_raising ?_
  · rw [hitems, SlotDeque.elems_map, List.map_map]
    refine List.map_congr_left fun item _ => ?_
    simp [MonitorItem.raise_eq]
  · intro item' hmem
    rw [hitems, SlotDeque.elems_map, List.mem_map] at hmem
    obtain ⟨item, hitem, rfl⟩ := hmem
    rw [MonitorItem.raise_eq]
    refine ⟨item, hitem, rfl, rfl, fun hact hex a ha => ?_, fun a ha hin => ?_⟩
    · split
      · rfl
      · rename_i hout
        rw [h.mem_raising hitem ha] at hout
        -- an active item that does not raise has its flag set already
        have hset : item.hasException = true := by
          simpa [MonitorItem.raises, show item.active = true from hact] using hout
        exact ⟨hact, hset⟩
    · split at hin
      · rename_i hraises
        rw [h.mem_raising hitem ha] at hraises
        have hact : item.active = true := by
          simp only [MonitorItem.raises, Bool.and_eq_true] at hraises
          exact hraises.1
        simp [hact]
      · simp [hin]
  · intro a ha
    obtain ⟨item, hmem, hacc⟩ := List.mem_flatMap.mp ha
    obtain ⟨hitem, hraises⟩ := List.mem_filter.mp hmem
    refine ⟨item, hitem, hacc, fun _ => ?_⟩
    simp only [MonitorItem.raises, Bool.and_eq_true, Bool.not_eq_true'] at hraises
    exact hraises.2

/-- The accessors of the active items are told, or exceptions are hidden from them. -/
theorem Alert.told (h : Alert w) (message : String) {item : MonitorItem}
    (hitem : item ∈ w.items.elems) (hact : item.active = true) {a : Accessor}
    (ha : a ∈ item.accessors) :
    Notified item.browseName a (OpcUaBackend.handleException message w).history ↔
      ¬ Hidden item.browseName a w.history := by
  have hhist : (OpcUaBackend.handleException message w).history
      = pushes (.exception message)
          ((w.items.elems.filter MonitorItem.raises).flatMap (·.accessors)) ++ w.history :=
    pushAll_history _ _ _
  rw [hhist, notified_pushes]
  by_cases hflag : item.hasException = true
  · -- nothing is pushed to an item whose flag is set
    have hout : ¬ item.raises = true := by simp [MonitorItem.raises, hflag]
    rw [if_neg (mt (h.mem_raising hitem ha).mp hout)]
    constructor
    · exact fun hn hhid => h.apart item hitem a ha hhid hn
    · exact fun hhid => (h.heard item hitem hact hflag a ha).resolve_right hhid
  · have hraises : item.raises = true := by simp [MonitorItem.raises, hact, hflag]
    rw [if_pos ((h.mem_raising hitem ha).mpr hraises)]
    exact ⟨fun _ hhid => hflag (h.flagged item hitem a ha (.inr hhid)), fun _ => rfl⟩

theorem Alert.responseHandler (h : Alert w) (monId : Nat) (value : DataValue V) :
    Alert (responseHandler monId value w) := by
  unfold OpcUaBackend.responseHandler
  split
  · exact h
  · rename_i p hl
    split
    · exact h.of_items rfl (.refl _)
    · rename_i item hp
      split
      · obtain ⟨i, rfl, hi⟩ := w.items.get?_eq_some.mp hp
        have hitem := List.mem_of_getElem? hi
        -- an item that shares an accessor with the item served is that item, in its slot
        have hslot : ∀ {j : Nat} {other : MonitorItem} {a : Accessor},
            w.items.elems[j]? = some other → a ∈ other.accessors → a ∈ item.accessors →
              w.items.slot j = w.items.slot i := by
          intro j other a hj ha ha'
          have heq := h.item_unique (List.mem_of_getElem? hj) hitem ha ha'
          rw [index_inj h.names hj hi (congrArg _ heq)]
        refine h.pushed _ _ ?_ ?_ (pushAll_history _ _ _) (h.distinct item hitem) ?_
        · rw [pushAll_items]
          refine List.ext_getElem? fun j => ?_
          simp only [List.getElem?_map, SlotDeque.getElem?_mapSlots, Option.map_map]
          congr 1
          funext other
          simp only [Function.comp_apply]
          split <;> rfl
        · intro item' hmem
          rw [pushAll_items] at hmem
          obtain ⟨j, hj⟩ := List.mem_iff_getElem?.mp hmem
          rw [SlotDeque.getElem?_mapSlots] at hj
          obtain ⟨other, hother, rfl⟩ := Option.map_eq_some_iff.mp hj
          refine ⟨other, List.mem_of_getElem? hother, ?_, ?_, ?_, ?_⟩
          · split <;> rfl
          · split <;> rfl
          · intro hact hex a ha
            -- the flag of the item served is cleared
            by_cases hij : w.items.slot j = w.items.slot i
            · simp [hij] at hex
            · have hout : a ∉ item.accessors := fun ha' => hij (hslot hother ha ha')
              simp only [hij, if_false] at hact hex
              rw [if_neg hout]
              exact ⟨hact, hex⟩
          · intro a ha hin
            -- the item served has no exception pending, as its accessors got a data value
            by_cases hij : w.items.slot j = w.items.slot i
            · rw [w.items.slot_inj] at hij
              obtain rfl : other = item := Option.some_inj.mp (hother.symm.trans (hij ▸ hi))
              simp [ha, Notification.isException] at hin
            · simp only [hij, if_false]
              split at hin
              · cases hin
              · exact hin
        · exact fun a ha => ⟨item, hitem, ha, fun hex => by cases hex⟩
      · exact h

/-! ## Deactivating, and callbacks -/

theorem Alert.clearActive (h : Alert w) : Alert (clearActive w) := by
  have hkeep : ∀ w₀ : World V, w₀.items = w.items → w₀.history = w.history →
      Alert { w₀ with
        items := w₀.items.mapSlots fun p item =>
          if p ∈ w.subscriptionMap.entries.map (·.2) then { item with active := false }
          else item } := by
    intro w₀ hitems hhist
    refine h.quiet_of_names ?_ ?_ (hhist ▸ .refl _)
    · refine List.ext_getElem? fun j => ?_
      simp only [List.getElem?_map, SlotDeque.getElem?_mapSlots, Option.map_map, hitems]
      congr 1
      funext item
      simp only [Function.comp_apply]
      split <;> rfl
    · intro item' hmem
      obtain ⟨j, hj⟩ := List.mem_iff_getElem?.mp hmem
      rw [SlotDeque.getElem?_mapSlots, hitems] at hj
      obtain ⟨item, hitem, rfl⟩ := Option.map_eq_some_iff.mp hj
      refine ⟨item, List.mem_of_getElem? hitem, ?_⟩
      split
      · exact ⟨rfl, List.Sublist.refl _, rfl, fun hact => by cases hact⟩
      · exact ⟨rfl, List.Sublist.refl _, rfl, id⟩
  unfold OpcUaBackend.clearActive
  simp only
  split
  · exact hkeep w rfl rfl
  · exact hkeep (w.fail .danglingPointer) rfl rfl

theorem Alert.deactivate {removal : World V → World V} (hr : ∀ {w}, Alert w → Alert (removal w))
    (h : Alert w) : Alert (deactivate removal w) := by
  let w₁ : World V := { OpcUaBackend.clearActive w with run := false, subscriptionActive := false }
  have h₁ : Alert w₁ := h.clearActive.of_items rfl (.refl _)
  unfold OpcUaBackend.deactivate
  simp only
  split
  · split
    · exact h₁.of_items rfl (.refl _)
    · exact (hr h₁).of_items rfl (.refl _)
  · exact h₁.of_items rfl (.refl _)

theorem Alert.deactivateAllAndPushException {removal : World V → World V}
    (hr : ∀ {w}, Alert w → Alert (removal w)) (message : String) (h : Alert w) :
    Alert (deactivateAllAndPushException removal message w) :=
  (h.handleException message).deactivate hr

theorem Alert.runCallback (c : Callback V) (h : Alert w) : Alert (runCallback w c) := by
  have hfail : ∀ {w : World V}, Alert w → Alert (w.fail .clientLockDeadlock) :=
    fun h => h.of_items rfl (.refl _)
  cases c with
  | state channelState sessionState =>
    have hset : Alert { w with channelState := channelState, sessionState := sessionState } :=
      h.of_items rfl (.refl _)
    simp only [OpcUaBackend.runCallback, stateCallback]
    split
    · exact hset.deactivateAllAndPushException hfail _
    · exact hset
  | inactivity subId =>
    simp only [OpcUaBackend.runCallback, inactivityCallback]
    split
    · exact (h.deactivateAllAndPushException hfail _).of_items rfl (.refl _)
    · exact h
  | deleteSubscription subId => exact h.of_items rfl (.refl _)
  | dataChange monId value => exact h.responseHandler monId value

theorem Alert.runCallbacks (cs : List (Callback V)) (h : Alert w) : Alert (runCallbacks cs w) := by
  induction cs generalizing w with
  | nil => exact h
  | cons c cs ih => exact ih (h.runCallback c)

theorem Alert.libraryCall {e : Event V} (he : e.Remote) (cs : List (Callback V)) (h : Alert w) :
    Alert (libraryCall e cs w) := by
  have hrec : Alert (w.record e) :=
    h.of_items rfl ⟨[e], rfl, fun e' he' => List.mem_singleton.mp he' ▸ he⟩
  exact hrec.runCallbacks cs

/-- Changing the registration of items, and nothing that concerns their exceptions. -/
theorem Alert.map_items (h : Alert w) {f : MonitorItem → MonitorItem}
    (hf : ∀ item, (f item).Quieter item) : Alert { w with items := w.items.map f } := by
  refine h.quiet_of_names ?_ ?_ (.refl _)
  · rw [SlotDeque.elems_map, List.map_map]
    exact List.map_congr_left fun item _ => (hf item).browseName
  · intro item' hmem
    rw [SlotDeque.elems_map, List.mem_map] at hmem
    obtain ⟨item, hitem, rfl⟩ := hmem
    exact ⟨item, hitem, hf item⟩

theorem Alert.modify_items (h : Alert w) (i : Nat) {f : MonitorItem → MonitorItem}
    (hf : ∀ item, (f item).Quieter item) : Alert { w with items := w.items.modify i f } := by
  refine h.quiet_of_names ?_ ?_ (.refl _)
  · exact SlotDeque.map_elems_modify _ _ fun item => (hf item).browseName
  · intro item' hmem
    obtain ⟨j, hj⟩ := List.mem_iff_getElem?.mp hmem
    rw [SlotDeque.elems_modify, List.getElem?_modify] at hj
    obtain ⟨item, hitem, rfl⟩ := Option.map_eq_some_iff.mp hj
    refine ⟨item, List.mem_of_getElem? hitem, ?_⟩
    split
    · exact hf item
    · exact ⟨rfl, List.Sublist.refl _, rfl, id⟩

theorem Alert.resetMonitoredItems (h : Alert w) : Alert (resetMonitoredItems w) := by
  have hmap := h.map_items (f := fun item => { item with isMonitored := false })
    fun _ => ⟨rfl, List.Sublist.refl _, rfl, id⟩
  exact hmap.of_items rfl (.refl _)

theorem Alert.removeSubscription (reply : Reply V UA_StatusCode) (h : Alert w) :
    Alert (removeSubscription reply w) := by
  have hcall : Alert { OpcUaBackend.libraryCall (.subscriptionsDelete w.subscriptionID reply.result)
      reply.callbacks w with subscriptionID := 0 } :=
    (h.libraryCall (e := .subscriptionsDelete w.subscriptionID reply.result) rfl
      reply.callbacks).of_items rfl (.refl _)
  exact hcall.resetMonitoredItems

/-! ## The subscription, and registrations -/

theorem Alert.createSubscription (h : Alert w) (r : Replies V) :
    Alert (createSubscription r w).world := by
  have hclean : Alert (cleanUpSubscription r.subscriptionsDelete w) := by
    unfold cleanUpSubscription
    split
    · exact h.removeSubscription _
    · exact h
  unfold OpcUaBackend.createSubscription requestSubscription
  generalize cleanUpSubscription r.subscriptionsDelete w = w₁ at hclean ⊢
  have hcall := hclean.libraryCall (e := .subscriptionsCreate w₁.publishingInterval
    r.subscriptionsCreate.result) rfl r.subscriptionsCreate.callbacks
  simp only
  split
  · exact hcall.of_items rfl (.refl _)
  · exact hcall

theorem Alert.ensureSubscription (h : Alert w) (r : Replies V) :
    Alert (ensureSubscription r w).world := by
  unfold OpcUaBackend.ensureSubscription
  split
  · exact h
  · exact h.createSubscription r

/-! ## Activating items -/

section Activations

variable {items : List MonitorItem} {browseName : String} {a : Accessor} {h : List (Event V)}

/-- The activations of the items, with their flags. -/
def activations (items : List MonitorItem) : List (Event V) :=
  items.map fun item => .activated item.browseName item.hasException item.active

theorem findSome?_activations {f : Event V → Option Bool} {g : Bool → Bool} {signal : Bool}
    (hf : ∀ name flag was,
      f (.activated name flag was) = if name = browseName then some (g flag) else none)
    (hg : ∀ item ∈ items, item.browseName = browseName → g item.hasException = signal) :
    (activations items ++ h).findSome? f
      = if browseName ∈ items.map (·.browseName) then some signal else h.findSome? f := by
  induction items with
  | nil => simp [activations]
  | cons item items ih =>
    show List.findSome? f (.activated item.browseName item.hasException item.active ::
      (activations items ++ h)) = _
    rw [List.findSome?_cons, hf, ih fun item' hmem => hg item' (List.mem_cons_of_mem _ hmem)]
    by_cases hn : item.browseName = browseName
    · simp [hn, hg item (List.mem_cons_self ..) hn]
    · have hn' : browseName ≠ item.browseName := Ne.symm hn
      simp [hn, hn']

theorem notified_activations : Notified browseName a (activations items ++ h) ↔
    browseName ∉ items.map (·.browseName) ∧ Notified browseName a h := by
  unfold Notified
  rw [findSome?_activations (fun _ _ _ => rfl) fun _ _ _ => rfl]
  split <;> simp_all

theorem hidden_activations (flag : Bool)
    (hflag : ∀ item ∈ items, item.browseName = browseName → item.hasException = flag) :
    Hidden browseName a (activations items ++ h) ↔
      if browseName ∈ items.map (·.browseName) then flag = true else Hidden browseName a h := by
  unfold Hidden
  rw [findSome?_activations (g := id) (fun _ _ _ => rfl) hflag]
  split <;> simp

/-- Activations push nothing. -/
theorem pending_activations : Pending a (activations items ++ h) ↔ Pending a h := by
  unfold Pending
  rw [List.findSome?_append, List.findSome?_eq_none_iff.mpr, Option.none_or]
  intro e he
  obtain ⟨item, -, rfl⟩ := List.mem_map.mp he
  rfl

theorem subscribed_activations :
    Subscribed browseName a (activations items ++ h) ↔ Subscribed browseName a h := by
  unfold Subscribed
  rw [List.mem_append]
  refine or_iff_right fun hmem => ?_
  obtain ⟨item, -, hitem⟩ := List.mem_map.mp hmem
  cases hitem

end Activations

/-- Activating items. Where the flag of an item is set, exceptions are hidden from its accessors
from then on. -/
theorem Alert.activated (h : Alert w) (items : List MonitorItem) (hsub : items ⊆ w.items.elems)
    (hnames : w'.items.elems.map (·.browseName) = w.items.elems.map (·.browseName))
    (hitems : ∀ item' ∈ w'.items.elems, ∃ item ∈ w.items.elems,
      item'.browseName = item.browseName ∧ item'.accessors = item.accessors ∧
      item'.hasException = item.hasException ∧
      (item'.active = true → item ∈ items ∨ item.active = true))
    (hhist : w'.history = activations items ++ w.history) : Alert w' := by
  -- items have distinct names, so an item with the name of an activated one is it
  have hin : ∀ item ∈ w.items.elems, item.browseName ∈ items.map (·.browseName) ↔ item ∈ items := by
    intro item hitem
    constructor
    · intro hname
      obtain ⟨other, hother, hname⟩ := List.mem_map.mp hname
      exact List.inj_on_of_nodup_map h.names (hsub hother) hitem hname ▸ hother
    · exact List.mem_map_of_mem
  -- an activation withdraws what was notified before it ...
  have hnotified : ∀ item ∈ w.items.elems, ∀ a, Notified item.browseName a w'.history ↔
      item ∉ items ∧ Notified item.browseName a w.history := by
    intro item hitem a
    rw [hhist, notified_activations, hin item hitem]
  -- ... and hides the exception when the flag is set
  have hhidden : ∀ item ∈ w.items.elems, ∀ a, Hidden item.browseName a w'.history ↔
      if item ∈ items then item.hasException = true
      else Hidden item.browseName a w.history := by
    intro item hitem a
    rw [hhist, hidden_activations item.hasException]
    · simp only [hin item hitem]
    · intro other hother hname
      rw [List.inj_on_of_nodup_map h.names (hsub hother) hitem hname]
  refine ⟨hnames ▸ h.names, ?distinct, ?subscribed, ?once, ?heard, ?flagged, ?apart, ?pending,
    ?repeated⟩
  case distinct =>
    intro item' hmem
    obtain ⟨item, hitem, -, hacc, -⟩ := hitems item' hmem
    exact hacc ▸ h.distinct item hitem
  case subscribed =>
    intro item' hmem a ha
    obtain ⟨item, hitem, hname, hacc, -⟩ := hitems item' hmem
    rw [hhist, subscribed_activations, hname]
    exact h.subscribed item hitem a (hacc ▸ ha)
  case once =>
    intro a name name' hn hn'
    rw [hhist, subscribed_activations] at hn hn'
    exact h.once a name name' hn hn'
  case heard =>
    intro item' hmem hact hex a ha
    obtain ⟨item, hitem, hname, hacc, hflag, hold⟩ := hitems item' hmem
    rw [hname, hnotified item hitem, hhidden item hitem]
    by_cases hnew : item ∈ items
    · rw [if_pos hnew]
      exact .inr (hflag ▸ hex)
    · rw [if_neg hnew]
      have hheard := h.heard item hitem ((hold hact).resolve_left hnew) (hflag ▸ hex) a (hacc ▸ ha)
      exact hheard.imp (fun hn => ⟨hnew, hn⟩) id
  case flagged =>
    intro item' hmem a ha hp
    obtain ⟨item, hitem, hname, hacc, hflag, -⟩ := hitems item' hmem
    rw [hname, hnotified item hitem, hhidden item hitem] at hp
    by_cases hnew : item ∈ items
    · rw [if_pos hnew] at hp
      exact hflag.trans (hp.resolve_left fun hn => hn.1 hnew)
    · rw [if_neg hnew] at hp
      exact hflag.trans (h.flagged item hitem a (hacc ▸ ha) (hp.imp And.right id))
  case apart =>
    intro item' hmem a ha hhid
    obtain ⟨item, hitem, hname, hacc, -, -⟩ := hitems item' hmem
    rw [hname, hhidden item hitem] at hhid
    rw [hname, hnotified item hitem]
    rintro ⟨hold, hn⟩
    rw [if_neg hold] at hhid
    exact h.apart item hitem a (hacc ▸ ha) hhid hn
  case pending =>
    intro item' hmem a ha hp
    obtain ⟨item, hitem, -, hacc, hflag, -⟩ := hitems item' hmem
    rw [hhist, pending_activations] at hp
    exact hflag.trans (h.pending item hitem a (hacc ▸ ha) hp)
  case repeated =>
    have hx : Extends (fun e => ∃ name flag was, e = .activated name flag was)
        w.history w'.history := by
      refine ⟨activations items, hhist, fun e he => ?_⟩
      obtain ⟨item, -, hitem⟩ := List.mem_map.mp he
      exact ⟨_, _, _, hitem.symm⟩
    refine h.repeated.extend hx ?_
    rintro past _ ⟨name, flag, was, rfl⟩
    trivial

/-- An item after a modification of the `i`-th one. -/
theorem modify_cases {items : SlotDeque MonitorItem} {f : MonitorItem → MonitorItem} {i : Nat}
    {item item' : MonitorItem} (hitem : items.elems[i]? = some item)
    (hmem : item' ∈ (items.modify i f).elems) :
    item' = f item ∨ item' ∈ items.elems := by
  obtain ⟨j, hj⟩ := List.mem_iff_getElem?.mp hmem
  by_cases hji : j = i
  · subst hji
    rw [SlotDeque.getElem?_modify_self _ _ hitem, Option.some_inj] at hj
    exact .inl hj.symm
  · rw [SlotDeque.getElem?_modify_of_ne _ _ hji] at hj
    exact .inr (List.mem_of_getElem? hj)

theorem Alert.activateItem (h : Alert w) (i : Nat) : Alert (activateItem i w) := by
  unfold OpcUaBackend.activateItem
  split
  · exact h
  · rename_i item hitem
    have hmem := List.mem_of_getElem? hitem
    have hnames : (w.items.modify i fun item => { item with active := true }).elems.map
        (·.browseName) = w.items.elems.map (·.browseName) :=
      SlotDeque.map_elems_modify _ _ fun _ => rfl
    refine h.activated [item] (by simpa using hmem) hnames (fun item' hmem' => ?_) rfl
    rcases modify_cases hitem hmem' with rfl | hold
    · exact ⟨item, hmem, rfl, rfl, rfl, fun _ => .inl (List.mem_singleton_self _)⟩
    · exact ⟨item', hold, rfl, rfl, rfl, .inr⟩

theorem Alert.activateItems (h : Alert w) : Alert (activateItems w) := by
  refine h.activated w.items.elems.reverse ?_ ?_ ?_ ?_
  · exact fun item hmem => List.mem_reverse.mp hmem
  · simp [OpcUaBackend.activateItems]
  · intro item' hmem
    simp only [OpcUaBackend.activateItems, SlotDeque.elems_map, List.mem_map] at hmem
    obtain ⟨item, hitem, rfl⟩ := hmem
    exact ⟨item, hitem, rfl, rfl, rfl, fun _ => .inl (List.mem_reverse.mpr hitem)⟩
  · simp [OpcUaBackend.activateItems, activations, List.map_reverse]

/-! ## Adding monitored items -/

theorem Alert.activateIfAsync (h : Alert w) (i : Nat) : Alert (activateIfAsync i w) := by
  unfold OpcUaBackend.activateIfAsync
  split
  · exact h.activateItem i
  · exact h

theorem Alert.monitoringAnswered (h : Alert w) (i : Nat) (browseName : String)
    (result : MonitoredItemCreateResult) : Alert (monitoringAnswered i browseName result w) := by
  unfold OpcUaBackend.monitoringAnswered
  split
  · have hmod := h.modify_items i (f := MonitorItem.monitor result.monitoredItemId)
      fun _ => ⟨rfl, List.Sublist.refl _, rfl, id⟩
    exact hmod.of_items rfl (.refl _)
  · exact h.handleException _

theorem Alert.addMonitoredItem (h : Alert w) (reply : Reply V MonitoredItemCreateResult)
    (i : Nat) : Alert (addMonitoredItem reply i w) := by
  have hact := h.activateIfAsync i
  rcases addMonitoredItem_cases w reply i with ⟨he, -⟩ | ⟨he, -⟩ | ⟨item, first, -, -, -, he⟩
  · exact he ▸ hact
  · exact he ▸ hact.of_items rfl (.refl _)
  · have hcall := hact.libraryCall (e := .createDataChange
      (monitoringRequest (OpcUaBackend.activateIfAsync i w) item first) reply.result) rfl
      reply.callbacks
    exact he ▸ hcall.monitoringAnswered i item.browseName reply.result

theorem Alert.addMonitoredItems (h : Alert w)
    (replies : Nat → Reply V MonitoredItemCreateResult) :
    Alert (addMonitoredItems replies w) := by
  unfold OpcUaBackend.addMonitoredItems
  generalize List.range w.items.size = is
  induction is generalizing w with
  | nil => exact h
  | cons i is ih => exact ih (h.addMonitoredItem (replies i) i)

theorem Alert.andThen {r : Result V} {f : World V → Result V} (hr : Alert r.world)
    (hf : ∀ w, Alert w → Alert (f w).world) : Alert (r.andThen f).world := by
  cases r with
  | returned w => exact hf w hr
  | threw message w => exact hr

theorem Alert.prepare (h : Alert w) (r : Replies V) : Alert (prepare r w).world :=
  (h.createSubscription r).andThen fun _ hw => hw.addMonitoredItems _

theorem Alert.activate (h : Alert w) (r : Replies V) : Alert (activate r w).world := by
  refine (h.ensureSubscription r).andThen fun w hw => ?_
  have hset : Alert { w with asyncReadActive := true } := hw.of_items rfl (.refl _)
  show Alert (activateSubscribed r w)
  unfold activateSubscribed
  simp only
  split
  · exact hset.addMonitoredItems _
  · exact hset.activateItems

/-! ## The client thread -/

theorem Alert.clientStep (h : Alert w) (iterate removal : Reply V UA_StatusCode) :
    Alert (clientStep iterate removal w) := by
  have hrun := h.runCallbacks iterate.callbacks
  unfold OpcUaBackend.clientStep
  split
  · exact h.of_items rfl (.refl _)
  · simp only
    split
    · exact hrun.of_items rfl (.refl _)
    · split <;> exact hrun.of_items rfl (.refl _)
  · split
    · exact (h.removeSubscription removal).of_items rfl (.refl _)
    · exact h.of_items rfl (.refl _)
  · exact h.of_items rfl (.refl _)
  · exact h
  · exact h

theorem Alert.stopClientThread (h : Alert w)
    (steps : List (Reply V UA_StatusCode × Reply V UA_StatusCode)) :
    Alert (stopClientThread steps w) := by
  induction steps generalizing w with
  | nil =>
    unfold OpcUaBackend.stopClientThread
    split
    · exact h
    · exact h.of_items rfl (.refl _)
    · exact h.of_items rfl (.refl _)
  | cons step steps ih =>
    unfold OpcUaBackend.stopClientThread
    split
    · exact h
    · exact h.of_items rfl (.refl _)
    · exact ih (h.clientStep _ _)

theorem Alert.start (h : Alert w) : Alert (start w) := by
  unfold OpcUaBackend.start
  split
  · split <;> exact h.of_items rfl (.refl _)
  · exact h.of_items rfl (.refl _)

/-! ## Accessors -/

/-- The event subscribes the accessor. -/
def Event.subscribes (a : Accessor) : Event V → Bool
  | .subscribed b _ => b == a
  | _ => false

/-- The accessor was never subscribed. -/
def FreshAccessor (a : Accessor) (h : List (Event V)) : Prop := ∀ e ∈ h, e.subscribes a = false

instance (a : Accessor) (h : List (Event V)) : Decidable (FreshAccessor a h) := by
  unfold FreshAccessor; infer_instance

theorem FreshAccessor.not_subscribed {a : Accessor} {h : List (Event V)}
    (hfresh : FreshAccessor a h) (name : String) : ¬ Subscribed name a h := by
  intro hsub
  have hno := hfresh _ hsub
  simp [Event.subscribes] at hno

/-- The accessor was subscribed, and nothing has happened to it since. -/
structure Unaware (a : Accessor) (h : List (Event V)) : Prop where
  notified : ∀ name, ¬ Notified name a h
  hidden : ∀ name, ¬ Hidden name a h
  pending : ¬ Pending a h

theorem subscribed_record {a b : Accessor} {browseName name : String}
    (hs : Subscribed name b (w.record (.subscribed a browseName)).history) :
    (b = a ∧ name = browseName) ∨ Subscribed name b w.history := by
  rcases List.mem_cons.mp hs with heq | hs
  · obtain ⟨rfl, rfl⟩ := Event.subscribed.inj heq
    exact .inl ⟨rfl, rfl⟩
  · exact .inr hs

/-- Accessors stay subscribed for one item each when a new one is. -/
theorem FreshAccessor.once_record {a b : Accessor} {browseName name name' : String}
    (hfresh : FreshAccessor a w.history)
    (honce : ∀ b name name', Subscribed name b w.history → Subscribed name' b w.history →
      name = name')
    (hs : Subscribed name b (w.record (.subscribed a browseName)).history)
    (hs' : Subscribed name' b (w.record (.subscribed a browseName)).history) : name = name' := by
  rcases subscribed_record hs with ⟨rfl, rfl⟩ | hold
  · rcases subscribed_record hs' with ⟨-, rfl⟩ | hold'
    · rfl
    · exact absurd hold' (hfresh.not_subscribed name')
  · rcases subscribed_record hs' with ⟨rfl, rfl⟩ | hold'
    · exact absurd hold (hfresh.not_subscribed name)
    · exact honce b name name' hold hold'

/-- Noting that a new accessor is subscribed. -/
theorem Alert.recordSubscribed (h : Alert w) {a : Accessor} (hfresh : FreshAccessor a w.history)
    (browseName : String) : Alert (w.record (.subscribed a browseName)) := by
  -- the accessors of the items are others
  have hne : ∀ item ∈ w.items.elems, ∀ b ∈ item.accessors, a ≠ b := by
    rintro item hitem b hb rfl
    exact hfresh.not_subscribed _ (h.subscribed item hitem a hb)
  have hnotified : ∀ {name b}, a ≠ b → (Notified name b
      (w.record (.subscribed a browseName)).history ↔ Notified name b w.history) := by
    intro name b hb
    simp [World.record, Notified, Event.alert, Event.news, hb]
  have hhidden : ∀ {name b}, a ≠ b → (Hidden name b
      (w.record (.subscribed a browseName)).history ↔ Hidden name b w.history) := by
    intro name b hb
    simp [World.record, Hidden, Event.hides, hb]
  refine ⟨h.names, h.distinct, ?subscribed, ?once, ?heard, ?flagged, ?apart, ?pending,
    ?repeated⟩
  case subscribed =>
    exact fun item hitem b hb => List.mem_cons_of_mem _ (h.subscribed item hitem b hb)
  case once =>
    intro b name name' hn hn'
    exact hfresh.once_record h.once hn hn'
  case heard =>
    intro item hitem hact hex b hb
    rw [hnotified (hne item hitem b hb), hhidden (hne item hitem b hb)]
    exact h.heard item hitem hact hex b hb
  case flagged =>
    intro item hitem b hb
    rw [hnotified (hne item hitem b hb), hhidden (hne item hitem b hb)]
    exact h.flagged item hitem b hb
  case apart =>
    intro item hitem b hb
    rw [hnotified (hne item hitem b hb), hhidden (hne item hitem b hb)]
    exact h.apart item hitem b hb
  case pending =>
    intro item hitem b hb hp
    refine h.pending item hitem b hb ?_
    simpa [World.record, Pending, Event.news, hne item hitem b hb] using hp
  case repeated =>
    exact ⟨trivial, h.repeated⟩

theorem unaware_record (w : World V) (a : Accessor) (browseName : String) :
    Unaware a (w.record (.subscribed a browseName)).history := by
  refine ⟨fun name => ?_, fun name => ?_, ?_⟩
  · simp [World.record, Notified, Event.alert, Event.news]
  · simp [World.record, Hidden, Event.hides]
  · simp [World.record, Pending, Event.news]

/-- A new item for a new accessor. -/
theorem Alert.pushBack (h : Alert w) {browseName : String} {a : Accessor} (node : UA_NodeId)
    (hname : ∀ other ∈ w.items.elems, other.browseName ≠ browseName)
    (hsub : Subscribed browseName a w.history) (hnew : Unaware a w.history) :
    Alert { w with
      items := w.items.pushBack { node := node, accessors := [a], browseName := browseName } } := by
  have hmem : ∀ item' ∈ (w.items.pushBack
      { node := node, accessors := [a], browseName := browseName }).elems,
      item' ∈ w.items.elems ∨
        item' = { node := node, accessors := [a], browseName := browseName } := by
    intro item' hitem'
    simpa using hitem'
  refine ⟨?names, ?distinct, ?subscribed, h.once, ?heard, ?flagged, ?apart, ?pending,
    h.repeated⟩
  case names =>
    simp only [SlotDeque.elems_pushBack, List.map_append, List.map_cons, List.map_nil]
    refine List.Nodup.append h.names (List.nodup_singleton _) ?_
    simpa [List.Disjoint] using hname
  case distinct =>
    intro item' hitem'
    rcases hmem item' hitem' with hold | rfl
    · exact h.distinct item' hold
    · exact List.nodup_singleton _
  case subscribed =>
    intro item' hitem' b hb
    rcases hmem item' hitem' with hold | rfl
    · exact h.subscribed item' hold b hb
    · obtain rfl := List.mem_singleton.mp hb
      exact hsub
  case heard =>
    intro item' hitem' hact hex b hb
    rcases hmem item' hitem' with hold | rfl
    · exact h.heard item' hold hact hex b hb
    · cases hact
  case flagged =>
    intro item' hitem' b hb hp
    rcases hmem item' hitem' with hold | rfl
    · exact h.flagged item' hold b hb hp
    · obtain rfl := List.mem_singleton.mp hb
      exact absurd hp (not_or.mpr ⟨hnew.notified _, hnew.hidden _⟩)
  case apart =>
    intro item' hitem' b hb hhid
    rcases hmem item' hitem' with hold | rfl
    · exact h.apart item' hold b hb hhid
    · obtain rfl := List.mem_singleton.mp hb
      exact absurd hhid (hnew.hidden _)
  case pending =>
    intro item' hitem' b hb hp
    rcases hmem item' hitem' with hold | rfl
    · exact h.pending item' hold b hb hp
    · obtain rfl := List.mem_singleton.mp hb
      exact absurd hp hnew.pending

/-- A new accessor joins an item whose flag is clear while it is active. -/
theorem Alert.addAccessor (h : Alert w) {i : Nat} {item : MonitorItem} {a : Accessor}
    (hitem : w.items.elems[i]? = some item) (hsub : Subscribed item.browseName a w.history)
    (hout : a ∉ item.accessors) (hnew : Unaware a w.history)
    (hclear : item.active = true → item.hasException = false) :
    Alert { w with
      items := w.items.modify i fun item =>
        { item with accessors := item.accessors ++ [a] } } := by
  have hold := List.mem_of_getElem? hitem
  have hnames := SlotDeque.map_elems_modify w.items i
    (f := fun item => { item with accessors := item.accessors ++ [a] })
    (g := MonitorItem.browseName) fun _ => rfl
  refine ⟨(congrArg List.Nodup hnames).mpr h.names, ?distinct, ?subscribed, h.once, ?heard,
    ?flagged, ?apart, ?pending, h.repeated⟩
  case distinct =>
    intro item' hmem
    rcases modify_cases hitem hmem with rfl | hmem
    · refine List.Nodup.append (h.distinct item hold) (List.nodup_singleton _) ?_
      simpa [List.Disjoint] using fun b hb (he : b = a) => hout (he ▸ hb)
    · exact h.distinct item' hmem
  case subscribed =>
    intro item' hmem b hb
    rcases modify_cases hitem hmem with rfl | hmem
    · rcases List.mem_append.mp hb with hb | hb
      · exact h.subscribed item hold b hb
      · obtain rfl := List.mem_singleton.mp hb
        exact hsub
    · exact h.subscribed item' hmem b hb
  case heard =>
    intro item' hmem hact hex b hb
    rcases modify_cases hitem hmem with rfl | hmem
    · exact absurd hex (by simp [hclear hact])
    · exact h.heard item' hmem hact hex b hb
  case flagged =>
    intro item' hmem b hb hp
    rcases modify_cases hitem hmem with rfl | hmem
    · rcases List.mem_append.mp hb with hb | hb
      · exact h.flagged item hold b hb hp
      · obtain rfl := List.mem_singleton.mp hb
        exact absurd hp (not_or.mpr ⟨hnew.notified _, hnew.hidden _⟩)
    · exact h.flagged item' hmem b hb hp
  case apart =>
    intro item' hmem b hb hhid
    rcases modify_cases hitem hmem with rfl | hmem
    · rcases List.mem_append.mp hb with hb | hb
      · exact h.apart item hold b hb hhid
      · obtain rfl := List.mem_singleton.mp hb
        exact absurd hhid (hnew.hidden _)
    · exact h.apart item' hmem b hb hhid
  case pending =>
    intro item' hmem b hb hp
    rcases modify_cases hitem hmem with rfl | hmem
    · rcases List.mem_append.mp hb with hb | hb
      · exact h.pending item hold b hb hp
      · obtain rfl := List.mem_singleton.mp hb
        exact absurd hp hnew.pending
    · exact h.pending item' hmem b hb hp

/-- The initial value of a new accessor is a data value. -/
theorem Alert.pushInitialValue (h : Alert w) (front : Option (DataValue V)) (tmp : Accessor)
    {item : MonitorItem} {a : Accessor} (hitem : item ∈ w.items.elems) (ha : a ∈ item.accessors)
    (hclear : item.active = true → item.hasException = false) :
    Alert (pushInitialValue front tmp a w).world := by
  have hpush : ∀ data : DataValue V, Alert
      (if data.hasValue then Result.returned (w.push (.data data) a) else .returned w).world := by
    intro data
    split
    · refine h.pushed (.data data) [a] rfl ?_ rfl (List.nodup_singleton _) ?_
      · intro item' hmem
        refine ⟨item', hmem, rfl, rfl, fun hact hex b hb => ?_, fun b _ hin => ?_⟩
        · split
          · rename_i hin
            obtain rfl := List.mem_singleton.mp hin
            obtain rfl := h.item_unique hmem hitem hb ha
            simp [hclear hact] at hex
          · exact ⟨hact, hex⟩
        · split at hin
          · cases hin
          · exact hin
      · intro b hb
        obtain rfl := List.mem_singleton.mp hb
        exact ⟨item, hitem, ha, fun hex => by cases hex⟩
    · exact h
  unfold OpcUaBackend.pushInitialValue
  simp only
  split
  · exact hpush _
  · exact hpush _
  · split
    · exact h.of_items rfl (.refl _)
    · exact hpush _

/-- A new accessor for an item whose flag is clear while it is active. -/
theorem Alert.subscribe (h : Alert w) (r : Replies V) (browseName : String)
    (node : UA_NodeId) {a : Accessor} (hfresh : FreshAccessor a w.history)
    (hclear : ∀ found ∈ w.find? browseName, found.2.active = true →
      found.2.hasException = false) :
    Alert (subscribe r browseName node a w).world := by
  have h₀ := h.recordSubscribed hfresh browseName
  have hsub : Subscribed browseName a (w.record (.subscribed a browseName)).history :=
    List.mem_cons_self ..
  have hnew := unaware_record w a browseName
  unfold OpcUaBackend.subscribe
  simp only
  split
  · rename_i hfind
    have hback := h₀.pushBack node (World.find?_eq_none hfind) hsub hnew
    split
    · exact (hback.ensureSubscription r).andThen fun _ hw => hw.addMonitoredItems _
    · exact hback
  · rename_i i item hfind
    obtain ⟨hitem, rfl⟩ := World.find?_eq_some hfind
    have hmem : item ∈ w.items.elems := List.mem_of_getElem? hitem
    have hout : a ∉ item.accessors := fun ha =>
      hfresh.not_subscribed _ (h.subscribed item hmem a ha)
    split
    · exact h₀.of_items rfl (.refl _)
    · have hadd := h₀.addAccessor hitem hsub hout hnew (hclear (i, item) hfind)
      have hself := SlotDeque.getElem?_modify_self w.items
        (fun item => { item with accessors := item.accessors ++ [a] }) hitem
      split
      · exact hadd.pushInitialValue _ _ (List.mem_of_getElem? hself) (by simp)
          (hclear (i, item) hfind)
      · exact hadd

theorem Alert.eraseItem (h : Alert w) (i : Nat) :
    Alert { w with items := w.items.erase i } := by
  refine h.quiet ((List.eraseIdx_sublist _ _).map _) (fun item hmem => ?_) (.refl _)
  exact ⟨item, List.mem_of_mem_eraseIdx hmem, .refl item⟩

theorem Alert.unsubscribe (h : Alert w) (r : Replies V) (browseName : String) (a : Accessor) :
    Alert (unsubscribe r browseName a w) := by
  unfold OpcUaBackend.unsubscribe
  split
  · exact h
  · rename_i i item hfind
    split
    · split
      · exact h.modify_items i (f := fun item => { item with accessors := item.accessors.erase a })
          fun item => ⟨rfl, List.erase_sublist, rfl, id⟩
      · exact h.of_items rfl (.refl _)
    · have hrem : Alert { w with
          subscriptionMap := w.subscriptionMap.erase item.id
          items := w.items.erase i } := (h.eraseItem i).of_items rfl (.refl _)
      simp only
      split
      · -- the deletion of the monitored item, and perhaps of the subscription
        unfold unsubscribeItem
        have hdel := hrem.libraryCall (e := .deleteMonitoredItem w.subscriptionID item.id browseName
          r.deleteMonitoredItem.result) rfl r.deleteMonitoredItem.callbacks
        simp only
        split
        · refine Alert.stopClientThread ?_ _
          exact (hdel.removeSubscription r.subscriptionsDelete).of_items rfl (.refl _)
        · exact hdel
      · exact hrem

/-- An accessor that reads or writes on its own learns of no exception by that alone. -/
theorem Alert.ownTransfer (h : Alert w) (a : Accessor) (data : DataValue V) :
    Alert (ownTransfer a data w) := by
  have hrepeated : Along Event.NotRepeated (.transferred a :: w.history) := ⟨trivial, h.repeated⟩
  exact ⟨h.names, h.distinct,
    fun item hitem b hb => List.mem_cons_of_mem _ (h.subscribed item hitem b hb),
    fun b name name' hn hn' => h.once b name name' ((List.mem_cons.mp hn).resolve_left (by simp))
      ((List.mem_cons.mp hn').resolve_left (by simp)),
    h.heard, h.flagged, h.apart, h.pending, hrepeated⟩

/-- The report of a failed transfer hides exceptions from the other accessors of the item, when
its flag was clear. -/
theorem Alert.setExternalError (h : Alert w) (browseName : String) (reporter : Accessor) :
    Alert (setExternalError browseName reporter w) := by
  unfold OpcUaBackend.setExternalError
  split
  · exact h
  · rename_i i item hfind
    obtain ⟨hitem, rfl⟩ := World.find?_eq_some hfind
    have hold : item ∈ w.items.elems := List.mem_of_getElem? hitem
    have hnames := SlotDeque.map_elems_modify w.items i
      (f := fun item => { item with hasException := true })
      (g := MonitorItem.browseName) fun _ => rfl
    let w' := World.record (.reported reporter item.browseName item.hasException)
      { w with items := w.items.modify i fun item => { item with hasException := true } }
    -- the reporter alone is notified
    have hnotified : ∀ name b, Notified name b w'.history ↔
        (reporter = b ∧ item.browseName = name) ∨ Notified name b w.history := by
      intro name b
      by_cases hb : reporter = b ∧ item.browseName = name <;>
        simp [w', World.record, Notified, Event.alert, hb]
    -- other items have other names
    have hother : ∀ {name}, item.browseName ≠ name → ∀ b,
        (Hidden name b w'.history ↔ Hidden name b w.history) := by
      intro name hname b
      simp [w', World.record, Hidden, Event.hides, hname]
    -- from the other accessors of the item the exception is hidden, if it was not raised before
    have hhidden : ∀ b, Hidden item.browseName b w'.history ↔ reporter ≠ b ∧
        (item.hasException = true → Hidden item.browseName b w.history) := by
      intro b
      by_cases hb : reporter = b <;> cases hex : item.hasException <;>
        simp [w', World.record, Hidden, Event.hides, hb, hex]
    -- the item is changed in its slot, the others are as they were
    have hcases : ∀ item' ∈ w'.items.elems, item' = { item with hasException := true } ∨
        item' ∈ w.items.elems ∧ item.browseName ≠ item'.browseName := by
      intro item' hmem
      obtain ⟨j, hj⟩ := List.mem_iff_getElem?.mp hmem
      by_cases hji : j = i
      · subst hji
        have hself := SlotDeque.getElem?_modify_self w.items
          (fun item => { item with hasException := true }) hitem
        exact .inl (Option.some_inj.mp (hj.symm.trans hself))
      · have hne := SlotDeque.getElem?_modify_of_ne w.items
          (fun item => { item with hasException := true }) hji
        have hj' : w.items.elems[j]? = some item' := hne.symm.trans hj
        exact .inr ⟨List.mem_of_getElem? hj', fun hn => hji (index_inj h.names hj' hitem hn.symm)⟩
    show Alert w'
    refine ⟨(congrArg List.Nodup hnames).mpr h.names, ?distinct, ?subscribed, ?once, ?heard,
      ?flagged, ?apart, ?pending, ⟨trivial, h.repeated⟩⟩
    case distinct =>
      intro item' hmem
      rcases hcases item' hmem with rfl | ⟨hmem, -⟩
      · exact h.distinct item hold
      · exact h.distinct item' hmem
    case subscribed =>
      intro item' hmem b hb
      rcases hcases item' hmem with rfl | ⟨hmem, -⟩
      · exact List.mem_cons_of_mem _ (h.subscribed item hold b hb)
      · exact List.mem_cons_of_mem _ (h.subscribed item' hmem b hb)
    case once =>
      intro a name name' hn hn'
      exact h.once a name name' ((List.mem_cons.mp hn).resolve_left (by simp))
        ((List.mem_cons.mp hn').resolve_left (by simp))
    case heard =>
      intro item' hmem hact hex b hb
      rcases hcases item' hmem with rfl | ⟨hmem, hname⟩
      · by_cases hrep : reporter = b
        · exact .inl ((hnotified _ b).mpr (.inl ⟨hrep, rfl⟩))
        · by_cases hset : item.hasException = true
          · rcases h.heard item hold hact hset b hb with hn | hhid
            · exact .inl ((hnotified _ b).mpr (.inr hn))
            · exact .inr ((hhidden b).mpr ⟨hrep, fun _ => hhid⟩)
          · exact .inr ((hhidden b).mpr ⟨hrep, fun hset' => absurd hset' hset⟩)
      · rw [hnotified, hother hname]
        exact (h.heard item' hmem hact hex b hb).imp .inr id
    case flagged =>
      intro item' hmem b hb hp
      rcases hcases item' hmem with rfl | ⟨hmem, hname⟩
      · rfl
      · rw [hnotified, hother hname] at hp
        exact h.flagged item' hmem b hb (hp.imp (·.resolve_left fun hr => hname hr.2) id)
    case apart =>
      intro item' hmem b hb hhid hn
      rcases hcases item' hmem with rfl | ⟨hmem, hname⟩
      · obtain ⟨hrep, hset⟩ := (hhidden b).mp hhid
        have hn' := ((hnotified _ b).mp hn).resolve_left fun hr => hrep hr.1
        -- an accessor that was told has its item's flag set
        have hflag := h.flagged item hold b hb (.inl hn')
        exact h.apart item hold b hb (hset hflag) hn'
      · have hn' := ((hnotified _ b).mp hn).resolve_left fun hr => hname hr.2
        exact h.apart item' hmem b hb ((hother hname b).mp hhid) hn'
    case pending =>
      intro item' hmem b hb hp
      rcases hcases item' hmem with rfl | ⟨hmem, -⟩
      · rfl
      · exact h.pending item' hmem b hb hp

/-! ## The functions of the backend -/

theorem Alert.resetClient (h : Alert w) (r : Replies V) : Alert (resetClient r w) := by
  have hdeact : Alert (OpcUaBackend.deactivate (OpcUaBackend.removeSubscription
      r.subscriptionsDelete) w) := h.deactivate fun h => h.removeSubscription _
  unfold OpcUaBackend.resetClient
  simp only
  split
  · exact (hdeact.resetMonitoredItems.stopClientThread _).runCallbacks _
  · exact h.runCallbacks _

theorem Alert.connect (h : Alert w) (reset r : Replies V) : Alert (connect reset r w).world := by
  have hconn := (h.resetClient reset).runCallbacks r.connect.callbacks
  unfold OpcUaBackend.connect
  simp only
  split
  · split
    · exact hconn.prepare r
    · exact hconn
  · exact hconn

theorem Alert.openDevice (h : Alert w) (stop reset r : Replies V) :
    Alert (openDevice stop reset r w).world := by
  unfold OpcUaBackend.openDevice
  simp only
  refine Alert.andThen ?_ fun w hw => ?_
  · split
    · exact h
    · split
      · exact (h.stopClientThread _).connect reset r
      · exact h.connect reset r
  · split
    · exact hw.of_items rfl (.refl _)
    · exact hw

theorem Alert.activateAsyncRead (h : Alert w) (r : Replies V) : Alert (activateAsyncRead r w) := by
  have hset : Alert { w with subscriptionManager := true } := h.of_items rfl (.refl _)
  have hact := hset.activate r
  unfold OpcUaBackend.activateAsyncRead
  split
  · generalize OpcUaBackend.activate r { w with subscriptionManager := true } = result at hact
    cases result with
    | threw message w' => exact Alert.of_items (w := w') hact rfl (.refl _)
    | returned w' =>
      simp only
      split
      · exact Alert.start (w := w') hact
      · exact hact
  · exact h

theorem Alert.setException (h : Alert w) (r : Replies V) : Alert (setException r w) := by
  have hset : Alert { w with hasActiveException := true } := h.of_items rfl (.refl _)
  unfold OpcUaBackend.setException
  simp only
  split
  · exact hset.deactivateAllAndPushException (fun h => h.removeSubscription _) _
  · exact hset

/-! ## Every call -/

/-- An accessor is subscribed once, by its construction, and joins no active item whose flag is
set. -/
def JoinsClear (w : World V) (browseName : String) (a : Accessor) : Prop :=
  FreshAccessor a w.history ∧
    ∀ found ∈ w.find? browseName, found.2.active = true → found.2.hasException = false

instance (w : World V) (browseName : String) (a : Accessor) :
    Decidable (JoinsClear w browseName a) := by
  unfold JoinsClear; infer_instance

/-- The condition of `JoinsClear` on a call. -/
def Call.JoinsClear (w : World V) : Call V → Prop
  | .subscribe _ browseName _ a => OpcUaBackend.JoinsClear w browseName a
  | .constructAccessor _ browseName _ a => OpcUaBackend.JoinsClear w browseName a
  | _ => True

instance (w : World V) (c : Call V) : Decidable (c.JoinsClear w) := by
  apply @Call.casesOn V (fun c => Decidable (c.JoinsClear w)) c <;> intros <;>
    dsimp only [Call.JoinsClear] <;> infer_instance

theorem Alert.constructAccessor (h : Alert w) (r : Replies V) (browseName : String)
    (node : UA_NodeId) {a : Accessor} (hj : JoinsClear w browseName a) :
    Alert (constructAccessor r browseName node a w).world := by
  have hset : Alert { w with subscriptionManager := true } := h.of_items rfl (.refl _)
  refine (hset.subscribe r browseName node hj.1 hj.2).andThen fun w hw => ?_
  split
  · exact hw.start
  · exact hw

/-- **Every call** keeps the invariant. -/
theorem Alert.exec (h : Alert w) {c : Call V} (hj : c.JoinsClear w) : Alert (c.exec w).world := by
  cases c with
  | connect reset r => exact h.connect reset r
  | openDevice stop reset r => exact h.openDevice stop reset r
  | closeDevice r =>
    have hclosed : Alert { w with opened := false } := h.of_items rfl (.refl _)
    exact hclosed.resetClient r
  | activateAsyncRead r => exact h.activateAsyncRead r
  | setException r => exact h.setException r
  | constructAccessor r browseName node a => exact h.constructAccessor r browseName node hj
  | subscribe r browseName node a => exact h.subscribe r browseName node hj.1 hj.2
  | unsubscribe r browseName a => exact h.unsubscribe r browseName a
  | activate r => exact h.activate r
  | deactivate r => exact h.deactivate fun h => h.removeSubscription _
  | deactivateAllAndPushException r message =>
    exact h.deactivateAllAndPushException (fun h => h.removeSubscription _) message
  | setExternalError browseName reporter => exact h.setExternalError browseName reporter
  | prepare r => exact h.prepare r
  | createSubscription r => exact h.createSubscription r
  | addMonitoredItems r => exact h.addMonitoredItems _
  | resetMonitoredItems => exact h.resetMonitoredItems
  | removeSubscription r => exact h.removeSubscription _
  | start => exact h.start
  | stopClientThread r => exact h.stopClientThread _
  | clientStep iterate removal => exact h.clientStep iterate removal
  | popNotification a => exact h.of_items rfl (.refl _)
  | ownTransfer a data => exact h.ownTransfer a data
  | callbacks cs => exact h.runCallbacks cs

theorem Alert.fresh (h : World.Fresh w) : Alert w := by
  have hitems : w.items.elems = [] := by rw [h.items]
  refine ⟨by simp [hitems], by simp [hitems], by simp [hitems], ?_, by simp [hitems],
    by simp [hitems], by simp [hitems], by simp [hitems], by simp [h.history]⟩
  intro a name name' hn
  simp [Subscribed, h.history] at hn

theorem reach_alert (h : (calls V).Reach (fun w c => c.JoinsClear w) w) : Alert w := by
  refine h.invariant (fun _ => Alert.fresh) ?_
  rintro w c _ ih hj ⟨-, rfl, -⟩
  exact ih.exec hj

/-! ## A deactivated manager is silent -/

/-- Callbacks push nothing: the client is not to run, and the items of the map are inactive. -/
structure Silent (w : World V) : Prop where
  run : w.run = false
  inactive : ∀ p ∈ w.subscriptionMap.entries.map (·.2), ∀ item ∈ w.items.get? p,
    item.active = false

theorem Silent.responseHandler (h : Silent w) (monId : Nat) (value : DataValue V) :
    Silent (responseHandler monId value w) ∧
      (responseHandler monId value w).history = w.history := by
  unfold OpcUaBackend.responseHandler
  split
  · exact ⟨h, rfl⟩
  · rename_i p hl
    split
    · exact ⟨⟨h.run, h.inactive⟩, rfl⟩
    · rename_i item hp
      have hmem : p ∈ w.subscriptionMap.entries.map (·.2) :=
        List.mem_map.mpr ⟨⟨monId, p⟩, AList.mem_lookup_iff.mp hl, rfl⟩
      have hinactive := h.inactive p hmem item hp
      rw [if_neg (by simp [hinactive])]
      exact ⟨h, rfl⟩

theorem Silent.runCallbacks (cs : List (Callback V)) (h : Silent w) :
    (runCallbacks cs w).history = w.history := by
  induction cs generalizing w with
  | nil => rfl
  | cons c cs ih =>
    cases c with
    | state channelState sessionState =>
      have hstate : stateCallback channelState sessionState w
          = { w with channelState := channelState, sessionState := sessionState } := by
        simp [stateCallback, h.run]
      have hsilent : Silent (stateCallback channelState sessionState w) :=
        hstate ▸ ⟨h.run, h.inactive⟩
      exact (ih hsilent).trans (by rw [hstate])
    | inactivity subId =>
      have hstay : inactivityCallback subId w = w := by simp [inactivityCallback, h.run]
      have hsilent : Silent (inactivityCallback subId w) := hstay.symm ▸ h
      exact (ih hsilent).trans (by rw [hstay])
    | deleteSubscription subId => exact ih (w := setInactive w) ⟨h.run, h.inactive⟩
    | dataChange monId value =>
      have hhandler := h.responseHandler monId value
      exact (ih hhandler.1).trans hhandler.2

/-- After the loop of `deactivate` the targets of the map are inactive. -/
theorem silent_clearActive (w : World V) (active : Bool) :
    Silent { clearActive w with run := false, subscriptionActive := active } := by
  have hsilent : ∀ w₀ : World V, w₀.subscriptionMap = w.subscriptionMap → Silent { w₀ with
      items := w₀.items.mapSlots fun p item =>
        if p ∈ w.subscriptionMap.entries.map (·.2) then { item with active := false } else item
      run := false
      subscriptionActive := active } := by
    refine fun w₀ hmap => ⟨rfl, fun p hp item hitem => ?_⟩
    obtain ⟨i, rfl, hi⟩ := (SlotDeque.get?_eq_some _).mp hitem
    rw [SlotDeque.getElem?_mapSlots] at hi
    obtain ⟨old, -, rfl⟩ := Option.map_eq_some_iff.mp hi
    have hp' : w₀.items.slot i ∈ w.subscriptionMap.entries.map (·.2) := hmap ▸ hp
    rw [if_pos hp']
  unfold clearActive
  simp only
  split
  · exact hsilent w rfl
  · exact hsilent (w.fail .danglingPointer) rfl

theorem clearActive_history (w : World V) : (clearActive w).history = w.history := by
  unfold clearActive
  simp only
  split <;> rfl

/-- Deactivating pushes nothing. -/
theorem deactivate_remote (reply : Reply V UA_StatusCode) (w : World V) :
    Extends Event.Remote w.history (deactivate (removeSubscription reply) w).history := by
  have hhist := clearActive_history w
  unfold deactivate
  simp only
  split
  · split
    · exact hhist ▸ .refl _
    · -- the subscription is removed on the spot, and callbacks run inside that call
      let w₁ : World V := { clearActive w with run := false, subscriptionActive := false }
      let e : Event V := .subscriptionsDelete w₁.subscriptionID reply.result
      have hsilent : Silent (w₁.record e) := by
        have hs := silent_clearActive w false
        exact ⟨hs.run, hs.inactive⟩
      refine ⟨[e], ?_, by simp [e, Event.Remote, Event.isLocal]⟩
      exact (hsilent.runCallbacks reply.callbacks).trans (congrArg (e :: ·) hhist)
  · exact hhist ▸ .refl _

/-! ## Exception delivery -/

/-- **Exception delivery.** When every accessor joins an item whose flag is clear,
`deactivateAllAndPushException` leaves the accessors of the active items with an exception since
the latest activation, those excepted from which the item's flag hides exceptions; and an
exception is never repeated before a data value. -/
theorem reach_exceptions (h : (calls V).Reach (fun w c => c.JoinsClear w) w) :
    Along Event.NotRepeated w.history ∧
    ∀ (r : Replies V) (message : String), ∀ item ∈ w.items.elems, item.active = true →
      ∀ a ∈ item.accessors,
        Notified item.browseName a
          ((Call.deactivateAllAndPushException r message).exec w).world.history ↔
            ¬ Hidden item.browseName a w.history := by
  have halert := reach_alert h
  refine ⟨halert.repeated, fun r message item hitem hact a ha => ?_⟩
  have hquiet := deactivate_remote r.subscriptionsDelete (handleException message w)
  exact (notified_remote hquiet).trans (halert.told message hitem hact ha)

/-- A register is read asynchronously, a value arrives, the connection is lost and recovered. -/
def recovered : List (Call Nat) :=
  [.subscribe {} "a" ⟨1, .string "a"⟩ 10, .activate {},
    .callbacks [.dataChange 1 { value := some 7 }],
    .deactivateAllAndPushException {} "lost", .activate {}]

/-- As `recovered`, and a value arrives again. -/
def revived : List (Call Nat) := recovered ++ [.callbacks [.dataChange 1 { value := some 8 }]]

/-- The item of `recovered`. -/
def recoveredItem (hasException : Bool) : MonitorItem :=
  { node := ⟨1, .string "a"⟩, accessors := [10], id := 1, active := true, isMonitored := true,
    hasException := hasException, browseName := "a" }

/-- With a value after the recovery, the second loss is reported. -/
theorem reach_exceptions_revived :
    Notified "a" 10 ((Call.deactivateAllAndPushException {} "lost again").exec
      (Call.run {} revived)).world.history := by
  have hreach : (calls Nat).Reach (fun w c => c.JoinsClear w) (Call.run {} revived) :=
    reach_run revived (.init World.fresh_default) (by decide)
  have hdelivered := (reach_exceptions hreach).2 {} "lost again" (recoveredItem false)
    (by decide) rfl 10 (by decide)
  exact hdelivered.mpr (by decide)

/-- Without one it is not: the flag of the item survives its new activation. -/
theorem not_notified_recovered :
    ¬ ∀ (w : World Nat) (r : Replies Nat) (message : String), (calls Nat).Reachable w →
      ∀ item ∈ w.items.elems, item.active = true → ∀ a ∈ item.accessors,
        Notified item.browseName a
          ((Call.deactivateAllAndPushException r message).exec w).world.history := by
  intro h
  have hreach : (calls Nat).Reachable (Call.run {} recovered) :=
    reach_run recovered (.init World.fresh_default) (by decide)
  have hn := h _ {} "lost again" hreach (recoveredItem true) (by decide) rfl 10 (by decide)
  exact absurd hn (by decide)

/-- The item is not monitored, and is recovered outside of `subscriptionMap`. -/
def refusedTwice : List (Call Nat) :=
  let r : Replies Nat :=
    { createDataChange := fun _ => { result := ⟨⟨0x80340000, "BadNodeIdUnknown"⟩, 0⟩ } }
  [.subscribe {} "a" ⟨1, .string "a"⟩ 10, .activate r, .deactivateAllAndPushException {} "lost",
    .activate r]

-- the item stayed active, and its second activation finds the flag as well
example : Hidden "a" 10 (Call.run {} refusedTwice).history := by decide

end OpcUaBackend
