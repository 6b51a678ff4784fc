import OpcUaBackend.Manager.Exceptions
import OpcUaBackend.Manager.Membership

/-!
# The initial value of an additional accessor

An accessor that is added to an active item gets its initial value from the accessor that was
added last before it: the oldest notification in the queue of that accessor, or its data when
the queue is empty. The value that was delivered last for the item is what it gets when that
accessor has at most this one element in its queue, has neither lost it to an exception nor
overwritten it by a transfer of its own, and the value is one that survives the copying, which
leaves out values without a payload and resets the status.

## Main definitions

* `latestDelivery`, `deliveredBy`: the value delivered last for an item since its activation
* `SourceKnows`, `JoinsKnown`: the condition on the accessor the initial value is taken from
* `Informed`: every accessor of an active item was pushed the value delivered last, or an
  exception after it, and what was pushed last is in its queue or its data

## Main results

* `Informed.changes`, `Informed.exec`: what a change and a call keep
* `subscribe_newest`: the initial value in every run that meets the condition
-/

namespace OpcUaBackend

open Foundation Relation

variable {V : Type} {w w' : World V}

/-! ## Deliveries -/

/-- The notification, when it is pushed to the accessor. -/
def Event.pushedTo (a : Accessor) : Event V → Option (Notification V)
  | .pushed b n => if b = a then some n else none
  | _ => none

/-- The notification pushed last to the accessor. -/
def lastPushed (a : Accessor) (h : List (Event V)) : Option (Notification V) :=
  h.findSome? (Event.pushedTo a)

/-- The event subscribes the accessor under the name. -/
def Event.enrols (browseName : String) (a : Accessor) : Event V → Bool
  | .subscribed b name => b == a && name == browseName
  | _ => false

/-- What the event says of the value delivered last for an item since its activation: the value,
when it is pushed to an accessor that is subscribed under the name of the item, and none yet when
the item becomes active. -/
def Event.delivers (browseName : String) (h : List (Event V)) :
    Event V → Option (Option (DataValue V))
  | .pushed a (.data value) => if h.any (Event.enrols browseName a) then some (some value) else none
  | .activated name _ wasActive =>
    if name = browseName ∧ wasActive = false then some none else none
  | _ => none

/-- The values delivered last, for each name, after the events `es` at the end of the history `h`;
`latest` are those before. -/
def latestDelivery (h es : List (Event V)) (latest : String → Option (DataValue V)) :
    String → Option (DataValue V) :=
  fun browseName => (es.findSome? (Event.delivers browseName h)).getD (latest browseName)

/-- The events that `h'` has and `h` has not. -/
def newEvents (h h' : List (Event V)) : List (Event V) := h'.take (h'.length - h.length)

/-- The call adds an accessor to an item that is there. What it pushes is an initial value, and no
delivery. -/
def Call.addsTo (w : World V) : Call V → Bool
  | .constructAccessor _ browseName _ _ => (w.find? browseName).isSome
  | .subscribe _ browseName _ _ => (w.find? browseName).isSome
  | _ => false

/-- The values delivered last after a call. -/
def Call.delivered (w : World V) (latest : String → Option (DataValue V)) (c : Call V) :
    String → Option (DataValue V) :=
  if c.addsTo w then latest
  else latestDelivery (c.exec w).world.history
    (newEvents w.history (c.exec w).world.history) latest

/-- The values delivered last after a list of calls. -/
def deliveredBy : World V → (String → Option (DataValue V)) → List (Call V) →
    String → Option (DataValue V)
  | _, latest, [] => latest
  | w, latest, c :: cs => deliveredBy (c.exec w).world (c.delivered w latest) cs

section Deliveries

variable {browseName : String} {a : Accessor} {h h' es es' : List (Event V)}
  {latest : String → Option (DataValue V)}

theorem newEvents_append (es h : List (Event V)) : newEvents h (es ++ h) = es := by
  unfold newEvents
  rw [List.length_append, Nat.add_sub_cancel, List.take_left']
  rfl

theorem any_enrols : h.any (Event.enrols browseName a) = true ↔ Subscribed browseName a h := by
  rw [List.any_eq_true]
  constructor
  · rintro ⟨e, he, hen⟩
    cases e with
    | subscribed b name =>
      obtain ⟨rfl, rfl⟩ : b = a ∧ name = browseName := by simpa [Event.enrols] using hen
      exact he
    | _ => cases hen
  · exact fun hs => ⟨_, hs, by simp [Event.enrols]⟩

/-- The events subscribe no accessor. -/
def NoneSubscribed (es : List (Event V)) : Prop := ∀ e ∈ es, ∀ a name, e ≠ .subscribed a name

theorem NoneSubscribed.subscribed_iff (hes : NoneSubscribed es) (browseName : String)
    (a : Accessor) : Subscribed browseName a (es ++ h) ↔ Subscribed browseName a h := by
  unfold Subscribed
  rw [List.mem_append]
  exact or_iff_right fun hmem => hes _ hmem a browseName rfl

theorem delivers_congr (hs : ∀ a, Subscribed browseName a h ↔ Subscribed browseName a h') :
    (Event.delivers browseName h : Event V → _) = Event.delivers browseName h' := by
  funext e
  cases e with
  | pushed a n =>
    cases n with
    | data value =>
      have hany : h.any (Event.enrols browseName a) = h'.any (Event.enrols browseName a) := by
        rw [Bool.eq_iff_iff, any_enrols, any_enrols, hs a]
      simp only [Event.delivers, hany]
    | exception => rfl
  | _ => rfl

theorem latestDelivery_append (hs : ∀ a name, Subscribed name a h ↔ Subscribed name a h') :
    latestDelivery h' (es' ++ es) latest =
      latestDelivery h' es' (latestDelivery h es latest) := by
  funext name
  unfold latestDelivery
  rw [List.findSome?_append, delivers_congr fun a => hs a name]
  cases es'.findSome? (Event.delivers name h') <;> rfl

/-- Events that say nothing of deliveries. -/
theorem latestDelivery_of_none (hes : ∀ e ∈ es, ∀ name, e.delivers name h = none) :
    latestDelivery h es latest = latest := by
  funext name
  unfold latestDelivery
  rw [List.findSome?_eq_none_iff.mpr fun e he => hes e he name]
  rfl

theorem Event.delivers_of_not_signal {e : Event V} (he : e.isSignal = false) (name : String) :
    e.delivers name h = none := by
  cases e <;> first | rfl | cases he

theorem Event.pushedTo_of_not_signal {e : Event V} (he : e.isSignal = false) (a : Accessor) :
    e.pushedTo a = none := by
  cases e <;> first | rfl | cases he

theorem lastPushed_of_none (hes : ∀ e ∈ es, e.pushedTo a = none) :
    lastPushed a (es ++ h) = lastPushed a h := by
  unfold lastPushed
  rw [List.findSome?_append, List.findSome?_eq_none_iff.mpr hes, Option.none_or]

theorem lastPushed_pushed (n : Notification V) (a b : Accessor) :
    lastPushed b (.pushed a n :: h) = if a = b then some n else lastPushed b h := by
  unfold lastPushed
  rw [List.findSome?_cons, Event.pushedTo]
  by_cases hab : a = b
  · rw [if_pos hab, if_pos hab]
  · rw [if_neg hab, if_neg hab]

/-- An activation leaves no value of an item that becomes active. -/
theorem latestDelivery_activated (hes : ∀ e ∈ es, ∃ name flag was, e = .activated name flag was)
    {v : DataValue V} (hv : latestDelivery h es latest browseName = some v) :
    latest browseName = some v ∧ ∀ flag, .activated browseName flag false ∉ es := by
  induction es with
  | nil => exact ⟨hv, by simp⟩
  | cons e es ih =>
    obtain ⟨name, flag, was, rfl⟩ := hes e (List.mem_cons_self ..)
    unfold latestDelivery at hv
    rw [List.findSome?_cons, Event.delivers] at hv
    by_cases hname : name = browseName ∧ was = false
    · rw [if_pos hname] at hv
      cases hv
    · rw [if_neg hname] at hv
      obtain ⟨hkeep, hno⟩ := ih (fun e he => hes e (List.mem_cons_of_mem _ he)) hv
      refine ⟨hkeep, fun flag' hmem => ?_⟩
      rcases List.mem_cons.mp hmem with heq | hmem
      · obtain ⟨hname', -, hwas⟩ := Event.activated.inj heq
        exact hname ⟨hname'.symm, hwas.symm⟩
      · exact hno flag' hmem

theorem findSome?_of_forall {β : Type} {f : Event V → Option β} {n : Notification V}
    {as : List Accessor} {signal : β} (hf : ∀ b ∈ as, f (.pushed b n) = some signal)
    (has : as ≠ []) : (pushes n as).findSome? f = some signal := by
  obtain ⟨as, b, rfl⟩ := List.eq_nil_or_concat' as |>.resolve_left has
  have hb : f (.pushed b n) = some signal := hf b (List.mem_append_right _ (List.mem_singleton_self b))
  simp [pushes, hb]

theorem lastPushed_pushes (n : Notification V) (as : List Accessor) (b : Accessor) :
    lastPushed b (pushes n as ++ h) = if b ∈ as then some n else lastPushed b h :=
  findSome?_pushes fun _ => rfl

end Deliveries

/-! ## Queues -/

/-- Whether the event leaves the accessor with other data than the value pushed last to it: an
exception is pushed, or the accessor makes a transfer of its own. -/
def Event.spoils (a : Accessor) : Event V → Option Bool
  | .pushed b n => if b = a then some n.isException else none
  | .transferred b => if b = a then some true else none
  | _ => none

/-- An exception was pushed to the accessor since the last value, or it made a transfer of its
own. -/
def Spoiled (a : Accessor) (h : List (Event V)) : Prop :=
  h.findSome? (Event.spoils a) = some true

instance (a : Accessor) (h : List (Event V)) : Decidable (Spoiled a h) := by
  unfold Spoiled; infer_instance

section Spoiled

variable {a b : Accessor} {h : List (Event V)} {e : Event V} {es : List (Event V)}

theorem Event.spoils_of_not_signal (he : e.isSignal = false) (a : Accessor) :
    e.spoils a = none := by
  cases e <;> first | rfl | cases he

theorem spoiled_of_none (hes : ∀ e ∈ es, e.spoils a = none) :
    Spoiled a (es ++ h) ↔ Spoiled a h := by
  unfold Spoiled
  rw [List.findSome?_append, List.findSome?_eq_none_iff.mpr hes, Option.none_or]

/-- What concerns another accessor leaves the data alone. -/
theorem spoiled_cons (he : e.spoils a = none) : Spoiled a (e :: h) ↔ Spoiled a h :=
  have hes : ∀ e' ∈ [e], e'.spoils a = none := fun _ hmem => List.mem_singleton.mp hmem ▸ he
  spoiled_of_none hes

theorem spoiled_pushed (n : Notification V) (hb : b ≠ a) :
    Spoiled a (.pushed b n :: h) ↔ Spoiled a h := spoiled_cons (if_neg hb)

theorem spoiled_transferred (hb : b ≠ a) :
    Spoiled a (.transferred b :: h : List (Event V)) ↔ Spoiled a h := spoiled_cons (if_neg hb)

/-- After an exception the value is spoiled, whatever the accessor has transferred since. -/
theorem lastPushed_spoiled {n : Notification V} (hlast : lastPushed a h = some n)
    (hn : n.isException = true) : Spoiled a h := by
  induction h with
  | nil => cases hlast
  | cons e h ih =>
    unfold lastPushed at hlast
    rw [List.findSome?_cons] at hlast
    cases e with
    | pushed b m =>
      by_cases hb : b = a
      · simp only [Event.pushedTo, if_pos hb, Option.some_inj] at hlast
        simp [Spoiled, Event.spoils, hb, hlast, hn]
      · simp only [Event.pushedTo, if_neg hb] at hlast
        exact (spoiled_pushed m hb).mpr (ih hlast)
    | transferred b =>
      by_cases hb : b = a
      · simp [Spoiled, Event.spoils, hb]
      · exact (spoiled_transferred hb).mpr (ih hlast)
    | _ => exact (spoiled_cons rfl).mpr (ih hlast)

end Spoiled

/-- The notification pushed last is the newest one in the queue; or it was taken, and a value it
carried is the accessor's data unless it is spoiled. -/
def AccessorState.Keeps (s : AccessorState V) (spoiled : Prop) (n : Notification V) : Prop :=
  s.notifications.newest? = some n ∨
    s.notifications.elems = [] ∧
      (¬ spoiled → ∀ v, n = .data v → v.hasValue = true → s.data = v)

/-- Every accessor keeps the notification pushed last to it. -/
def KeepsPushed (w : World V) : Prop :=
  ∀ a n, lastPushed a w.history = some n → (w.accessors a).Keeps (Spoiled a w.history) n

/-- Events that neither push nor transfer change nothing of it. -/
theorem KeepsPushed.extend (h : KeepsPushed w) {es : List (Event V)}
    (hhistory : w'.history = es ++ w.history) (haccessors : w'.accessors = w.accessors)
    (hpushed : ∀ e ∈ es, ∀ a, e.pushedTo a = none) (hspoils : ∀ e ∈ es, ∀ a, e.spoils a = none) :
    KeepsPushed w' := by
  intro a n hn
  rw [hhistory, lastPushed_of_none fun e he => hpushed e he a] at hn
  unfold AccessorState.Keeps
  rw [haccessors, hhistory, spoiled_of_none fun e he => hspoils e he a]
  exact h a n hn

theorem KeepsPushed.push (h : KeepsPushed w) (n : Notification V) (a : Accessor) :
    KeepsPushed (w.push n a) := by
  intro b m hm
  have hm' : lastPushed b (.pushed a n :: w.history) = some m := hm
  rw [lastPushed_pushed] at hm'
  by_cases hb : a = b
  · subst hb
    rw [if_pos rfl, Option.some_inj] at hm'
    subst hm'
    refine .inl ?_
    show ((Function.update w.accessors a _) a).notifications.newest? = some n
    rw [Function.update_self]
    exact BoundedQueue.newest?_pushOverwrite _ _
  · rw [if_neg hb] at hm'
    have hsame : (w.push n a).accessors b = w.accessors b := Function.update_of_ne (Ne.symm hb) _ _
    have hspoiled : Spoiled b (w.push n a).history ↔ Spoiled b w.history :=
      spoiled_pushed n hb
    unfold AccessorState.Keeps
    rw [hsame, hspoiled]
    exact h b m hm'

theorem KeepsPushed.pushAll (h : KeepsPushed w) (n : Notification V) (as : List Accessor) :
    KeepsPushed (w.pushAll n as) := by
  induction as generalizing w with
  | nil => exact h
  | cons a as ih => exact ih (h.push n a)

theorem KeepsPushed.popNotification (h : KeepsPushed w) (a : Accessor) :
    KeepsPushed (popNotification a w) := by
  intro b n hn
  by_cases hb : b = a
  · subst hb
    have hkeeps := h b n hn
    unfold OpcUaBackend.popNotification
    simp only [Function.update_self]
    rcases hkeeps with hnew | ⟨hempty, hdata⟩
    · -- the newest one is either taken now or stays
      unfold BoundedQueue.newest? at hnew
      cases helems : (w.accessors b).notifications.elems with
      | nil => simp [helems] at hnew
      | cons m ms =>
        cases ms with
        | nil =>
          obtain rfl : m = n := by simpa [helems] using hnew
          refine .inr ⟨by simp [BoundedQueue.pop, helems], ?_⟩
          rintro - v rfl hv
          simp [BoundedQueue.front?, helems, hv]
        | cons m' ms =>
          refine .inl ?_
          rw [helems, List.getLast?_cons_cons] at hnew
          simpa [BoundedQueue.newest?, BoundedQueue.pop, helems] using hnew
    · refine .inr ⟨by simp [BoundedQueue.pop, hempty], fun hclean v hv hval => ?_⟩
      simpa [BoundedQueue.front?, hempty] using hdata hclean v hv hval
  · have hsame : (OpcUaBackend.popNotification a w).accessors b = w.accessors b :=
      Function.update_of_ne hb _ _
    rw [hsame]
    exact h b n hn

/-- After a transfer of its own an accessor keeps the elements of its queue. -/
theorem KeepsPushed.ownTransfer (h : KeepsPushed w) (a : Accessor) (data : DataValue V) :
    KeepsPushed (ownTransfer a data w) := by
  intro b n hn
  have hkeeps := h b n hn
  by_cases hb : a = b
  · subst hb
    unfold OpcUaBackend.ownTransfer
    simp only [World.record, Function.update_self]
    refine hkeeps.imp id fun hempty => ⟨hempty.1, fun hclean => absurd ?_ hclean⟩
    simp [Spoiled, Event.spoils]
  · have hsame : (OpcUaBackend.ownTransfer a data w).accessors b = w.accessors b :=
      Function.update_of_ne (Ne.symm hb) _ _
    have hspoiled : Spoiled b (OpcUaBackend.ownTransfer a data w).history ↔ Spoiled b w.history :=
      spoiled_transferred hb
    unfold AccessorState.Keeps
    rw [hsame, hspoiled]
    exact hkeeps

/-! ## What accessors know -/

/-- Names are distinct; listed accessors are subscribed under the name of their list, each under
one name; every accessor keeps what was pushed last to it; and of an active item with a value
delivered every accessor was pushed this value last, or an exception. -/
structure Informed (latest : String → Option (DataValue V)) (w : World V) : Prop where
  names : (w.lists.map Prod.fst).Nodup
  subscribed : ∀ l ∈ w.lists, ∀ a ∈ l.2, Subscribed l.1 a w.history
  once : ∀ a name name', Subscribed name a w.history → Subscribed name' a w.history → name = name'
  occupied : w.Occupied
  kept : KeepsPushed w
  told : ∀ item ∈ w.items.elems, item.active = true → ∀ v, latest item.browseName = some v →
    ∀ a ∈ item.accessors, ∃ n, lastPushed a w.history = some n ∧
      (n = .data v ∨ n.isException = true)

section Steps

variable {latest : String → Option (DataValue V)} {browseName : String} {a : Accessor}

theorem Informed.subscribed_item (h : Informed latest w) {item : MonitorItem}
    (hitem : item ∈ w.items.elems) (ha : a ∈ item.accessors) :
    Subscribed item.browseName a w.history :=
  h.subscribed item.listing (List.mem_map_of_mem hitem) a ha

theorem Informed.accessors_of_name (h : Informed latest w) {item other : MonitorItem}
    (hitem : item ∈ w.items.elems) (hother : other ∈ w.items.elems)
    (hname : item.browseName = other.browseName) : item.accessors = other.accessors := by
  have hlisting := membersOf_of_mem h.names (List.mem_map_of_mem (f := MonitorItem.listing) hitem)
  have hlisting' := membersOf_of_mem h.names (List.mem_map_of_mem (f := MonitorItem.listing) hother)
  exact hlisting.symm.trans ((congrArg (membersOf · w.lists) hname).trans hlisting')

/-- The step changes neither items nor accessors nor the history. -/
theorem Informed.of_fields (h : Informed latest w) (hitems : w'.items = w.items)
    (haccessors : w'.accessors = w.accessors) (hhistory : w'.history = w.history) :
    Informed latest w' := by
  have hlists : w'.lists = w.lists := by rw [World.lists, hitems, World.lists]
  refine ⟨hlists ▸ h.names, ?subscribed, ?once, ?occupied, ?kept, ?told⟩
  case subscribed =>
    rw [hlists, hhistory]
    exact h.subscribed
  case once =>
    rw [hhistory]
    exact h.once
  case occupied =>
    rw [World.Occupied, hlists]
    exact h.occupied
  case kept =>
    unfold KeepsPushed
    rw [hhistory, haccessors]
    exact h.kept
  case told =>
    rw [hitems, hhistory]
    exact h.told

/-- Every part of `Informed` but the last, after events that subscribe nobody. -/
theorem Informed.lists_kept (h : Informed latest w) {es : List (Event V)}
    (hhistory : w'.history = es ++ w.history) (hes : NoneSubscribed es)
    (hlists : w'.lists = w.lists) (hkept : KeepsPushed w') {latest' : String → Option (DataValue V)}
    (htold : ∀ item ∈ w'.items.elems, item.active = true →
      ∀ v, latest' item.browseName = some v → ∀ a ∈ item.accessors,
        ∃ n, lastPushed a w'.history = some n ∧ (n = .data v ∨ n.isException = true)) :
    Informed latest' w' := by
  refine ⟨hlists ▸ h.names, ?subscribed, ?once, ?occupied, hkept, htold⟩
  case subscribed =>
    intro l hl a ha
    rw [hhistory, hes.subscribed_iff]
    exact h.subscribed l (hlists ▸ hl) a ha
  case once =>
    intro a name name' hs hs'
    rw [hhistory, hes.subscribed_iff] at hs hs'
    exact h.once a name name' hs hs'
  case occupied =>
    rw [World.Occupied, hlists]
    exact h.occupied

theorem Informed.quiet (h : Informed latest w) (hq : Quiet w w') :
    ∃ es, w'.history = es ++ w.history ∧ NoneSubscribed es ∧
      Informed (latestDelivery w'.history es latest) w' := by
  obtain ⟨es, hhistory, hes⟩ := hq.history
  have hnone : NoneSubscribed es := by
    rintro e he a name rfl
    cases hes _ he
  have hlast : ∀ a, lastPushed a w'.history = lastPushed a w.history := fun a => by
    rw [hhistory, lastPushed_of_none fun e he => Event.pushedTo_of_not_signal (hes e he) a]
  refine ⟨es, hhistory, hnone, ?_⟩
  rw [latestDelivery_of_none fun e he => Event.delivers_of_not_signal (hes e he)]
  refine h.lists_kept hhistory hnone hq.lists ?_ ?_
  · exact h.kept.extend hhistory hq.accessors
      (fun e he => Event.pushedTo_of_not_signal (hes e he))
      fun e he => Event.spoils_of_not_signal (hes e he)
  · intro item' hitem' hact v hv a ha
    obtain ⟨i, hi⟩ := List.mem_iff_getElem?.mp hitem'
    obtain ⟨item, hitem, hwas⟩ := hq.active i item' hi hact
    obtain ⟨item₀, hmem, hi₀, hname, haccessors⟩ := exists_item_of_lists hq.lists hi
    obtain rfl : item₀ = item := Option.some_inj.mp (hi₀.symm.trans hitem)
    rw [hlast a]
    exact h.told item₀ hmem hwas v (hname ▸ hv) a (haccessors ▸ ha)

theorem Informed.alarm (h : Informed latest w) (message : String) (b : Accessor) :
    ∃ es, (w.push (.exception message) b).history = es ++ w.history ∧ NoneSubscribed es ∧
      Informed (latestDelivery (w.push (.exception message) b).history es latest)
        (w.push (.exception message) b) := by
  have hnone : NoneSubscribed [(.pushed b (.exception message) : Event V)] := by
    intro e he a name heq
    rw [List.mem_singleton.mp he] at heq
    cases heq
  refine ⟨[.pushed b (.exception message)], rfl, hnone, ?_⟩
  rw [latestDelivery_of_none fun e he name => by rw [List.mem_singleton.mp he]; rfl]
  have hhistory : (w.push (.exception message) b).history =
      [.pushed b (.exception message)] ++ w.history := rfl
  refine h.lists_kept hhistory hnone rfl (h.kept.push _ b) ?_
  intro item hitem hact v hv a ha
  have hlast : lastPushed a (w.push (.exception message) b).history =
      if b = a then some (.exception message) else lastPushed a w.history := lastPushed_pushed ..
  rw [hlast]
  split
  · exact ⟨_, rfl, .inr rfl⟩
  · exact h.told item hitem hact v hv a ha

/-- The value that is delivered becomes the latest one of its item. -/
theorem Informed.deliver (h : Informed latest w) (value : DataValue V) {item : MonitorItem}
    (hitem : item ∈ w.items.elems) :
    ∃ es, (w.pushAll (.data value) item.accessors).history = es ++ w.history ∧
      NoneSubscribed es ∧
      Informed (latestDelivery (w.pushAll (.data value) item.accessors).history es latest)
        (w.pushAll (.data value) item.accessors) := by
  have hhistory := pushAll_history (.data value) item.accessors w
  have hnone : NoneSubscribed (pushes (.data value) item.accessors : List (Event V)) := by
    intro e he a name heq
    obtain ⟨b, -, rfl⟩ := mem_pushes.mp he
    cases heq
  refine ⟨pushes (.data value) item.accessors, hhistory, hnone, ?_⟩
  refine h.lists_kept hhistory hnone (pushAll_lists _ _ _) (h.kept.pushAll _ _) ?_
  intro other hother hact v hv a ha
  rw [pushAll_items] at hother
  rw [hhistory, lastPushed_pushes]
  have hsub := h.subscribed_item hother ha
  by_cases hin : a ∈ item.accessors
  · -- an accessor has one name, so this is the item that is delivered to
    have hname : item.browseName = other.browseName :=
      h.once a _ _ (h.subscribed_item hitem hin) hsub
    have hlatest : latestDelivery (w.pushAll (.data value) item.accessors).history
        (pushes (.data value) item.accessors) latest other.browseName = some value := by
      have hdel : ∀ b ∈ item.accessors, (.pushed b (.data value) : Event V).delivers
          other.browseName (w.pushAll (.data value) item.accessors).history
          = some (some value) := by
        intro b hb
        refine if_pos (any_enrols.mpr ?_)
        rw [hhistory, hnone.subscribed_iff, ← hname]
        exact h.subscribed_item hitem hb
      unfold latestDelivery
      rw [findSome?_of_forall hdel (h.occupied.accessors item hitem)]
      rfl
    rw [hlatest, Option.some_inj] at hv
    subst hv
    rw [if_pos hin]
    exact ⟨_, rfl, .inl rfl⟩
  · -- no event of the delivery is about the other item
    rw [if_neg hin]
    have hlatest : latestDelivery (w.pushAll (.data value) item.accessors).history
        (pushes (.data value) item.accessors) latest other.browseName =
        latest other.browseName := by
      have hdel : ∀ e ∈ (pushes (.data value) item.accessors : List (Event V)),
          e.delivers other.browseName (w.pushAll (.data value) item.accessors).history = none := by
        intro e he
        obtain ⟨b, hb, rfl⟩ := mem_pushes.mp he
        refine if_neg fun hany => hin ?_
        rw [any_enrols, hhistory, hnone.subscribed_iff] at hany
        have hname := h.once b _ _ (h.subscribed_item hitem hb) hany
        exact h.accessors_of_name hitem hother hname ▸ ha
      unfold latestDelivery
      rw [List.findSome?_eq_none_iff.mpr hdel]
      rfl
    exact h.told other hother hact v (hlatest ▸ hv) a ha

theorem Informed.activates (h : Informed latest w) {es : List (Event V)}
    (ha : Activates es w w') :
    ∃ es, w'.history = es ++ w.history ∧ NoneSubscribed es ∧
      Informed (latestDelivery w'.history es latest) w' := by
  have hnone : NoneSubscribed es := by
    rintro e he a name rfl
    obtain ⟨_, _, _, heq⟩ := ha.events _ he
    cases heq
  have hlast : ∀ a, lastPushed a w'.history = lastPushed a w.history := fun a => by
    rw [ha.history, lastPushed_of_none]
    intro e he
    obtain ⟨_, _, _, rfl⟩ := ha.events e he
    rfl
  refine ⟨es, ha.history, hnone, h.lists_kept ha.history hnone ha.lists ?_ ?_⟩
  · refine h.kept.extend ha.history ha.accessors (fun e he a => ?_) fun e he a => ?_ <;>
      obtain ⟨_, _, _, rfl⟩ := ha.events e he <;> rfl
  · intro item' hitem' hact v hv a hin
    obtain ⟨hkeep, hno⟩ := latestDelivery_activated ha.events hv
    obtain ⟨i, hi⟩ := List.mem_iff_getElem?.mp hitem'
    rcases ha.active i item' hi hact with ⟨item, hitem, hwas⟩ | ⟨flag, hflag⟩
    · obtain ⟨item₀, hmem, hi₀, hname, haccessors⟩ := exists_item_of_lists ha.lists hi
      obtain rfl : item₀ = item := Option.some_inj.mp (hi₀.symm.trans hitem)
      rw [hlast a]
      exact h.told item₀ hmem hwas v (hname ▸ hkeep) a (haccessors ▸ hin)
    · exact absurd hflag (hno flag)

theorem Informed.change (h : Informed latest w) (hm : Change w w') :
    ∃ es, w'.history = es ++ w.history ∧ NoneSubscribed es ∧
      Informed (latestDelivery w'.history es latest) w' := by
  cases hm with
  | quiet hq => exact h.quiet hq
  | alarm message => exact h.alarm message _
  | deliver value hitem => exact h.deliver value hitem
  | activate ha => exact h.activates ha

/-- **Changes keep accessors informed.** -/
theorem Informed.changes (h : Informed latest w) (hm : Changes w w') :
    ∃ es, w'.history = es ++ w.history ∧ NoneSubscribed es ∧
      Informed (latestDelivery w'.history es latest) w' := by
  induction hm with
  | refl => exact ⟨[], rfl, by simp [NoneSubscribed], h⟩
  | @tail w₁ w₂ _ hstep ih =>
    obtain ⟨es, hhistory, hes, h₁⟩ := ih
    obtain ⟨es', hhistory', hes', h₂⟩ := h₁.change hstep
    refine ⟨es' ++ es, by rw [hhistory', hhistory, List.append_assoc], ?_, ?_⟩
    · intro e he
      rcases List.mem_append.mp he with he | he
      · exact hes' e he
      · exact hes e he
    · rw [latestDelivery_append (h := w₁.history)]
      · exact h₂
      · intro a name
        rw [hhistory', hes'.subscribed_iff]

end Steps

/-! ## Accessors that join and leave -/

section Membership

variable {latest : String → Option (DataValue V)} {browseName : String} {a : Accessor}

/-- Noting that a new accessor is subscribed. -/
theorem Informed.recordSubscribed (h : Informed latest w) (hfresh : FreshAccessor a w.history)
    (browseName : String) : Informed latest (w.record (.subscribed a browseName)) := by
  have hlast : ∀ b, lastPushed b (w.record (.subscribed a browseName)).history =
      lastPushed b w.history := fun _ => rfl
  refine ⟨h.names, fun l hl b hb => List.mem_cons_of_mem _ (h.subscribed l hl b hb), ?_,
    h.occupied, h.kept.extend (show _ = [Event.subscribed a browseName] ++ w.history from rfl) rfl
    (by simp [Event.pushedTo]) (by simp [Event.spoils]), ?_⟩
  · intro b name name' hs hs'
    exact hfresh.once_record h.once hs hs'
  · intro item hitem hact v hv b hb
    rw [hlast b]
    exact h.told item hitem hact v hv b hb

/-- A push to an accessor that is not listed. -/
theorem Informed.push_unlisted (h : Informed latest w) (n : Notification V)
    (ha : ∀ item ∈ w.items.elems, a ∉ item.accessors) : Informed latest (w.push n a) := by
  have hnone : NoneSubscribed [(.pushed a n : Event V)] := by
    intro e he b name heq
    rw [List.mem_singleton.mp he] at heq
    cases heq
  have hhistory : (w.push n a).history = [.pushed a n] ++ w.history := rfl
  refine h.lists_kept hhistory hnone rfl (h.kept.push n a) ?_
  intro item hitem hact v hv b hb
  have hne : a ≠ b := fun heq => ha item hitem (heq ▸ hb)
  have hlast : lastPushed b (w.push n a).history = lastPushed b w.history :=
    (lastPushed_pushed n a b).trans (if_neg hne)
  rw [hlast]
  exact h.told item hitem hact v hv b hb

/-- An item of a new name, which is not active. -/
theorem Informed.pushBack (h : Informed latest w) (hfind : w.find? browseName = none)
    (node : UA_NodeId) (ha : Subscribed browseName a w.history) :
    Informed latest { w with items := w.items.pushBack (newItem browseName node a) } := by
  have hlists : World.lists { w with items := w.items.pushBack (newItem browseName node a) } =
      w.lists ++ [(browseName, [a])] := List.map_append
  refine ⟨?names, ?subscribed, h.once, ?occupied, h.kept, ?told⟩
  case names =>
    rw [hlists, List.map_append]
    refine List.nodup_append.mpr ⟨h.names, List.nodup_singleton _, fun x hx y hy heq => ?_⟩
    obtain rfl : x = browseName := heq.trans (List.mem_singleton.mp hy)
    exact not_mem_keys_of_find?_none hfind hx
  case subscribed =>
    intro l hl b hb
    rw [hlists] at hl
    rcases List.mem_append.mp hl with hl | hl
    · exact h.subscribed l hl b hb
    · obtain rfl := List.mem_singleton.mp hl
      rw [List.mem_singleton.mp hb]
      exact ha
  case occupied =>
    intro l hl
    rw [hlists] at hl
    rcases List.mem_append.mp hl with hl | hl
    · exact h.occupied l hl
    · rw [List.mem_singleton.mp hl]
      simp
  case told =>
    intro item hitem hact v hv b hb
    have hitem' : item ∈ w.items.elems ++ [newItem browseName node a] := hitem
    rcases List.mem_append.mp hitem' with hitem | hitem
    · exact h.told item hitem hact v hv b hb
    · rw [List.mem_singleton.mp hitem] at hact
      cases hact

/-- An accessor joins an item. Where a value was delivered for it, that is what was pushed to the
accessor. -/
theorem Informed.enlist (h : Informed latest w) {i : Nat} {item : MonitorItem}
    (hfind : w.find? browseName = some (i, item)) (ha : Subscribed browseName a w.history)
    (hknows : item.active = true → ∀ v, latest browseName = some v →
      lastPushed a w.history = some (.data v)) :
    Informed latest { w with items := w.items.modify i (MonitorItem.enlist a) } := by
  obtain ⟨before, after, hsplit, rfl, rfl, hbefore⟩ := World.find?_split hfind
  -- the accessor is entered in the list of the name
  have hlists : World.lists { w with
      items := w.items.modify before.length (MonitorItem.enlist a) } =
      enter item.browseName a w.lists := by
    simp only [World.lists, SlotDeque.elems_modify, hsplit, modify_split, List.map_append,
      List.map_cons]
    exact (enter_append (not_mem_keys_before hbefore) item.accessors).symm
  have hmem : item ∈ w.items.elems := by simp [hsplit]
  have hkey : item.browseName ∈ w.lists.map Prod.fst :=
    List.mem_map_of_mem (f := Prod.fst) (List.mem_map_of_mem (f := MonitorItem.listing) hmem)
  refine ⟨?names, ?subscribed, h.once, ?occupied, h.kept, ?told⟩
  case names =>
    rw [hlists, keys_enter, if_pos hkey]
    exact h.names
  case subscribed =>
    intro l hl b hb
    rw [hlists] at hl
    rcases mem_enter hl with hl | rfl
    · exact h.subscribed l hl b hb
    · rcases List.mem_append.mp hb with hb | hb
      · have hmembers : membersOf item.browseName w.lists = item.accessors :=
          membersOf_of_mem h.names (List.mem_map_of_mem (f := MonitorItem.listing) hmem)
        exact h.subscribed_item hmem (hmembers ▸ hb)
      · rw [List.mem_singleton.mp hb]
        exact ha
  case occupied =>
    rw [World.Occupied, hlists]
    exact occupied_enter h.occupied
  case told =>
    intro item' hitem' hact v hv b hb
    have hitem'' : item' ∈ before ++ MonitorItem.enlist a item :: after := by
      rw [← modify_split, ← hsplit]
      exact hitem'
    -- the other items are as they were
    have hother : item' ∈ w.items.elems ∨ item' = MonitorItem.enlist a item := by
      rw [hsplit]
      rcases List.mem_append.mp hitem'' with hm | hm
      · exact .inl (List.mem_append_left _ hm)
      · rcases List.mem_cons.mp hm with rfl | hm
        · exact .inr rfl
        · exact .inl (List.mem_append_right _ (List.mem_cons_of_mem _ hm))
    rcases hother with hother | rfl
    · exact h.told item' hother hact v hv b hb
    · rcases List.mem_append.mp hb with hb | hb
      · exact h.told item hmem hact v hv b hb
      · rw [List.mem_singleton.mp hb]
        exact ⟨_, hknows hact v hv, .inl rfl⟩

/-- Items and accessors are taken out of the lists. -/
theorem Informed.sublists (h : Informed latest w) (hnames : (w'.lists.map Prod.fst).Nodup)
    (ho : w'.Occupied) (hitems : ∀ item' ∈ w'.items.elems, ∃ item ∈ w.items.elems,
      item'.browseName = item.browseName ∧ item'.active = item.active ∧
        item'.accessors ⊆ item.accessors)
    (haccessors : w'.accessors = w.accessors) (hhistory : w'.history = w.history) :
    Informed latest w' := by
  refine ⟨hnames, ?subscribed, ?once, ho, ?kept, ?told⟩
  case subscribed =>
    intro l hl b hb
    obtain ⟨item', hitem', rfl⟩ := List.mem_map.mp hl
    obtain ⟨item, hitem, hname, -, hsub⟩ := hitems item' hitem'
    rw [hhistory]
    have hs := h.subscribed_item hitem (hsub hb)
    rw [← hname] at hs
    exact hs
  case once =>
    rw [hhistory]
    exact h.once
  case kept =>
    unfold KeepsPushed
    rw [hhistory, haccessors]
    exact h.kept
  case told =>
    intro item' hitem' hact v hv b hb
    obtain ⟨item, hitem, hname, hactive, hsub⟩ := hitems item' hitem'
    rw [hhistory]
    exact h.told item hitem (hactive ▸ hact) v (hname ▸ hv) b (hsub hb)

theorem Informed.unsubscribe (h : Informed latest w) (r : Replies V) (browseName : String)
    (a : Accessor) :
    ∃ es, (unsubscribe r browseName a w).history = es ++ w.history ∧ NoneSubscribed es ∧
      Informed (latestDelivery (unsubscribe r browseName a w).history es latest)
        (unsubscribe r browseName a w) := by
  have hlists := unsubscribe_lists r browseName a w
  have hnames : ((quit browseName a w.lists).map Prod.fst).Nodup :=
    h.names.sublist (keys_quit_sublist browseName a w.lists)
  have ho : ∀ l ∈ quit browseName a w.lists, l.2 ≠ [] := occupied_quit h.occupied
  -- the accessor leaves without an event
  have hstay {w' : World V} (hw' : Informed latest w') (hhist : w'.history = w.history) :
      ∃ es, w'.history = es ++ w.history ∧ NoneSubscribed es ∧
        Informed (latestDelivery w'.history es latest) w' :=
    ⟨[], hhist, by simp [NoneSubscribed], hw'⟩
  unfold OpcUaBackend.unsubscribe at hlists ⊢
  cases hfind : w.find? browseName with
  | none => exact hstay h rfl
  | some found =>
    obtain ⟨i, item⟩ := found
    rw [hfind] at hlists
    simp only at hlists ⊢
    by_cases hlen : 1 < item.accessors.length
    · rw [if_pos hlen] at hlists ⊢
      by_cases ha : a ∈ item.accessors
      · rw [if_pos ha] at hlists ⊢
        refine hstay (h.sublists (hlists ▸ hnames) ?_ ?_ rfl rfl) rfl
        · rw [World.Occupied, hlists]
          exact ho
        · intro item' hitem'
          obtain ⟨j, hj⟩ := List.mem_iff_getElem?.mp hitem'
          by_cases hji : j = i
          · subst hji
            have hj' := SlotDeque.getElem?_modify_self w.items
              (fun item : MonitorItem => { item with accessors := item.accessors.erase a })
              (World.find?_eq_some hfind).1
            obtain rfl := Option.some_inj.mp (hj'.symm.trans hj)
            exact ⟨item, List.mem_of_getElem? (World.find?_eq_some hfind).1, rfl, rfl,
              List.erase_subset⟩
          · have hj' := SlotDeque.getElem?_modify_of_ne w.items
              (fun item : MonitorItem => { item with accessors := item.accessors.erase a }) hji
            exact ⟨item', List.mem_of_getElem? (hj'.symm.trans hj), rfl, rfl, fun _ => id⟩
      · rw [if_neg ha] at hlists ⊢
        exact hstay (h.of_fields rfl rfl rfl) rfl
    · rw [if_neg hlen] at hlists ⊢
      -- the last accessor takes the item with it
      let w₁ : World V := { w with
        subscriptionMap := w.subscriptionMap.erase item.id
        items := w.items.erase i }
      have hlists₁ : w₁.lists = quit browseName a w.lists := by
        rw [← hlists]
        split
        · exact (unsubscribeItem_changes w₁ r browseName item.id).lists.symm
        · rfl
      have h₁ : Informed latest w₁ := by
        refine h.sublists (hlists₁ ▸ hnames) ?_ ?_ rfl rfl
        · rw [World.Occupied, hlists₁]
          exact ho
        · intro item' hitem'
          exact ⟨item', List.mem_of_mem_eraseIdx hitem', rfl, rfl, fun _ => id⟩
      split
      · exact h₁.changes (unsubscribeItem_changes w₁ r browseName item.id)
      · exact hstay h₁ rfl

end Membership

/-! ## The condition -/

/-- What the accessor offers as an initial value is `v`, the latest one: there is at most one
element in its queue, and that is no exception; and when the queue is empty and the value spoiled,
the data is the value still: it was taken before the exception, which has not replaced it in the
queue, and no transfer of the accessor's own has changed it since. -/
def SourceKnows (w : World V) (v : DataValue V) (tmp : Accessor) : Prop :=
  (w.accessors tmp).notifications.elems.length ≤ 1 ∧
    (∀ n ∈ (w.accessors tmp).notifications.elems, n.isException = false) ∧
    ((w.accessors tmp).notifications.elems.isEmpty = true →
      Spoiled tmp w.history → (w.accessors tmp).data = v)

/-- Where the item of the name is active and a value was delivered for it, this value has a
payload and is GOOD, and the accessor that was added last knows it. -/
def KnowsLatest (latest : String → Option (DataValue V)) (w : World V) (browseName : String) :
    Prop :=
  ∀ found ∈ w.find? browseName, found.2.active = true → ∀ v ∈ latest browseName,
    v.hasValue = true ∧ v.status = .good ∧
      ∀ tmp ∈ found.2.accessors.getLast?, SourceKnows w v tmp

/-- An accessor is subscribed once, where the latest value is known. -/
def Call.JoinsKnown (latest : String → Option (DataValue V)) (w : World V) : Call V → Prop
  | .constructAccessor _ browseName _ a => FreshAccessor a w.history ∧ KnowsLatest latest w browseName
  | .subscribe _ browseName _ a => FreshAccessor a w.history ∧ KnowsLatest latest w browseName
  | _ => True

/-- All calls of a list meet the condition. -/
def JoinsKnown : World V → (String → Option (DataValue V)) → List (Call V) → Prop
  | _, _, [] => True
  | w, latest, c :: cs =>
    c.JoinsKnown latest w ∧ JoinsKnown (c.exec w).world (c.delivered w latest) cs

section Deciding

variable [DecidableEq V]

instance (w : World V) (v : DataValue V) (tmp : Accessor) : Decidable (SourceKnows w v tmp) := by
  unfold SourceKnows; infer_instance

instance (latest : String → Option (DataValue V)) (w : World V) (browseName : String) :
    Decidable (KnowsLatest latest w browseName) := by
  unfold KnowsLatest; infer_instance

instance (latest : String → Option (DataValue V)) (w : World V) (c : Call V) :
    Decidable (c.JoinsKnown latest w) := by
  apply @Call.casesOn V (fun c => Decidable (c.JoinsKnown latest w)) c <;> intros <;>
    dsimp only [Call.JoinsKnown] <;> infer_instance

instance JoinsKnown.decidable : (w : World V) → (latest : String → Option (DataValue V)) →
    (cs : List (Call V)) → Decidable (JoinsKnown w latest cs)
  | _, _, [] => .isTrue trivial
  | w, latest, c :: cs =>
    have := JoinsKnown.decidable (c.exec w).world (c.delivered w latest) cs
    inferInstanceAs (Decidable (_ ∧ _))

end Deciding

/-! ## The initial value -/

section Runs

variable {latest : String → Option (DataValue V)} {browseName : String} {a tmp : Accessor}
  {v : DataValue V}

theorem DataValue.copy_of_good (h : v.status = .good) : v.copy = v := by
  rw [DataValue.copy, ← h]

/-- An accessor that knows the latest value passes it on. -/
theorem pushInitialValue_known (front : Option (DataValue V)) (hval : v.hasValue = true)
    (hgood : v.status = .good) {n : Notification V}
    (hlast : lastPushed tmp w.history = some n) (hn : n = .data v ∨ n.isException = true)
    (hkeeps : (w.accessors tmp).Keeps (Spoiled tmp w.history) n)
    (hknows : SourceKnows w v tmp) {w' : World V}
    (hw' : w'.accessors tmp = w.accessors tmp) :
    pushInitialValue front tmp a w' = .returned (w'.push (.data v) a) := by
  obtain ⟨hlen, hno, htaken⟩ := hknows
  unfold pushInitialValue
  rw [hw']
  cases helems : (w.accessors tmp).notifications.elems with
  | nil =>
    -- the queue is empty, so that the data is passed on
    have hdata : (w.accessors tmp).data = v := by
      by_cases hspoiled : Spoiled tmp w.history
      · exact htaken (by rw [helems]; rfl) hspoiled
      · -- nothing was pushed after the value, and no transfer made
        obtain rfl := hn.resolve_right fun hexc => hspoiled (lastPushed_spoiled hlast hexc)
        rcases hkeeps with hnew | ⟨-, hdata⟩
        · simp [BoundedQueue.newest?, helems] at hnew
        · exact hdata hspoiled v rfl hval
    simp only [BoundedQueue.front?, helems, List.head?_nil, hdata, DataValue.copy_of_good hgood,
      if_pos hval]
  | cons m ms =>
    rw [helems, List.length_cons] at hlen
    obtain rfl : ms = [] := List.length_eq_zero_iff.mp (Nat.le_zero.mp (Nat.le_of_succ_le_succ hlen))
    have hm : m.isException = false := hno m (by rw [helems]; exact List.mem_singleton_self m)
    have hmn : m = n := by
      rcases hkeeps with hnew | ⟨hempty, -⟩
      · simpa [BoundedQueue.newest?, helems] using hnew
      · rw [helems] at hempty
        cases hempty
    subst hmn
    obtain rfl := hn.resolve_right fun hexc => Bool.noConfusion (hm.symm.trans hexc)
    simp only [BoundedQueue.front?, helems, List.head?_cons, DataValue.copy_of_good hgood,
      if_pos hval]

/-- Otherwise a value is pushed to the new accessor, or none. -/
theorem pushInitialValue_world (front : Option (DataValue V)) (tmp a : Accessor) (w : World V) :
    (pushInitialValue front tmp a w).world = w ∨
      (∃ f, (pushInitialValue front tmp a w).world = w.fail f) ∨
      ∃ value, (pushInitialValue front tmp a w).world = w.push (.data value) a := by
  have hpush (data : DataValue V) :
      (if data.hasValue then Result.returned (w.push (.data data) a) else .returned w).world = w ∨
        (∃ f, (if data.hasValue then Result.returned (w.push (.data data) a)
          else .returned w).world = w.fail f) ∨
        ∃ value, (if data.hasValue then Result.returned (w.push (.data data) a)
          else .returned w).world = w.push (.data value) a := by
    split
    · exact .inr (.inr ⟨data, rfl⟩)
    · exact .inl rfl
  unfold pushInitialValue
  simp only
  split
  · exact hpush _
  · exact hpush _
  · split
    · exact .inr (.inl ⟨_, rfl⟩)
    · exact hpush _

/-- The accessor that `subscribe` adds to an active item with a value delivered gets this value. -/
theorem Informed.subscribe_active (h : Informed latest w) (r : Replies V) (node : UA_NodeId)
    {i : Nat} {item : MonitorItem} (hfind : w.find? browseName = some (i, item))
    (hactive : item.active = true) (hv : latest browseName = some v)
    (hknows : KnowsLatest latest w browseName) :
    subscribe r browseName node a w = .returned (World.push (.data v)
      { w.record (.subscribed a browseName) with
        items := w.items.modify i (MonitorItem.enlist a) } a) := by
  obtain ⟨hitem, hname⟩ := World.find?_eq_some hfind
  have hmem := List.mem_of_getElem? hitem
  obtain ⟨hval, hgood, hsource⟩ := hknows (i, item) hfind hactive v hv
  rcases subscribe_cases r browseName node a w with
    ⟨hnone, -⟩ | ⟨i', item', hfind', hcase⟩
  · rw [hnone] at hfind
    cases hfind
  · rw [hfind, Option.some_inj] at hfind'
    obtain ⟨rfl, rfl⟩ := Prod.mk.inj hfind'
    rcases hcase with ⟨hnil, -⟩ | ⟨tmp, hlast, heq⟩
    · exact absurd (List.getLast?_eq_none_iff.mp hnil) (h.occupied.accessors item hmem)
    · rw [heq, if_pos hactive]
      obtain ⟨n, hpushed, hn⟩ := h.told item hmem hactive v (hname ▸ hv) tmp
        (List.mem_of_getLast? hlast)
      exact pushInitialValue_known _ hval hgood hpushed hn (h.kept tmp n hpushed)
        (hsource tmp hlast) rfl

theorem Informed.subscribe_found (h : Informed latest w) (r : Replies V) (node : UA_NodeId)
    {found : Nat × MonitorItem} (hfind : w.find? browseName = some found)
    (hfresh : FreshAccessor a w.history) (hknows : KnowsLatest latest w browseName) :
    Informed latest (subscribe r browseName node a w).world := by
  obtain ⟨i, item⟩ := found
  have hrec := h.recordSubscribed hfresh browseName
  have hsub : Subscribed browseName a (w.record (.subscribed a browseName)).history :=
    List.mem_cons_self ..
  have hunlisted : ∀ item ∈ w.items.elems, a ∉ item.accessors := fun item hitem ha =>
    hfresh.not_subscribed _ (h.subscribed_item hitem ha)
  let w₁ : World V := { w.record (.subscribed a browseName) with
    items := w.items.modify i (MonitorItem.enlist a) }
  have hpush (u : DataValue V)
      (hu : item.active = true → ∀ v, latest browseName = some v → u = v) :
      Informed latest (w₁.push (.data u) a) := by
    have hfind' : (World.push (.data u) (w.record (.subscribed a browseName)) a).find? browseName =
        some (i, item) := hfind
    refine (hrec.push_unlisted (.data u) hunlisted).enlist hfind' (List.mem_cons_of_mem _ hsub)
      fun hact v hv => ?_
    rw [← hu hact v hv]
    exact (lastPushed_pushed ..).trans (if_pos rfl)
  by_cases hdelivered : item.active = true ∧ ∃ v, latest browseName = some v
  · obtain ⟨hact, v, hv⟩ := hdelivered
    rw [h.subscribe_active r node hfind hact hv hknows]
    exact hpush v fun _ v' hv' => Option.some_inj.mp (hv.symm.trans hv')
  · -- nothing is asked of the new accessor
    have hvac : item.active = true → ∀ v, latest browseName = some v → False :=
      fun hact v hv => hdelivered ⟨hact, v, hv⟩
    have h₁ : Informed latest w₁ := hrec.enlist hfind hsub fun hact v hv => (hvac hact v hv).elim
    rcases subscribe_cases r browseName node a w with
      ⟨hnone, -⟩ | ⟨i', item', hfind', ⟨hnil, -⟩ | ⟨tmp, hlast, heq⟩⟩
    · rw [hnone] at hfind
      cases hfind
    · exact absurd (List.getLast?_eq_none_iff.mp hnil)
        (h.occupied.accessors item' (List.mem_of_getElem? (World.find?_eq_some hfind').1))
    · rw [hfind, Option.some_inj] at hfind'
      obtain ⟨rfl, rfl⟩ := Prod.mk.inj hfind'
      rw [heq]
      split
      · rcases pushInitialValue_world r.frontOfException tmp a w₁ with heq | ⟨f, heq⟩ | ⟨u, heq⟩
        · exact heq ▸ h₁
        · exact heq ▸ h₁.of_fields rfl rfl rfl
        · exact heq ▸ hpush u fun hact v hv => (hvac hact v hv).elim
      · exact h₁

/-! ## Runs -/

/-- What a call has delivered, read off the events it added. -/
theorem Informed.of_events (hw : ∃ es, w'.history = es ++ w.history ∧
    Informed (latestDelivery w'.history es latest) w') :
    Informed (latestDelivery w'.history (newEvents w.history w'.history) latest) w' := by
  obtain ⟨es, hhistory, h⟩ := hw
  rw [hhistory, newEvents_append, ← hhistory]
  exact h

theorem Informed.subscribe_new (h : Informed latest w) (node : UA_NodeId)
    (hfind : w.find? browseName = none) (hfresh : FreshAccessor a w.history)
    (hch : Changes { w.record (.subscribed a browseName) with
      items := w.items.pushBack (newItem browseName node a) } w') :
    ∃ es, w'.history = es ++ w.history ∧ Informed (latestDelivery w'.history es latest) w' := by
  have hrec := h.recordSubscribed hfresh browseName
  have hfind' : (w.record (.subscribed a browseName)).find? browseName = none := hfind
  obtain ⟨es, hhistory, -, h'⟩ :=
    (hrec.pushBack hfind' node (List.mem_cons_self ..)).changes hch
  refine ⟨es ++ [.subscribed a browseName], by rw [hhistory, List.append_assoc]; rfl, ?_⟩
  have hrecorded : latestDelivery w'.history [.subscribed a browseName] latest = latest :=
    latestDelivery_of_none fun e he name => by rw [List.mem_singleton.mp he]; rfl
  rw [latestDelivery_append (h := w'.history) fun _ _ => Iff.rfl, hrecorded]
  exact h'

theorem start_fields (w : World V) : (start w).items = w.items ∧
    (start w).accessors = w.accessors ∧ (start w).history = w.history := by
  unfold start
  split
  · simp only
    split <;> exact ⟨rfl, rfl, rfl⟩
  · exact ⟨rfl, rfl, rfl⟩

/-- The construction goes on from the subscription without a word to the accessors. -/
theorem constructAccessor_fields (r : Replies V) (browseName : String) (node : UA_NodeId)
    (a : Accessor) (w : World V) :
    let w₁ := (subscribe r browseName node a { w with subscriptionManager := true }).world
    let w₂ := (constructAccessor r browseName node a w).world
    w₂.items = w₁.items ∧ w₂.accessors = w₁.accessors ∧ w₂.history = w₁.history := by
  unfold constructAccessor
  cases subscribe r browseName node a { w with subscriptionManager := true } with
  | returned w₁ =>
    simp only [Result.andThen]
    split
    · exact start_fields w₁
    · exact ⟨rfl, rfl, rfl⟩
  | threw => exact ⟨rfl, rfl, rfl⟩

/-- **Calls keep accessors informed.** -/
theorem Informed.exec (h : Informed latest w) {c : Call V} (hc : c.JoinsKnown latest w) :
    Informed (c.delivered w latest) (c.exec w).world := by
  have hchanges (hch : Changes w (c.exec w).world) (hadds : c.addsTo w = false) :
      Informed (c.delivered w latest) (c.exec w).world := by
    rw [Call.delivered, hadds]
    obtain ⟨es, hhistory, -, h'⟩ := h.changes hch
    exact .of_events ⟨es, hhistory, h'⟩
  by_cases habout : c.isAboutAccessor = false
  · refine hchanges (Call.exec_changes w habout) ?_
    cases c <;> first | rfl | cases habout
  · cases c with
    | subscribe r name node a =>
      cases hfind : w.find? name with
      | some found =>
        have hadds : (Call.subscribe r name node a).addsTo w = true := by
          simp [Call.addsTo, hfind]
        rw [Call.delivered, if_pos hadds]
        exact h.subscribe_found r node hfind hc.1 hc.2
      | none =>
        have hadds : (Call.subscribe r name node a).addsTo w = false := by
          simp [Call.addsTo, hfind]
        rw [Call.delivered, hadds]
        rcases subscribe_cases r name node a w with ⟨-, hch⟩ | ⟨i, item, hfind', -⟩
        · exact .of_events (h.subscribe_new node hfind hc.1 hch)
        · rw [hfind] at hfind'
          cases hfind'
    | constructAccessor r name node a =>
      let w₀ : World V := { w with subscriptionManager := true }
      have h₀ : Informed latest w₀ := h.of_fields rfl rfl rfl
      obtain ⟨hitems, haccessors, hhistory⟩ := constructAccessor_fields r name node a w
      cases hfind : w.find? name with
      | some found =>
        have hadds : (Call.constructAccessor r name node a).addsTo w = true := by
          simp [Call.addsTo, hfind]
        rw [Call.delivered, if_pos hadds]
        exact (h₀.subscribe_found (a := a) r node hfind hc.1 hc.2).of_fields hitems haccessors
          hhistory
      | none =>
        have hadds : (Call.constructAccessor r name node a).addsTo w = false := by
          simp [Call.addsTo, hfind]
        rw [Call.delivered, hadds]
        rcases subscribe_cases r name node a w₀ with ⟨-, hch⟩ | ⟨i, item, hfind', -⟩
        · have hnew := h₀.subscribe_new (a := a) node hfind hc.1
            (hch.trans (constructAccessor_changes r name node a w))
          exact Informed.of_events (w := w) hnew
        · have hnone : w₀.find? name = none := hfind
          rw [hnone] at hfind'
          cases hfind'
    | unsubscribe r name a =>
      obtain ⟨es, hhistory, -, h'⟩ := h.unsubscribe r name a
      exact .of_events ⟨es, hhistory, h'⟩
    | popNotification a =>
      refine .of_events ⟨[], rfl, ?_⟩
      exact ⟨h.names, h.subscribed, h.once, h.occupied, h.kept.popNotification a, h.told⟩
    | ownTransfer a data =>
      have hhistory : (ownTransfer a data w).history = [.transferred a] ++ w.history := rfl
      refine .of_events ⟨[.transferred a], hhistory, ?_⟩
      have hnone : NoneSubscribed [(.transferred a : Event V)] := by
        intro e he b name heq
        rw [List.mem_singleton.mp he] at heq
        cases heq
      rw [latestDelivery_of_none fun e he name => by rw [List.mem_singleton.mp he]; rfl]
      exact h.lists_kept hhistory hnone rfl (h.kept.ownTransfer a data) h.told
    | _ => exact absurd rfl habout

theorem Informed.fresh (hw : w.Fresh) : Informed (fun _ => none) w := by
  have hlists : w.lists = [] := by rw [World.lists, hw.items]; rfl
  have hnothing : ∀ name b, ¬ Subscribed name b w.history := by
    simp [Subscribed, hw.history]
  refine ⟨by simp [hlists], by simp [hlists], fun b name name' hs => ?_, by simp [World.Occupied,
    hlists], fun b n hn => ?_, fun item hitem hact v hv => by cases hv⟩
  · exact absurd hs (hnothing name b)
  · simp [lastPushed, hw.history] at hn

theorem Informed.run (h : Informed latest w) {cs : List (Call V)} (hcs : JoinsKnown w latest cs) :
    Informed (deliveredBy w latest cs) (Call.run w cs) := by
  induction cs generalizing w latest with
  | nil => exact h
  | cons c cs ih => exact ih (h.exec hcs.1) hcs.2

/-- **The initial value.** In every run in which each accessor is subscribed once, and where the
latest value is known, an accessor that is added to an active item for which a value was delivered
since its activation has this value as the newest element of its queue. -/
theorem subscribe_newest (hw : w.Fresh) {cs : List (Call V)}
    (hcs : JoinsKnown w (fun _ => none) cs) (r : Replies V) (browseName : String)
    (node : UA_NodeId) (a : Accessor)
    (hjoin : (Call.subscribe r browseName node a).JoinsKnown
      (deliveredBy w (fun _ => none) cs) (Call.run w cs))
    {i : Nat} {item : MonitorItem} {v : DataValue V}
    (hfind : (Call.run w cs).find? browseName = some (i, item)) (hactive : item.active = true)
    (hv : deliveredBy w (fun _ => none) cs browseName = some v) :
    ∃ w', subscribe r browseName node a (Call.run w cs) = .returned w' ∧
      (w'.accessors a).notifications.newest? = some (.data v) := by
  have h := (Informed.fresh hw).run hcs
  rw [h.subscribe_active r node hfind hactive hv hjoin.2]
  refine ⟨_, rfl, ?_⟩
  unfold World.push
  simp only [World.record, Function.update_self]
  exact BoundedQueue.newest?_pushOverwrite _ _

/-- The item of register `a` with one accessor. -/
def activeItem : MonitorItem :=
  { node := ⟨1, .string "a"⟩, accessors := [10], id := 1, active := true, isMonitored := true,
    browseName := "a" }

/-- A register with one accessor that has read the first of two values. -/
def readOnce : List (Call Nat) :=
  [.callbacks [.state .open .activated], .subscribe {} "a" ⟨1, .string "a"⟩ 10, .activate {},
    .callbacks [.dataChange 1 { value := some 5 }], .popNotification 10,
    .callbacks [.dataChange 1 { value := some 7, sourceTimestamp := 3 }]]

theorem subscribe_newest_readOnce :
    ∃ w', subscribe {} "a" ⟨1, .string "a"⟩ 11 (Call.run {} readOnce) = .returned w' ∧
      (w'.accessors 11).notifications.newest? =
        some (.data { value := some 7, sourceTimestamp := 3 }) :=
  have hfind : (Call.run {} readOnce).find? "a" = some (0, activeItem) := by decide
  subscribe_newest World.fresh_default (by decide) {} "a" ⟨1, .string "a"⟩ 11 (by decide) hfind rfl
    (by decide)

/-- As `readOnce`, with the first value still in the queue. -/
def notRead : List (Call Nat) :=
  [.callbacks [.state .open .activated], .subscribe {} "a" ⟨1, .string "a"⟩ 10, .activate {},
    .callbacks [.dataChange 1 { value := some 5 }],
    .callbacks [.dataChange 1 { value := some 7, sourceTimestamp := 3 }]]

/-- Nothing but accessors that are subscribed once. -/
def Call.JoinsOnce (w : World V) : Call V → Prop
  | .constructAccessor _ _ _ a => FreshAccessor a w.history
  | .subscribe _ _ _ a => FreshAccessor a w.history
  | _ => True

instance (w : World V) (c : Call V) : Decidable (c.JoinsOnce w) := by
  apply @Call.casesOn V (fun c => Decidable (c.JoinsOnce w)) c <;> intros <;>
    dsimp only [Call.JoinsOnce] <;> infer_instance

/-- A second accessor gets the oldest value in the queue of the first one. -/
theorem not_newest_notRead :
    ¬ ∀ (cs : List (Call Nat)), Call.Legal Call.JoinsOnce {} cs →
      ∀ r browseName node a, (Call.subscribe r browseName node a).JoinsOnce (Call.run {} cs) →
      ∀ i item v w', (Call.run {} cs).find? browseName = some (i, item) → item.active = true →
        deliveredBy {} (fun _ => none) cs browseName = some v →
        subscribe r browseName node a (Call.run {} cs) = .returned w' →
        (w'.accessors a).notifications.newest? = some (.data v) := by
  intro h
  have hnew := h notRead (by decide) {} "a" ⟨1, .string "a"⟩ 11 (by decide) 0
    activeItem { value := some 7, sourceTimestamp := 3 }
    (subscribe {} "a" ⟨1, .string "a"⟩ 11 (Call.run {} notRead)).world (by decide) rfl (by decide)
    rfl
  have hold : ((subscribe {} "a" ⟨1, .string "a"⟩ 11
      (Call.run {} notRead)).world.accessors 11).notifications.newest? =
      some (.data { value := some 5 }) := by decide
  rw [hold] at hnew
  cases hnew

end Runs

end OpcUaBackend
