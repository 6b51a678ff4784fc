import OpcUaBackend.Foundation.History
import OpcUaBackend.Foundation.Machine
import OpcUaBackend.Manager.State

/-!
# The client thread and the application, step by step

The flags, the subscription id and the thread object are shared by two threads. The
application runs its functions access by access; the client thread makes one step for the test
of its loop, for an iteration under `client_lock`, for the clean-up under `client_lock` and for
its end. A call of the library runs callbacks, which deactivate the subscription or note its
deletion. The steps of the two threads interleave in any order.

A request to remove the subscription waits in a flag until the client thread reaches its
clean-up. It waits for the right subscription as long as no subscription is created meanwhile.

## Main definitions

* `Shared`, `Action`, `Shared.exec`: the state of both threads and their steps
* `lifecycles`: the machine
* `Directed`: a recorded request removes the subscription that was current
* `Careful`: the condition on a step

## Main results

* `Sound.exec`: what every careful step preserves
* `reach_lifecycle`: requests are directed and the active subscription is the current one
-/

namespace OpcUaBackend

open Foundation

/-! ## The two threads -/

/-- What a callback is for the flags: the connection is lost or inactive, which counts while
the client runs, or the subscription was deleted. -/
inductive Signal
  | lost
  | deleted
  deriving DecidableEq, Repr

/-- The function that removes the subscription. -/
inductive Remover
  | deactivate
  | createSubscription
  | unsubscribe
  deriving DecidableEq, Repr

/-- Where the application stands. -/
inductive Application
  | idle
  /-- in `deactivate`, about to test and to clear `_subscriptionActive` -/
  | testActive | clearActive
  /-- in `deactivate`, about to test `opcuaThread` and to record the request -/
  | testThread | recordRemoval
  /-- in `removeSubscription`, about to request the deletion and to clear the id -/
  | delete (remover : Remover) | clearID (remover : Remover)
  /-- in `createSubscription`, about to test the id, to send the request, to store the id of the
  answer and to set `_subscriptionActive` -/
  | testID | request | storeID (subscriptionId : Nat) | setActive
  /-- in `start`, about to make the thread -/
  | spawn
  /-- in `unsubscribe`, about to clear `_run` -/
  | clearRun
  /-- in `stopClientThread` -/
  | join
  deriving DecidableEq, Repr

/-- Where the application goes on after `removeSubscription`. -/
def Remover.next : Remover → Application
  | .deactivate => .idle
  | .createSubscription => .request
  | .unsubscribe => .clearRun

inductive LifecycleEvent
  /-- `_subscriptionNeedsToBeRemoved` is set -/
  | recorded
  | created (subscriptionId : Nat)
  /-- a deletion is requested, by the client thread for a recorded request or by the application -/
  | deleted (subscriptionId : Nat) (forRecorded : Bool)
  deriving DecidableEq, Repr

/-- The shared state, the place of the application, and the history. -/
structure Shared extends Lifecycle where
  app : Application := .idle
  history : List LifecycleEvent := []
  deriving DecidableEq

/-- The steps. A request of the application or an iteration of the client thread comes with the
callbacks that run inside it, and the answer. -/
inductive Action
  | deactivate
  | createSubscription
  | start
  | stopClientThread
  | unsubscribeLast
  /-- the next access of the function the application is in -/
  | proceed
  | requestDeletion (signals : List Signal)
  | requestSubscription (answer : Option Nat) (signals : List Signal)
  /-- another call of the library by the application -/
  | call (signals : List Signal)
  | client (good : Bool) (signals : List Signal)
  deriving DecidableEq, Repr

namespace Shared

variable (s : Shared)

def record (e : LifecycleEvent) : Shared := { s with history := e :: s.history }

/-- `deactivate`, from a callback: the calling thread holds `client_lock`, so without a thread
object it would wait for itself. -/
def deactivated : Shared :=
  let s := { s with run := false }
  if s.subscriptionActive then
    let s := { s with subscriptionActive := false }
    if s.opcuaThread.isSome then
      record { s with subscriptionNeedsToBeRemoved := true } .recorded
    else s
  else s

def signal : Signal → Shared
  | .lost => if s.run then s.deactivated else s
  | .deleted => { s with subscriptionActive := false, subscriptionID := 0 }

def signals (σs : List Signal) : Shared := σs.foldl signal s

/-- The application enters a function. -/
def enter (s' : Shared) : Option Shared := if s.app = .idle then some s' else none

/-- The next access of the function the application is in. -/
def proceed : Option Shared :=
  match s.app with
  | .testActive => some { s with app := if s.subscriptionActive then .clearActive else .idle }
  | .clearActive => some { s with subscriptionActive := false, app := .testThread }
  | .testThread =>
    some { s with app := if s.opcuaThread.isSome then .recordRemoval else .delete .deactivate }
  | .recordRemoval =>
    some (record { s with subscriptionNeedsToBeRemoved := true, app := .idle } .recorded)
  | .clearID remover => some { s with subscriptionID := 0, app := remover.next }
  | .testID =>
    some { s with app := if s.subscriptionID ≠ 0 then .delete .createSubscription else .request }
  | .storeID subscriptionId => some { s with subscriptionID := subscriptionId, app := .setActive }
  | .setActive => some { s with subscriptionActive := true, app := .idle }
  | .spawn =>
    -- assigning to the object of a running thread ends the program
    if s.opcuaThread = none then some { s with opcuaThread := some .loopHead, app := .idle }
    else none
  | .clearRun => some { s with run := false, app := .join }
  | .join =>
    match s.opcuaThread with
    | none => some { s with app := .idle }
    | some .ended => some { s with opcuaThread := none, app := .idle }
    | some _ => none
  | _ => none

/-- The request of `removeSubscription`. -/
def requestDeletion (σs : List Signal) : Option Shared :=
  match s.app with
  | .delete remover =>
    let s := (s.record (.deleted s.subscriptionID false)).signals σs
    some { s with app := .clearID remover }
  | _ => none

/-- The request of `createSubscription`, with the id of a GOOD answer. -/
def requestSubscription (answer : Option Nat) (σs : List Signal) : Option Shared :=
  match s.app, answer with
  | .request, some subscriptionId =>
    let s := (s.record (.created subscriptionId)).signals σs
    some { s with app := .storeID subscriptionId }
  | .request, none => some { s.signals σs with app := .idle }
  | _, _ => none

/-- The removal in the clean-up of the client thread. -/
def removeRecorded (σs : List Signal) : Shared :=
  let s := (s.record (.deleted s.subscriptionID true)).signals σs
  { s with subscriptionID := 0, subscriptionNeedsToBeRemoved := false }

/-- A step of `runClient`. -/
def clientStep (good : Bool) (σs : List Signal) : Option Shared :=
  match s.opcuaThread with
  | some .loopHead =>
    some { s with opcuaThread := some (if s.run then .iterating else .cleanUp) }
  | some .iterating =>
    let s := s.signals σs
    let stay := !s.subscriptionNeedsToBeRemoved && good
    some { s with opcuaThread := some (if stay then .loopHead else .cleanUp) }
  | some .cleanUp =>
    let s := if s.subscriptionNeedsToBeRemoved then s.removeRecorded σs else s
    some { s with opcuaThread := some .finishing }
  | some .finishing => some { s with run := false, opcuaThread := some .ended }
  | _ => none

def exec : Action → Option Shared
  | .deactivate => s.enter { s with run := false, app := .testActive }
  | .createSubscription => s.enter { s with app := .testID }
  | .start =>
    s.enter (if s.subscriptionActive then { s with run := true, app := .spawn }
      else { s with run := false })
  | .stopClientThread => s.enter { s with app := .join }
  | .unsubscribeLast => s.enter { s with app := .delete .unsubscribe }
  | .proceed => s.proceed
  | .requestDeletion σs => s.requestDeletion σs
  | .requestSubscription answer σs => s.requestSubscription answer σs
  | .call σs => s.enter (s.signals σs)
  | .client good σs => s.clientStep good σs

end Shared

/-- Subscription ids are never zero. -/
def Action.Documented : Action → Prop
  | .requestSubscription (some subscriptionId) _ => subscriptionId ≠ 0
  | _ => True

instance Action.Documented.decidable (a : Action) : Decidable a.Documented := by
  unfold Action.Documented; split <;> infer_instance

/-- Both threads, from the state of a new manager on. -/
def lifecycles : Machine Shared Action where
  init s := s = {}
  step s a s' := a.Documented ∧ s.exec a = some s'

/-! ## What the history says -/

/-- What the event says about the subscription created last: its id, or that it is requested to
be deleted. -/
def LifecycleEvent.standing : LifecycleEvent → Option (Option Nat)
  | .recorded => none
  | .created subscriptionId => some (some subscriptionId)
  | .deleted _ _ => some none

/-- The subscription created last has the id, and no deletion has been requested since. -/
def Standing (subscriptionId : Nat) (h : List LifecycleEvent) : Prop :=
  h.findSome? LifecycleEvent.standing = some (some subscriptionId)

instance (subscriptionId : Nat) (h : List LifecycleEvent) :
    Decidable (Standing subscriptionId h) := by
  unfold Standing; infer_instance

/-- The event is a creation, as opposed to the record of a request. -/
def LifecycleEvent.creates : LifecycleEvent → Option Bool
  | .recorded => some false
  | .created _ => some true
  | .deleted _ _ => none

/-- A request is recorded, and no subscription was created since. -/
def Awaited (h : List LifecycleEvent) : Prop :=
  h.findSome? LifecycleEvent.creates = some false

instance (h : List LifecycleEvent) : Decidable (Awaited h) := by
  unfold Awaited; infer_instance

/-- A deletion for a recorded request concerns no subscription created after it was recorded. -/
def LifecycleEvent.Directed (past : List LifecycleEvent) : LifecycleEvent → Prop
  | .deleted _ true => Awaited past
  | _ => True

instance LifecycleEvent.Directed.decidable (past : List LifecycleEvent) (e : LifecycleEvent) :
    Decidable (e.Directed past) := by
  unfold LifecycleEvent.Directed; split <;> infer_instance

/-- The active subscription is the one created last, and its deletion has not been requested. -/
def Shared.Current (s : Shared) : Prop :=
  s.subscriptionActive = true → s.subscriptionID ≠ 0 ∧ Standing s.subscriptionID s.history

instance (s : Shared) : Decidable s.Current := by
  unfold Shared.Current; infer_instance

/-! ## The condition -/

/-- A subscription is created only while none is active and no request is recorded; the
callbacks inside a request to delete the active subscription make it inactive; and no deletion
is noted between the storing of an id and the setting of `_subscriptionActive`. -/
def Careful (s : Shared) : Action → Prop
  | .createSubscription =>
    s.subscriptionActive = false ∧ s.subscriptionNeedsToBeRemoved = false
  | .requestDeletion σs => (s.signals σs).subscriptionActive = false
  | .client _ σs => s.app = .setActive → .deleted ∉ σs
  | _ => True

instance Careful.decidable (s : Shared) (a : Action) : Decidable (Careful s a) := by
  unfold Careful; split <;> infer_instance

/-! ## The invariant -/

/-- The application is about to set a new subscription. -/
def Application.Creating : Application → Prop
  | .testID | .delete .createSubscription | .clearID .createSubscription | .request => True
  | .storeID _ | .setActive => True
  | _ => False

/-- The application has cleared `_subscriptionActive`. -/
def Application.Cleared : Application → Prop
  | .testThread | .recordRemoval | .delete .deactivate | .clearID _ => True
  | _ => False

/-- What holds whatever the callbacks inside a deletion do. -/
structure Waiting (s : Shared) : Prop where
  recorded : s.subscriptionNeedsToBeRemoved = true →
    s.subscriptionActive = false ∧ ¬ s.app.Creating ∧ Awaited s.history
  creating : s.app.Creating → s.subscriptionActive = false
  cleared : s.app.Cleared → s.subscriptionActive = false
  answered : ∀ subscriptionId, s.app = .storeID subscriptionId →
    subscriptionId ≠ 0 ∧ Standing subscriptionId s.history
  stored : s.app = .setActive → s.subscriptionID ≠ 0 ∧ Standing s.subscriptionID s.history
  directed : Along LifecycleEvent.Directed s.history

/-- The invariant. -/
structure Sound (s : Shared) : Prop extends Waiting s where
  current : s.Current

section Events

variable {h : List LifecycleEvent} {subscriptionId : Nat}

theorem standing_created (h : List LifecycleEvent) :
    Standing subscriptionId (.created subscriptionId :: h) := rfl

theorem awaited_recorded (h : List LifecycleEvent) : Awaited (.recorded :: h) := rfl

theorem awaited_deleted {forRecorded : Bool} :
    Awaited (.deleted subscriptionId forRecorded :: h) ↔ Awaited h := Iff.rfl

end Events

/-! ## Callbacks -/

section Callbacks

variable {s : Shared}

/-- What a callback changes. -/
theorem Shared.signal_cases (s : Shared) (σ : Signal) :
    (∃ run, s.signal σ = { s with run := run }) ∨
    (∃ run, s.signal σ = { s with run := run, subscriptionActive := false }) ∨
    (s.subscriptionActive = true ∧ s.signal σ = { s with
      run := false
      subscriptionActive := false
      subscriptionNeedsToBeRemoved := true
      history := .recorded :: s.history }) ∨
    (σ = .deleted ∧ s.signal σ = { s with subscriptionActive := false, subscriptionID := 0 }) := by
  cases σ with
  | lost =>
    unfold signal
    simp only
    by_cases hrun : s.run = true
    · rw [if_pos hrun]
      unfold deactivated
      simp only
      by_cases hactive : s.subscriptionActive = true
      · rw [if_pos hactive]
        split
        · exact .inr (.inr (.inl ⟨hactive, rfl⟩))
        · exact .inr (.inl ⟨false, rfl⟩)
      · rw [if_neg hactive]
        exact .inl ⟨false, rfl⟩
    · rw [if_neg hrun]
      exact .inl ⟨s.run, rfl⟩
  | deleted => exact .inr (.inr (.inr ⟨rfl, rfl⟩))

theorem Shared.signal_app (s : Shared) (σ : Signal) : (s.signal σ).app = s.app := by
  rcases s.signal_cases σ with ⟨_, h⟩ | ⟨_, h⟩ | ⟨-, h⟩ | ⟨-, h⟩ <;> rw [h]

theorem Shared.signals_app (s : Shared) (σs : List Signal) : (s.signals σs).app = s.app := by
  induction σs generalizing s with
  | nil => rfl
  | cons σ σs ih => exact (ih (s.signal σ)).trans (s.signal_app σ)

theorem Waiting.signal (h : Waiting s) {σ : Signal} (hσ : s.app = .setActive → σ ≠ .deleted) :
    Waiting (s.signal σ) := by
  rcases s.signal_cases σ with ⟨_, he⟩ | ⟨_, he⟩ | ⟨hactive, he⟩ | ⟨hdel, he⟩
  · exact he ▸ ⟨h.recorded, h.creating, h.cleared, h.answered, h.stored, h.directed⟩
  · exact he ▸ ⟨fun hr => ⟨rfl, (h.recorded hr).2⟩, fun _ => rfl, fun _ => rfl, h.answered,
      h.stored, h.directed⟩
  · -- the request is recorded while the subscription is active, so none is being created
    have hidle : ¬ s.app.Creating := fun hc => by simp [h.creating hc] at hactive
    exact he ▸ ⟨fun _ => ⟨rfl, hidle, awaited_recorded _⟩, fun _ => rfl, fun _ => rfl,
      h.answered, h.stored, trivial, h.directed⟩
  · refine he ▸ ⟨fun hr => ⟨rfl, (h.recorded hr).2⟩, fun _ => rfl, fun _ => rfl, h.answered, ?_,
      h.directed⟩
    exact fun happ => absurd hdel (hσ happ)

theorem Waiting.signals (h : Waiting s) {σs : List Signal}
    (hσs : s.app = .setActive → .deleted ∉ σs) : Waiting (s.signals σs) := by
  induction σs generalizing s with
  | nil => exact h
  | cons σ σs ih =>
    refine ih (h.signal fun happ hσ => ?_) fun happ hmem => ?_
    · exact hσs happ (hσ ▸ List.mem_cons_self ..)
    · exact hσs (s.signal_app σ ▸ happ) (List.mem_cons_of_mem _ hmem)

theorem Shared.Current.signal (h : s.Current) (σ : Signal) : (s.signal σ).Current := by
  rcases s.signal_cases σ with ⟨_, he⟩ | ⟨_, he⟩ | ⟨-, he⟩ | ⟨-, he⟩
  · exact he ▸ h
  all_goals exact he ▸ fun hactive => by cases hactive

theorem Sound.signals (h : Sound s) {σs : List Signal}
    (hσs : s.app = .setActive → .deleted ∉ σs) : Sound (s.signals σs) := by
  refine ⟨h.toWaiting.signals hσs, ?_⟩
  have hcurrent := h.current
  clear h hσs
  induction σs generalizing s with
  | nil => exact hcurrent
  | cons σ σs ih => exact ih (hcurrent.signal σ)

theorem Shared.signals_inactive (h : s.subscriptionActive = false) (σs : List Signal) :
    (s.signals σs).subscriptionActive = false := by
  induction σs generalizing s with
  | nil => exact h
  | cons σ σs ih =>
    refine ih ?_
    rcases s.signal_cases σ with ⟨_, he⟩ | ⟨_, he⟩ | ⟨-, he⟩ | ⟨-, he⟩
    · exact he ▸ h
    all_goals exact he ▸ rfl

theorem Shared.signals_standing (s : Shared) (σs : List Signal) (subscriptionId : Nat) :
    Standing subscriptionId (s.signals σs).history ↔ Standing subscriptionId s.history := by
  induction σs generalizing s with
  | nil => exact Iff.rfl
  | cons σ σs ih =>
    refine (ih (s.signal σ)).trans ?_
    rcases s.signal_cases σ with ⟨_, he⟩ | ⟨_, he⟩ | ⟨-, he⟩ | ⟨-, he⟩
    all_goals exact he ▸ Iff.rfl

/-- What callbacks do to the flags does not depend on the history. -/
theorem Shared.signals_lifecycle {s₁ s : Shared} (h : s₁.toLifecycle = s.toLifecycle)
    (σs : List Signal) : (s₁.signals σs).toLifecycle = (s.signals σs).toLifecycle := by
  induction σs generalizing s s₁ with
  | nil => exact h
  | cons σ σs ih =>
    refine ih ?_
    obtain ⟨l, app, history⟩ := s
    obtain ⟨l₁, app₁, history₁⟩ := s₁
    obtain rfl : l₁ = l := h
    cases σ with
    | lost =>
      simp only [signal, deactivated, record]
      split
      · split
        · split <;> rfl
        · rfl
      · rfl
    | deleted => rfl

end Callbacks

/-! ## The steps of the application -/

section Steps

variable {s s' : Shared}

/-- The place of the client thread and `_run` play no part in the invariant. -/
theorem Sound.rethread (h : Sound s) (run : Bool) (t : Option ClientThread) :
    Sound { s with run := run, opcuaThread := t } :=
  ⟨⟨h.recorded, h.creating, h.cleared, h.answered, h.stored, h.directed⟩, h.current⟩

theorem Waiting.not_recorded (h : Waiting s) (hc : s.app.Creating) :
    s.subscriptionNeedsToBeRemoved = false := by
  cases hr : s.subscriptionNeedsToBeRemoved with
  | false => rfl
  | true => exact absurd hc (h.recorded hr).2.1

/-- The application goes on to `app`. -/
theorem Sound.move (h : Sound s) {app : Application}
    (hcreating : app.Creating →
      s.subscriptionActive = false ∧ s.subscriptionNeedsToBeRemoved = false)
    (hcleared : app.Cleared → s.subscriptionActive = false)
    (hanswered : ∀ subscriptionId, app ≠ .storeID subscriptionId)
    (hstored : app = .setActive → s.subscriptionID ≠ 0 ∧ Standing s.subscriptionID s.history) :
    Sound { s with app := app } := by
  refine ⟨⟨fun hr => ?_, fun hc => (hcreating hc).1, hcleared, ?_, hstored, h.directed⟩, h.current⟩
  · obtain ⟨hactive, -, hawaited⟩ := h.recorded hr
    refine ⟨hactive, fun hc => ?_, hawaited⟩
    simp [show s.subscriptionNeedsToBeRemoved = true from hr] at hcreating
    exact hcreating hc
  · exact fun subscriptionId happ => absurd happ (hanswered subscriptionId)

/-- The application goes on to a place where nothing is required. -/
theorem Sound.leave (h : Sound s) {app : Application} (hcreating : ¬ app.Creating)
    (hcleared : ¬ app.Cleared) : Sound { s with app := app } := by
  refine h.move (fun hc => absurd hc hcreating) (fun hc => absurd hc hcleared) ?_ ?_
  · rintro subscriptionId rfl
    exact hcreating trivial
  · rintro rfl
    exact absurd trivial hcreating

/-- The application goes on to `app` with `_subscriptionActive` cleared. -/
theorem Waiting.inactive (h : Waiting s) (hactive : s.subscriptionActive = false)
    {app : Application} (hcreating : app.Creating → s.subscriptionNeedsToBeRemoved = false)
    (hanswered : ∀ subscriptionId, app ≠ .storeID subscriptionId) (hstored : app ≠ .setActive)
    (id : Nat) : Sound { s with subscriptionID := id, app := app } := by
  refine ⟨⟨fun hr => ⟨hactive, fun hc => ?_, (h.recorded hr).2.2⟩, fun _ => hactive,
    fun _ => hactive, ?_, fun happ => absurd happ hstored, h.directed⟩, fun ha => ?_⟩
  · simp [show s.subscriptionNeedsToBeRemoved = true from hr] at hcreating
    exact hcreating hc
  · exact fun subscriptionId happ => absurd happ (hanswered subscriptionId)
  · simp [show s.subscriptionActive = true from ha] at hactive

theorem Sound.proceed (h : Sound s) (hs : s.proceed = some s') : Sound s' := by
  unfold Shared.proceed at hs
  cases happ : s.app <;> simp only [happ] at hs
  case testActive =>
    obtain rfl := Option.some.inj hs
    split
    · exact h.leave id id
    · exact h.leave id id
  case clearActive =>
    obtain rfl := Option.some.inj hs
    have hwait : Waiting { s with subscriptionActive := false } :=
      ⟨fun hr => ⟨rfl, (h.recorded hr).2⟩, fun _ => rfl, fun _ => rfl, h.answered, h.stored,
        h.directed⟩
    exact hwait.inactive rfl False.elim (by simp) (by simp) _
  case testThread =>
    obtain rfl := Option.some.inj hs
    have hclear := h.cleared (happ ▸ trivial)
    split
    · exact h.inactive hclear False.elim (by simp) (by simp) _
    · exact h.inactive hclear False.elim (by simp) (by simp) _
  case recordRemoval =>
    obtain rfl := Option.some.inj hs
    have hclear := h.cleared (happ ▸ trivial)
    -- the application is not creating a subscription while it records a request
    have hwait : Waiting (s.record .recorded) :=
      ⟨fun hr => ⟨hclear, (h.recorded hr).2.1, awaited_recorded _⟩, h.creating, h.cleared,
        h.answered, h.stored, trivial, h.directed⟩
    have hwait' : Waiting { s.record .recorded with subscriptionNeedsToBeRemoved := true } :=
      ⟨fun _ => ⟨hclear, happ ▸ id, awaited_recorded _⟩, h.creating, h.cleared, h.answered,
        h.stored, hwait.directed⟩
    exact hwait'.inactive hclear False.elim (by simp) (by simp) _
  case clearID remover =>
    obtain rfl := Option.some.inj hs
    have hclear := h.cleared (happ ▸ trivial)
    cases remover with
    | deactivate =>
      exact h.inactive hclear False.elim (by simp [Remover.next]) (by simp [Remover.next]) _
    | createSubscription =>
      have hnone := h.not_recorded (happ ▸ trivial)
      exact h.inactive hclear (fun _ => hnone) (by simp [Remover.next]) (by simp [Remover.next]) _
    | unsubscribe =>
      exact h.inactive hclear False.elim (by simp [Remover.next]) (by simp [Remover.next]) _
  case testID =>
    obtain rfl := Option.some.inj hs
    have hclear := h.creating (happ ▸ trivial)
    have hnone := h.not_recorded (happ ▸ trivial)
    split
    · exact h.inactive hclear (fun _ => hnone) (by simp) (by simp) _
    · exact h.inactive hclear (fun _ => hnone) (by simp) (by simp) _
  case storeID subscriptionId =>
    obtain rfl := Option.some.inj hs
    have hclear := h.creating (happ ▸ trivial)
    have hnone := h.not_recorded (happ ▸ trivial)
    refine ⟨⟨fun hr => ?_, fun _ => hclear, fun _ => hclear, ?_, fun _ => h.answered _ happ,
      h.directed⟩, fun hactive => ?_⟩
    · exact absurd (show s.subscriptionNeedsToBeRemoved = true from hr) (by simp [hnone])
    · exact fun _ happ' => by cases happ'
    · exact absurd (show s.subscriptionActive = true from hactive) (by simp [hclear])
  case setActive =>
    obtain rfl := Option.some.inj hs
    have hnone := h.not_recorded (happ ▸ trivial)
    refine ⟨⟨fun hr => ?_, False.elim, False.elim, ?_, ?_, h.directed⟩, fun _ => h.stored happ⟩
    · exact absurd (show s.subscriptionNeedsToBeRemoved = true from hr) (by simp [hnone])
    · exact fun _ happ' => by cases happ'
    · exact fun happ' => by cases happ'
  case spawn =>
    split at hs
    · obtain rfl := Option.some.inj hs
      exact (h.rethread s.run (some .loopHead)).leave id id
    · cases hs
  case clearRun =>
    obtain rfl := Option.some.inj hs
    exact (h.rethread false s.opcuaThread).leave id id
  case join =>
    split at hs
    · obtain rfl := Option.some.inj hs
      exact h.leave id id
    · obtain rfl := Option.some.inj hs
      exact (h.rethread s.run none).leave id id
    · cases hs
  -- the application is in no function, or in a request
  all_goals cases hs

theorem sound_enter {s₁ : Shared} (hs : s.enter s₁ = some s')
    (h₁ : s.app = .idle → Sound s₁) : Sound s' := by
  unfold Shared.enter at hs
  split at hs
  · rename_i happ
    obtain rfl := Option.some.inj hs
    exact h₁ happ
  · cases hs

theorem Sound.requestDeletion (h : Sound s) {σs : List Signal}
    (hclear : (s.signals σs).subscriptionActive = false)
    (hs : s.requestDeletion σs = some s') : Sound s' := by
  unfold Shared.requestDeletion at hs
  split at hs
  · rename_i remover happ
    obtain rfl := Option.some.inj hs
    let s₁ := s.record (.deleted s.subscriptionID false)
    have happ₁ : s₁.app ≠ .setActive := by simp [s₁, Shared.record, happ]
    have hwait : Waiting s₁ := by
      refine ⟨fun hr => ?_, h.creating, h.cleared, ?_, ?_, trivial, h.directed⟩
      · obtain ⟨hactive, hidle, hawaited⟩ := h.recorded hr
        exact ⟨hactive, hidle, awaited_deleted.mpr hawaited⟩
      · exact fun _ hstore => by simp [s₁, Shared.record, happ] at hstore
      · exact fun hset => absurd hset happ₁
    have hsignals : Waiting (s₁.signals σs) := hwait.signals fun hset => absurd hset happ₁
    have hlife : (s₁.signals σs).toLifecycle = (s.signals σs).toLifecycle :=
      Shared.signals_lifecycle (show s₁.toLifecycle = s.toLifecycle from rfl) σs
    have hinactive : (s₁.signals σs).subscriptionActive = false :=
      (congrArg Lifecycle.subscriptionActive hlife).trans hclear
    refine hsignals.inactive hinactive (fun hc => ?_) (by simp) (by simp) _
    -- only `createSubscription` goes on to create one, and then no request is recorded
    have hcreating : (s₁.signals σs).app.Creating := by
      rw [Shared.signals_app]
      cases remover with
      | createSubscription =>
        show s.app.Creating
        exact happ ▸ trivial
      | deactivate => exact hc.elim
      | unsubscribe => exact hc.elim
    exact hsignals.not_recorded hcreating
  · cases hs

theorem Sound.requestSubscription (h : Sound s) {answer : Option Nat} {σs : List Signal}
    (hid : ∀ subscriptionId ∈ answer, subscriptionId ≠ 0)
    (hs : s.requestSubscription answer σs = some s') : Sound s' := by
  unfold Shared.requestSubscription at hs
  split at hs
  · rename_i subscriptionId happ
    obtain rfl := Option.some.inj hs
    have hclear := h.creating (happ ▸ trivial)
    have hnone := h.not_recorded (happ ▸ trivial)
    let s₁ := s.record (.created subscriptionId)
    have happ₁ : s₁.app = .request := happ
    have hwait : Waiting s₁ := by
      refine ⟨fun hr => ?_, h.creating, h.cleared, ?_, ?_, trivial, h.directed⟩
      · exact absurd (show s.subscriptionNeedsToBeRemoved = true from hr) (by simp [hnone])
      · exact fun _ hstore => by simp [happ₁] at hstore
      · exact fun hset => by simp [happ₁] at hset
    have hsignals : Waiting (s₁.signals σs) := hwait.signals fun hset => by simp [happ₁] at hset
    have happ₂ : (s₁.signals σs).app = .request := (Shared.signals_app _ _).trans happ
    have hclear₂ := hsignals.creating (happ₂ ▸ trivial)
    have hnone₂ := hsignals.not_recorded (happ₂ ▸ trivial)
    refine ⟨⟨fun hr => ?_, fun _ => hclear₂, fun _ => hclear₂, ?_, ?_, hsignals.directed⟩,
      fun hactive => ?_⟩
    · exact absurd (show (s₁.signals σs).subscriptionNeedsToBeRemoved = true from hr)
        (by simp [hnone₂])
    · rintro _ ⟨⟩
      refine ⟨hid subscriptionId rfl, ?_⟩
      exact (s₁.signals_standing σs subscriptionId).mpr (standing_created s.history)
    · exact fun happ' => by cases happ'
    · exact absurd (show (s₁.signals σs).subscriptionActive = true from hactive)
        (by simp [hclear₂])
  · rename_i happ
    obtain rfl := Option.some.inj hs
    have hsignals : Sound (s.signals σs) := h.signals fun hset => by simp [happ] at hset
    exact hsignals.leave id id
  · cases hs

/-! ## The steps of the client thread -/

theorem Sound.removeRecorded (h : Sound s) (hr : s.subscriptionNeedsToBeRemoved = true)
    (σs : List Signal) : Sound (s.removeRecorded σs) := by
  obtain ⟨hactive, hidle, hawaited⟩ := h.recorded hr
  let s₁ := s.record (.deleted s.subscriptionID true)
  have hset : s.app ≠ .setActive := fun happ => hidle (happ ▸ trivial)
  have hwait : Waiting s₁ := by
    refine ⟨fun _ => ⟨hactive, hidle, awaited_deleted.mpr hawaited⟩, h.creating, h.cleared, ?_, ?_,
      hawaited, h.directed⟩
    · intro subscriptionId happ
      have happ' : s.app = .storeID subscriptionId := happ
      exact absurd (happ' ▸ trivial) hidle
    · exact fun happ => absurd happ hset
  have hsignals : Waiting (s₁.signals σs) := hwait.signals fun happ => absurd happ hset
  have happ : (s₁.signals σs).app = s.app := Shared.signals_app _ _
  have hclear : (s₁.signals σs).subscriptionActive = false :=
    Shared.signals_inactive (s := s₁) hactive σs
  have hidle₁ : ¬ (s₁.signals σs).app.Creating := happ ▸ hidle
  refine ⟨⟨fun hr' => (by cases hr'), fun _ => hclear, fun _ => hclear, hsignals.answered, ?_,
    hsignals.directed⟩, fun ha => ?_⟩
  · exact fun hset' => absurd (happ.symm.trans hset') hset
  · exact absurd (show (s₁.signals σs).subscriptionActive = true from ha) (by simp [hclear])

theorem Sound.clientStep (h : Sound s) {good : Bool} {σs : List Signal}
    (hσs : s.app = .setActive → .deleted ∉ σs) (hs : s.clientStep good σs = some s') :
    Sound s' := by
  unfold Shared.clientStep at hs
  split at hs
  · obtain rfl := Option.some.inj hs
    exact h.rethread s.run _
  · obtain rfl := Option.some.inj hs
    exact (h.signals hσs).rethread _ _
  · obtain rfl := Option.some.inj hs
    by_cases hr : s.subscriptionNeedsToBeRemoved = true
    · rw [if_pos hr]
      exact (h.removeRecorded hr σs).rethread _ _
    · rw [if_neg hr]
      exact h.rethread s.run _
  · obtain rfl := Option.some.inj hs
    exact h.rethread false _
  · cases hs

/-- **Every careful step** keeps the invariant. -/
theorem Sound.exec (h : Sound s) {a : Action} (hc : Careful s a) (hd : a.Documented)
    (hs : s.exec a = some s') : Sound s' := by
  cases a with
  | deactivate => exact sound_enter hs fun _ => (h.rethread false s.opcuaThread).leave id id
  | createSubscription =>
    refine sound_enter hs fun _ => h.move (fun _ => hc) False.elim (by simp) (by simp)
  | start =>
    refine sound_enter hs fun _ => ?_
    split
    · exact (h.rethread true s.opcuaThread).leave id id
    · exact h.rethread false s.opcuaThread
  | stopClientThread => exact sound_enter hs fun _ => h.leave id id
  | unsubscribeLast => exact sound_enter hs fun _ => h.leave id id
  | proceed => exact h.proceed hs
  | requestDeletion σs => exact h.requestDeletion hc hs
  | requestSubscription answer σs =>
    refine h.requestSubscription (fun subscriptionId hmem => ?_) hs
    obtain rfl := Option.mem_def.mp hmem
    exact hd
  | call σs => exact sound_enter hs fun happ => h.signals fun hset => by simp [happ] at hset
  | client good σs => exact h.clientStep hc hs

/-- **The subscription's lifecycle.** In every run of careful steps, in whatever order the two
threads make them, a recorded request removes no subscription created after it, and the active
subscription is the one created last, whose deletion has not been requested. -/
theorem reach_lifecycle (h : lifecycles.Reach Careful s) :
    Along LifecycleEvent.Directed s.history ∧
      (s.subscriptionActive = true → s.subscriptionID ≠ 0 ∧ Standing s.subscriptionID s.history) := by
  have hsound : Sound s := by
    refine h.invariant ?_ fun s a s' ih hc hstep => ih.exec hc hstep.1 hstep.2
    rintro s rfl
    refine ⟨⟨by simp, by simp, by simp, by simp, by simp, trivial⟩, ?_⟩
    exact fun hactive => by cases hactive
  exact ⟨hsound.directed, hsound.current⟩

end Steps

/-! ## Runs -/

/-- The state after a list of steps. -/
def Action.run (s : Shared) (as : List Action) : Shared :=
  as.foldl (fun s a => (s.exec a).getD s) s

/-- The steps can be made one after the other, each in a state where `guard` allows it. -/
def Action.Legal (guard : Shared → Action → Prop) (s : Shared) : List Action → Prop
  | [] => True
  | a :: as => guard s a ∧ a.Documented ∧ (s.exec a).isSome = true ∧
      Action.Legal guard ((s.exec a).getD s) as

instance Action.Legal.decidable (guard : Shared → Action → Prop)
    [∀ s a, Decidable (guard s a)] : (s : Shared) → (as : List Action) →
      Decidable (Action.Legal guard s as)
  | _, [] => .isTrue trivial
  | s, a :: as =>
    have := Action.Legal.decidable guard ((s.exec a).getD s) as
    inferInstanceAs (Decidable (_ ∧ _ ∧ _ ∧ _))

theorem reach_actions {guard : Shared → Action → Prop} {s : Shared} (as : List Action)
    (h : lifecycles.Reach guard s) (hl : Action.Legal guard s as) :
    lifecycles.Reach guard (Action.run s as) := by
  induction as generalizing s with
  | nil => exact h
  | cons a as ih =>
    obtain ⟨hguard, hdoc, hsome, hl⟩ := hl
    obtain ⟨s', hs'⟩ := Option.isSome_iff_exists.mp hsome
    have hget : (s.exec a).getD s = s' := by rw [hs', Option.getD_some]
    have hstep : lifecycles.Reach guard s' := h.step hguard ⟨hdoc, hs'⟩
    exact ih (show lifecycles.Reach guard ((s.exec a).getD s) from hget.symm ▸ hstep) hl

/-- A subscription is created with the given id, and the client thread is started. -/
def created (subscriptionId : Nat) : List Action :=
  [.createSubscription, .proceed, .requestSubscription (some subscriptionId) [], .proceed,
    .proceed, .start, .proceed]

/-- The application deactivates the subscription and waits for the client thread, which removes
it. -/
def deactivatedAndJoined : List Action :=
  [.deactivate, .proceed, .proceed, .proceed, .proceed, .client true [], .client true [.deleted],
    .client true [], .stopClientThread, .proceed]

theorem reach_lifecycle_recreated :
    Along LifecycleEvent.Directed
        (Action.run {} (created 1 ++ deactivatedAndJoined ++ created 2)).history ∧
      Standing 2 (Action.run {} (created 1 ++ deactivatedAndJoined ++ created 2)).history := by
  have hreach : lifecycles.Reach Careful
      (Action.run {} (created 1 ++ deactivatedAndJoined ++ created 2)) :=
    reach_actions _ (.init rfl) (by decide)
  obtain ⟨hdirected, hcurrent⟩ := reach_lifecycle hreach
  exact ⟨hdirected, (hcurrent (by decide)).2⟩

/-- The loop of the first client thread ends with an error before the request is recorded, which
then waits for the client thread of the second subscription. -/
def misdirected : List Action :=
  created 1 ++ [.client true [], .client false [], .client true [], .client true [],
    .deactivate, .proceed, .proceed, .proceed, .proceed, .stopClientThread, .proceed,
    .createSubscription, .proceed, .requestDeletion [.deleted], .proceed,
    .requestSubscription (some 2) [], .proceed, .proceed, .start, .proceed,
    .client true [], .client true [], .client true []]

/-- The request recorded for the first subscription deletes the second one. -/
theorem not_directed_misdirected :
    ¬ ∀ s, lifecycles.Reachable s → Along LifecycleEvent.Directed s.history ∧
      (s.subscriptionActive = true → s.subscriptionID ≠ 0 ∧ Standing s.subscriptionID s.history) := by
  intro h
  have hreach : lifecycles.Reachable (Action.run {} misdirected) :=
    reach_actions misdirected (.init rfl) (by decide)
  exact absurd (h _ hreach).1 (by decide)

end OpcUaBackend
