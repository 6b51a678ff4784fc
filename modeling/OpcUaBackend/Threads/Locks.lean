import OpcUaBackend.Manager.Activation
import OpcUaBackend.Threads.Effects

/-!
# The lock discipline

The locks are not recursive. Some functions take `client_lock` themselves, some expect that
their caller holds it, and `deactivate` takes it when there is no thread object. The code
follows a discipline with three exceptions: `createSubscription` removes a left over
subscription without `client_lock`, `deactivate` inside a callback finds no thread object, and
an exception of the queue leaves `subscribe` with the mutex locked. In every run in which none
of them occurs, each call of the library is made with `client_lock` held, and no thread
requests a lock that it holds.

## Main definitions

* `Op.needs`, `lockDiscipline`: the locks with which each operation is run
* `LockDiscipline`: the property
* `Orderly`: the condition on a step

## Main results

* `Op.exec_goes`: every operation under the condition follows the discipline
* `reach_lockDiscipline`: the property holds in every state reached
-/

namespace OpcUaBackend

open Foundation

variable {V α : Type}

/-! ## The discipline -/

/-- The thread holds neither `client_lock` nor the mutex. -/
def Free (H : List Lock) : Prop := .clientLock ∉ H ∧ .mutex ∉ H

/-- The locks with which an operation may be run. What can leave a call by an exception is run
without a lock. -/
@[simp] def Op.needs : Op V → List Lock → Prop
  | clearActive _, H => ∃ H₁, H = .mutex :: H₁ ∧ .mutex ∉ H₁
  | testActive _, H => .mutex ∉ H
  | testThread _, H => .mutex ∉ H
  | library _ _, H => .clientLock ∈ H ∧ .mutex ∉ H
  | callback _, H => .mutex ∉ H
  | testConnection, H => .mutex ∉ H
  | storeID _ noexcept, H => noexcept = false → H = []
  | loopItems _, H => ∃ H₁, H = .mutex :: H₁ ∧ Free H₁
  | monitorItem _ _, H => ∃ H₁, H = .mutex :: H₁ ∧ Free H₁
  | answered _ _ _, H => ∃ H₁, H = .mutex :: H₁ ∧ Free H₁
  | ensureSubscription _ noexcept, H => Free H ∧ (noexcept = false → H = [])
  | testItems _, H => Free H
  | enterItem _ _ _ _, H => H = [.mutex]
  | testAsync _, H => H = []
  | leaveItem _ _ _, H => ∃ H₁, H = .mutex :: H₁ ∧ Free H₁
  | testRemoved _ _ _, H => Free H
  | testEmpty _, H => Free H
  | findItem _ _, H => .mutex ∉ H
  | testRemoval _, H => .clientLock ∈ H ∧ .mutex ∉ H
  | resetManager _, H => Free H
  | connected _, H => H = []
  | testConnected _ _, H => H = []
  | finishOpen, H => H = []
  | setActiveException _, H => Free H
  | testFunctional _, H => Free H
  | testOpened, H => H = []
  | checkActiveException, H => H = []
  | readReturned _ _ _ _ _, H => H = [.clientLock]
  | readBeforeWrite _ _ _ _ _, H => H = []
  | overwrite _ _ _, H => H = []
  | writeReturned _ _ _ _, H => H = [.clientLock]
  | reportError _ _, H => .mutex ∉ H
  | throw, H => H = []
  | _, _ => True

/-- The locks that are held when an operation and its code are done. Nothing follows `throw`;
it stands where the code of the transfers holds `client_lock` otherwise. -/
@[simp] def Op.locksAfter : Op V → List Lock → List Lock
  | clearActive _, H => H.tail
  | enterItem _ _ _ _, H => H.tail
  | leaveItem _ _ _, H => H.tail
  | throw, _ => [.clientLock]
  | _, H => H

@[simp] def lockDiscipline (V : Type) : Discipline (Op V) Lock := ⟨Op.needs, Op.locksAfter⟩

/-! ## The code of the functions -/

section Functions

variable {H : List Lock} (r : Replies V) (reply : Reply V UA_StatusCode)

theorem follows_handleException (message : String) (deactivating : Bool) (hH : .mutex ∉ H) :
    (lockDiscipline V).Follows H (Code.handleException message deactivating) H := by
  simp [Code.handleException, hH]

theorem follows_deactivate (hH : .mutex ∉ H) :
    (lockDiscipline V).Follows H (Code.deactivate reply) H := by
  simp [Code.deactivate, hH]

theorem follows_deactivateAllAndPushException (message : String) (hH : .mutex ∉ H) :
    (lockDiscipline V).Follows H (Code.deactivateAllAndPushException reply message) H :=
  (follows_handleException message true hH).append (follows_deactivate reply hH)

theorem follows_resetMonitoredItems (hH : .mutex ∉ H) :
    (lockDiscipline V).Follows H Code.resetMonitoredItems H := by
  simp [Code.resetMonitoredItems, hH]

/-- `removeSubscription` expects `client_lock` to be held. -/
theorem follows_removeSubscription (hclient : .clientLock ∈ H) (hH : .mutex ∉ H) :
    (lockDiscipline V).Follows H (Code.removeSubscription reply) H := by
  refine Discipline.Follows.append (K := H) ?_ (follows_resetMonitoredItems hH)
  simp [hclient, hH]

theorem follows_createSubscription {noexcept : Bool} (hH : Free H)
    (hempty : noexcept = false → H = []) :
    (lockDiscipline V).Follows H (Code.createSubscription r noexcept) H := by
  obtain ⟨hclient, hmutex⟩ := hH
  simpa [Code.createSubscription, hclient, hmutex]
    using hempty

theorem follows_addMonitoredItems (replies : Nat → Reply V MonitoredItemCreateResult)
    (hH : Free H) : (lockDiscipline V).Follows H (Code.addMonitoredItems replies) H := by
  simp [Code.addMonitoredItems, hH, hH.2]

theorem follows_activate {noexcept : Bool} (hH : Free H) (hempty : noexcept = false → H = []) :
    (lockDiscipline V).Follows H (Code.activate r noexcept) H := by
  simpa [Code.activate, hH] using hempty

theorem follows_resetClient (hH : Free H) :
    (lockDiscipline V).Follows H (Code.resetClient r) H := by
  simp [Code.resetClient, hH, hH.1, hH.2]

theorem follows_prepare : (lockDiscipline V).Follows [] (Code.prepare r) [] :=
  (follows_createSubscription r ⟨by simp, by simp⟩ fun _ => rfl).append
    (follows_addMonitoredItems _ ⟨by simp, by simp⟩)

theorem follows_connect (reset : Replies V) :
    (lockDiscipline V).Follows [] (Code.connect reset r) [] := by
  refine (follows_resetClient reset ⟨by simp, by simp⟩).append ?_
  simp

/-- `handleError` is called with `client_lock` held and ends by an exception. -/
theorem follows_handleError (browseName : String) (reporter : Accessor) :
    (lockDiscipline V).Follows [.clientLock] (Code.handleError browseName reporter reply)
      [.clientLock] := by
  simp [Code.handleError]

theorem follows_readTransfer (browseName : String) (reporter : Accessor)
    (read : ReadReply V) :
    (lockDiscipline V).Follows [] (Code.readTransfer browseName reporter read reply) [] := by
  simp [Code.readTransfer]

/-- Every call starts without a lock. -/
theorem follows_entry {t : Thread α} {c : Entry V} {p : Process V} {code : Code V}
    (h : c.code t p = some code) : (lockDiscipline V).Follows [] code [] := by
  cases t with
  | client =>
    cases c with
    | runClient iterate removal =>
      obtain ⟨place, -, hcode⟩ := Option.bind_eq_some_iff.mp h
      cases place <;> simp only [Code.runClient, Option.some_inj, reduceCtorEq] at hcode <;>
        subst hcode <;> simp
    | _ => cases h
  | app a =>
    have hfree : Free [] := ⟨by simp, by simp⟩
    cases c <;> simp only [Entry.code, Entry.applicationCode, Option.some_inj, reduceCtorEq] at h <;>
      subst h
    case closeDevice r =>
      exact ⟨trivial, follows_resetClient r hfree⟩
    case read browseName a readReply disconnect =>
      exact ⟨rfl, follows_readTransfer disconnect browseName a readReply⟩
    case activate r => exact follows_activate r hfree fun _ => rfl
    case deactivate r => exact follows_deactivate _ hfree.2
    case deactivateAllAndPushException r message =>
      exact follows_deactivateAllAndPushException _ message hfree.2
    case prepare r => exact follows_prepare r
    case resetMonitoredItems => exact follows_resetMonitoredItems hfree.2
    all_goals
      simp [Code.openDevice, Code.activateAsyncRead, Code.setException, Code.constructAccessor,
        Code.write, Code.subscribe, Code.unsubscribe, Code.setExternalError, Code.start,
        Code.stopClientThread, Free]

end Functions

/-! ## The condition -/

/-- `front()` throws when `subscribe` asks for the initial value. -/
def World.frontThrows (r : Replies V) (browseName : String) (w : World V) : Bool :=
  match w.find? browseName with
  | none => false
  | some (_, item) =>
    item.active && r.frontOfException.isNone && item.accessors.getLast?.any fun tmp =>
      match (w.accessors tmp).notifications.front? with
      | some (.exception _) => true
      | _ => false

/-- The condition on an operation of a thread; `holds` says that the thread holds `client_lock`.
No subscription is left over when one is created, `deactivate` in a callback finds a thread
object, and `front()` does not throw. -/
def Op.Orderly (p : Process V) (holds : Prop) : Op V → Prop
  | testID _ => p.subscriptionID = 0
  | testThread _ => p.opcuaThread = none → ¬ holds
  | enterItem r browseName _ _ => p.frontThrows r browseName = false
  | _ => True

/-! ## The operations -/

section Operations

variable {H : List Lock} {p p' : Process V} {next : Next (Op V) Lock}

theorem goes_into {code : Code V} {H' : List Lock} (he : p.into code = some (p', next))
    (h : (lockDiscipline V).Follows H code H') : (lockDiscipline V).Goes H next H' := by
  obtain ⟨-, rfl⟩ := Process.into_eq.mp he
  exact h

theorem goes_out {H' : List Lock} (he : p.out = some (p', next)) (h : H = []) :
    (lockDiscipline V).Goes H next H' := by
  obtain ⟨-, rfl⟩ := Process.out_eq.mp he
  exact h

theorem enterCallback_goes (c : Callback V) (hH : .mutex ∉ H)
    (he : enterCallback c p = some (p', next)) : (lockDiscipline V).Goes H next H := by
  cases c with
  | state channelState sessionState => exact goes_into he ⟨hH, rfl⟩
  | inactivity subId =>
    simp only [enterCallback] at he
    split at he
    · exact goes_into he ((follows_deactivateAllAndPushException _ _ hH).append ⟨trivial, rfl⟩)
    · exact goes_into he rfl
  | deleteSubscription subId => exact goes_into he rfl
  | dataChange monId value =>
    simp only [enterCallback] at he
    split at he
    · exact goes_into he rfl
    · split at he
      · exact goes_into he rfl
      · split at he
        · refine goes_into he ?_
          simp [hH]
        · exact goes_into he rfl

/-- The mutex is released for the request, and `client_lock` is taken. -/
theorem monitorItem_goes (reply : Reply V MonitoredItemCreateResult) (i : Nat) (hH : Free H)
    (he : monitorItem reply i p = some (p', next)) :
    (lockDiscipline V).Goes (.mutex :: H) next (.mutex :: H) := by
  obtain ⟨hclient, hmutex⟩ := hH
  unfold monitorItem at he
  simp only at he
  split at he
  · exact goes_into he rfl
  · split at he
    · exact goes_into he rfl
    · split at he
      · exact goes_into he rfl
      · refine goes_into he ?_
        simp [Code.createDataChange, Free, hclient, hmutex]

theorem pushInitialValue_threw {front : Option (DataValue V)} {tmp a : Accessor} {w w' : World V}
    {message : String} (he : pushInitialValue front tmp a w = .threw message w') :
    (w.accessors tmp).notifications.front? = some (.exception message) ∧ front = none := by
  have hpush : ∀ data : DataValue V, (if data.hasValue then
      Result.returned (w.push (.data data) a) else .returned w) ≠ .threw message w' := by
    intro data
    split <;> simp
  unfold pushInitialValue at he
  simp only at he
  split at he
  · exact absurd he (hpush _)
  · exact absurd he (hpush _)
  · rename_i hfront
    split at he
    · obtain ⟨rfl, -⟩ := Result.threw.inj he
      exact ⟨hfront, rfl⟩
    · exact absurd he (hpush _)

theorem enterItem_goes (r : Replies V) (browseName : String) (node : UA_NodeId)
    (accessor : Accessor) (hthrows : p.frontThrows r browseName = false)
    (he : enterItem r browseName node accessor p = some (p', next)) :
    (lockDiscipline V).Goes [.mutex] next [] := by
  unfold enterItem at he
  simp only at he
  split at he
  · exact goes_into he ⟨_, rfl, rfl, rfl⟩
  · rename_i i item hfind
    split at he
    · exact goes_into he ⟨_, rfl, rfl⟩
    · rename_i tmp htmp
      split at he
      · rename_i hactive
        split at he
        · exact goes_into he ⟨_, rfl, rfl⟩
        · -- an exception of the queue would leave the mutex locked
          rename_i message w hthrew
          obtain ⟨hfront, hnone⟩ := pushInitialValue_threw hthrew
          have hfind' : p.find? browseName = some (i, item) := hfind
          have hfront' : (p.accessors tmp).notifications.front? = some (.exception message) :=
            hfront
          simp [World.frontThrows, hfind', hactive, hnone, htmp, hfront'] at hthrows
      · exact goes_into he ⟨_, rfl, rfl⟩

theorem leaveItem_goes (r : Replies V) (browseName : String) (accessor : Accessor)
    (hH : Free H) (he : leaveItem r browseName accessor p = some (p', next)) :
    (lockDiscipline V).Goes (.mutex :: H) next H := by
  unfold leaveItem at he
  split at he
  · exact goes_into he ⟨_, rfl, rfl⟩
  · split at he
    · split at he
      · exact goes_into he ⟨_, rfl, rfl⟩
      · exact goes_into he ⟨_, rfl, rfl⟩
    · exact goes_into he ⟨_, rfl, hH, rfl⟩

/-- **Every operation** that is run under the condition follows the discipline. -/
theorem Op.exec_goes {i : Op V} (hneeds : i.needs H) (horderly : i.Orderly p (.clientLock ∈ H))
    (he : i.exec p = some (p', next)) : (lockDiscipline V).Goes H next (i.locksAfter H) := by
  cases i
  case clearActive removal =>
    obtain ⟨H, rfl, hH⟩ := hneeds
    refine goes_into he ?_
    simp [hH]
  case testActive removal =>
    refine goes_into he ?_
    split
    · exact ⟨trivial, hneeds, rfl⟩
    · rfl
  case testThread removal =>
    refine goes_into he ?_
    split
    · exact ⟨trivial, rfl⟩
    · -- without a thread object `client_lock` is taken
      rename_i hthread
      have hclient : .clientLock ∉ H := horderly (by simpa using hthread)
      refine ⟨hclient, Discipline.Follows.append ?_ ⟨H, rfl, rfl⟩⟩
      have hmutex : .mutex ∉ H := hneeds
      exact follows_removeSubscription removal (List.mem_cons_self ..) (by simpa using hmutex)
  case library call callbacks =>
    refine goes_into he ?_
    generalize callbacks = cs
    induction cs with
    | nil => rfl
    | cons c cs ih => exact ⟨hneeds.2, ih⟩
  case callback c => exact enterCallback_goes c hneeds he
  case testConnection =>
    refine goes_into he ?_
    split
    · exact follows_deactivateAllAndPushException _ _ hneeds
    · rfl
  case testID removal =>
    refine goes_into he ?_
    -- the removal of a subscription that is left over would call without `client_lock`
    have hid : p.subscriptionID = 0 := horderly
    rw [if_neg (not_not.mpr hid)]
    rfl
  case storeID response noexcept =>
    simp only [Op.exec] at he
    split at he
    · exact goes_into he ⟨trivial, rfl⟩
    · split at he
      · exact goes_into he rfl
      · rename_i hexcept
        -- the exception leaves where no lock is held
        exact goes_out he (hneeds (by simpa using hexcept))
  case loopItems replies =>
    refine goes_into he ?_
    generalize List.range p.items.size = is
    induction is with
    | nil => rfl
    | cons i is ih => exact ⟨hneeds, ih⟩
  case monitorItem reply i =>
    obtain ⟨H, rfl, hH⟩ := hneeds
    exact monitorItem_goes reply i hH he
  case created result i =>
    simp only [Op.exec] at he
    split at he
    · exact goes_into he rfl
    · exact goes_into he rfl
  case answered result i browseName =>
    obtain ⟨H, rfl, hH⟩ := hneeds
    simp only [Op.exec] at he
    split at he
    · exact goes_into he rfl
    · refine goes_into he ⟨H, rfl, ?_⟩
      exact (follows_handleException _ _ hH.2).append ⟨hH.2, rfl⟩
  case ensureSubscription r noexcept =>
    refine goes_into he ?_
    split
    · rfl
    · exact follows_createSubscription r hneeds.1 hneeds.2
  case testItems r =>
    refine goes_into he ?_
    split
    · exact follows_addMonitoredItems _ hneeds
    · exact ⟨hneeds.2, trivial, H, rfl, rfl⟩
  case enterItem r browseName node accessor =>
    obtain rfl := hneeds
    exact enterItem_goes r browseName node accessor horderly he
  case testAsync r =>
    obtain rfl := hneeds
    have hfree : Free [] := ⟨by simp, by simp⟩
    refine goes_into he ?_
    split
    · exact ⟨⟨hfree, fun _ => rfl⟩, follows_addMonitoredItems _ hfree⟩
    · rfl
  case leaveItem r browseName accessor =>
    obtain ⟨H, rfl, hH⟩ := hneeds
    exact leaveItem_goes r browseName accessor hH he
  case testRemoved r browseName id =>
    obtain ⟨hclient, hmutex⟩ := hneeds
    refine goes_into he ?_
    split
    · simp [Free, hclient, hmutex]
    · rfl
  case testEmpty r =>
    refine goes_into he ?_
    split
    · refine ⟨hneeds.1, Discipline.Follows.append (K := H) ?_ ⟨trivial, rfl⟩⟩
      refine Discipline.Follows.append ?_ ⟨H, rfl, trivial, rfl⟩
      exact follows_removeSubscription _ (List.mem_cons_self ..) (by simpa using hneeds.2)
    · rfl
  case findItem browseName reporter =>
    refine goes_into he ?_
    split
    · exact ⟨hneeds, trivial, H, rfl, rfl⟩
    · rfl
  case testStart =>
    simp only [Op.exec] at he
    split at he
    · exact goes_into he ⟨trivial, trivial, rfl⟩
    · exact goes_into he rfl
  case spawn =>
    simp only [Op.exec] at he
    split at he
    · exact goes_into he rfl
    · exact goes_into he rfl
  case join =>
    simp only [Op.exec] at he
    split at he
    · exact goes_into he rfl
    · split at he
      · exact goes_into he rfl
      · cases he
  case testRemoval removal =>
    refine goes_into he ?_
    split
    · exact (follows_removeSubscription removal hneeds.1 hneeds.2).append ⟨trivial, rfl⟩
    · rfl
  case resetManager r =>
    refine goes_into he ?_
    split
    · exact ((follows_deactivate _ hneeds.2).append (follows_resetMonitoredItems hneeds.2)).append
        ⟨trivial, rfl⟩
    · rfl
  case connected r =>
    obtain rfl := hneeds
    simp only [Op.exec] at he
    split at he
    · refine goes_into he ?_
      split
      · exact follows_prepare r
      · rfl
    · exact goes_out he rfl
  case testConnected reset r =>
    obtain rfl := hneeds
    refine goes_into he ?_
    split
    · rfl
    · refine Discipline.Follows.append (K := []) ?_ (follows_connect r reset)
      split
      · exact ⟨trivial, rfl⟩
      · rfl
  case finishOpen =>
    simp only [Op.exec] at he
    split at he
    · exact goes_into he rfl
    · exact goes_out he hneeds
  case setActiveException r =>
    refine goes_into he ?_
    split
    · exact follows_deactivateAllAndPushException _ _ hneeds.2
    · rfl
  case testFunctional r =>
    simp only [Op.exec] at he
    split at he
    · exact goes_into he ((follows_activate r hneeds (by simp)).append ⟨trivial, rfl⟩)
    · exact goes_into he rfl
  case startUnlessThread =>
    refine goes_into he ?_
    split
    · exact ⟨trivial, rfl⟩
    · rfl
  case startIfAsync =>
    refine goes_into he ?_
    split
    · exact ⟨trivial, rfl⟩
    · rfl
  case testOpened =>
    simp only [Op.exec] at he
    split at he
    · exact goes_into he rfl
    · exact goes_out he hneeds
  case checkActiveException =>
    simp only [Op.exec] at he
    split at he
    · exact goes_out he hneeds
    · exact goes_into he rfl
  case readReturned browseName reporter ret value disconnect =>
    obtain rfl := hneeds
    refine goes_into he ?_
    split
    · exact ⟨trivial, rfl⟩
    · exact follows_handleError disconnect browseName reporter
  case readBeforeWrite browseName reporter isPartial read disconnect =>
    obtain rfl := hneeds
    refine goes_into he ?_
    split
    · exact follows_readTransfer disconnect browseName reporter read
    · rfl
  case overwrite accessor payload converts =>
    obtain rfl := hneeds
    rcases overwriteValue_cases he with ⟨-, rfl⟩ | ⟨-, rfl | rfl⟩ <;> exact rfl
  case writeReturned browseName reporter ret disconnect =>
    obtain rfl := hneeds
    refine goes_into he ?_
    split
    · rfl
    · split
      · simp
      · exact follows_handleError disconnect browseName reporter
  case reportError browseName reporter =>
    refine goes_into he ?_
    split
    · exact ⟨hneeds, rfl⟩
    · rfl
  case throw => exact goes_out he hneeds
  -- the other operations neither call anything nor leave
  all_goals exact goes_into he rfl

end Operations

/-! ## Every run -/

/-- The next instruction is a call of the library. -/
def Code.callsLibrary : Code V → Bool
  | .run (.library _ _) :: _ => true
  | _ => false

/-- The next instruction is a request for the lock. -/
def Code.requests (l : Lock) : Code V → Bool
  | .lock l' :: _ => l' == l
  | _ => false

/-- Each call of the library is made with `client_lock` held, and no thread requests a lock that
it holds. -/
structure LockDiscipline (s : State V α) : Prop where
  library : ∀ t, Code.callsLibrary (s.stack t) = true → s.holder .clientLock = some t
  requests : ∀ t l, Code.requests l (s.stack t) = true → s.holder l ≠ some t

theorem Code.eq_of_callsLibrary {code : Code V} (h : Code.callsLibrary code = true) :
    ∃ call callbacks rest, code = .run (.library call callbacks) :: rest := by
  unfold Code.callsLibrary at h
  split at h
  · exact ⟨_, _, _, rfl⟩
  · cases h

theorem Code.eq_of_requests {l : Lock} {code : Code V} (h : Code.requests l code = true) :
    ∃ rest, code = .lock l :: rest := by
  unfold Code.requests at h
  split at h
  · exact ⟨_, by rw [beq_iff_eq.mp h]⟩
  · cases h

/-- The condition on a step. -/
def OrderlyStep (s : State V α) (t : Thread α) (i : Op V) : Prop :=
  i.Orderly s.shared (s.holder .clientLock = some t)

variable [DecidableEq α]

instance (s : State V α) (t : Thread α) (i : Op V) : Decidable (OrderlyStep s t i) := by
  apply @Op.casesOn V (fun i => Decidable (OrderlyStep s t i)) i <;> intros <;>
    dsimp only [OrderlyStep, Op.Orderly] <;> infer_instance

theorem reach_disciplined {s : State V α}
    (h : (threads V α).machine.Reach (OnRun OrderlyStep) s) :
    Disciplined (lockDiscipline V) s := by
  refine Disciplined.reach (fun t c p code hcode => follows_entry hcode) ?_ h
  intro s t i rest H p' next hguard hstack hH hneeds hexec
  have horderly : OrderlyStep s t i := hguard.run hstack
  rw [OrderlyStep, hH.2] at horderly
  exact Op.exec_goes hneeds horderly hexec

/-- **Locks.** In every run in which no subscription is left over when one is created,
`deactivate` in a callback finds a thread object, and `front()` does not throw, the lock
discipline holds in every state. -/
theorem reach_lockDiscipline {s : State V α}
    (h : (threads V α).machine.Reach (OnRun OrderlyStep) s) : LockDiscipline s := by
  have hd := reach_disciplined h
  constructor
  · intro t hcalls
    obtain ⟨call, callbacks, rest, hstack⟩ := Code.eq_of_callsLibrary hcalls
    obtain ⟨H, ⟨-, hH⟩, hclient, -⟩ := hd.needs hstack
    exact (hH _).mpr hclient
  · intro t l hrequests
    obtain ⟨rest, hstack⟩ := Code.eq_of_requests hrequests
    exact hd.not_requested hstack

/-- A register is read asynchronously, the client thread iterates, and an exception is set
without a loss of the connection. -/
def exceptionSet : List (Move (Thread Unit) (Entry Nat)) :=
  let iteration : Entry Nat := .runClient { result := .good } { result := .good }
  Entry.steps (.app ()) (.constructAccessor {} "a" ⟨1, .string "a"⟩ 10) 6
    ++ Entry.steps (.app ()) (.openDevice {} connecting) 40
    ++ Entry.steps (.app ()) (.activateAsyncRead {}) 13
    ++ Entry.steps .client iteration 1 ++ Entry.steps .client iteration 4
    ++ Entry.steps (.app ()) (.setException {}) 13

/-- The device is opened and activated again before the client thread has removed the
subscription. -/
def reactivated : List (Move (Thread Unit) (Entry Nat)) :=
  exceptionSet ++ Entry.steps (.app ()) (.openDevice {} {}) 2
    ++ Entry.steps (.app ()) (.activateAsyncRead {}) 4

theorem reach_lockDiscipline_exceptionSet :
    LockDiscipline ((threads Nat Unit).after (Program.start {}) exceptionSet) :=
  reach_lockDiscipline (Program.reach_after exceptionSet
    (Program.reach_start Process.fresh_default) (by decide +kernel))

/-- The removal of the left over subscription is requested without `client_lock`. -/
theorem not_lockDiscipline_reactivated :
    ¬ ∀ s : State Nat Unit, (threads Nat Unit).machine.Reachable s → LockDiscipline s := by
  intro h
  have hd := h _ (Program.reach_after reactivated
    (Program.reach_start Process.fresh_default) (by decide +kernel))
  exact absurd (hd.library (.app ()) (by decide +kernel)) (by decide +kernel)

end OpcUaBackend
