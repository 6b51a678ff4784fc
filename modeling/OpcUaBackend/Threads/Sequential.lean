import OpcUaBackend.Foundation.Sequential
import OpcUaBackend.Manager.Activation
import OpcUaBackend.Manager.Changes
import OpcUaBackend.Threads.Effects

/-!
# The functions and their code

The functions of the manager and the backend stand in two models: as functions of the whole
state, and as code of threads, access by access. Code that one thread executes alone does what
the function does. So every run of whole functions is a run of the threads: what is reached by
calls one after the other is reached by threads that interleave in some way, the join with the
steps of the client thread in between.

## Main definitions

* `Process.Joined`: the object of the client thread is assigned
* `Performs`: code that does what a function does

## Main results

* `performs_deactivate`, `performs_activate`, `performs_subscribe`, ...: the functions
* `Call.performs`: every call
* `reach_threads`: the states of runs of whole functions are reached by the threads
-/

namespace OpcUaBackend

open Foundation

variable {V α : Type}

/-! ## Faults -/

section Faults

variable {p p' : Process V} {next : Next (Op V) Lock}

theorem fail_fault_ne (w : World V) (f : Fault) : (w.fail f).fault ≠ none := by
  show (w.fault <|> some f) ≠ none
  cases w.fault <;> simp

theorem clearActive_fault {w : World V} (h : (clearActive w).fault = none) : w.fault = none := by
  unfold clearActive at h
  simp only at h
  split at h
  · exact h
  · exact absurd h (fail_fault_ne w _)

theorem pushData_fault {monId : Nat} {value : DataValue V} {w : World V}
    (h : (pushData monId value w).fault = none) : w.fault = none := by
  unfold pushData at h
  split at h
  · exact absurd h (fail_fault_ne w _)
  · split at h
    · exact absurd h (fail_fault_ne w _)
    · simpa using h

/-- An initial value is pushed; the exception of the queue is a fault. -/
theorem pushInitialValue_fault_eq {front : Option (DataValue V)} {tmp a : Accessor}
    {w w' : World V} (h : pushInitialValue front tmp a w = .returned w') : w'.fault = w.fault := by
  have hpush : ∀ data : DataValue V, (if data.hasValue then
      Result.returned (w.push (.data data) a) else .returned w) = .returned w' →
        w'.fault = w.fault := by
    intro data hdata
    split at hdata <;> obtain rfl := Result.returned.inj hdata <;> rfl
  unfold pushInitialValue at h
  simp only at h
  split at h
  · exact hpush _ h
  · exact hpush _ h
  · split at h
    · cases h
    · exact hpush _ h

/-- **No operation** takes a fault away. -/
theorem Op.exec_fault {i : Op V} (he : i.exec p = some (p', next)) (h : p'.fault = none) :
    p.fault = none := by
  have hfail : ∀ {f : Fault} {P : Prop}, (p.on (·.fail f)).fault = none → P := fun hf =>
    absurd hf (fail_fault_ne p.toWorld _)
  cases i
  case raise message deactivating =>
    obtain ⟨rfl, -⟩ := Process.into_eq.mp he
    exact handleException_fault message p.toWorld ▸ h
  case clearActive removal =>
    obtain ⟨rfl, -⟩ := Process.into_eq.mp he
    exact clearActive_fault h
  case pushData monId value =>
    obtain ⟨rfl, -⟩ := Process.into_eq.mp he
    exact pushData_fault h
  case callback c =>
    cases c <;> simp only [Op.exec, enterCallback] at he <;> repeat' split at he
    all_goals
      obtain ⟨rfl, -⟩ := Process.into_eq.mp he
      first | exact h | exact hfail h
  case storeID response noexcept =>
    simp only [Op.exec] at he
    repeat' split at he
    · obtain ⟨rfl, -⟩ := Process.into_eq.mp he
      exact h
    · obtain ⟨rfl, -⟩ := Process.into_eq.mp he
      exact hfail h
    · obtain ⟨rfl, -⟩ := Process.out_eq.mp he
      exact h
  case monitorItem reply i =>
    simp only [Op.exec, OpcUaBackend.monitorItem] at he
    repeat' split at he
    all_goals
      obtain ⟨rfl, -⟩ := Process.into_eq.mp he
      first
        | exact activateIfAsync_fault i p.toWorld ▸ h
        | exact absurd h (fail_fault_ne _ _)
  case answered result i browseName =>
    simp only [Op.exec] at he
    split at he <;> obtain ⟨rfl, -⟩ := Process.into_eq.mp he
    · exact monitoringAnswered_fault i browseName result p.toWorld ▸ h
    · exact h
  case enterItem r browseName node accessor =>
    simp only [Op.exec, OpcUaBackend.enterItem] at he
    repeat' split at he
    · obtain ⟨rfl, -⟩ := Process.into_eq.mp he
      exact h
    · obtain ⟨rfl, -⟩ := Process.into_eq.mp he
      exact absurd h (fail_fault_ne _ _)
    · rename_i w hpush
      obtain ⟨rfl, -⟩ := Process.into_eq.mp he
      exact (pushInitialValue_fault_eq hpush).symm.trans h
    · obtain ⟨rfl, -⟩ := Process.out_eq.mp he
      exact h
    · obtain ⟨rfl, -⟩ := Process.into_eq.mp he
      exact h
  case leaveItem r browseName accessor =>
    simp only [Op.exec, OpcUaBackend.leaveItem] at he
    repeat' split at he
    all_goals
      obtain ⟨rfl, -⟩ := Process.into_eq.mp he
      first | exact h | exact hfail h
  case setExternalError browseName reporter =>
    obtain ⟨rfl, -⟩ := Process.into_eq.mp he
    have hsame : (OpcUaBackend.setExternalError browseName reporter p.toWorld).fault = p.fault := by
      unfold OpcUaBackend.setExternalError
      split <;> rfl
    exact hsame ▸ h
  case spawn =>
    simp only [Op.exec] at he
    split at he <;> obtain ⟨rfl, -⟩ := Process.into_eq.mp he
    · exact hfail h
    · exact h
  case overwrite accessor payload converts =>
    rcases overwriteValue_cases he with ⟨rfl, -⟩ | ⟨rfl, -⟩
    · exact hfail h
    · exact h
  -- the others note no fault
  all_goals
    simp only [Op.exec] at he
    repeat' split at he
    all_goals first
      | cases he; done
      | obtain ⟨rfl, -⟩ := Process.into_eq.mp he
        exact h
      | obtain ⟨rfl, -⟩ := Process.out_eq.mp he
        exact h

/-- No operation takes an event from the history. -/
theorem Op.exec_history {i : Op V} (he : i.exec p = some (p', next)) :
    p.history <:+ p'.history := by
  by_cases hplain : i.isPlain = true
  · rw [(Op.exec_plain hplain he).history]
    exact List.suffix_append ..
  by_cases hitems : i.changesItems = true
  · cases i <;> try (cases hitems; done)
    case resetItems =>
      obtain ⟨rfl, -⟩ := Process.into_eq.mp he
      exact List.suffix_rfl
    case answered result i browseName =>
      simp only [Op.exec] at he
      split at he <;> obtain ⟨rfl, -⟩ := Process.into_eq.mp he
      · rename_i hgood
        show p.history <:+ (monitoringAnswered i browseName result p.toWorld).history
        rw [monitoringAnswered, if_pos hgood]
      · exact List.suffix_rfl
    case enterItem r browseName node accessor =>
      have hsub := List.suffix_cons (Event.subscribed accessor browseName) p.history
      simp only [Op.exec, OpcUaBackend.enterItem] at he
      repeat' split at he
      · obtain ⟨rfl, -⟩ := Process.into_eq.mp he
        exact hsub
      · obtain ⟨rfl, -⟩ := Process.into_eq.mp he
        exact hsub
      · rename_i w hpush
        obtain ⟨rfl, -⟩ := Process.into_eq.mp he
        exact hsub.trans (pushInitialValue_returned hpush).history.suffix
      · obtain ⟨rfl, -⟩ := Process.out_eq.mp he
        exact hsub
      · obtain ⟨rfl, -⟩ := Process.into_eq.mp he
        exact hsub
    case leaveItem r browseName accessor =>
      simp only [Op.exec, OpcUaBackend.leaveItem] at he
      repeat' split at he
      all_goals
        obtain ⟨rfl, -⟩ := Process.into_eq.mp he
        exact List.suffix_rfl
  · exact (Op.exec_frame (by simpa using hplain) (by simpa using hitems) he).history.suffix

end Faults

/-! ## Code that does what a function does -/

def Result.left : Result V → Bool
  | returned _ => false
  | threw _ _ => true

/-- No thread is between the start of the client thread and the assignment of its object. -/
def Process.Joined (p : Process V) : Prop := p.client = p.opcuaThread

/-- The calls of other threads that may come in between. -/
abbrev Others (V : Type) := Process V → Process V → Prop

/-- A thread that holds the locks `H` and executes the code alone takes the state to the one in
which the function ends, and then holds the locks `H'`. A function that ends in a fault is not
looked at, and no fault is taken away. -/
def Performs (α : Type) (o : Others V) (H : List Lock) (code : Code V) (H' : List Lock)
    (f : World V → Result V) : Prop :=
  ∀ p : Process V, p.Joined → (f p.toWorld).world.fault = none →
    p.fault = none ∧ ∃ p' : Process V, p'.toWorld = (f p.toWorld).world ∧ p'.Joined ∧
      (threads V α).Alone o p H code p' (if (f p.toWorld).left then [] else H')
        (f p.toWorld).left

namespace Performs

variable {o : Others V} {H H₁ H' : List Lock} {code rest : Code V} {l : Lock} {i : Op V}
  {f f' : World V → Result V} {g g' : World V → World V}

theorem congr (h : Performs α o H code H' f) (hf : ∀ w, f w = f' w) :
    Performs α o H code H' f' :=
  (funext hf : f = f') ▸ h

theorem nil : Performs α o H [] H fun w => .returned w :=
  fun p hp hfault => ⟨hfault, p, rfl, hp, .nil⟩

/-- Code after code; after an exception there is none. -/
theorem append (h : Performs α o H code H₁ f) (h' : Performs α o H₁ rest H' f') :
    Performs α o H (code ++ rest) H' fun w => (f w).andThen f' := by
  intro p hp hfault
  beta_reduce at hfault ⊢
  cases hf : f p.toWorld with
  | threw message w =>
    have hthrew : (Result.threw message w).andThen f' = .threw message w := rfl
    rw [hf, hthrew] at hfault
    rw [hthrew]
    obtain ⟨hnone, p', hp', hjoined, halone⟩ := h p hp (by rw [hf]; exact hfault)
    rw [hf] at hp' halone
    exact ⟨hnone, p', hp', hjoined, halone.append_out⟩
  | returned w =>
    have hreturned : (Result.returned w).andThen f' = f' w := rfl
    rw [hf, hreturned] at hfault
    rw [hreturned]
    -- the second part shows that the first one ends without a fault
    have hw : w.fault = none := by
      have hw' := (h' { p with toWorld := w, client := w.opcuaThread } rfl hfault).1
      exact hw'
    obtain ⟨hnone, p₁, hp₁, hjoined₁, halone₁⟩ := h p hp (by rw [hf]; exact hw)
    rw [hf] at hp₁ halone₁
    have hp₁' : p₁.toWorld = w := hp₁
    obtain ⟨-, p', hp', hjoined, halone⟩ := h' p₁ hjoined₁ (by rw [hp₁']; exact hfault)
    rw [hp₁'] at hp' halone
    exact ⟨hnone, p', hp', hjoined, halone₁.append halone⟩

theorem cons {x : Instr (Op V) Lock} (h : Performs α o H [x] H₁ f)
    (h' : Performs α o H₁ rest H' f') :
    Performs α o H (x :: rest) H' fun w => (f w).andThen f' :=
  h.append h'

/-- The same where no exception leaves. -/
theorem seq (h : Performs α o H code H₁ fun w => .returned (g w))
    (h' : Performs α o H₁ rest H' fun w => .returned (g' w)) :
    Performs α o H (code ++ rest) H' fun w => .returned (g' (g w)) :=
  h.append h'

theorem next {x : Instr (Op V) Lock} (h : Performs α o H [x] H₁ fun w => .returned (g w))
    (h' : Performs α o H₁ rest H' fun w => .returned (g' w)) :
    Performs α o H (x :: rest) H' fun w => .returned (g' (g w)) :=
  h.seq h'

theorem lock (hl : l ∉ H) (h : Performs α o (l :: H) rest H' f) :
    Performs α o H (.lock l :: rest) H' f := by
  intro p hp hfault
  obtain ⟨hnone, p', hp', hjoined, halone⟩ := h p hp hfault
  exact ⟨hnone, p', hp', hjoined, .lock hl halone⟩

theorem unlock (h : Performs α o H rest H' f) :
    Performs α o (l :: H) (.unlock l :: rest) H' f := by
  intro p hp hfault
  obtain ⟨hnone, p', hp', hjoined, halone⟩ := h p hp hfault
  exact ⟨hnone, p', hp', hjoined, .unlock halone⟩

/-- An operation that goes on with code of its own. -/
theorem run (hi : i.movesClient = false)
    (h : ∀ p : Process V, p.Joined → (f p.toWorld).world.fault = none →
      ∃ p₁ code f', i.exec p = some (p₁, .into code) ∧ Performs α o H code H' f' ∧
        f' p₁.toWorld = f p.toWorld) :
    Performs α o H [.run i] H' f := by
  intro p hp hfault
  obtain ⟨p₁, code, f', hexec, hcode, heq⟩ := h p hp hfault
  obtain ⟨hclient, hthread⟩ := Op.exec_thread hi hexec
  have hjoined₁ : p₁.Joined := hclient.trans (hp.trans hthread.symm)
  obtain ⟨hnone, p', hp', hjoined, halone⟩ := hcode p₁ hjoined₁ (by rw [heq]; exact hfault)
  rw [heq] at hp' halone
  exact ⟨Op.exec_fault hexec hnone, p', hp', hjoined, .run hexec halone⟩

/-- An operation without code of its own. -/
theorem op (hi : i.movesClient = false)
    (h : ∀ p : Process V, (g p.toWorld).fault = none →
      ∃ p₁, i.exec p = some (p₁, .into []) ∧ p₁.toWorld = g p.toWorld) :
    Performs α o H [.run i] H fun w => .returned (g w) := by
  refine .run hi fun p _ hfault => ?_
  obtain ⟨p₁, hexec, heq⟩ := h p hfault
  exact ⟨p₁, [], _, hexec, .nil, congrArg Result.returned heq⟩

/-- An operation that leaves the call by an exception. -/
theorem out (hi : ∀ p : Process V, i.exec p = p.out) (message : World V → String) :
    Performs α o [] [.run i] H' fun w => .threw (message w) w :=
  fun p hp hfault => ⟨hfault, p, rfl, hp, .out (hi p)⟩

/-- An operation that only tests something. -/
theorem test (hi : i.movesClient = false) {c : World V → Prop} [DecidablePred c] {code₁ code₂ : Code V}
    {f₁ f₂ : World V → Result V}
    (hexec : ∀ p : Process V, i.exec p = p.into (if c p.toWorld then code₁ else code₂))
    (h₁ : Performs α o H code₁ H' f₁) (h₂ : Performs α o H code₂ H' f₂) :
    Performs α o H [.run i] H' fun w => if c w then f₁ w else f₂ w := by
  refine .run hi fun p _ _ => ?_
  by_cases hc : c p.toWorld
  · exact ⟨p, code₁, f₁, by rw [hexec, if_pos hc]; rfl, h₁, (if_pos hc).symm⟩
  · exact ⟨p, code₂, f₂, by rw [hexec, if_neg hc]; rfl, h₂, (if_neg hc).symm⟩

/-- The same where no exception leaves. -/
theorem choose (hi : i.movesClient = false) {c : World V → Prop} [DecidablePred c]
    {code₁ code₂ : Code V} {g₁ g₂ : World V → World V}
    (hexec : ∀ p : Process V, i.exec p = p.into (if c p.toWorld then code₁ else code₂))
    (h₁ : Performs α o H code₁ H' fun w => .returned (g₁ w))
    (h₂ : Performs α o H code₂ H' fun w => .returned (g₂ w)) :
    Performs α o H [.run i] H' fun w => .returned (if c w then g₁ w else g₂ w) :=
  (test hi hexec h₁ h₂).congr fun w => (apply_ite Result.returned (c w) (g₁ w) (g₂ w)).symm

/-- What always ends in a fault. -/
theorem of_fault (h : ∀ w, (f w).world.fault ≠ none) : Performs α o H code H' f :=
  fun p _ hfault => absurd hfault (h p.toWorld)

end Performs

/-! ## What callbacks do -/

section Functions

variable {o : Others V} {H : List Lock}

theorem performs_handleException (message : String) (deactivating : Bool) (hH : .mutex ∉ H) :
    Performs α o H (Code.handleException message deactivating) H
      fun w => .returned (handleException message w) := by
  exact .lock hH (.cons (.op rfl fun p _ => ⟨_, rfl, rfl⟩) (.unlock .nil))

/-- `deactivate`, where the code for the removal does what `removal` says. -/
theorem performs_deactivate {removal : World V → World V} (reply : Reply V UA_StatusCode)
    (hH : .mutex ∉ H)
    (hremoval : Performs α o H
      ([.lock .clientLock] ++ Code.removeSubscription reply ++ [.unlock .clientLock]) H
      fun w => .returned (removal w)) :
    Performs α o H (Code.deactivate reply) H
      fun w => .returned (deactivate removal w) := by
  have hrecord : Performs α o H [.run .recordRemoval] H
      fun w => .returned { w with subscriptionNeedsToBeRemoved := true } :=
    .op rfl fun p _ => ⟨_, rfl, rfl⟩
  have hthread := Performs.choose (i := .testThread reply) rfl
    (c := fun w => w.opcuaThread.isSome = true) (fun p => rfl) hrecord hremoval
  have hinactive : Performs α o H [.run .clearSubscriptionActive] H
      fun w => .returned { w with subscriptionActive := false } :=
    .op rfl fun p _ => ⟨_, rfl, rfl⟩
  have hactive := Performs.choose (i := .testActive reply) rfl
    (c := fun w => w.subscriptionActive = true) (fun p => rfl) (hinactive.next hthread) .nil
  have hrun : Performs α o H [.run .clearRun] H fun w => .returned { w with run := false } :=
    .op rfl fun p _ => ⟨_, rfl, rfl⟩
  have hasync : Performs α o H [.run .clearAsync] H
      fun w => .returned { w with asyncReadActive := false } :=
    .op rfl fun p _ => ⟨_, rfl, rfl⟩
  exact .lock hH (.run rfl fun _ _ _ => ⟨_, _, _, rfl,
    .unlock (hrun.next (hactive.next hasync)), rfl⟩)

theorem performs_deactivateAllAndPushException {removal : World V → World V} (message : String)
    (reply : Reply V UA_StatusCode) (hH : .mutex ∉ H)
    (hremoval : Performs α o H
      ([.lock .clientLock] ++ Code.removeSubscription reply ++ [.unlock .clientLock]) H
      fun w => .returned (removal w)) :
    Performs α o H (Code.deactivateAllAndPushException reply message) H
      fun w => .returned (deactivateAllAndPushException removal message w) :=
  (performs_handleException message true hH).seq (performs_deactivate reply hH hremoval)

/-- In a callback `deactivate` finds a thread object: the other case is a fault. -/
theorem performs_alarm (message : String) (hH : .mutex ∉ H) :
    Performs α o H (Code.deactivateAllAndPushException { result := .good } message) H
      fun w => .returned (deactivateAllAndPushException (·.fail .clientLockDeadlock) message w) :=
  performs_deactivateAllAndPushException message _ hH (.of_fault fun w => fail_fault_ne w _)

theorem performs_responseHandler (monId : Nat) (value : DataValue V) (hH : .mutex ∉ H) :
    Performs α o H [.run (.callback (.dataChange monId value))] H
      fun w => .returned (responseHandler monId value w) := by
  refine .run rfl fun p hp hfault => ?_
  simp only [Result.world] at hfault
  cases hlookup : p.subscriptionMap.lookup monId with
  | none =>
    refine ⟨p, [], _, by simp [Op.exec, enterCallback, hlookup, Process.into], .nil, ?_⟩
    simp only [responseHandler, hlookup]
  | some q =>
    cases hget : p.items.get? q with
    | none =>
      simp only [responseHandler, hlookup, hget] at hfault
      exact absurd hfault (fail_fault_ne _ _)
    | some item =>
      by_cases hactive : item.active = true
      · have hpush : Performs α o (.mutex :: H) [.run (.pushData monId value)] (.mutex :: H)
            fun w => .returned (pushData monId value w) := .op rfl fun p _ => ⟨_, rfl, rfl⟩
        refine ⟨p, _, _, by simp only [Op.exec, enterCallback, hlookup, hget, if_pos hactive]; rfl,
          .lock hH (hpush.next (.unlock .nil)), ?_⟩
        simp only [pushData, responseHandler, hlookup, hget, if_pos hactive]
      · refine ⟨p, [], _, by simp [Op.exec, enterCallback, hlookup, hget, hactive, Process.into],
          .nil, ?_⟩
        simp only [responseHandler, hlookup, hget, hactive, Bool.false_eq_true, if_false]

/-- A callback of the library. -/
theorem performs_callback (c : Callback V) (hH : .mutex ∉ H) :
    Performs α o H [.run (.callback c)] H fun w => .returned (runCallback w c) := by
  cases c with
  | state channelState sessionState =>
    have htest := Performs.choose (α := α) (o := o) (H := H) (i := .testConnection) rfl
      (c := fun w => (w.opened && !w.isConnected && w.subscriptionManager && w.run) = true)
      (fun p => rfl) (performs_alarm "Client session is not open any more." hH) .nil
    exact .run rfl fun _ _ _ => ⟨_, _, _, rfl, htest, rfl⟩
  | inactivity subId =>
    have hclose : Performs α o H [.run .closeSession] H
        fun w => .returned { w with sessionState := .closed } := .op rfl fun p _ => ⟨_, rfl, rfl⟩
    refine (Performs.choose rfl (c := fun w => (w.isFunctional && w.isConnected
      && w.subscriptionManager && w.run && w.subscriptionID == subId) = true) ?_
      ((performs_alarm ("No activity for subscriptions: " ++ toString subId) hH).seq hclose)
      .nil).congr fun w => rfl
    intro p
    simp only [Op.exec, enterCallback]
    split <;> rfl
  | deleteSubscription subId => exact .op rfl fun p _ => ⟨_, rfl, rfl⟩
  | dataChange monId value => exact performs_responseHandler monId value hH

theorem performs_callbacks (cs : List (Callback V)) (hH : .mutex ∉ H) :
    Performs α o H (cs.map fun c => .run (.callback c)) H
      fun w => .returned (runCallbacks cs w) := by
  induction cs with
  | nil => exact .nil
  | cons c cs ih => exact (performs_callback c hH).next ih

/-- A call of the library, with its event. -/
theorem performs_library (call : LibraryCall) (callbacks : List (Callback V)) (hH : .mutex ∉ H) :
    Performs α o H [.run (.library call callbacks)] H fun w =>
      .returned (runCallbacks callbacks
        { w with history := (call.event? w).toList ++ w.history }) :=
  .run rfl fun _ _ _ => ⟨_, _, _, rfl, performs_callbacks callbacks hH, rfl⟩

/-! ## The subscription -/

theorem performs_resetMonitoredItems (hH : .mutex ∉ H) :
    Performs α o H Code.resetMonitoredItems H
      fun w => .returned (resetMonitoredItems w) := by
  have hreset : Performs α o (.mutex :: H) [.run .resetItems] (.mutex :: H)
      fun w => .returned (resetMonitoredItems w) := .op rfl fun _ _ => ⟨_, rfl, rfl⟩
  exact .lock hH (hreset.next (.unlock .nil))

theorem performs_removeSubscription (reply : Reply V UA_StatusCode) (hH : .mutex ∉ H) :
    Performs α o H (Code.removeSubscription reply) H
      fun w => .returned (removeSubscription reply w) := by
  have hclear : Performs α o H [.run .clearID] H
      fun w => .returned { w with subscriptionID := 0 } := .op rfl fun _ _ => ⟨_, rfl, rfl⟩
  exact ((performs_library (.subscriptionsDelete reply.result) reply.callbacks hH).next hclear).seq
    (performs_resetMonitoredItems hH)

/-- The removal under `client_lock`. -/
theorem performs_lockedRemoval (reply : Reply V UA_StatusCode) (hclient : .clientLock ∉ H)
    (hH : .mutex ∉ H) :
    Performs α o H
      ([.lock .clientLock] ++ Code.removeSubscription reply ++ [.unlock .clientLock]) H
      fun w => .returned (removeSubscription reply w) :=
  .lock hclient
    ((performs_removeSubscription reply (by simpa using hH)).seq (.unlock .nil))

/-- The exception of a `noexcept` function is a fault. -/
def Result.terminating (noexcept : Bool) : Result V → Result V
  | returned w => .returned w
  | threw message w => if noexcept then .returned (w.fail .terminate) else .threw message w

/-- The answer to the request for a subscription. -/
theorem performs_storeID (response : CreateSubscriptionResponse) (noexcept : Bool)
    (hempty : noexcept = false → H = []) :
    Performs α o H [.run (.storeID response noexcept)] H fun w =>
      Result.terminating noexcept (if response.serviceResult.isGood then
        .returned { w with
          subscriptionID := response.subscriptionId
          publishingInterval := response.revisedPublishingInterval
          subscriptionActive := true }
      else .threw "Failed to set up subscription." w) := by
  have hset : Performs α o H [.run .setSubscriptionActive] H
      fun w => .returned { w with subscriptionActive := true } :=
    .op rfl fun _ _ => ⟨_, rfl, rfl⟩
  cases hgood : response.serviceResult.isGood with
  | true =>
    exact .run rfl fun p _ _ => ⟨_, _, _, by simp only [Op.exec, hgood, if_true]; rfl, hset, rfl⟩
  | false =>
    cases noexcept with
    | true => exact .of_fault fun w => fail_fault_ne w _
    | false =>
      obtain rfl := hempty rfl
      intro p hp hfault
      exact ⟨hfault, p, rfl, hp, .out (by simp [threads, Op.exec, hgood, Process.out])⟩

theorem performs_createSubscription (r : Replies V) {noexcept : Bool} (hclient : .clientLock ∉ H)
    (hH : .mutex ∉ H) (hempty : noexcept = false → H = []) :
    Performs α o H (Code.createSubscription r noexcept) H
      fun w => (createSubscription r w).terminating noexcept := by
  have hclean := Performs.choose (α := α) (o := o) (H := H)
    (i := .testID r.subscriptionsDelete) rfl (c := fun w => w.subscriptionID ≠ 0) (fun _ => rfl)
    (performs_removeSubscription r.subscriptionsDelete hH) .nil
  have hrequest : Performs α o H
      [.lock .clientLock, .run (.library (.subscriptionsCreate r.subscriptionsCreate.result)
        r.subscriptionsCreate.callbacks), .unlock .clientLock] H fun w =>
      .returned (libraryCall (.subscriptionsCreate w.publishingInterval
        r.subscriptionsCreate.result) r.subscriptionsCreate.callbacks w) :=
    .lock hclient ((performs_library _ _ (by simpa using hH)).next (.unlock .nil))
  refine ((hclean.next hrequest).append
    (performs_storeID r.subscriptionsCreate.result noexcept hempty)).congr fun w => ?_
  rfl

theorem performs_ensureSubscription (r : Replies V) {noexcept : Bool}
    (hclient : .clientLock ∉ H) (hH : .mutex ∉ H) (hempty : noexcept = false → H = []) :
    Performs α o H [.run (.ensureSubscription r noexcept)] H
      fun w => (ensureSubscription r w).terminating noexcept := by
  refine (Performs.test rfl (c := fun w => w.subscriptionActive = true) (fun _ => rfl) .nil
    (performs_createSubscription r hclient hH hempty)).congr fun w => ?_
  rw [ensureSubscription]
  split <;> rfl

/-- The answer to the registration of an item. -/
theorem performs_answered (result : MonitoredItemCreateResult) (i : Nat) (browseName : String)
    (hH : .mutex ∉ H) :
    Performs α o (.mutex :: H) [.run (.answered result i browseName)] (.mutex :: H)
      fun w => .returned (monitoringAnswered i browseName result w) := by
  cases hgood : result.statusCode.isGood with
  | true => exact .op rfl fun p _ => ⟨_, by simp only [Op.exec, hgood, if_true]; rfl, rfl⟩
  | false =>
    have hexception : Performs α o (.mutex :: H)
        ([.unlock .mutex] ++ Code.handleException ("Failed to add monitored item for node: "
          ++ browseName ++ " Error: " ++ result.statusCode.name) ++ [.lock .mutex]) (.mutex :: H)
        fun w => .returned (handleException ("Failed to add monitored item for node: "
          ++ browseName ++ " Error: " ++ result.statusCode.name) w) :=
      .unlock ((performs_handleException _ false hH).seq (.lock hH .nil))
    refine .run rfl fun p _ _ => ⟨_, _, _, by simp only [Op.exec, hgood]; rfl, hexception, ?_⟩
    rw [monitoringAnswered, if_neg (by simp [hgood])]

/-- The registration of an item, with the mutex released for the request. -/
theorem performs_createDataChange (request : MonitoredItemCreateRequest)
    (reply : Reply V MonitoredItemCreateResult) (i : Nat) (hclient : .clientLock ∉ H)
    (hH : .mutex ∉ H) :
    Performs α o (.mutex :: H) (Code.createDataChange request reply i) (.mutex :: H)
      fun w => .returned (monitoringAnswered i request.browseName reply.result
        (libraryCall (.createDataChange { request with subscriptionId := w.subscriptionID }
          reply.result) reply.callbacks w)) := by
  have hcreated : Performs α o (.clientLock :: H) [.run (.created reply.result i)]
      (.clientLock :: H) fun w => .returned w := by
    refine .op (g := fun w => w) rfl fun p _ => ?_
    simp only [Op.exec]
    split <;> exact ⟨_, rfl, rfl⟩
  have hanswered : Performs α o (.clientLock :: H) [.unlock .clientLock, .lock .mutex,
      .run (.answered reply.result i request.browseName)] (.mutex :: H)
      fun w => .returned (monitoringAnswered i request.browseName reply.result w) :=
    .unlock (.lock hH (performs_answered reply.result i request.browseName hH))
  exact .unlock (.lock hclient ((performs_library _ _ (by simpa using hH)).next
    (hcreated.next hanswered)))

/-- The body of the loop of `addMonitoredItems`. -/
theorem performs_addMonitoredItem (reply : Reply V MonitoredItemCreateResult) (i : Nat)
    (hclient : .clientLock ∉ H) (hH : .mutex ∉ H) :
    Performs α o (.mutex :: H) [.run (.monitorItem reply i)] (.mutex :: H)
      fun w => .returned (addMonitoredItem reply i w) := by
  refine .run rfl fun p _ hfault => ?_
  have hfault' : (addMonitoredItem reply i p.toWorld).fault = none := hfault
  rw [addMonitoredItem] at hfault' ⊢
  simp only at hfault' ⊢
  cases hitem : (activateIfAsync i p.toWorld).items.elems[i]? with
  | none =>
    refine ⟨p.on (activateIfAsync i), [], _, ?_, .nil, rfl⟩
    simp only [Op.exec, monitorItem, Process.on, hitem]
    rfl
  | some item =>
    simp only [hitem] at hfault' ⊢
    by_cases hmon : item.isMonitored = true
    · refine ⟨p.on (activateIfAsync i), [], _, ?_, .nil, ?_⟩
      · simp only [Op.exec, monitorItem, Process.on, hitem, if_pos hmon]
        rfl
      · simp only [if_pos hmon]
        rfl
    · simp only [if_neg hmon] at hfault' ⊢
      cases hfirst : item.accessors.head? with
      | none =>
        simp only [hfirst] at hfault'
        exact absurd hfault' (fail_fault_ne _ _)
      | some first =>
        refine ⟨p.on (activateIfAsync i), _, _, ?_,
          performs_createDataChange
            (monitoringRequest (activateIfAsync i p.toWorld) item first) reply i hclient hH, ?_⟩
        · simp only [Op.exec, monitorItem, Process.on, hitem, if_neg hmon, hfirst]
          rfl
        · rfl

theorem performs_addMonitoredItems (replies : Nat → Reply V MonitoredItemCreateResult)
    (hclient : .clientLock ∉ H) (hH : .mutex ∉ H) :
    Performs α o H (Code.addMonitoredItems replies) H
      fun w => .returned (addMonitoredItems replies w) := by
  have hloop : ∀ is : List Nat, Performs α o (.mutex :: H)
      (is.map fun i => .run (.monitorItem (replies i) i)) (.mutex :: H)
      fun w => .returned (is.foldl (fun w i => addMonitoredItem (replies i) i w) w) := by
    intro is
    induction is with
    | nil => exact .nil
    | cons i is ih => exact (performs_addMonitoredItem (replies i) i hclient hH).next ih
  have hitems : Performs α o (.mutex :: H) [.run (.loopItems replies)] (.mutex :: H)
      fun w => .returned (addMonitoredItems replies w) :=
    .run rfl fun p _ _ => ⟨p, _, _, rfl, hloop (List.range p.items.size), rfl⟩
  exact .lock hH (hitems.next (.unlock .nil))

theorem performs_prepare (r : Replies V) :
    Performs α o [] (Code.prepare r) [] (prepare r) := by
  have hcreate : Performs α o [] (Code.createSubscription r false) []
      fun w => (createSubscription r w).terminating false :=
    performs_createSubscription r (by simp) (by simp) fun _ => rfl
  refine (hcreate.append (performs_addMonitoredItems r.createDataChange (by simp)
    (by simp))).congr fun w => ?_
  rw [prepare]
  cases createSubscription r w <;> rfl

theorem performs_activate (r : Replies V) (noexcept : Bool) (hclient : .clientLock ∉ H)
    (hH : .mutex ∉ H) (hempty : noexcept = false → H = []) :
    Performs α o H (Code.activate r noexcept) H
      fun w => (ensureSubscription r w).terminating noexcept |>.andThen fun w =>
        .returned (activateSubscribed r w) := by
  have hset : Performs α o H [.run .setAsync] H
      fun w => .returned { w with asyncReadActive := true } := .op rfl fun _ _ => ⟨_, rfl, rfl⟩
  have hactivate : Performs α o (.mutex :: H) [.run .activateItems] (.mutex :: H)
      fun w => .returned (activateItems w) := .op rfl fun _ _ => ⟨_, rfl, rfl⟩
  have htest := Performs.choose (α := α) (o := o) (H := H) (i := .testItems r) rfl
    (c := fun w => 0 < w.items.size ∧ w.subscriptionMap.entries = []) (fun _ => rfl)
    (performs_addMonitoredItems r.createDataChange hclient hH)
    (.lock hH (hactivate.next (.unlock .nil)))
  exact (performs_ensureSubscription r hclient hH hempty).cons (hset.next htest)

/-! ## The client thread -/

theorem performs_start : Performs α o H Code.start H fun w => .returned (start w) := by
  have hspawn : Performs α o H [.run .spawn, .run .assignThread] H fun w =>
      .returned { (if w.opcuaThread.isSome then w.fail .terminate else w) with
        opcuaThread := some .loopHead } := by
    intro p hp hfault
    cases hthread : p.opcuaThread with
    | some place =>
      simp only [hthread, Option.isSome_some, if_true, Result.world] at hfault
      exact absurd hfault (fail_fault_ne p.toWorld _)
    | none =>
      have hclient : p.client = none := hp.trans hthread
      have hspawned : (threads V α).Alone o p H [.run .spawn]
          { p with client := some .loopHead } H false :=
        .run (by simp [threads, Op.exec, hclient, Process.into]) .nil
      have hassigned : (threads V α).Alone o { p with client := some .loopHead } H
          [.run .assignThread]
          { p with client := some .loopHead, opcuaThread := some .loopHead } H false :=
        .run rfl .nil
      refine ⟨?_, _, ?_, by rfl, hspawned.append hassigned⟩
      · simpa [hthread, Result.world] using hfault
      · simp [hthread, Result.world]
  refine .run rfl fun p _ _ => ?_
  by_cases hactive : p.subscriptionActive = true
  · refine ⟨{ p with run := true }, _, _, by simp only [Op.exec, if_pos hactive]; rfl, hspawn, ?_⟩
    rw [start, if_pos hactive]
    cases p.opcuaThread <;> rfl
  · refine ⟨{ p with run := false }, [], _, by simp only [Op.exec, if_neg hactive]; rfl, .nil, ?_⟩
    rw [start, if_neg hactive]

end Functions

/-- No other thread makes a call. -/
abbrev nobody (V : Type) : Others V := fun _ _ => False

/-- The client thread makes a step of `runClient`. -/
def clientCalls (V α : Type) : Others V := fun p p' =>
  ∃ iterate removal, (threads V α).Calls (nobody V) .client (.runClient iterate removal) p p'

section ClientThread

variable {p : Process V} {place : ClientThread}

theorem atPlace_toWorld (hthread : p.opcuaThread = some place) (place' : ClientThread) :
    (p.atPlace place').toWorld = { p.toWorld with opcuaThread := some place' } := by
  simp [Process.atPlace, hthread]

theorem atPlace_joined (hthread : p.opcuaThread = some place) (place' : ClientThread) :
    (p.atPlace place').Joined := by
  simp [Process.Joined, Process.atPlace, hthread]

theorem removeSubscription_thread (reply : Reply V UA_StatusCode) (w : World V) :
    (removeSubscription reply w).opcuaThread = w.opcuaThread :=
  (runCallbacks_frame (w.record (.subscriptionsDelete w.subscriptionID reply.result))
    reply.callbacks).opcuaThread

/-- **A step of the client thread** is a call that it makes alone. -/
theorem clientStep_calls (iterate removal : Reply V UA_StatusCode) (hp : p.Joined)
    (hthread : p.opcuaThread = some place) (hended : place ≠ .ended)
    (hfault : (clientStep iterate removal p.toWorld).fault = none) :
    p.fault = none ∧ ∃ p' : Process V, p'.toWorld = clientStep iterate removal p.toWorld ∧
      p'.Joined ∧ (threads V α).Calls (nobody V) .client (.runClient iterate removal) p p' := by
  have hclient : p.client = some place := hp.trans hthread
  cases place with
  | ended => exact absurd rfl hended
  | loopHead =>
    simp only [clientStep, hthread] at hfault ⊢
    refine ⟨hfault, p.atPlace (if p.run then .iterating else .cleanUp), atPlace_toWorld hthread _,
      atPlace_joined hthread _, _, false, by simp only [threads, Entry.code, hclient]; rfl, ?_⟩
    exact .run rfl .nil
  | iterating =>
    have hcallbacks : (runCallbacks iterate.callbacks p.toWorld).fault = none := by
      simp only [clientStep, hthread] at hfault
      split at hfault
      · exact hfault
      · split at hfault <;> exact hfault
    obtain ⟨hnone, p₁, hp₁, hj₁, halone⟩ := performs_library (α := α) (o := nobody V)
      (H := [.clientLock]) .runIterate iterate.callbacks (by simp) p hp hcallbacks
    have hp₁' : p₁.toWorld = runCallbacks iterate.callbacks p.toWorld := hp₁
    have hthread₁ : p₁.opcuaThread = some .iterating :=
      (congrArg (fun w => w.opcuaThread) hp₁').trans
        ((runCallbacks_frame p.toWorld iterate.callbacks).opcuaThread.trans hthread)
    -- the answer of the iteration is looked at under `client_lock`
    have hiterated : (threads V α).Alone (nobody V) p₁ [.clientLock]
        [.run (.iterated iterate.result), .unlock .clientLock]
        (p₁.atPlace (if p₁.subscriptionNeedsToBeRemoved || !iterate.result.isGood
          then .cleanUp else .loopHead)) [] false :=
      .into rfl (.unlock .nil)
    refine ⟨hnone, _, ?_, atPlace_joined hthread₁ _, _, false,
      by simp only [threads, Entry.code, hclient]; rfl, .lock (by simp) (halone.append hiterated)⟩
    rw [atPlace_toWorld hthread₁, hp₁']
    simp only [clientStep, hthread]
    cases (runCallbacks iterate.callbacks p.toWorld).subscriptionNeedsToBeRemoved <;>
      cases iterate.result.isGood <;> rfl
  | cleanUp =>
    have hclear : Performs α (nobody V) [.clientLock] [.run .clearRemoval] [.clientLock]
        fun w => .returned { w with subscriptionNeedsToBeRemoved := false } :=
      .op rfl fun _ _ => ⟨_, rfl, rfl⟩
    have htest := Performs.choose (i := .testRemoval removal) rfl
      (c := fun w => w.subscriptionNeedsToBeRemoved = true) (fun _ => rfl)
      ((performs_removeSubscription removal (by simp)).seq hclear) .nil
    obtain ⟨w₁, hw₁⟩ : ∃ w₁, w₁ = if p.subscriptionNeedsToBeRemoved = true then
        { removeSubscription removal p.toWorld with subscriptionNeedsToBeRemoved := false }
        else p.toWorld := ⟨_, rfl⟩
    have hstep : clientStep iterate removal p.toWorld =
        { w₁ with opcuaThread := some .finishing } := by
      rw [hw₁]
      simp only [clientStep, hthread]
      split <;> rfl
    have hthread₁ : w₁.opcuaThread = some .cleanUp := by
      rw [hw₁]
      split
      · exact (removeSubscription_thread removal p.toWorld).trans hthread
      · exact hthread
    rw [hstep] at hfault ⊢
    have hfault₁ : w₁.fault = none := hfault
    rw [hw₁] at hfault₁
    obtain ⟨hnone, p₁, hp₁, hj₁, halone⟩ := htest p hp hfault₁
    obtain rfl : p₁.toWorld = w₁ := hp₁.trans hw₁.symm
    have hleft : (threads V α).Alone (nobody V) p₁ [.clientLock]
        [.unlock .clientLock, .run .leaveCleanUp] (p₁.atPlace .finishing) [] false :=
      .unlock (.run rfl .nil)
    exact ⟨hnone, _, atPlace_toWorld hthread₁ _, atPlace_joined hthread₁ _, _, false,
      by simp only [threads, Entry.code, hclient]; rfl, .lock (by simp) (halone.append hleft)⟩
  | finishing =>
    simp only [clientStep, hthread] at hfault ⊢
    refine ⟨hfault, ({ p with run := false } : Process V).atPlace .ended,
      atPlace_toWorld (p := { p with run := false }) hthread _,
      atPlace_joined (p := { p with run := false }) hthread _, _, false,
      by simp only [threads, Entry.code, hclient]; rfl, ?_⟩
    exact .run rfl .nil

/-- A thread that has ended is joined, and without a thread there is nothing to join. -/
theorem join_alone {steps : List (Reply V UA_StatusCode × Reply V UA_StatusCode)} (hp : p.Joined)
    (hended : ∀ place ∈ p.opcuaThread, place = .ended)
    (hfault : (stopClientThread steps p.toWorld).fault = none) :
    p.fault = none ∧ ∃ p' : Process V, p'.toWorld = stopClientThread steps p.toWorld ∧
      p'.Joined ∧ (threads V α).Alone (clientCalls V α) p [] Code.stopClientThread p' [] false := by
  cases hthread : p.opcuaThread with
  | none =>
    have hstop : stopClientThread steps p.toWorld = p.toWorld := by
      unfold stopClientThread
      simp only [hthread]
    rw [hstop] at hfault ⊢
    exact ⟨hfault, p, rfl, hp, .run (by simp [threads, Op.exec, hthread, Process.into]) .nil⟩
  | some place =>
    obtain rfl := hended place hthread
    have hstop : stopClientThread steps p.toWorld = { p.toWorld with opcuaThread := none } := by
      unfold stopClientThread
      simp only [hthread]
    rw [hstop] at hfault ⊢
    have hclient : p.client = some .ended := hp.trans hthread
    refine ⟨hfault, { p with client := none, opcuaThread := none }, rfl, rfl, .run ?_ .nil⟩
    simp [threads, Op.exec, hthread, hclient, Process.into]

/-- The join, with the steps of the client thread before it. -/
theorem performs_stopClientThread (steps : List (Reply V UA_StatusCode × Reply V UA_StatusCode)) :
    Performs α (clientCalls V α) [] Code.stopClientThread []
      fun w => .returned (stopClientThread steps w) := by
  intro p hp hfault
  have hfault' : (stopClientThread steps p.toWorld).fault = none := hfault
  show p.fault = none ∧ ∃ p' : Process V, p'.toWorld = stopClientThread steps p.toWorld ∧
    p'.Joined ∧ (threads V α).Alone (clientCalls V α) p [] Code.stopClientThread p' [] false
  clear hfault
  induction steps generalizing p with
  | nil =>
    refine join_alone hp (fun place hthread => ?_) hfault'
    -- without answers the thread would not end
    by_contra hended
    cases place <;> simp only [stopClientThread, Option.mem_def.mp hthread] at hfault' <;>
      first
      | exact hended rfl
      | exact absurd hfault' (fail_fault_ne p.toWorld _)
  | cons step steps ih =>
    by_cases hended : ∀ place ∈ p.opcuaThread, place = .ended
    · exact join_alone hp hended hfault'
    · push Not at hended
      obtain ⟨place, hthread, hne⟩ := hended
      have hstop : stopClientThread (step :: steps) p.toWorld =
          stopClientThread steps (clientStep step.1 step.2 p.toWorld) := by
        have hthread' : p.opcuaThread = some place := hthread
        rw [stopClientThread]
        cases place <;> first | exact absurd rfl hne | simp only [hthread']
      rw [hstop] at hfault' ⊢
      -- the rest of the join, from the state after the step
      have hstep := clientStep_calls (α := α) step.1 step.2 hp hthread hne
      have hrest : ∀ p₁ : Process V, p₁.toWorld = clientStep step.1 step.2 p.toWorld →
          p₁.Joined → p₁.fault = none ∧ ∃ p' : Process V,
            p'.toWorld = stopClientThread steps (clientStep step.1 step.2 p.toWorld) ∧
            p'.Joined ∧
            (threads V α).Alone (clientCalls V α) p₁ [] Code.stopClientThread p' [] false := by
        intro p₁ hp₁ hj₁
        have := ih p₁ hj₁ (by rw [hp₁]; exact hfault')
        rw [hp₁] at this
        exact ⟨(congrArg (fun w => w.fault) hp₁).trans this.1, this.2⟩
      obtain ⟨hnone₁, -⟩ := hrest { p with
        toWorld := clientStep step.1 step.2 p.toWorld
        client := (clientStep step.1 step.2 p.toWorld).opcuaThread } rfl rfl
      obtain ⟨hnone, p₁, hp₁, hj₁, hcalls⟩ := hstep hnone₁
      obtain ⟨-, p', hp', hj', halone⟩ := hrest p₁ hp₁ hj₁
      exact ⟨hnone, p', hp', hj', .await ⟨step.1, step.2, hcalls⟩ halone⟩

end ClientThread

/-! ## Accessors -/

section Accessors

variable {o : Others V} {H : List Lock}

theorem Result.terminating_false (r : Result V) : r.terminating false = r := by
  cases r <;> rfl

/-- The exception of the queue leaves the mutex locked. -/
theorem pushInitialValue_threw_fault {front : Option (DataValue V)} {tmp a : Accessor}
    {w w' : World V} {message : String} (h : pushInitialValue front tmp a w = .threw message w') :
    w'.fault ≠ none := by
  have hpush : ∀ data : DataValue V, (if data.hasValue then
      Result.returned (w.push (.data data) a) else .returned w) ≠ .threw message w' := by
    intro data
    split <;> simp
  unfold pushInitialValue at h
  simp only at h
  split at h
  · exact absurd h (hpush _)
  · exact absurd h (hpush _)
  · split at h
    · obtain ⟨-, rfl⟩ := Result.threw.inj h
      exact fail_fault_ne w _
    · exact absurd h (hpush _)

theorem performs_subscribe (r : Replies V) (browseName : String) (node : UA_NodeId)
    (accessor : Accessor) :
    Performs α o [] (Code.subscribe r browseName node accessor) []
      (subscribe r browseName node accessor) := by
  have hitems : Performs α o [] [.run (.testAsync r)] [] fun w =>
      if w.asyncReadActive = true then (ensureSubscription r w).andThen fun w =>
        .returned (addMonitoredItems r.createDataChange w)
      else .returned w := by
    have hensure : Performs α o [] [.run (.ensureSubscription r false)] []
        (ensureSubscription r) :=
      (performs_ensureSubscription r (by simp) (by simp) fun _ => rfl).congr fun w =>
        Result.terminating_false _
    exact .test rfl (fun _ => rfl) (hensure.append (performs_addMonitoredItems _ (by simp)
      (by simp))) .nil
  refine .lock (by simp) (.run rfl fun p _ hfault => ?_)
  rw [subscribe] at hfault ⊢
  simp only at hfault ⊢
  cases hfind : (p.toWorld.record (.subscribed accessor browseName)).find? browseName with
  | none =>
    refine ⟨?new, _, _, ?newExec, .unlock hitems, ?newSame⟩
    case newExec =>
      simp only [Op.exec, enterItem, Process.on, hfind]
      rfl
    case newSame => rfl
  | some found =>
    obtain ⟨i, item⟩ := found
    simp only [hfind] at hfault ⊢
    cases htmp : item.accessors.getLast? with
    | none =>
      simp only [htmp] at hfault
      exact absurd hfault (fail_fault_ne _ _)
    | some tmp =>
      simp only [htmp] at hfault ⊢
      by_cases hactive : item.active = true
      · simp only [if_pos hactive] at hfault ⊢
        -- an exception of the queue is a fault
        cases hpush : pushInitialValue r.frontOfException tmp accessor
            { p.toWorld.record (.subscribed accessor browseName) with
              items := (p.toWorld.record (.subscribed accessor browseName)).items.modify i
                fun item => { item with accessors := item.accessors ++ [accessor] } } with
        | threw message w =>
          rw [hpush] at hfault
          exact absurd hfault (pushInitialValue_threw_fault hpush)
        | returned w =>
          refine ⟨?pushed, _, _, ?pushedExec, .unlock .nil, ?pushedSame⟩
          case pushedExec =>
            simp only [Op.exec, enterItem, Process.on, hfind, htmp, if_pos hactive, hpush]
            rfl
          case pushedSame => rfl
      · simp only [if_neg hactive] at hfault ⊢
        refine ⟨?added, _, _, ?addedExec, .unlock .nil, ?addedSame⟩
        case addedExec =>
          simp only [Op.exec, enterItem, Process.on, hfind, htmp, if_neg hactive]
          rfl
        case addedSame => rfl

theorem performs_setExternalError (browseName : String) (reporter : Accessor) (hH : .mutex ∉ H) :
    Performs α o H (Code.setExternalError browseName reporter) H
      fun w => .returned (setExternalError browseName reporter w) := by
  have hset : Performs α o (.mutex :: H) [.run (.setExternalError browseName reporter)]
      (.mutex :: H) fun w => .returned (setExternalError browseName reporter w) :=
    .op rfl fun _ _ => ⟨_, rfl, rfl⟩
  refine (Performs.choose rfl (c := fun w => (w.find? browseName).isSome = true) (fun _ => rfl)
    (.lock hH (hset.next (.unlock .nil))) .nil).congr fun w => ?_
  split
  · rfl
  · rename_i hnone
    have hfind : w.find? browseName = none := by simpa using hnone
    rw [setExternalError, hfind]

/-- What follows the removal of an item with a monitored item id. -/
theorem performs_unsubscribeItem (r : Replies V) (browseName : String) (id : Nat) :
    Performs α (clientCalls V α) [] [.run (.testRemoved r browseName id)] [] fun w =>
      .returned (if id ≠ 0 ∧ w.isConnected then unsubscribeItem r browseName id w else w) := by
  have hclear : Performs α (clientCalls V α) [] [.run .clearRun] []
      fun w => .returned { w with run := false } := .op rfl fun _ _ => ⟨_, rfl, rfl⟩
  have hempty := Performs.choose (α := α) (o := clientCalls V α) (H := [])
    (i := .testEmpty r) rfl (c := fun w => w.items.size = 0) (fun _ => rfl)
    ((performs_lockedRemoval r.subscriptionsDelete (by simp) (by simp)).seq
      (hclear.next (performs_stopClientThread r.clientSteps))) .nil
  have hdelete : Performs α (clientCalls V α) [] [.lock .clientLock,
      .run (.library (.deleteMonitoredItem id browseName r.deleteMonitoredItem.result)
        r.deleteMonitoredItem.callbacks), .unlock .clientLock] [] fun w =>
      .returned (libraryCall (.deleteMonitoredItem w.subscriptionID id browseName
        r.deleteMonitoredItem.result) r.deleteMonitoredItem.callbacks w) :=
    .lock (by simp) ((performs_library _ _ (by simp)).next (.unlock .nil))
  exact Performs.choose rfl (c := fun w => id ≠ 0 ∧ w.isConnected) (fun _ => rfl)
    (hdelete.seq hempty) .nil

theorem performs_unsubscribe (r : Replies V) (browseName : String) (accessor : Accessor) :
    Performs α (clientCalls V α) [] (Code.unsubscribe r browseName accessor) []
      fun w => .returned (unsubscribe r browseName accessor w) := by
  refine .lock (by simp) (.run rfl fun p _ hfault => ?_)
  have hfault' : (unsubscribe r browseName accessor p.toWorld).fault = none := hfault
  rw [unsubscribe] at hfault' ⊢
  cases hfind : p.toWorld.find? browseName with
  | none =>
    refine ⟨p, _, _, ?_, .unlock .nil, rfl⟩
    simp only [Op.exec, leaveItem, hfind]
    rfl
  | some found =>
    obtain ⟨i, item⟩ := found
    simp only [hfind] at hfault' ⊢
    by_cases hmany : 1 < item.accessors.length
    · simp only [if_pos hmany] at hfault' ⊢
      by_cases hmem : accessor ∈ item.accessors
      · simp only [if_pos hmem] at hfault' ⊢
        refine ⟨?erased, _, _, ?erasedExec, .unlock .nil, ?erasedSame⟩
        case erasedExec =>
          simp only [Op.exec, leaveItem, hfind, if_pos hmany, if_pos hmem]
          rfl
        case erasedSame => rfl
      · simp only [if_neg hmem] at hfault'
        exact absurd hfault' (fail_fault_ne _ _)
    · simp only [if_neg hmany] at hfault' ⊢
      refine ⟨?removed, _, _, ?removedExec,
        .unlock (performs_unsubscribeItem r browseName item.id), ?removedSame⟩
      case removedExec =>
        simp only [Op.exec, leaveItem, hfind, if_neg hmany]
        rfl
      case removedSame => rfl

theorem performs_popNotification (accessor : Accessor) :
    Performs α o H [.run (.popNotification accessor)] H
      fun w => .returned (popNotification accessor w) :=
  .op rfl fun _ _ => ⟨_, rfl, rfl⟩

end Accessors

/-! ## The backend -/

section Backend

variable {o : Others V}

theorem performs_resetClient (r : Replies V) :
    Performs α (clientCalls V α) [] (Code.resetClient r) []
      fun w => .returned (resetClient r w) := by
  have hdeactivate : Performs α (clientCalls V α) [] (Code.deactivate r.subscriptionsDelete) []
      fun w => .returned (deactivate (removeSubscription r.subscriptionsDelete) w) :=
    performs_deactivate _ (by simp) (performs_lockedRemoval _ (by simp) (by simp))
  have hmanager := Performs.choose (α := α) (o := clientCalls V α) (H := [])
    (i := .resetManager r) rfl (c := fun w => w.subscriptionManager = true) (fun _ => rfl)
    ((hdeactivate.seq (performs_resetMonitoredItems (by simp))).seq
      (performs_stopClientThread r.clientSteps)) .nil
  have hdisconnect : Performs α (clientCalls V α) [] [.lock .clientLock,
      .run (.library .disconnect r.disconnect.callbacks), .unlock .clientLock] []
      fun w => .returned (runCallbacks r.disconnect.callbacks w) :=
    .lock (by simp) ((performs_library .disconnect _ (by simp)).next (.unlock .nil))
  exact hmanager.next hdisconnect

/-- What follows the connection: items that were subscribed before are registered again. -/
theorem performs_connected (r : Replies V) (message : World V → String) :
    Performs α o [] [.run (.connected r)] [] fun w =>
      if r.connect.result.isGood then
        if w.subscriptionManager = true then prepare r w else .returned w
      else .threw (message w) w := by
  by_cases hgood : r.connect.result.isGood = true
  · simp only [if_pos hgood]
    exact .test rfl (c := fun w => w.subscriptionManager = true)
      (fun _ => by simp only [Op.exec, if_pos hgood]) (performs_prepare r) .nil
  · simp only [if_neg hgood]
    exact .out (fun _ => by simp only [Op.exec, if_neg hgood]) message

theorem performs_connect (reset r : Replies V) :
    Performs α (clientCalls V α) [] (Code.connect reset r) [] (connect reset r) := by
  have hconnect : Performs α (clientCalls V α) [] [.lock .clientLock,
      .run (.library .connect r.connect.callbacks), .unlock .clientLock] []
      fun w => .returned (runCallbacks r.connect.callbacks w) :=
    .lock (by simp) ((performs_library .connect _ (by simp)).next (.unlock .nil))
  exact ((performs_resetClient reset).seq hconnect).append (performs_connected r fun w =>
    "Failed to connect to opc server: " ++ w.serverAddress ++ " with reason: "
      ++ r.connect.result.name)

theorem performs_finishOpen :
    Performs α o [] [.run .finishOpen] [] fun w =>
      if w.isConnected then .returned { w with opened := true, hasActiveException := false }
      else .threw "Connection could not be established." w := by
  intro p hp hfault
  by_cases hconnected : p.isConnected = true
  · simp only [if_pos hconnected] at hfault ⊢
    exact ⟨hfault, { p with opened := true, hasActiveException := false }, rfl, hp,
      .run (by simp only [threads, Op.exec, if_pos hconnected]; rfl) .nil⟩
  · simp only [if_neg hconnected] at hfault ⊢
    exact ⟨hfault, p, rfl, hp, .out (by simp only [threads, Op.exec, if_neg hconnected]; rfl)⟩

theorem performs_openDevice (stop reset r : Replies V) :
    Performs α (clientCalls V α) [] (Code.openDevice reset r) [] (openDevice stop reset r) := by
  have hstop := performs_stopClientThread (α := α) stop.clientSteps
  have hconnected : Performs α (clientCalls V α) [] [.run (.testConnected reset r)] [] fun w =>
      if w.isConnected then .returned w
      else connect reset r
        (if w.subscriptionManager then stopClientThread stop.clientSteps w else w) := by
    refine .run rfl fun p _ _ => ?_
    by_cases hconn : p.isConnected = true
    · refine ⟨p, _, _, by simp only [Op.exec, if_pos hconn]; rfl, .nil, ?_⟩
      simp only [if_pos hconn]
    · by_cases hmanager : p.subscriptionManager = true
      · refine ⟨p, _, _, by simp only [Op.exec, if_neg hconn, if_pos hmanager]; rfl,
          hstop.append (performs_connect reset r), ?_⟩
        simp only [if_neg hconn, if_pos hmanager]
        rfl
      · refine ⟨p, _, _, by simp only [Op.exec, if_neg hconn, if_neg hmanager]; rfl,
          performs_connect reset r, ?_⟩
        simp only [if_neg hconn, if_neg hmanager]
  exact hconnected.cons performs_finishOpen

theorem performs_closeDevice (r : Replies V) :
    Performs α (clientCalls V α) [] (Code.closeDevice r) []
      fun w => .returned (closeDevice r w) := by
  have hclear : Performs α (clientCalls V α) [] [.run .clearOpened] []
      fun w => .returned { w with opened := false } := .op rfl fun _ _ => ⟨_, rfl, rfl⟩
  exact hclear.next (performs_resetClient r)

theorem performs_activateAsyncRead (r : Replies V) :
    Performs α o [] (Code.activateAsyncRead r) []
      fun w => .returned (activateAsyncRead r w) := by
  have hstart := Performs.choose (α := α) (o := o) (H := [.asyncReadLock])
    (i := .startUnlessThread) rfl (c := fun w => w.opcuaThread.isNone = true) (fun _ => rfl)
    performs_start .nil
  have hactivate := (performs_activate (α := α) (o := o) (H := [.asyncReadLock])
    r true (by simp) (by simp) (by simp)).append hstart
  have htest : Performs α o [.asyncReadLock] [.run (.testFunctional r)] [.asyncReadLock]
      fun w => .returned (activateAsyncRead r w) := by
    refine .run rfl fun p _ hfault => ?_
    have hfault' : (activateAsyncRead r p.toWorld).fault = none := hfault
    rw [activateAsyncRead] at hfault' ⊢
    by_cases hfunctional : p.toWorld.isFunctional = true
    · rw [if_pos hfunctional] at hfault' ⊢
      refine ⟨{ p with subscriptionManager := true }, _, _,
        by simp only [Op.exec, if_pos hfunctional]; rfl, hactivate, ?_⟩
      rw [activate] at hfault' ⊢
      cases hensure : ensureSubscription r { p.toWorld with subscriptionManager := true } with
      | threw message w =>
        -- the exception of a `noexcept` function is a fault
        rw [hensure] at hfault'
        exact absurd hfault' (fail_fault_ne w _)
      | returned w => rfl
    · rw [if_neg hfunctional]
      exact ⟨p, _, _, by simp only [Op.exec, if_neg hfunctional]; rfl, .nil, rfl⟩
  exact .lock (by simp) (htest.next (.unlock .nil))

theorem performs_setException (r : Replies V) :
    Performs α o [] (Code.setException r) [] fun w => .returned (setException r w) := by
  have hdeactivate := performs_deactivateAllAndPushException (α := α) (o := o) (H := [])
    "Exception reported by another accessor." r.subscriptionsDelete (by simp)
    (performs_lockedRemoval _ (by simp) (by simp))
  refine .run rfl fun p _ _ => ?_
  by_cases hmanager : p.subscriptionManager = true
  · refine ⟨{ p with hasActiveException := true }, _, _,
      by simp only [Op.exec, if_pos hmanager]; rfl, hdeactivate, ?_⟩
    rw [setException, if_pos hmanager]
  · refine ⟨{ p with hasActiveException := true }, _, _,
      by simp only [Op.exec, if_neg hmanager]; rfl, .nil, ?_⟩
    rw [setException, if_neg hmanager]

theorem performs_constructAccessor (r : Replies V) (browseName : String) (node : UA_NodeId)
    (accessor : Accessor) :
    Performs α o [] (Code.constructAccessor r browseName node accessor) []
      (constructAccessor r browseName node accessor) := by
  have hmake : Performs α o [] [.run .makeManager] []
      fun w => .returned { w with subscriptionManager := true } :=
    .op rfl fun _ _ => ⟨_, rfl, rfl⟩
  have hstart := Performs.test (α := α) (o := o) (H := []) (i := .startIfAsync) rfl
    (c := fun w => (w.asyncReadActive && w.opcuaThread.isNone) = true) (fun _ => rfl)
    performs_start .nil
  exact hmake.cons ((performs_subscribe r browseName node accessor).append hstart)

end Backend

/-! ## Runs of whole functions -/

/-- The call of a thread that is the call of the function. Four functions are called by others
only, and the callbacks and the data of a transfer come with the calls of the library. -/
def Call.entry? : Call V → Option (Entry V)
  | openDevice _ reset r => some (.openDevice reset r)
  | closeDevice r => some (.closeDevice r)
  | activateAsyncRead r => some (.activateAsyncRead r)
  | setException r => some (.setException r)
  | constructAccessor r browseName node accessor =>
    some (.constructAccessor r browseName node accessor)
  | subscribe r browseName node accessor => some (.subscribe r browseName node accessor)
  | unsubscribe r browseName accessor => some (.destroyAccessor r browseName accessor)
  | activate r => some (.activate r)
  | deactivate r => some (.deactivate r)
  | deactivateAllAndPushException r message => some (.deactivateAllAndPushException r message)
  | setExternalError browseName reporter => some (.setExternalError browseName reporter)
  | prepare r => some (.prepare r)
  | resetMonitoredItems => some .resetMonitoredItems
  | start => some .start
  | stopClientThread _ => some .stopClientThread
  | clientStep iterate removal => some (.runClient iterate removal)
  | popNotification accessor => some (.popNotification accessor)
  | connect _ _ => none
  | createSubscription _ => none
  | addMonitoredItems _ => none
  | removeSubscription _ => none
  | ownTransfer _ _ => none
  | callbacks _ => none

section Calls

/-- The code of an application thread does what the call does. -/
theorem Call.performs {c : Call V} {e : Entry V} {code : Code V} (he : c.entry? = some e)
    (hcode : e.applicationCode = some code) :
    Performs α (clientCalls V α) [] code [] c.exec := by
  have hnil : ∀ l : Lock, l ∉ ([] : List Lock) := by simp
  cases c <;> cases he
  case clientStep => cases hcode
  all_goals cases hcode
  case openDevice stop reset r => exact performs_openDevice stop reset r
  case closeDevice r => exact performs_closeDevice r
  case activateAsyncRead r => exact performs_activateAsyncRead r
  case setException r => exact performs_setException r
  case constructAccessor r browseName node accessor =>
    exact performs_constructAccessor r browseName node accessor
  case subscribe r browseName node accessor => exact performs_subscribe r browseName node accessor
  case unsubscribe r browseName accessor => exact performs_unsubscribe r browseName accessor
  case activate r =>
    refine (performs_activate r false (hnil _) (hnil _) fun _ => rfl).congr fun w => ?_
    rw [Result.terminating_false]
    rfl
  case deactivate r =>
    exact performs_deactivate _ (hnil _) (performs_lockedRemoval _ (hnil _) (hnil _))
  case deactivateAllAndPushException r message =>
    exact performs_deactivateAllAndPushException message _ (hnil _)
      (performs_lockedRemoval _ (hnil _) (hnil _))
  case setExternalError browseName reporter =>
    exact performs_setExternalError browseName reporter (hnil _)
  case prepare r => exact performs_prepare r
  case resetMonitoredItems => exact performs_resetMonitoredItems (hnil _)
  case start => exact performs_start
  case stopClientThread r => exact performs_stopClientThread r.clientSteps
  case popNotification accessor => exact performs_popNotification accessor

/-- Without a fault, and the library has kept its contract. -/
def Process.Good (p : Process V) : Prop := p.fault = none ∧ LibraryContract p.history

theorem Op.exec_good {i : Op V} {p p' : Process V} {next : Next (Op V) Lock}
    (he : i.exec p = some (p', next)) (h : p'.Good) : p.Good :=
  ⟨Op.exec_fault he h.1, Along.of_suffix (Op.exec_history he) h.2⟩

theorem clientCalls_good {p p' : Process V} (h : clientCalls V α p p') (hgood : p'.Good) :
    p.Good := by
  obtain ⟨_, _, code, left, -, halone⟩ := h
  exact halone.good Process.Good (fun i p p' next => Op.exec_good)
    (fun p p' hother => absurd hother (by simp))
    hgood

variable [DecidableEq α] {p p' : Process V}

/-- A step of the client thread is a run of the threads. -/
theorem clientCalls_steps (stack : Thread α → Code V) (h : clientCalls V α p p') (hgood : p'.Good)
    (hstack : stack .client = []) :
    ∃ ms, (threads V α).machine.Steps (fun _ _ => True) (.free p stack) ms (.free p' stack) := by
  obtain ⟨iterate, removal, hcalls⟩ := h
  exact hcalls.steps Process.Good _ (fun p p' hp hp' => ⟨hp.1, hp'.2⟩)
    (fun i p p' next => Op.exec_good) (fun p p' hother => absurd hother (by simp))
    (fun p p' code hother => absurd hother (by simp)) hgood hstack

/-- **A call is a run** of the threads: of the client thread, or of an application thread with
the steps of the client thread in its join. -/
theorem Call.steps (a : α) {c : Call V} (he : c.entry?.isSome = true) (hp : p.Joined)
    (hfault : (c.exec p.toWorld).world.fault = none)
    (hcontract : LibraryContract (c.exec p.toWorld).world.history) :
    ∃ p' ms, p'.toWorld = (c.exec p.toWorld).world ∧ p'.Joined ∧
      (threads V α).machine.Steps (fun _ _ => True) (.free p fun _ => []) ms
        (.free p' fun _ => []) := by
  obtain ⟨e, he⟩ := Option.isSome_iff_exists.mp he
  cases hcode : e.applicationCode with
  | some code =>
    obtain ⟨-, p', hp', hjoined, halone⟩ := Call.performs (α := α) he hcode p hp hfault
    have hgood : p'.Good := by
      rw [Process.Good, hp']
      exact ⟨hfault, hcontract⟩
    have hcalls : (threads V α).Calls (clientCalls V α) (.app a) e p p' :=
      ⟨code, _, hcode, by simpa using halone⟩
    obtain ⟨ms, hms⟩ := hcalls.steps Process.Good (fun _ => []) (fun p p' hp hp' => ⟨hp.1, hp'.2⟩)
      (fun i p p' next => Op.exec_good) (fun p p' => clientCalls_good)
      (fun p p' code hother hgood => clientCalls_steps _ hother hgood (by simp)) hgood rfl
    exact ⟨p', ms, hp', hjoined, hms⟩
  | none =>
    -- a step of the client thread, which makes none before its start and after its end
    cases c <;> simp only [Call.entry?, Option.some_inj, reduceCtorEq] at he <;> subst he <;>
      try (cases hcode; done)
    case clientStep iterate removal =>
      by_cases hstands : ∃ place ∈ p.opcuaThread, place ≠ .ended
      · obtain ⟨place, hthread, hended⟩ := hstands
        obtain ⟨-, p', hp', hjoined, hcalls⟩ :=
          clientStep_calls (α := α) iterate removal hp hthread hended hfault
        have hgood : p'.Good := by
          rw [Process.Good, hp']
          exact ⟨hfault, hcontract⟩
        have hclient : clientCalls V α p p' := ⟨iterate, removal, hcalls⟩
        obtain ⟨ms, hms⟩ := clientCalls_steps (fun _ => []) hclient hgood rfl
        exact ⟨p', ms, hp', hjoined, hms⟩
      · refine ⟨p, [], ?_, hp, .nil _⟩
        have hsame : OpcUaBackend.clientStep iterate removal p.toWorld = p.toWorld := by
          unfold OpcUaBackend.clientStep
          cases hthread : p.opcuaThread with
          | none => rfl
          | some place =>
            have hended : place = .ended := by
              by_contra hne
              exact hstands ⟨place, hthread, hne⟩
            rw [hended]
        exact hsame.symm

/-- **The threads do what the functions do.** A state that whole functions reach when they are
called one after the other, and in which no fault has been noted, is reached by the threads: the
calls are made by one application thread and the client thread, and no lock is held at the end. -/
theorem reach_threads (a : α) {w : World V}
    (h : (calls V).Reach (fun _ c => c.entry?.isSome = true) w) (hfault : w.fault = none) :
    ∃ s : State V α, (threads V α).machine.Reachable s ∧ s.shared.toWorld = w ∧
      (∀ t, s.stack t = []) ∧ ∀ l, s.holder l = none := by
  have hreach : w.fault = none → ∃ p : Process V, p.toWorld = w ∧ p.Joined ∧
      (threads V α).machine.Reachable (.free p fun _ => []) := by
    induction h with
    | @init w hfresh =>
      intro _
      refine ⟨{ toWorld := w }, rfl, ?_, .init ⟨⟨hfresh, rfl, rfl, rfl, rfl⟩, fun _ => rfl,
        fun _ => rfl⟩⟩
      exact (congrArg Lifecycle.opcuaThread hfresh.lifecycle).symm
    | @step w c w' _ he hstep ih =>
      obtain ⟨hnone, rfl, hcontract⟩ := hstep
      intro hfault'
      obtain ⟨p, rfl, hjoined, hreach⟩ := ih hnone hnone
      obtain ⟨p', ms, hp', hjoined', hms⟩ := Call.steps a he hjoined hfault' hcontract
      exact ⟨p', hp', hjoined', hreach.steps hms⟩
  obtain ⟨p, hp, -, hp'⟩ := hreach hfault
  exact ⟨_, hp', hp, fun _ => rfl, fun _ => rfl⟩

theorem reach_threads_reopened :
    ∃ s : State Nat Unit, (threads Nat Unit).machine.Reachable s ∧
      s.shared.toWorld = Call.run {} reopened ∧ (∀ t, s.stack t = []) ∧ ∀ l, s.holder l = none :=
  reach_threads () (reach_run reopened (.init World.fresh_default) (by decide)) (by decide)

end Calls

end OpcUaBackend
