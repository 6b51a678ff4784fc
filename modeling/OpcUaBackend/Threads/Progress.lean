import OpcUaBackend.Foundation.LockOrder
import OpcUaBackend.Threads.Locks
import OpcUaBackend.Threads.Stages

/-!
# No deadlock

The locks are requested in one order: `_asyncReadLock` before `client_lock`, and `client_lock`
before the mutex of the manager. A thread that joins the client thread holds none of them. So in
every run that follows the lock discipline, a chain of threads that wait for each other, by a
lock or by a join, ends at a thread that goes on: no thread waits for itself, and at every time
some thread of each chain can run.

## Main definitions

* `Lock.rank`: the order of the locks
* `Op.joins`, `joinDiscipline`: what is run where a join follows needs that no lock is held
* `State.WaitsFor`, `State.CanGoOn`: a thread waits for another one, or takes a step

## Main results

* `Op.exec_ascends`: the code of every operation requests the locks in the order
* `reach_progress`: behind every thread that waits there is one that goes on
-/

namespace OpcUaBackend

open Foundation

variable {V α : Type}

/-! ## The order of the locks -/

def Lock.rank : Lock → ℕ
  | asyncReadLock => 0
  | clientLock => 1
  | mutex => 2

theorem Lock.rank_lt (l : Lock) : l.rank < 3 := by
  cases l <;> simp [rank]

/-- The code requests the locks in the order. -/
def Code.Ascending (code : Code V) : Prop := (lockDiscipline V).Ascends Lock.rank code

namespace Code

variable {code rest : Code V}

@[simp] theorem ascending_nil : Ascending ([] : Code V) := trivial

@[simp] theorem ascending_run {i : Op V} : Ascending (.run i :: rest) ↔ Ascending rest := Iff.rfl

@[simp] theorem ascending_unlock {l : Lock} : Ascending (.unlock l :: rest) ↔ Ascending rest :=
  Iff.rfl

@[simp] theorem ascending_map {β : Type} (f : β → Op V) (bs : List β) :
    Ascending (bs.map fun b => Instr.run (f b)) :=
  Discipline.ascends_map f bs

/-- The mutex is the last lock that a thread requests. -/
@[simp] theorem ascending_mutex : Ascending (.lock .mutex :: rest) ↔ Ascending rest := by
  refine and_iff_right (Discipline.Announces.of_top fun l hl => ?_)
  cases l with
  | asyncReadLock => exact Nat.zero_lt_two
  | clientLock => exact Nat.one_lt_two
  | mutex => exact absurd rfl hl

/-- `client_lock` is requested without the mutex, as the operation after it needs. -/
theorem ascending_clientLock {i : Op V} (h : ∀ H, i.needs H → .mutex ∉ H) :
    Ascending (.lock .clientLock :: .run i :: rest) ↔ Ascending rest := by
  refine and_iff_right (Discipline.Announces.of_run fun H hneeds hclient l hl => ?_)
  have hmutex : .mutex ∉ Lock.clientLock :: H := h _ hneeds
  cases l with
  | asyncReadLock => exact Nat.zero_lt_one
  | clientLock => exact absurd hl hclient
  | mutex => exact absurd (List.mem_cons_of_mem _ hl) hmutex

@[simp] theorem ascending_library {call : LibraryCall} {callbacks : List (Callback V)} :
    Ascending (.lock .clientLock :: .run (.library call callbacks) :: rest) ↔ Ascending rest :=
  ascending_clientLock fun _ h => h.2

@[simp] theorem ascending_testRemoval {removal : Reply V UA_StatusCode} :
    Ascending (.lock .clientLock :: .run (.testRemoval removal) :: rest) ↔ Ascending rest :=
  ascending_clientLock fun _ h => h.2

/-- `_asyncReadLock` is the first lock that a thread requests. -/
@[simp] theorem ascending_testFunctional {r : Replies V} :
    Ascending (.lock .asyncReadLock :: .run (.testFunctional r) :: rest) ↔ Ascending rest := by
  refine and_iff_right (Discipline.Announces.of_run fun H hneeds hasync l hl => ?_)
  obtain ⟨hclient, hmutex⟩ : Free (Lock.asyncReadLock :: H) := hneeds
  cases l with
  | asyncReadLock => exact absurd hl hasync
  | clientLock => exact absurd (List.mem_cons_of_mem _ hl) hclient
  | mutex => exact absurd (List.mem_cons_of_mem _ hl) hmutex

end Code

attribute [local simp] Code.handleException Code.deactivate Code.deactivateAllAndPushException
  Code.resetMonitoredItems Code.removeSubscription Code.createSubscription Code.addMonitoredItems
  Code.createDataChange Code.prepare Code.activate Code.subscribe Code.unsubscribe
  Code.setExternalError Code.start Code.stopClientThread Code.resetClient Code.connect
  Code.openDevice Code.closeDevice Code.activateAsyncRead Code.setException Code.constructAccessor
  Code.handleError Code.readTransfer Code.read Code.write

/-- **The order of the requests.** What an operation puts on the stack requests the locks in the
order. -/
theorem Op.exec_ascending {i : Op V} {p p' : Process V} {code : Code V}
    (he : i.exec p = some (p', .into code)) : code.Ascending := by
  cases i
  case callback c =>
    cases c <;> simp only [Op.exec, enterCallback] at he <;> repeat' split at he
    all_goals
      obtain rfl := Next.into.inj (Process.into_eq.mp he).2
      simp
  case overwrite accessor payload converts =>
    rcases overwriteValue_cases he with ⟨-, hcode⟩ | ⟨-, hcode | hcode⟩ <;> cases hcode <;> simp
  all_goals
    simp only [Op.exec, OpcUaBackend.monitorItem, OpcUaBackend.enterItem,
      OpcUaBackend.leaveItem] at he
    repeat' split at he
    all_goals first
      | cases he; done
      | obtain rfl := Next.into.inj (Process.into_eq.mp he).2
        simp

theorem Entry.code_ascending {t : Thread α} {c : Entry V} {p : Process V} {code : Code V}
    (h : c.code t p = some code) : code.Ascending := by
  cases t with
  | client =>
    cases c with
    | runClient iterate removal =>
      obtain ⟨place, -, hcode⟩ := Option.bind_eq_some_iff.mp h
      cases place <;> cases hcode <;> simp
    | _ => cases h
  | app a =>
    cases c
    all_goals cases h; try simp

/-! ## Joins -/

/-- What runs a join, or has one in its code. -/
def Op.joins : Op V → Bool
  | join => true
  | leaveItem _ _ _ => true
  | testRemoved _ _ _ => true
  | testEmpty _ => true
  | resetManager _ => true
  | testConnected _ _ => true
  | _ => false

/-- Where a join follows, no lock is held, or the mutex alone where it is released first. -/
def Op.needsForJoin : Op V → List Lock → Prop
  | leaveItem _ _ _, H => H = [.mutex]
  | i, H => i.joins = true → H = []

/-- The lock discipline, with what the joins need. -/
def joinDiscipline (V : Type) : Discipline (Op V) Lock :=
  (lockDiscipline V).restrict Op.needsForJoin

theorem Op.needsForJoin_of_joins {i : Op V} (h : i.joins = false) (H : List Lock) :
    i.needsForJoin H := by
  cases i <;> first | cases h; done | exact fun hjoins => absurd hjoins (by simp [h])

/-- Code without a join in it. -/
theorem follows_of_only {H H' : List Lock} {code : Code V}
    (h : (lockDiscipline V).Follows H code H') (hcode : Code.only (fun i => !i.joins) code = true) :
    (joinDiscipline V).Follows H code H' := by
  refine h.restrict fun i hi H => Op.needsForJoin_of_joins ?_ H
  simpa using Code.only_mem hcode hi

section Operations

variable {H : List Lock} {p p' : Process V} {next : Next (Op V) Lock}

/-- The other operations put no join on the stack. -/
theorem Op.exec_without_join {i : Op V} {code : Code V} (hi : i.joins = false)
    (he : i.exec p = some (p', .into code)) : Code.only (fun i => !i.joins) code = true := by
  cases i <;> try (cases hi; done)
  case callback c =>
    cases c <;> simp only [Op.exec, enterCallback] at he <;> repeat' split at he
    all_goals
      obtain rfl := Next.into.inj (Process.into_eq.mp he).2
      rfl
  case library call callbacks =>
    obtain rfl := Next.into.inj (Process.into_eq.mp he).2
    exact Code.only_callbacks callbacks fun _ => rfl
  case loopItems replies =>
    obtain rfl := Next.into.inj (Process.into_eq.mp he).2
    refine List.all_eq_true.mpr fun x hx => ?_
    obtain ⟨k, -, rfl⟩ := List.mem_map.mp hx
    rfl
  case overwrite accessor payload converts =>
    rcases overwriteValue_cases he with ⟨-, hcode⟩ | ⟨-, hcode | hcode⟩ <;> cases hcode <;> rfl
  all_goals
    simp only [Op.exec, OpcUaBackend.monitorItem, OpcUaBackend.enterItem] at he
    repeat' split at he
    all_goals first
      | cases he; done
      | obtain rfl := Next.into.inj (Process.into_eq.mp he).2
        rfl

theorem goes_join_into {code : Code V} {H' : List Lock} (he : p.into code = some (p', next))
    (h : (joinDiscipline V).Follows H code H') : (joinDiscipline V).Goes H next H' := by
  obtain ⟨-, rfl⟩ := Process.into_eq.mp he
  exact h

theorem follows_join_resetClient (r : Replies V) :
    (joinDiscipline V).Follows [] (Code.resetClient r) [] := by
  refine ⟨⟨⟨by simp, by simp⟩, fun _ => rfl⟩, ?_⟩
  exact follows_of_only (H := []) (by simp) rfl

theorem follows_join_connect (reset r : Replies V) :
    (joinDiscipline V).Follows [] (Code.connect reset r) [] :=
  (follows_join_resetClient reset).append (follows_of_only (by simp) rfl)

/-- A join, and what stands before it. -/
theorem leaveItem_goes_join (r : Replies V) (browseName : String) (accessor : Accessor)
    (he : leaveItem r browseName accessor p = some (p', next)) :
    (joinDiscipline V).Goes [.mutex] next [] := by
  unfold leaveItem at he
  have hunlock : (joinDiscipline V).Follows [.mutex] [.unlock .mutex] [] := ⟨_, rfl, rfl⟩
  split at he
  · exact goes_join_into he hunlock
  · split at he
    · split at he
      · exact goes_join_into he hunlock
      · exact goes_join_into he hunlock
    · exact goes_join_into he ⟨_, rfl, ⟨⟨by simp, by simp⟩, fun _ => rfl⟩, rfl⟩

/-- **Every operation** that is run under the condition leads to joins without a lock only. -/
theorem Op.exec_goes_join {i : Op V} (hneeds : (joinDiscipline V).needs i H)
    (horderly : i.Orderly p (.clientLock ∈ H)) (he : i.exec p = some (p', next)) :
    (joinDiscipline V).Goes H next (i.locksAfter H) := by
  obtain ⟨hlocks, hjoin⟩ := hneeds
  by_cases hi : i.joins = false
  · apply Discipline.Goes.restrict (Op.exec_goes hlocks horderly he)
    rintro code rfl j hj H
    exact Op.needsForJoin_of_joins (by simpa using Code.only_mem (Op.exec_without_join hi he) hj) H
  cases i <;> try (exact absurd rfl hi)
  case join =>
    simp only [Op.exec] at he
    split at he
    · exact goes_join_into he rfl
    · split at he
      · exact goes_join_into he rfl
      · cases he
  case leaveItem r browseName accessor =>
    obtain rfl : H = [.mutex] := hjoin
    exact leaveItem_goes_join r browseName accessor he
  case testRemoved r browseName id =>
    obtain rfl : H = [] := hjoin rfl
    refine goes_join_into he ?_
    split
    · refine ⟨by simp, ⟨⟨by simp, by simp⟩, fun hjoins => by cases hjoins⟩, _, rfl, ?_⟩
      exact ⟨⟨⟨by simp, by simp⟩, fun _ => rfl⟩, rfl⟩
    · rfl
  case testEmpty r =>
    obtain rfl : H = [] := hjoin rfl
    refine goes_join_into he ?_
    split
    · refine Discipline.Follows.append (K := []) ?_ ⟨⟨trivial, fun _ => rfl⟩, rfl⟩
      exact follows_of_only (by simp) rfl
    · rfl
  case resetManager r =>
    obtain rfl : H = [] := hjoin rfl
    refine goes_join_into he ?_
    split
    · refine Discipline.Follows.append (K := []) ?_ ⟨⟨trivial, fun _ => rfl⟩, rfl⟩
      exact follows_of_only (by simp) rfl
    · rfl
  case testConnected reset r =>
    obtain rfl : H = [] := hjoin rfl
    refine goes_join_into he ?_
    split
    · rfl
    · refine Discipline.Follows.append (K := []) ?_ (follows_join_connect reset r)
      split
      · exact ⟨⟨trivial, fun _ => rfl⟩, rfl⟩
      · rfl

end Operations

theorem follows_join_entry {t : Thread α} {c : Entry V} {p : Process V} {code : Code V}
    (h : c.code t p = some code) : (joinDiscipline V).Follows [] code [] := by
  have hfollows := follows_entry h
  cases t with
  | client =>
    cases c with
    | runClient iterate removal =>
      obtain ⟨place, -, hcode⟩ := Option.bind_eq_some_iff.mp h
      cases place <;> cases hcode <;> exact follows_of_only hfollows rfl
    | _ => cases h
  | app a =>
    cases c <;> simp only [Entry.code, Entry.applicationCode, Option.some_inj, reduceCtorEq] at h <;>
      subst h
    case openDevice reset r =>
      exact ⟨⟨rfl, fun _ => rfl⟩, ⟨rfl, fun hjoins => by cases hjoins⟩, rfl⟩
    case closeDevice r =>
      exact ⟨⟨trivial, fun hjoins => by cases hjoins⟩, follows_join_resetClient r⟩
    case destroyAccessor r browseName accessor =>
      exact ⟨by simp, ⟨⟨[], rfl, by simp, by simp⟩, rfl⟩, rfl⟩
    case stopClientThread => exact ⟨⟨trivial, fun _ => rfl⟩, rfl⟩
    all_goals exact follows_of_only hfollows rfl

/-! ## The client thread and its object -/

/-- A thread object stands for the client thread, at its place. -/
def Process.Coupled (p : Process V) : Prop := ∀ place ∈ p.opcuaThread, p.client = some place

section Coupled

variable {p p' : Process V} {next : Next (Op V) Lock}

theorem Process.coupled_atPlace (place : ClientThread) : (p.atPlace place).Coupled := by
  intro place' hplace'
  obtain ⟨_, -, rfl⟩ := Option.map_eq_some_iff.mp hplace'
  rfl

/-- **Every operation** keeps the object at the place of the thread. -/
theorem Op.exec_coupled {i : Op V} (h : p.Coupled) (he : i.exec p = some (p', next)) :
    p'.Coupled := by
  by_cases hi : i.movesClient = false
  · obtain ⟨hclient, hthread⟩ := Op.exec_thread hi he
    intro place hplace
    rw [hclient]
    exact h place (hthread ▸ hplace)
  cases i <;> try (exact absurd rfl hi)
  case spawn =>
    simp only [Op.exec] at he
    split at he
    · obtain ⟨rfl, -⟩ := Process.into_eq.mp he
      exact h
    · rename_i hnone
      obtain ⟨rfl, -⟩ := Process.into_eq.mp he
      -- without a client thread there is no object
      intro place hplace
      have : p.client = some place := h place hplace
      simp [this] at hnone
  case assignThread =>
    obtain ⟨rfl, -⟩ := Process.into_eq.mp he
    exact fun place hplace => hplace
  case join =>
    simp only [Op.exec] at he
    split at he
    · obtain ⟨rfl, -⟩ := Process.into_eq.mp he
      exact h
    · split at he
      · obtain ⟨rfl, -⟩ := Process.into_eq.mp he
        intro place hplace
        cases hplace
      · cases he
  case finish =>
    obtain ⟨rfl, -⟩ := Process.into_eq.mp he
    exact Process.coupled_atPlace _
  all_goals
    obtain ⟨rfl, -⟩ := Process.into_eq.mp he
    exact Process.coupled_atPlace _

/-- Only a join waits, and for a client thread that has not ended. -/
theorem Op.exec_waits {i : Op V} (h : p.Coupled) (he : i.exec p = none) :
    i = .join ∧ ∃ place, p.client = some place ∧ place ≠ .ended := by
  cases i
  case join =>
    simp only [Op.exec] at he
    split at he
    · cases he
    · rename_i place hthread
      split at he
      · cases he
      · rename_i hended
        have hclient := h place hthread
        refine ⟨rfl, place, hclient, ?_⟩
        rintro rfl
        exact hended hclient
  case callback c =>
    cases c <;> simp only [Op.exec, enterCallback] at he <;> repeat' split at he
    all_goals cases he
  all_goals
    simp only [Op.exec, OpcUaBackend.monitorItem, OpcUaBackend.enterItem,
      OpcUaBackend.leaveItem, overwriteValue] at he
    repeat' split at he
    all_goals cases he

end Coupled

/-! ## Every run -/

section Runs

variable {s s' : State V α} {t u : Thread α} {m : Move (Thread α) (Entry V)}

/-- The thread requests a lock that the other holds, or joins the client thread. -/
def State.WaitsFor (s : State V α) (t u : Thread α) : Prop :=
  s.Awaits t u ∨
    (u = .client ∧ ∃ rest, s.stack t = .run .join :: rest ∧ Op.join.exec s.shared = none)

/-- A thread waits for one other at most. -/
theorem State.WaitsFor.unique {v : Thread α} (h : s.WaitsFor t u) (h' : s.WaitsFor t v) :
    u = v := by
  rcases h with ⟨l, rest, hstack, hu⟩ | ⟨rfl, rest, hstack, -⟩ <;>
    rcases h' with ⟨l', rest', hstack', hv⟩ | ⟨rfl, rest', hstack', -⟩ <;>
    rw [hstack] at hstack' <;> cases hstack'
  exact Option.some.inj (hu.symm.trans hv)

variable [DecidableEq α]

/-- The thread takes its next instruction, or is the client thread and goes on in `runClient`. -/
def State.CanGoOn (s : State V α) (t : Thread α) : Prop :=
  (∃ s', (threads V α).Step s (.advance t) s') ∨
    (t = .client ∧ ∃ iterate removal s',
      (threads V α).Step s (.enter .client (.runClient iterate removal)) s')

/-- What holds in every state of a run that follows the lock discipline. -/
structure Progressing (s : State V α) : Prop where
  ascending : Ascending (lockDiscipline V) Lock.rank s
  joins : Disciplined (joinDiscipline V) s
  coupled : s.shared.Coupled
  client : Code.only Op.isClient (s.stack .client) = true

theorem reach_progressing (h : (threads V α).machine.Reach (OnRun OrderlyStep) s) :
    Progressing s := by
  constructor
  · exact Ascending.reach (fun t c p code hcode => Entry.code_ascending hcode)
      (fun i p p' code hexec => Op.exec_ascending hexec) h (reach_disciplined h)
  · refine Disciplined.reach (fun t c p code hcode => follows_join_entry hcode) ?_ h
    intro s t i rest H p' next hguard hstack hH hneeds hexec
    have horderly : OrderlyStep s t i := hguard.run hstack
    rw [OrderlyStep, hH.2] at horderly
    exact Op.exec_goes_join hneeds horderly hexec
  · refine h.invariant (I := fun s => s.shared.Coupled) (fun s hinit place hplace => ?_)
      fun s m s' hI _ hs => ?_
    · have hfresh : s.shared.Fresh := hinit.1
      have hnone : s.shared.opcuaThread = none := by
        have hlifecycle := hfresh.world.lifecycle
        exact congrArg Lifecycle.opcuaThread hlifecycle
      rw [hnone] at hplace
      cases hplace
    · rcases hs.1.shared with heq | ⟨t, i, rest, next, -, -, hexec⟩
      · rw [heq]
        exact hI
      · exact Op.exec_coupled hI hexec
  · exact reach_client_only h

/-- A thread that is ready and runs no join goes on. -/
theorem Progressing.goesOn (h : Progressing s) (hready : s.Ready t)
    (hjoin : ∀ rest, s.stack t ≠ .run .join :: rest) : s.CanGoOn t := by
  rcases hready.advance (P := threads V α) with hstep | ⟨i, rest, hstack, hexec⟩
  · exact .inl hstep
  · obtain ⟨rfl, -⟩ := Op.exec_waits h.coupled hexec
    exact absurd hstack (hjoin rest)

omit [DecidableEq α] in
theorem Progressing.join_holds_nothing (h : Progressing s) {rest : Code V}
    (hstack : s.stack t = .run .join :: rest) (l : Lock) : s.holder l ≠ some t := by
  obtain ⟨H, hH, -, hjoin⟩ := h.joins.needs hstack
  obtain rfl : H = [] := hjoin rfl
  exact fun hl => absurd ((hH.2 l).mp hl) (by simp)

/-- From a thread in a call, a chain of requests leads to one that goes on, or the thread
itself runs a join. -/
theorem Progressing.exists_goesOn (h : Progressing s) (ht : s.stack t ≠ []) :
    (∃ u, Relation.ReflTransGen s.WaitsFor t u ∧ s.CanGoOn u) ∨
      ∃ rest, s.stack t = .run .join :: rest := by
  obtain ⟨u, hchain, hready, hu⟩ := h.ascending.exists_ready Lock.rank_lt ht
  by_cases hjoin : ∃ rest, s.stack u = .run .join :: rest
  · obtain ⟨rest, hstack⟩ := hjoin
    rcases hu with rfl | ⟨l, hl⟩
    · exact .inr ⟨rest, hstack⟩
    · exact absurd hl (h.join_holds_nothing hstack l)
  · have hle : s.Awaits ≤ s.WaitsFor := fun a b hab => Or.inl hab
    refine .inl ⟨u, Relation.ReflTransGen.mono hle _ _ hchain, h.goesOn hready ?_⟩
    exact fun rest hstack => hjoin ⟨rest, hstack⟩

/-- Behind every thread in a call there is one that goes on. -/
theorem Progressing.progress (h : Progressing s) (ht : s.stack t ≠ []) :
    ∃ u, Relation.ReflTransGen s.WaitsFor t u ∧ s.CanGoOn u := by
  rcases h.exists_goesOn ht with hgoes | ⟨rest, hstack⟩
  · exact hgoes
  cases hexec : Op.join.exec s.shared with
  | some r => exact ⟨t, .refl, .inl ⟨_, .run (P := threads V α) hstack hexec⟩⟩
  | none =>
    -- the client thread has not ended, and it runs no join itself
    obtain ⟨-, place, hplace, hended⟩ := Op.exec_waits h.coupled hexec
    have hwaits : s.WaitsFor t .client := .inr ⟨rfl, rest, hstack, hexec⟩
    cases hclient : s.stack .client with
    | nil =>
      refine ⟨.client, .single hwaits, .inr ⟨rfl, { result := .good }, { result := .good }, ?_⟩⟩
      cases place with
      | ended => exact absurd rfl hended
      | _ => exact ⟨_, .enter hclient (by simp [threads, Entry.code, hplace, Code.runClient]; rfl)⟩
    | cons x code =>
      rcases h.exists_goesOn (by simp [hclient] : s.stack .client ≠ []) with
        ⟨u, hchain, hu⟩ | ⟨rest', hjoin⟩
      · exact ⟨u, .head hwaits hchain, hu⟩
      · have hmem : Instr.run Op.join ∈ s.stack .client := hjoin ▸ List.mem_cons_self ..
        exact absurd (Code.only_mem h.client hmem) (by simp [Op.isClient, Op.isNested])

/-- A thread that goes on waits for none. -/
theorem State.CanGoOn.not_waitsFor (h : s.CanGoOn t) : ¬ s.WaitsFor t u := by
  rintro (⟨l, rest, hstack, hu⟩ | ⟨-, rest, hstack, hexec⟩)
  · rcases h with ⟨s', hs⟩ | ⟨rfl, _, _, s', hs⟩
    · cases hs with
      | lock hstack' hfree =>
        rw [hstack] at hstack'
        cases hstack'
        simp [hfree] at hu
      | unlock hstack' => rw [hstack] at hstack'; cases hstack'
      | run hstack' _ => rw [hstack] at hstack'; cases hstack'
    · cases hs with
      | enter hempty _ => rw [hstack] at hempty; cases hempty
  · rcases h with ⟨s', hs⟩ | ⟨rfl, _, _, s', hs⟩
    · obtain ⟨next, hexec'⟩ := hs.of_run hstack
      have hnone : Op.join.exec s.shared = some (s'.shared, next) := hexec'
      simp [hexec] at hnone
    · cases hs with
      | enter hempty _ => rw [hstack] at hempty; cases hempty

/-- A chain that ends has no cycle in it, since each thread waits for one other at most. -/
theorem State.not_transGen_of_chain (h : Relation.ReflTransGen s.WaitsFor t u)
    (hu : s.CanGoOn u) : ¬ Relation.TransGen s.WaitsFor t t := by
  induction h using Relation.ReflTransGen.head_induction_on with
  | refl =>
    intro hcycle
    obtain ⟨v, hv, -⟩ := Relation.TransGen.head'_iff.mp hcycle
    exact hu.not_waitsFor hv
  | head hwaits _ ih =>
    intro hcycle
    obtain ⟨v, hv, hback⟩ := Relation.TransGen.head'_iff.mp hcycle
    obtain rfl := hwaits.unique hv
    exact ih (Relation.TransGen.tail' hback hwaits)

/-- **No deadlock.** In every run of the application thread and the client thread that follows the
lock discipline, a chain of threads that wait for each other leads from each thread in a call to
one that goes on, and closes nowhere. -/
theorem reach_progress {s : State V Unit} {t : Thread Unit}
    (h : (threads V Unit).machine.Reach (OnRun OrderlyStep) s) (ht : s.stack t ≠ []) :
    (∃ u, Relation.ReflTransGen s.WaitsFor t u ∧ s.CanGoOn u) ∧
      ¬ Relation.TransGen s.WaitsFor t t := by
  obtain ⟨u, hchain, hu⟩ := (reach_progressing h).progress ht
  exact ⟨⟨u, hchain, hu⟩, State.not_transGen_of_chain hchain hu⟩

/-- The client thread iterates with `client_lock`, and a read of the application waits for it. -/
def readWhileIterating : List (Move (Thread Unit) (Entry Nat)) :=
  let iteration : Entry Nat := .runClient { result := .good } { result := .good }
  Entry.steps (.app ()) (.constructAccessor {} "a" ⟨1, .string "a"⟩ 10) 6
    ++ Entry.steps (.app ()) (.openDevice {} connecting) 40
    ++ Entry.steps (.app ()) (.activateAsyncRead {}) 13
    ++ Entry.steps .client iteration 1 ++ Entry.steps .client iteration 1
    ++ Entry.steps (.app ()) (.read "a" 10 { result := .good } { result := .good }) 2

theorem reach_progress_readWhileIterating :
    let s : State Nat Unit := (threads Nat Unit).after (Program.start {}) readWhileIterating
    (∃ u, Relation.ReflTransGen s.WaitsFor (.app ()) u ∧ s.CanGoOn u) ∧
      ¬ Relation.TransGen s.WaitsFor (.app ()) (.app ()) := by
  intro s
  have hreach : (threads Nat Unit).machine.Reach (OnRun OrderlyStep) s :=
    Program.reach_after readWhileIterating (Program.reach_start Process.fresh_default)
      (by decide +kernel)
  have hcall : (s.stack (.app ())).length ≠ 0 := by decide +kernel
  exact reach_progress hreach (List.ne_nil_of_length_pos (Nat.pos_of_ne_zero hcall))

end Runs

end OpcUaBackend
