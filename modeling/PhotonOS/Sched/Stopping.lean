import PhotonOS.Sched.Family

/-!
Stopped tasks under every interleaving of single updates. Sections that hold
`task_table_lock` are one update each.
-/

namespace PhotonOS.Sched

inductive FieldWrite where
  | state (value : TaskState)
  | waitReason (value : WaitReason)
  | waitTarget (value : BitVec 64)

def FieldWrite.apply (task : Task) : FieldWrite → Task
  | .state value => { task with state := value }
  | .waitReason value => { task with waitReason := value }
  | .waitTarget value => { task with waitTarget := value }

/-- The table and, for each mutex function under way, the slot it writes to and the writes to come. -/
structure Interleaving where
  table : Table
  underway : List (Nat × List FieldWrite)

inductive Update where
  | locked (call : Call)
  | mutexLock (caller : Nat) (mutex : BitVec 64)
  | mutexUnlock (slot : Nat)
  | write (index : Nat)
  | preempt (slot : Nat)
  | dispatch (slot : Nat)
  | dispatchIdle

def preempted (task : Task) : Task := if task.state = .running then { task with state := .ready } else task

def dispatched (task : Task) : Task :=
  if task.state = .ready ∨ task.state = .running then { task with state := .running } else task

def idleDispatched (task : Task) : Task := if task.live then { task with state := .running } else task

def Interleaving.change (state : Interleaving) (slot : Nat) (change : Task → Task) : Interleaving :=
  { state with table := { state.table with tasks := state.table.tasks.modify slot change } }

def updateStep (state : Interleaving) : Update → Interleaving
  | .locked call => { state with table := schedStep state.table call }
  | .mutexLock caller mutex => { state with
      underway := state.underway ++ [(caller, [.state .blocked, .waitReason .mutex, .waitTarget mutex])] }
  | .mutexUnlock slot =>
    if (state.table.tasks[slot]?).any fun task => task.state == .blocked && task.waitReason == .mutex then
      { state with underway := state.underway ++ [(slot, [.state .ready, .waitReason .none, .waitTarget 0])] }
    else state
  | .write index =>
    match state.underway[index]? with
    | some (slot, next :: rest) =>
      { state.change slot fun task => next.apply task with underway := state.underway.set index (slot, rest) }
    | _ => state
  | .preempt slot => state.change slot preempted
  | .dispatch slot => if slot = state.table.idle then state else state.change slot dispatched
  | .dispatchIdle => state.change state.table.idle idleDispatched

/-! What may not happen to a stopped task. -/

def waitBlocks (table : Table) (caller : Nat) (pid options : BitVec 32) : Bool :=
  (table.tasks[caller]?).any fun current =>
    table.tasks.any (waitMatches current.pid pid) &&
    !(table.tasks.any fun task => waitMatches current.pid pid task && task.state == .zombie) &&
    options &&& wnohang == 0

/-- The update is no blocking step of the task itself, no write of its state by a mutex function that
is under way, and does not fall back on it as the idle task. -/
def LeavesStopped (slot : Nat) (state : Interleaving) : Update → Prop
  | .locked (.sleep caller _ _) => caller ≠ slot
  | .locked (.waitpid caller pid options) => ¬(caller = slot ∧ waitBlocks state.table caller pid options = true)
  | .write index => ∀ value rest, state.underway[index]? ≠ some (slot, .state value :: rest)
  | .dispatchIdle => state.table.idle ≠ slot
  | _ => True

def Releases (slot : Nat) (state : Interleaving) : Update → Prop
  | .locked (.terminate target _) => target = slot
  | .locked (.sendSignal pid signum) =>
    findTask state.table.tasks pid = some slot ∧ (signum.toNat = sigcont ∨ signum.toNat = sigkill)
  | _ => False

/-! One lemma for each function: what it does to a stopped task. -/

def StoppedIn (tasks : List Task) (slot : Nat) : Prop := ∃ task, tasks[slot]? = some task ∧ task.state = .stopped

variable {tasks : List Task} {slot signum : Nat} {table : Table} {task : Task} {state : Interleaving}

theorem StoppedIn.map (stopped : StoppedIn tasks slot) (change : Task → Task)
    (keeps : ∀ task, task.state = .stopped → (change task).state = .stopped) : StoppedIn (tasks.map change) slot := by
  obtain ⟨task, present, state⟩ := stopped
  refine ⟨change task, ?_, keeps task state⟩
  rw [List.getElem?_map, present]
  rfl

theorem StoppedIn.modify (stopped : StoppedIn tasks slot) (target : Nat) (change : Task → Task)
    (keeps : target = slot → ∀ task, task.state = .stopped → (change task).state = .stopped) :
    StoppedIn (tasks.modify target change) slot := by
  obtain ⟨task, present, state⟩ := stopped
  by_cases here : target = slot
  · refine ⟨change task, ?_, keeps here task state⟩
    rw [List.getElem?_modify, present, here]
    simp
  · refine ⟨task, ?_, state⟩
    rw [List.getElem?_modify, present]
    simp [here]

theorem StoppedIn.addTask (stopped : StoppedIn table.tasks slot) (make : BitVec 32 → Task) :
    StoppedIn (addTask table make).1.tasks slot := by
  unfold Sched.addTask
  cases allocated : allocateTaskSlot table.tasks with
  | none => exact stopped
  | some free =>
    cases generatePid table with
    | none => exact stopped
    | some pid =>
      obtain ⟨task, present, state⟩ := stopped
      have different : slot ≠ free := by
        rintro rfl
        have vacant := allocateTaskSlot_free allocated
        rw [Table.family_at present] at vacant
        simp [Task.kin, Task.vacant, state] at vacant
      refine ⟨task, ?_, state⟩
      rw [putTask_getElem? (allocateTaskSlot_le allocated), if_neg different]
      exact present

theorem wake_unless_stopped {condition : Prop} [Decidable condition] (state : task.state = .stopped)
    (never : ¬condition) : (if condition then task.wake else task).state = .stopped := by
  rw [if_neg never]
  exact state

theorem receive_stopped (state : task.state = .stopped) (other : signum ≠ sigcont) :
    (task.receive signum).state = .stopped := by
  unfold Task.receive
  rw [if_neg other]
  split
  · exact state
  · simp [Task.post, state, Task.addPending]

section

variable (stopped : StoppedIn table.tasks slot)
include stopped

theorem StoppedIn.terminate {target : Nat} (other : target ≠ slot)
    (status : BitVec 32) : StoppedIn (schedulerTerminateTask table target status).tasks slot := by
  unfold schedulerTerminateTask
  cases table.tasks[target]? with
  | none => exact stopped
  | some ending =>
    dsimp only
    split
    · exact stopped
    have woken : ∀ ended, StoppedIn (((table.tasks.set target ended).map (reparent ending.pid)).map
        (wakeParentWaiter ending.pid)) slot := by
      intro ended
      have kept : StoppedIn (table.tasks.set target ended) slot := by
        obtain ⟨task, present, state⟩ := stopped
        exact ⟨task, (List.getElem?_set_ne other).trans present, state⟩
      refine (kept.map _ ?_).map _ ?_
      · intro task state
        unfold reparent
        split <;> exact state
      · intro task state
        exact wake_unless_stopped state (by simp [state])
    unfold notifyParent
    split
    · exact woken _
    split
    · exact woken _
    · apply (woken _).modify
      intro _ task state
      split <;> exact state

theorem StoppedIn.sendPlainSignal (pid : BitVec 32) (signum : Nat)
    (unreleased : findTask table.tasks pid = some slot → signum ≠ sigcont) :
    StoppedIn (sendPlainSignal table pid signum).1.tasks slot := by
  unfold Sched.sendPlainSignal
  cases found : findTask table.tasks pid with
  | none => exact stopped
  | some target =>
    dsimp only
    split
    · exact stopped
    · apply stopped.modify
      rintro rfl task state
      exact receive_stopped state (unreleased found)

theorem StoppedIn.signalSlot (target signum : Nat) (unreleased : target = slot → signum ≠ sigcont ∧ signum ≠ sigkill) :
    StoppedIn (signalSlot table target signum).1.tasks slot := by
  unfold Sched.signalSlot
  cases table.tasks[target]? with
  | none => exact stopped
  | some task =>
    dsimp only
    split
    · exact stopped
    split
    next kill =>
      have other : target ≠ slot := fun same => (unreleased same).2 kill
      exact stopped.terminate other _
    next =>
      have afterStop : StoppedIn (table.tasks.modify target Task.stop) slot :=
        stopped.modify target Task.stop fun _ _ _ => rfl
      split
      · split
        · apply StoppedIn.sendPlainSignal afterStop
          intro _
          decide
        · exact afterStop
      · apply stopped.modify
        intro same task state
        exact receive_stopped state (unreleased same).1

theorem StoppedIn.waitpidRound (caller : Nat) (pid options : BitVec 32)
    (leaves : ¬(caller = slot ∧ waitBlocks table caller pid options = true)) :
    StoppedIn (waitpidRound table caller pid options).1.tasks slot := by
  unfold Sched.waitpidRound
  cases currentAt : table.tasks[caller]? with
  | none => exact stopped
  | some current =>
    dsimp only
    cases search : table.tasks.findIdx? fun task => waitMatches current.pid pid task && task.state == .zombie with
    | some target =>
      obtain ⟨bound, matched, _⟩ := List.findIdx?_eq_some_iff_getElem.mp search
      simp only [Bool.and_eq_true, beq_iff_eq] at matched
      have other : target ≠ slot := by
        rintro rfl
        obtain ⟨task, present, state⟩ := stopped
        rw [List.getElem?_eq_getElem bound] at present
        cases present
        rw [matched.2] at state
        cases state
      exact stopped.modify target reap fun same => absurd same other
    | none =>
      dsimp only
      split
      · exact stopped
      next children =>
        split
        · exact stopped
        next waits =>
          apply stopped.modify
          intro same
          have nobody : (table.tasks.any fun task => waitMatches current.pid pid task && task.state == .zombie) =
              false := by
            rw [List.any_eq_false]
            rw [List.findIdx?_eq_none_iff] at search
            intro task member
            exact Bool.eq_false_iff.mp (search task member)
          have blocks : waitBlocks table caller pid options = true := by
            simp only [Bool.not_eq_true', Bool.not_eq_false, not_not] at children waits
            simp only [waitBlocks, currentAt, Option.any_some, children, nobody, waits]
            rfl
          exact absurd ⟨same, blocks⟩ leaves

end

theorem StoppedIn.schedStep (stopped : StoppedIn state.table.tasks slot) (call : Call)
    (leaves : LeavesStopped slot state (.locked call)) (unreleased : ¬Releases slot state (.locked call)) :
    StoppedIn (schedStep state.table call).tasks slot := by
  unfold Sched.schedStep
  split
  next =>
    cases call with
    | createTask creator userMode => exact stopped.addTask _
    | addUserProcess creator => exact stopped.addTask _
    | fork caller cloned =>
      simp only [callEffect, schedulerForkCurrent]
      split
      · exact stopped
      · split
        · exact stopped.addTask _
        · exact stopped
    | terminate target status => exact stopped.terminate unreleased status
    | sendSignal pid signum =>
      simp only [callEffect, schedulerSendSignal]
      split
      · exact stopped
      cases found : findTask state.table.tasks pid with
      | none => exact stopped
      | some target =>
        apply stopped.signalSlot
        rintro rfl
        exact ⟨fun cont => unreleased ⟨found, Or.inl cont⟩, fun kill => unreleased ⟨found, Or.inr kill⟩⟩
    | sigaction caller signum handler =>
      simp only [callEffect, schedulerSigaction]
      split
      · exact stopped
      · exact stopped.modify caller _ fun _ _ state => state
    | sigprocmask caller how set => exact stopped.modify caller _ fun _ _ state => state
    | sleep caller reason target => exact stopped.modify caller _ fun same => absurd same leaves
    | wake call =>
      apply stopped.map
      intro task state
      apply wake_unless_stopped state
      intro wakes
      cases call <;> simp [WakeCall.wakes, state] at wakes
    | waitpid caller pid options => exact stopped.waitpidRound caller pid options leaves
  next => exact stopped

theorem StoppedIn.updateStep (stopped : StoppedIn state.table.tasks slot) (update : Update)
    (leaves : LeavesStopped slot state update) (unreleased : ¬Releases slot state update) :
    StoppedIn (updateStep state update).table.tasks slot := by
  cases update with
  | locked call => exact stopped.schedStep call leaves unreleased
  | mutexLock caller mutex => exact stopped
  | mutexUnlock target =>
    simp only [Sched.updateStep]
    split <;> exact stopped
  | write index =>
    simp only [Sched.updateStep]
    split
    next target next rest found =>
      apply stopped.modify
      rintro rfl task state
      cases next with
      | state value => exact absurd found (leaves value rest)
      | waitReason value => exact state
      | waitTarget value => exact state
    next => exact stopped
  | preempt target =>
    apply stopped.modify
    intro _ task state
    simp [preempted, state]
  | dispatch target =>
    simp only [Sched.updateStep]
    split
    · exact stopped
    · apply stopped.modify
      intro _ task state
      simp [dispatched, state]
  | dispatchIdle => exact stopped.modify _ _ fun same => absurd same leaves

/-- A stopped task is neither ready nor running after any run that does not release it, as long as
no update of the run is a blocking step of its own or a state write that does not look first. -/
theorem stopped_task_stays (state : Interleaving) (slot : Nat) (updates : List Update)
    (stopped : StoppedIn state.table.tasks slot) (undisturbed : Transition.Admissible updateStep
      (fun state update => ¬Releases slot state update ∧ LeavesStopped slot state update) state updates) :
    ∃ task, (Transition.run updateStep state updates).table.tasks[slot]? = some task ∧
      task.state ≠ .ready ∧ task.state ≠ .running := by
  have still := Transition.run_invariant_of_admissible updateStep _ (fun state => StoppedIn state.table.tasks slot)
    (fun state update allowed stopped => stopped.updateStep update allowed.2 allowed.1) updates state stopped undisturbed
  obtain ⟨task, present, stoppedNow⟩ := still
  refine ⟨task, present, ?_, ?_⟩
  · rw [stoppedNow]
    decide
  · rw [stoppedNow]
    decide

/-- The idle task and a shell that has just stopped itself; it is still the task on the processor. -/
def stoppedShell : Interleaving where
  table := Transition.run schedStep schedulerInit [.addUserProcess none, .sendSignal 2 sigstop]
  underway := []

theorem stopped_task_stays_shell : ∃ task,
    (Transition.run updateStep stoppedShell [.locked (.wake .stdinReaders), .preempt 1, .dispatch 1]).table.tasks[1]? =
      some task ∧ task.state ≠ .ready ∧ task.state ≠ .running := by
  apply stopped_task_stays stoppedShell 1
  · exact ⟨_, rfl, rfl⟩
  · exact ⟨⟨id, trivial⟩, ⟨id, trivial⟩, ⟨id, trivial⟩, trivial⟩

/-- The stopped shell reads from an empty standard input before the next tick. The first key that is
pressed makes it ready, though nobody has sent `SIGCONT`. -/
theorem stopped_shell_woken : StoppedIn stoppedShell.table.tasks 1 ∧
    Transition.Admissible updateStep (fun state update => ¬Releases 1 state update) stoppedShell
      [.locked (.sleep 1 .stdin 0), .locked (.wake .stdinReaders)] ∧ ∃ task, (Transition.run updateStep stoppedShell
      [.locked (.sleep 1 .stdin 0), .locked (.wake .stdinReaders)]).table.tasks[1]? = some task ∧
      task.state = .ready := by
  refine ⟨⟨_, rfl, rfl⟩, ⟨id, id, trivial⟩, ⟨_, rfl, rfl⟩⟩

end PhotonOS.Sched
