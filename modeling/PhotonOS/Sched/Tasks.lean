import PhotonOS.Signal.Delivery

/-!
The task table of `scheduler.c`: creation, fork, termination, signals, `waitpid`
and the functions that put tasks to sleep and wake them. Every call names the
task that makes it, so a run covers every order in which the scheduler lets the
tasks go on.
-/

namespace PhotonOS.Sched

def maxTasks : Nat := 16
def wnohang : BitVec 32 := 1

inductive TaskState where
  | unused | ready | running | sleeping | waiting | blocked | stopped | zombie | dead
  deriving DecidableEq, Repr

inductive WaitReason where
  | none | stdin | child | pipeRead | pipeWrite | mutex | socketRecv | network
  deriving DecidableEq, Repr

/-- What the scheduler reads and changes of a task control block. `userMode` is the code selector of the
frame the task first runs with. -/
structure Task where
  pid : BitVec 32
  parentPid : BitVec 32
  state : TaskState
  waitReason : WaitReason
  waitTarget : BitVec 64
  exitStatus : BitVec 32
  signalHandlers : Nat → BitVec 64
  pendingSignals : BitVec 32
  blockedSignals : BitVec 32
  activeSignal : BitVec 32
  userMode : Bool

def Task.vacant (task : Task) : Bool := task.state == .unused || task.state == .dead

def Task.live (task : Task) : Bool := !task.vacant && task.state != .zombie

/-- `tasks[0 .. task_count)`, `next_pid` and `idle_task_index`. -/
structure Table where
  tasks : List Task
  nextPid : BitVec 32
  idle : Nat

def Task.wake (task : Task) : Task :=
  { task with state := .ready, waitReason := .none, waitTarget := 0 }

/-! Creation. -/

def allocateTaskSlot (tasks : List Task) : Option Nat :=
  match tasks.findIdx? Task.vacant with
  | some slot => some slot
  | none => if tasks.length ≥ maxTasks then none else some tasks.length

def pidInUse (tasks : List Task) (pid : BitVec 32) : Bool := tasks.any fun task => !task.vacant && task.pid == pid

/-- The loop of `generate_pid`; `none` when `fuel` rounds were not enough. -/
def generatePidFrom (tasks : List Task) : Nat → BitVec 32 → Option (BitVec 32)
  | 0, _ => none
  | fuel + 1, pid =>
    let pid := if pid = 0 then 1 else pid
    if pidInUse tasks pid then generatePidFrom tasks fuel (pid + 1) else some pid

def generatePid (table : Table) : Option (BitVec 32) := generatePidFrom table.tasks (table.tasks.length + 1) table.nextPid

def putTask (tasks : List Task) (slot : Nat) (task : Task) : List Task :=
  if slot < tasks.length then tasks.set slot task else tasks ++ [task]

def addTask (table : Table) (make : BitVec 32 → Task) : Table × Option (BitVec 32) :=
  match allocateTaskSlot table.tasks with
  | none => (table, none)
  | some slot =>
    match generatePid table with
    | none => (table, none)
    | some pid => ({ table with tasks := putTask table.tasks slot (make pid), nextPid := pid + 1 }, some pid)

def newTask (creator : Option Task) (userMode : Bool) (pid : BitVec 32) : Task where
  pid := pid
  parentPid := creator.elim 0 Task.pid
  state := .ready
  waitReason := .none
  waitTarget := 0
  exitStatus := 0
  signalHandlers := fun _ => 0
  pendingSignals := 0
  blockedSignals := 0
  activeSignal := 0
  userMode := userMode

def schedulerCreateTaskWithMode (table : Table) (creator : Option Nat) (userMode : Bool) : Table × Option (BitVec 32) :=
  addTask table (newTask (creator.bind (table.tasks[·]?)) userMode)

def schedulerAddUserProcess (table : Table) (creator : Option Nat) : Table × Option (BitVec 32) :=
  addTask table (newTask (creator.bind (table.tasks[·]?)) true)

def forkedTask (parent : Task) (pid : BitVec 32) : Task :=
  { parent with
    pid := pid
    parentPid := parent.pid
    state := .ready
    waitReason := .none
    waitTarget := 0
    exitStatus := 0
    activeSignal := 0
    pendingSignals := 0
    userMode := true }

/-- `scheduler_fork_current`; `cloned` is the outcome of `vmm_clone_address_space`. -/
def schedulerForkCurrent (table : Table) (caller : Nat) (cloned : Bool) : Table × Option (BitVec 32) :=
  match table.tasks[caller]? with
  | none => (table, none)
  | some parent => if cloned then addTask table (forkedTask parent) else (table, none)

def schedulerInit : Table :=
  let empty : Table := { tasks := [], nextPid := 1, idle := 0 }
  let (table, pid) := schedulerCreateTaskWithMode empty none false
  { table with idle := pid.elim 0 fun pid => pid.toNat - 1 }

/-! Termination. -/

def reparent (exitedPid : BitVec 32) (task : Task) : Task :=
  if !task.vacant && task.parentPid == exitedPid then { task with parentPid := 1 } else task

def wakeParentWaiter (exitedPid : BitVec 32) (task : Task) : Task :=
  if (task.state = .sleeping ∨ task.state = .waiting) ∧ task.waitReason = .child ∧
      (task.waitTarget = exitedPid.setWidth 64 ∨ task.waitTarget = 0 ∨ task.waitTarget = -1) then task.wake
  else task

def findTask (tasks : List Task) (pid : BitVec 32) : Option Nat :=
  tasks.findIdx? fun task => !task.vacant && task.pid == pid

/-- `SIG_DFL` or `SIG_IGN`. -/
def Task.ignores (task : Task) (signum : Nat) : Bool := task.signalHandlers signum == 0 || task.signalHandlers signum == 1

def Task.addPending (task : Task) (signum : Nat) : Task :=
  { task with pendingSignals := task.pendingSignals ||| signalBit signum }

def notifyParent (tasks : List Task) (parentPid : BitVec 32) : List Task :=
  if parentPid = 0 then tasks
  else
    match findTask tasks parentPid with
    | none => tasks
    | some slot => tasks.modify slot fun task => if task.ignores sigchld then task else task.addPending sigchld

def schedulerTerminateTask (table : Table) (slot : Nat) (status : BitVec 32) : Table :=
  match table.tasks[slot]? with
  | none => table
  | some task =>
    if !task.live then table
    else
      let ended := { task with
        exitStatus := status
        state := .zombie
        waitReason := .none
        waitTarget := 0
        pendingSignals := 0
        activeSignal := 0 }
      let tasks := table.tasks.set slot ended
      let tasks := tasks.map (reparent task.pid)
      let tasks := tasks.map (wakeParentWaiter task.pid)
      { table with tasks := notifyParent tasks task.parentPid }

/-! Signals. -/

def sigstop : Nat := 19
def sigtstp : Nat := 20

def Task.clearPending (task : Task) (signum : Nat) : Task :=
  { task with pendingSignals := task.pendingSignals &&& ~~~signalBit signum }

def Task.post (task : Task) (signum : Nat) : Task :=
  if (task.state = .sleeping ∨ task.state = .waiting ∨ task.state = .blocked) ∧
      task.blockedSignals &&& signalBit signum = 0 then (task.addPending signum).wake
  else task.addPending signum

def Task.resume (task : Task) : Task :=
  if task.state = .stopped then (task.clearPending sigstop).wake else task.clearPending sigstop

/-- What `scheduler_send_signal` does to its target for `SIGCONT`, `SIGCHLD` and all signals without a
case of their own. -/
def Task.receive (task : Task) (signum : Nat) : Task :=
  if signum = sigcont then if task.ignores sigcont then task.resume else task.resume.post signum
  else if signum = sigchld ∧ task.ignores sigchld then task
  else task.post signum

def Task.stop (task : Task) : Task :=
  { task.clearPending sigcont with state := .stopped, waitReason := .none, waitTarget := 0 }

def sendPlainSignal (table : Table) (pid : BitVec 32) (signum : Nat) : Table × Int :=
  match findTask table.tasks pid with
  | none => (table, -1)
  | some slot =>
    if (table.tasks[slot]?).any fun task => task.state == .zombie then (table, -1)
    else ({ table with tasks := table.tasks.modify slot fun task => task.receive signum }, 0)

def signalSlot (table : Table) (slot signum : Nat) : Table × Int :=
  match table.tasks[slot]? with
  | none => (table, -1)
  | some task =>
    if task.state = .zombie then (table, -1)
    else if signum = sigkill then (schedulerTerminateTask table slot (BitVec.ofNat 32 (128 + sigkill)), 0)
    else if signum = sigstop then
      let table := { table with tasks := table.tasks.modify slot Task.stop }
      -- the parent hears of it after the lock was released
      (if task.parentPid ≠ 0 then (sendPlainSignal table task.parentPid sigchld).1 else table, 0)
    else ({ table with tasks := table.tasks.modify slot fun task => task.receive signum }, 0)

def schedulerSendSignal (table : Table) (pid : BitVec 32) (signum : Int) : Table × Int :=
  if ¬(0 < signum ∧ signum < taskSignalCount) then (table, -1)
  else
    match findTask table.tasks pid with
    | none => (table, -1)
    | some slot => signalSlot table slot signum.toNat

def schedulerSigaction (table : Table) (caller : Nat) (signum : Int) (handler : BitVec 64) : Table :=
  if signum ≤ 0 ∨ signum ≥ taskSignalCount ∨ signum = sigkill ∨ signum = sigstop then table
  else
    { table with tasks := table.tasks.modify caller fun task =>
        { task with signalHandlers := fun other => if other = signum.toNat then handler else task.signalHandlers other } }

inductive MaskChange where
  | block | unblock | set
  deriving DecidableEq, Repr

def schedulerSigprocmask (table : Table) (caller : Nat) (how : MaskChange) (set : BitVec 32) : Table :=
  let newSet := set &&& ~~~signalBit sigkill &&& ~~~signalBit sigstop
  { table with tasks := table.tasks.modify caller fun task =>
      { task with blockedSignals :=
          match how with
          | .block => task.blockedSignals ||| newSet
          | .unblock => task.blockedSignals &&& ~~~newSet
          | .set => newSet } }

/-! Waiting. -/

def sleepState : WaitReason → TaskState
  | .child => .waiting
  | .socketRecv | .network => .blocked
  | _ => .sleeping

def Task.sleep (task : Task) (reason : WaitReason) (target : BitVec 64) : Task :=
  { task with state := sleepState reason, waitReason := reason, waitTarget := target }

def schedulerSleepCurrent (table : Table) (caller : Nat) (reason : WaitReason) (target : BitVec 64) : Table :=
  { table with tasks := table.tasks.modify caller fun task => task.sleep reason target }

inductive WakeCall where
  | stdinReaders
  | pipeReaders (pipe : BitVec 64)
  | pipeWriters (pipe : BitVec 64)
  | socketReceivers (protocol : BitVec 8)
  | socket (sock : BitVec 64)

def WakeCall.wakes (call : WakeCall) (task : Task) : Bool :=
  match call with
  | .stdinReaders => task.state == .sleeping && task.waitReason == .stdin
  | .pipeReaders pipe => task.state == .sleeping && task.waitReason == .pipeRead && task.waitTarget == pipe
  | .pipeWriters pipe => task.state == .sleeping && task.waitReason == .pipeWrite && task.waitTarget == pipe
  | .socketReceivers protocol =>
    task.state == .blocked && task.waitReason == .socketRecv && task.waitTarget == protocol.setWidth 64
  | .socket sock =>
    (task.state == .blocked || task.state == .sleeping) &&
      (task.waitReason == .socketRecv || task.waitReason == .network) && task.waitTarget == sock

def schedulerWake (table : Table) (call : WakeCall) : Table :=
  { table with tasks := table.tasks.map fun task => if call.wakes task then task.wake else task }

/-- One round of the loop of `scheduler_waitpid`. A round that finds only running children marks the
caller and starts again after a yield. -/
inductive WaitOutcome where
  | reaped (slot : Nat) (pid status : BitVec 32)
  | noChild
  | running
  | blocked
  deriving DecidableEq, Repr

def WaitOutcome.value : WaitOutcome → Option Int
  | .reaped _ pid _ => some pid.toInt
  | .noChild => some (-1)
  | .running => some 0
  | .blocked => none

def waitMatches (callerPid pid : BitVec 32) (task : Task) : Bool :=
  !task.vacant && task.parentPid == callerPid && !(decide (0 < pid.toInt) && task.pid != pid)

def reap (task : Task) : Task := { task with state := .dead, pid := 0, parentPid := 0 }

def waitpidRound (table : Table) (caller : Nat) (pid options : BitVec 32) : Table × WaitOutcome :=
  match table.tasks[caller]? with
  | none => (table, .noChild)
  | some current =>
    match table.tasks.findIdx? fun task => waitMatches current.pid pid task && task.state == .zombie with
    | some slot =>
      ({ table with tasks := table.tasks.modify slot reap }, match table.tasks[slot]? with
        | some child => .reaped slot child.pid child.exitStatus
        | none => .noChild)
    | none =>
      if !table.tasks.any (waitMatches current.pid pid) then (table, .noChild)
      else if options &&& wnohang ≠ 0 then (table, .running)
      else
        ({ table with tasks := table.tasks.modify caller fun task =>
            { task with
              state := .waiting
              waitReason := .child
              waitTarget := if 0 < pid.toInt then pid.setWidth 64 else 0 } }, .blocked)

/-! Runs. -/

inductive Call where
  | createTask (creator : Option Nat) (userMode : Bool)
  | addUserProcess (creator : Option Nat)
  | fork (caller : Nat) (cloned : Bool)
  | terminate (slot : Nat) (status : BitVec 32)
  | sendSignal (pid : BitVec 32) (signum : Int)
  | sigaction (caller : Nat) (signum : Int) (handler : BitVec 64)
  | sigprocmask (caller : Nat) (how : MaskChange) (set : BitVec 32)
  | sleep (caller : Nat) (reason : WaitReason) (target : BitVec 64)
  | wake (call : WakeCall)
  | waitpid (caller : Nat) (pid options : BitVec 32)

def Call.caller : Call → Option Nat
  | .createTask creator _ | .addUserProcess creator => creator
  | .fork caller _ | .sigaction caller _ _ | .sigprocmask caller _ _ | .sleep caller _ _ | .waitpid caller _ _ =>
    some caller
  | .terminate _ _ | .sendSignal _ _ | .wake _ => none

def callable (table : Table) (call : Call) : Bool :=
  call.caller.all fun slot => (table.tasks[slot]?).any Task.live

def callEffect (table : Table) : Call → Table
  | .createTask creator userMode => (schedulerCreateTaskWithMode table creator userMode).1
  | .addUserProcess creator => (schedulerAddUserProcess table creator).1
  | .fork caller cloned => (schedulerForkCurrent table caller cloned).1
  | .terminate slot status => schedulerTerminateTask table slot status
  | .sendSignal pid signum => (schedulerSendSignal table pid signum).1
  | .sigaction caller signum handler => schedulerSigaction table caller signum handler
  | .sigprocmask caller how set => schedulerSigprocmask table caller how set
  | .sleep caller reason target => schedulerSleepCurrent table caller reason target
  | .wake call => schedulerWake table call
  | .waitpid caller pid options => (waitpidRound table caller pid options).1

def schedStep (table : Table) (call : Call) : Table := if callable table call then callEffect table call else table

end PhotonOS.Sched
