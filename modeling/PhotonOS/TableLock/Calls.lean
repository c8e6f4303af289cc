import PhotonOS.Pipe.Runs
import PhotonOS.Sched.Tasks

/-!
`task_table_lock`, followed through every call that can end a task: termination
closes the descriptors of the task while it has the lock, and a node that is
closed for the last time may wake other tasks or let interrupts in.
-/

namespace PhotonOS.TableLock

open Files Sched
open Pipe (FileNode PipeKernel)

/-- What the delivery of a signal reads and changes of a control block besides the scheduler's part, and
the frame at `task->rsp`. -/
structure TaskMemory where
  cr3 : BitVec 64
  userPhysicalPages : Nat → BitVec 64
  userPageCount : BitVec 32
  signalContext : SignalContext
  frame : InterruptTaskFrame

/-- `sockets` are the nodes whose `data` is a socket; `held` says that this CPU has the lock. -/
structure LockState where
  table : Table
  current : Option Nat
  kernel : PipeKernel
  sockets : Finset Nat
  machine : Machine
  memory : Nat → TaskMemory
  held : Bool
  interrupts : Bool

/-- `scheduler_current_task()->pid`; before the first switch that is `kernel_task`. -/
def LockState.currentPid (state : LockState) : BitVec 32 := (state.current.bind (state.table.tasks[·]?)).elim 0 Task.pid

def withTableLock (state : LockState) (body : LockState → Option LockState) : Option LockState :=
  if state.held then none
  else
    (body { state with held := true, interrupts := false }).map fun after =>
      { after with held := false, interrupts := if state.interrupts then true else after.interrupts }

def wake (state : LockState) (call : WakeCall) : Option LockState :=
  withTableLock state fun state => some { state with table := schedulerWake state.table call }

/-! Closing descriptors. -/

def wakeOther (pipe : Nat) : Pipe.Side → WakeCall
  | .read => .pipeWriters (BitVec.ofNat 64 pipe)
  | .write => .pipeReaders (BitVec.ofNat 64 pipe)

def pipeNodeClose (state : LockState) (pipe : Nat) (side : Pipe.Side) : Option LockState :=
  match state.kernel.world.buffers pipe with
  | none => some state
  | some buffer =>
    let closed := { state with
      kernel := { state.kernel with world := Pipe.pipeNodeClose state.kernel.world pipe side } }
    if (buffer.leave side).users side = 0 then wake closed (wakeOther pipe side) else some closed

/-- The interrupts that a process can cause start by taking the lock: `scheduler_tick` and the keyboard's
`scheduler_find_task`. -/
def interrupt (state : LockState) : Option LockState := if state.held then none else some state

def mutexLockPreemptible (arrives : Bool) (state : LockState) : Option LockState :=
  if !state.interrupts && state.currentPid != 0 && arrives then interrupt state else some state

/-- The socket's queues and `tcp_close` come after the mutex. -/
def socketVfsClose (arrives : Bool) (state : LockState) (id : Nat) : Option LockState :=
  if id ∈ state.sockets then
    (mutexLockPreemptible arrives state).map fun state => { state with sockets := state.sockets.erase id }
  else some state

def nodeClose (arrives : Bool) (state : LockState) : FileNode → Option LockState
  | .pipeEnd pipe side => pipeNodeClose state pipe side
  | .other id => socketVfsClose arrives state id

def LockState.withFiles (state : LockState) (files : Files FileNode) : LockState :=
  { state with kernel := { state.kernel with files := files } }

def fileDescriptionUnref (arrives : Bool) (state : LockState) (id : Nat) : Option LockState :=
  let files := state.kernel.files
  match files.descriptions id with
  | none => some state
  | some description =>
    if description.refCount - 1 = 0 then
      (nodeClose arrives state description.node).map fun state =>
        state.withFiles { files with descriptions := Function.update files.descriptions id none }
    else
      some (state.withFiles { files with
        descriptions := Function.update files.descriptions id
          (some { description with refCount := description.refCount - 1 }) })

/-- The loop body of `task_close_all_fds`. `arrives fd` says whether an interrupt comes while it is let in. -/
def closeFd (arrives : Nat → Bool) (slot : Nat) (state : LockState) (fd : Nat) : Option LockState :=
  let files := state.kernel.files
  match files.fds (slot, fd) with
  | none => some state
  | some id =>
    fileDescriptionUnref (arrives fd)
      (state.withFiles { files with fds := Function.update files.fds (slot, fd) none }) id

def taskCloseAllFds (arrives : Nat → Bool) (state : LockState) (slot : Nat) : Option LockState :=
  (List.range taskMaxFds).foldlM (closeFd arrives slot) state

/-! Termination. -/

def LockState.withTasks (state : LockState) (tasks : List Task) : LockState :=
  { state with table := { state.table with tasks := tasks } }

def endedTask (task : Task) (status : BitVec 32) : Task :=
  { task with
    exitStatus := status
    state := .zombie
    waitReason := .none
    waitTarget := 0
    pendingSignals := 0
    activeSignal := 0 }

def schedulerTerminateTaskUnlocked (arrives : Nat → Bool) (state : LockState) (slot : Nat) (status : BitVec 32) :
    Option LockState :=
  match state.table.tasks[slot]? with
  | none => some state
  | some task =>
    if !task.live then some state
    else
      (taskCloseAllFds arrives (state.withTasks (state.table.tasks.set slot (endedTask task status))) slot).map
        fun state =>
          let tasks := state.table.tasks.map (reparent task.pid)
          let tasks := tasks.map (wakeParentWaiter task.pid)
          state.withTasks (notifyParent tasks task.parentPid)

def schedulerTerminateTask (arrives : Nat → Bool) (state : LockState) (slot : Nat) (status : BitVec 32) :
    Option LockState :=
  if (state.table.tasks[slot]?).any Task.live then
    withTableLock state fun state => schedulerTerminateTaskUnlocked arrives state slot status
  else some state

def sysExit (arrives : Nat → Bool) (state : LockState) (status : BitVec 32) : Option LockState :=
  match state.current with
  | none => some state
  | some slot => schedulerTerminateTask arrives state slot status

/-! Signals. -/

def sendLocked (arrives : Nat → Bool) (state : LockState) (pid : BitVec 32) (signum : Nat) : Option LockState :=
  match findTask state.table.tasks pid with
  | none => some state
  | some slot =>
    match state.table.tasks[slot]? with
    | none => some state
    | some task =>
      if task.state = .zombie then some state
      else if signum = sigkill then
        schedulerTerminateTaskUnlocked arrives state slot (BitVec.ofNat 32 (128 + sigkill))
      else if signum = sigstop then some (state.withTasks (state.table.tasks.modify slot Task.stop))
      else some (state.withTasks (state.table.tasks.modify slot fun task => task.receive signum))

def stopNotice (table : Table) (pid : BitVec 32) : BitVec 32 :=
  match (findTask table.tasks pid).bind (table.tasks[·]?) with
  | none => 0
  | some task => if task.state = .zombie then 0 else task.parentPid

def schedulerSendSignal (arrives : Nat → Bool) (state : LockState) (pid : BitVec 32) (signum : Int) : Option LockState :=
  if ¬(0 < signum ∧ signum < taskSignalCount) then some state
  else
    (withTableLock state fun state => sendLocked arrives state pid signum.toNat).bind fun after =>
      if signum.toNat = sigstop ∧ stopNotice state.table pid ≠ 0 then
        withTableLock after fun after =>
          some { after with table := (sendPlainSignal after.table (stopNotice state.table pid) sigchld).1 }
      else some after

def signalView (task : Task) (memory : TaskMemory) : SignalTask where
  cr3 := memory.cr3
  userPhysicalPages := memory.userPhysicalPages
  userPageCount := memory.userPageCount
  signalHandlers := task.signalHandlers
  pendingSignals := task.pendingSignals
  blockedSignals := task.blockedSignals
  activeSignal := task.activeSignal
  signalContext := memory.signalContext

def LockState.afterDelivery (state : LockState) (slot : Nat) (machine : Machine) (view : SignalTask)
    (frame : InterruptTaskFrame) : LockState :=
  { state with
    machine := machine
    table := { state.table with tasks := state.table.tasks.modify slot fun task =>
      { task with
        signalHandlers := view.signalHandlers
        pendingSignals := view.pendingSignals
        blockedSignals := view.blockedSignals
        activeSignal := view.activeSignal } }
    memory := Function.update state.memory slot
      { cr3 := view.cr3
        userPhysicalPages := view.userPhysicalPages
        userPageCount := view.userPageCount
        signalContext := view.signalContext
        frame := frame } }

/-- `deliver_pending_signal_unlocked`; the flag is its result, which is false for a terminated task. -/
def deliverPendingSignalUnlocked (arrives : Nat → Bool) (state : LockState) (slot : Nat) : Option (LockState × Bool) :=
  match state.table.tasks[slot]? with
  | none => some (state, true)
  | some task =>
    let delivery := PhotonOS.deliverPendingSignalUnlocked state.machine (signalView task (state.memory slot))
      (state.memory slot).frame
    let after := state.afterDelivery slot delivery.machine delivery.task delivery.frame
    match delivery.outcome with
    | .terminated status =>
      (schedulerTerminateTaskUnlocked arrives after slot (BitVec.ofNat 32 status)).map fun state => (state, false)
    | _ => some (after, true)

def schedulerHandleSyscallSignals (arrives : Nat → Bool) (state : LockState) (frame : SyscallFrame)
    (syscallRet : BitVec 64) : Option LockState :=
  match state.current with
  | none => some state
  | some slot =>
    match state.table.tasks[slot]? with
    | none => some state
    | some task =>
      let delivery := PhotonOS.schedulerHandleSyscallSignals state.machine (signalView task (state.memory slot))
        frame syscallRet
      let after := state.afterDelivery slot delivery.machine delivery.task (state.memory slot).frame
      match delivery.outcome with
      | .terminated status => schedulerTerminateTask arrives after slot (BitVec.ofNat 32 status)
      | _ => some after

/-! The timer interrupt. -/

/-- The loop body of `scheduler_tick`; the flag says that the candidate is switched to. -/
def tickCandidate (arrives : Nat → Bool) (state : LockState) (slot : Nat) : Option (LockState × Bool) :=
  match state.table.tasks[slot]? with
  | none => some (state, false)
  | some task =>
    if slot = state.table.idle ∨ ¬(task.state = .ready ∨ task.state = .running) then some (state, false)
    else if (state.memory slot).cr3 ≠ state.machine.kernelPml4 ∧ task.pendingSignals ≠ 0 ∧ task.activeSignal = 0 then
      deliverPendingSignalUnlocked arrives state slot
    else some (state, true)

def tickScan (arrives : Nat → Nat → Bool) : Nat → Nat → LockState → Option (LockState × Option Nat)
  | 0, _, state => some (state, none)
  | attempts + 1, index, state =>
    let candidate := (index + 1) % state.table.tasks.length
    (tickCandidate (arrives candidate) state candidate).bind fun (state, chosen) =>
      if chosen then some (state, some candidate) else tickScan arrives attempts candidate state

def LockState.switchTo (state : LockState) (slot : Nat) : LockState :=
  { state.withTasks (state.table.tasks.modify slot fun task => { task with state := .running }) with current := some slot }

def tickSwitch (state : LockState) : Option Nat → LockState
  | some slot => state.switchTo slot
  | none => if (state.table.tasks[state.table.idle]?).any Task.live then state.switchTo state.table.idle else state

def preempt (state : LockState) (frame : InterruptTaskFrame) : LockState :=
  match state.current with
  | none => state
  | some slot =>
    { state.withTasks (state.table.tasks.modify slot fun task =>
        if task.state = .running then { task with state := .ready } else task) with
      memory := Function.update state.memory slot { state.memory slot with frame := frame } }

def schedulerTick (arrives : Nat → Nat → Bool) (serial : Bool) (state : LockState) (frame : InterruptTaskFrame) :
    Option LockState :=
  (if serial then wake state .stdinReaders else some state).bind fun state =>
    withTableLock state fun state =>
      if state.table.tasks = [] then some state
      else
        let state := preempt state frame
        -- without a current task the scan starts at slot 0
        let start := state.current.getD (state.table.tasks.length - 1)
        (tickScan arrives state.table.tasks.length start state).map fun (state, chosen) => tickSwitch state chosen

end PhotonOS.TableLock
