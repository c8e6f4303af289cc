import PhotonOS.Files.Descriptors
import PhotonOS.Sched.Family

/-!
The descriptors of all tasks of the task table.
-/

namespace PhotonOS.Files

open Sched (Table KinEvent)
open Function

structure NodeLog (Node World : Type) where
  world : World
  refs : Node → Nat
  closes : Node → Nat

/-- A call of `node->close` that has not returned; `dup2` is what `sys_dup2` does next, with its two arguments. -/
structure Closing (Node : Type) where
  id : Nat
  node : Node
  dup2 : Option (Nat × Nat)

/-- `closing` are the calls that tasks are inside of, and `abandoned` the descriptions of those that will never return. -/
structure TaskFiles (Node World : Type) where
  table : Table
  kernel : Kernel Node (NodeLog Node World)
  closing : Nat → Option (Closing Node)
  abandoned : List (Nat × Node)

structure Nodes (Node World : Type) where
  ops : NodeOps Node World
  interruptible : Node → Bool
  console : Nat → Node

section

variable {Node World : Type} [DecidableEq Node] (nodes : Nodes Node World)

def Nodes.logged : NodeOps Node (NodeLog Node World) where
  ref log node :=
    { log with
      world := nodes.ops.ref log.world node
      refs := update log.refs node (log.refs node + 1) }
  close log node :=
    { log with
      world := nodes.ops.close log.world node
      closes := update log.closes node (log.closes node + 1) }

def liveTask (table : Table) (task : Nat) : Bool := (table.tasks[task]?).any Sched.Task.live

/-! The calls. -/

def fileDescriptionAlloc {World : Type} (ops : NodeOps Node World) (kernel : Kernel Node World) (node : Node) :
    Kernel Node World × Nat :=
  let id := kernel.files.next
  ({ files := { kernel.files with
      descriptions := update kernel.files.descriptions id (some { node := node, refCount := 1 })
      next := id + 1 }
     world := ops.ref kernel.world node }, id)

/-- `sys_open` for a node that was found and may be accessed; `opens` is the outcome of `node->open`. -/
def sysOpen {World : Type} (ops : NodeOps Node World) (kernel : Kernel Node World) (task : Nat) (node : Node)
    (allocated opens : Bool) : Kernel Node World :=
  if !allocated then kernel
  else
    let (kernel, id) := fileDescriptionAlloc ops kernel node
    match freeFd kernel.files task 3 with
    | none => fileDescriptionUnref ops kernel id
    | some fd =>
      if !opens then fileDescriptionUnref ops kernel id
      else { kernel with files := { kernel.files with fds := update kernel.files.fds (task, fd) (some id) } }

/-- The end of `sys_pipe`, with the outcomes of `kmalloc` for the two descriptions. -/
def sysPipe {World : Type} (ops : NodeOps Node World) (kernel : Kernel Node World) (task : Nat) (readNode writeNode : Node)
    (readAllocated writeAllocated : Bool) : Kernel Node World :=
  let (kernel, readFd) := taskAllocFd ops kernel task readNode readAllocated
  let (kernel, writeFd) := taskAllocFd ops kernel task writeNode writeAllocated
  if readFd.isNone || writeFd.isNone then
    let kernel := readFd.elim kernel (sysClose ops kernel task)
    writeFd.elim kernel (sysClose ops kernel task)
  else kernel

def standardFd {World : Type} (ops : NodeOps Node World) (task : Nat) (console : Nat → Node) (allocated : Nat → Bool)
    (kernel : Kernel Node World) (fd : Nat) : Kernel Node World :=
  if allocated fd then
    let (kernel, id) := fileDescriptionAlloc ops kernel (console fd)
    { kernel with files := { kernel.files with fds := update kernel.files.fds (task, fd) (some id) } }
  else kernel

def initStandardFds {World : Type} (ops : NodeOps Node World) (kernel : Kernel Node World) (task : Nat)
    (console : Nat → Node) (allocated : Nat → Bool) : Kernel Node World :=
  (List.range 3).foldl (standardFd ops task console allocated) kernel

def interruptedAt (files : Files Node) (task fd : Nat) (interrupted : Bool) : Option (Nat × Node) :=
  (fdAt files task fd).bind fun id =>
    (closesNode files task fd).bind fun node =>
      if nodes.interruptible node && interrupted then some (id, node) else none

def afterClose (files : Files Node) (task : Nat) : Option (Nat × Nat) → Files Node
  | none => files
  | some (oldFd, newFd) => (fdAt files task oldFd).elim files (shareFd files task newFd)

namespace TaskFiles

variable (state : TaskFiles Node World)

def withKernel (kernel : Kernel Node (NodeLog Node World)) : TaskFiles Node World := { state with kernel := kernel }

def enter (task : Nat) (files : Files Node) (closing : Closing Node) : TaskFiles Node World :=
  { state with
    kernel := { state.kernel with files := files }
    closing := update state.closing task (some closing) }

def close (task fd : Nat) (interrupted : Bool) : TaskFiles Node World :=
  match interruptedAt nodes state.kernel.files task fd interrupted with
  | some (id, node) =>
    state.enter task (sysClose nodes.logged state.kernel task fd).files { id := id, node := node, dup2 := none }
  | none => state.withKernel (sysClose nodes.logged state.kernel task fd)

def dup2 (task oldFd newFd : Nat) (interrupted : Bool) : TaskFiles Node World :=
  if (fdAt state.kernel.files task oldFd).isSome && decide (oldFd ≠ newFd) then
    match interruptedAt nodes state.kernel.files task newFd interrupted with
    | some (id, node) =>
      state.enter task (sysClose nodes.logged state.kernel task newFd).files
        { id := id, node := node, dup2 := some (oldFd, newFd) }
    | none => state.withKernel (sysDup2 nodes.logged state.kernel task oldFd newFd).1
  else state

/-- `sys_socket` from `task_alloc_fd` on. Without a free descriptor the new description is closed again. -/
def socket (task : Nat) (node : Node) (allocated interrupted : Bool) : TaskFiles Node World :=
  if allocated && (freeFd state.kernel.files task 3).isNone && nodes.interruptible node && interrupted then
    let files := state.kernel.files
    { state with
      kernel := {
        files := { files with next := files.next + 1 }
        world := nodes.logged.ref state.kernel.world node }
      closing := update state.closing task (some { id := files.next, node := node, dup2 := none }) }
  else state.withKernel (taskAllocFd nodes.logged state.kernel task node allocated).1

def resume (task : Nat) : TaskFiles Node World :=
  match state.closing task with
  | none => state
  | some closing =>
    { state with
      kernel := {
        files := afterClose state.kernel.files task closing.dup2
        world := nodes.logged.close state.kernel.world closing.node }
      closing := update state.closing task none }

def followKin (allocated : Nat → Bool) : KinEvent → TaskFiles Node World
  | .born slot none _ => state.withKernel (initStandardFds nodes.logged state.kernel slot nodes.console allocated)
  | .born slot (some parent) _ =>
    state.withKernel { state.kernel with files := inheritFds state.kernel.files parent slot }
  | .ended slot _ =>
    { state with
      kernel := taskCloseAllFds nodes.logged state.kernel slot
      closing := update state.closing slot none
      abandoned := ((state.closing slot).map fun closing => (closing.id, closing.node)).toList ++ state.abandoned }
  | .reaped .. | .quiet => state

end TaskFiles

inductive FileCall (Node : Type) where
  | openNode (node : Node) (allocated opens : Bool)
  | pipe (readNode writeNode : Node) (readAllocated writeAllocated : Bool)
  | socket (node : Node) (allocated interrupted : Bool)
  | dup (oldFd : Nat)
  | fcntlDupFd (fd minFd : Nat)
  | dup2 (oldFd newFd : Nat) (interrupted : Bool)
  | close (fd : Nat) (interrupted : Bool)

/-- A call of a task, a task that goes on, or a call of the scheduler: creation, `fork`, `spawn`, `kill`, `exit`,
`waitpid`, with the outcomes of `kmalloc` for standard descriptors. Descriptor numbers of 32 and more stand for
negative ones too. -/
inductive FilesEvent (Node : Type) where
  | call (task : Nat) (call : FileCall Node)
  | resume (task : Nat)
  | scheduler (call : Sched.Call) (allocated : Nat → Bool)

def fileCall (state : TaskFiles Node World) (task : Nat) : FileCall Node → TaskFiles Node World
  | .openNode node allocated opens => state.withKernel (sysOpen nodes.logged state.kernel task node allocated opens)
  | .pipe readNode writeNode readAllocated writeAllocated =>
    state.withKernel (sysPipe nodes.logged state.kernel task readNode writeNode readAllocated writeAllocated)
  | .socket node allocated interrupted => state.socket nodes task node allocated interrupted
  | .dup oldFd => state.withKernel (sysDup state.kernel task oldFd).1
  | .fcntlDupFd fd minFd => state.withKernel (dupFrom state.kernel task fd minFd).1
  | .dup2 oldFd newFd interrupted => state.dup2 nodes task oldFd newFd interrupted
  | .close fd interrupted => state.close nodes task fd interrupted

/-- A task makes calls while it lives and is not inside another. -/
def filesStep (state : TaskFiles Node World) : FilesEvent Node → TaskFiles Node World
  | .call task call =>
    if liveTask state.table task && (state.closing task).isNone then fileCall nodes state task call else state
  | .resume task => if liveTask state.table task then state.resume nodes task else state
  | .scheduler call allocated =>
    if call.caller.all fun caller => (state.closing caller).isNone then
      { state.followKin nodes allocated (Sched.kinEvent state.table call) with
        table := Sched.schedStep state.table call }
    else state

def filesInit (world : World) (allocated : Nat → Bool) : TaskFiles Node World where
  table := Sched.schedulerInit
  kernel := initStandardFds nodes.logged
    { files := { fds := fun _ => none, descriptions := fun _ => none, next := 0 }
      world := { world := world, refs := fun _ => 0, closes := fun _ => 0 } } 0 nodes.console allocated
  closing := fun _ => none
  abandoned := []

end

end PhotonOS.Files
