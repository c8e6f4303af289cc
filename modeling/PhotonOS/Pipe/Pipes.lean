import PhotonOS.Files.Descriptors
import PhotonOS.Lib.RingQueue

/-!
Pipes: the buffer behind the two ends, `sys_pipe`, reading, writing and closing.
The bytes that went in and came out and the buffers that were released are kept
as a history beside the model.
-/

namespace PhotonOS.Pipe

open Files

def pipeBufferSize : Nat := 4096

abbrev Byte := BitVec 8

inductive Side where
  | read | write
  deriving DecidableEq, Repr

inductive FileNode where
  | pipeEnd (pipe : Nat) (side : Side)
  | other (id : Nat)
  deriving DecidableEq, Repr

structure PipeBuffer where
  ring : RingQueue Byte
  readers : Nat
  writers : Nat

structure PipeHistory where
  accepted : Nat → List Byte
  returned : Nat → List Byte
  released : List Nat

/-- Buffers have numbers for addresses. `unattached` are the ends that `sys_pipe` has made and no file
description refers to. -/
structure Pipes where
  buffers : Nat → Option PipeBuffer
  next : Nat
  unattached : Finset FileNode
  history : PipeHistory

def Pipes.initial : Pipes where
  buffers := fun _ => none
  next := 0
  unattached := ∅
  history := { accepted := fun _ => [], returned := fun _ => [], released := [] }

/-! The functions of the nodes. -/

def PipeBuffer.leave (buffer : PipeBuffer) : Side → PipeBuffer
  | .read => { buffer with readers := buffer.readers - 1 }
  | .write => { buffer with writers := buffer.writers - 1 }

def pipeNodeClose (pipes : Pipes) (pipe : Nat) (side : Side) : Pipes :=
  match pipes.buffers pipe with
  | none => pipes
  | some buffer =>
    if (buffer.leave side).readers = 0 ∧ (buffer.leave side).writers = 0 then
      { pipes with
        buffers := Function.update pipes.buffers pipe none
        history := { pipes.history with released := pipe :: pipes.history.released } }
    else { pipes with buffers := Function.update pipes.buffers pipe (some (buffer.leave side)) }

def pipeRead (pipes : Pipes) (pipe size : Nat) : Pipes × List Byte :=
  match pipes.buffers pipe with
  | none => (pipes, [])
  | some buffer =>
    let (ring, bytes) := RingQueue.popMany pipeBufferSize size buffer.ring
    ({ pipes with
        buffers := Function.update pipes.buffers pipe (some { buffer with ring := ring })
        history := { pipes.history with
          returned := Function.update pipes.history.returned pipe (pipes.history.returned pipe ++ bytes) } }, bytes)

def pipeWrite (pipes : Pipes) (pipe : Nat) (bytes : List Byte) : Pipes × Int :=
  match pipes.buffers pipe with
  | none => (pipes, 0)
  | some buffer =>
    if buffer.readers = 0 then (pipes, -1)
    else
      let (ring, written) := RingQueue.pushMany pipeBufferSize buffer.ring bytes
      ({ pipes with
          buffers := Function.update pipes.buffers pipe (some { buffer with ring := ring })
          history := { pipes.history with
            accepted := Function.update pipes.history.accepted pipe
              (pipes.history.accepted pipe ++ bytes.take written) } }, written)

def pipeOps : NodeOps FileNode Pipes where
  ref pipes node := { pipes with unattached := pipes.unattached.erase node }
  close pipes node :=
    match node with
    | .pipeEnd pipe side => pipeNodeClose pipes pipe side
    | .other _ => pipes

/-! System calls. -/

abbrev PipeKernel := Kernel FileNode Pipes

def emptyBuffer : PipeBuffer where
  ring := { data := fun _ => 0, readPos := 0, writePos := 0, count := 0 }
  readers := 1
  writers := 1

def makePipe (pipes : Pipes) : Pipes :=
  { pipes with
    buffers := Function.update pipes.buffers pipes.next (some emptyBuffer)
    next := pipes.next + 1
    unattached := insert (.pipeEnd pipes.next .read) (insert (.pipeEnd pipes.next .write) pipes.unattached) }

def closeObtained (kernel : PipeKernel) (task : Nat) : Option Nat → PipeKernel
  | none => kernel
  | some fd => sysClose pipeOps kernel task fd

/-- The outcomes of the calls of `kmalloc`: for the five objects of the pipe and for each of the two
file descriptions. -/
structure PipeMemory where
  objects : Bool
  readDescription : Bool
  writeDescription : Bool

def sysPipe (kernel : PipeKernel) (task : Nat) (memory : PipeMemory) : PipeKernel × Option (Nat × Nat) :=
  if !memory.objects then (kernel, none)
  else
    let pipe := kernel.world.next
    let kernel := { kernel with world := makePipe kernel.world }
    let (kernel, readFd) := taskAllocFd pipeOps kernel task (.pipeEnd pipe .read) memory.readDescription
    let (kernel, writeFd) := taskAllocFd pipeOps kernel task (.pipeEnd pipe .write) memory.writeDescription
    match readFd, writeFd with
    | some readFd, some writeFd => (kernel, some (readFd, writeFd))
    | _, _ => (closeObtained (closeObtained kernel task readFd) task writeFd, none)

def nodeAt (kernel : PipeKernel) (task fd : Nat) : Option FileNode := (fdAt kernel.files task fd).bind kernel.files.nodeOf

/-- `sys_read` on a pipe's read end, for a size that is not zero. `allocated` is the outcome of
`kmalloc(size)`, `mapped` that of the tests on the user's buffer. -/
def sysReadPipe (kernel : PipeKernel) (pipe size : Nat) (mapped allocated : Bool) : PipeKernel × Int :=
  if !allocated then (kernel, -1)
  else
    let (world, bytes) := pipeRead kernel.world pipe size
    ({ kernel with world := world }, if bytes ≠ [] ∧ !mapped then -1 else bytes.length)

/-- `sys_write` on a pipe's write end; at most 4096 bytes are written at a time. For no bytes at all
`kmalloc` gives no buffer, and `vfs_write` then returns 0. -/
def sysWritePipe (kernel : PipeKernel) (pipe : Nat) (bytes : List Byte) (mapped allocated : Bool) : PipeKernel × Int :=
  if !mapped then (kernel, -1)
  else if bytes = [] then (kernel, 0)
  else if !allocated then (kernel, -1)
  else
    let (world, result) := pipeWrite kernel.world pipe (bytes.take 4096)
    ({ kernel with world := world }, result)

/-! Runs. -/

abbrev TaskSlot := Fin maxTasks

inductive PipeCall where
  | openOther (task : TaskSlot) (id : Nat) (allocated : Bool)
  | pipe (task : TaskSlot) (memory : PipeMemory)
  | dup (task : TaskSlot) (oldFd start : Nat)
  | dup2 (task : TaskSlot) (oldFd newFd : Nat)
  | inherit (parent child : TaskSlot)
  | close (task : TaskSlot) (fd : Nat)
  | exit (task : TaskSlot)
  | read (task : TaskSlot) (fd size : Nat)
  | write (task : TaskSlot) (fd : Nat) (bytes : List Byte)

def rowEmpty (files : Files FileNode) (task : Nat) : Bool :=
  (List.range taskMaxFds).all fun fd => (files.fds (task, fd)).isNone

def pipeStep (kernel : PipeKernel) : PipeCall → PipeKernel
  | .openOther task id allocated => (taskAllocFd pipeOps kernel task (.other id) allocated).1
  | .pipe task memory => (sysPipe kernel task memory).1
  | .dup task oldFd start => (dupFrom kernel task oldFd start).1
  | .dup2 task oldFd newFd => (sysDup2 pipeOps kernel task oldFd newFd).1
  | .inherit parent child =>
    if rowEmpty kernel.files child then { kernel with files := inheritFds kernel.files parent child } else kernel
  | .close task fd => sysClose pipeOps kernel task fd
  | .exit task => taskCloseAllFds pipeOps kernel task
  | .read task fd size =>
    match nodeAt kernel task fd with
    | some (.pipeEnd pipe .read) => { kernel with world := (pipeRead kernel.world pipe size).1 }
    | _ => kernel
  | .write task fd bytes =>
    match nodeAt kernel task fd with
    | some (.pipeEnd pipe .write) => { kernel with world := (pipeWrite kernel.world pipe bytes).1 }
    | _ => kernel

def pipeInit : PipeKernel where
  files := { fds := fun _ => none, descriptions := fun _ => none, next := 0 }
  world := .initial

end PhotonOS.Pipe
