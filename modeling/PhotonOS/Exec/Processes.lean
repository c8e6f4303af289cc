import PhotonOS.Exec.ExecCurrent

/-!
The processes of the system and what changes their address spaces: loading and
replacing an image, `fork`, page faults, `sys_brk`, signal delivery and termination.
-/

namespace PhotonOS.Exec

open Sched (maxTasks)

/-- A slot of the task table; `frame` is the syscall frame on its kernel stack. A slot whose process has been
reaped is not live. -/
structure Process where
  task : ExecTask
  frame : SyscallFrame
  live : Bool

/-- `kernelTasks` is the number of slots that tasks of the kernel occupy. -/
structure System where
  machine : Machine
  heap : KernelHeap.Heap
  cr3 : BitVec 64
  slots : List Process
  kernelTasks : Nat

namespace System

def process (system : System) (slot : Nat) : Option Process := system.slots[slot]?.filter (·.live)

def setProcess (system : System) (slot : Nat) (process : Process) : System :=
  { system with slots := system.slots.set slot process }

end System

def userPages (task : SignalTask) : List (BitVec 64) :=
  (List.range task.userPageCount.toNat).map task.userPhysicalPages

def allocateTaskSlot (system : System) : System × Option Nat :=
  match system.slots.findIdx? fun process => !process.live with
  | some slot =>
    let pages := ((system.slots[slot]?).map fun process => userPages process.task.toSignalTask).getD []
    ({ system with machine := pages.foldl pmmFree system.machine }, some slot)
  | none => if system.kernelTasks + system.slots.length ≥ maxTasks then (system, none) else (system, some system.slots.length)

def enterProcess (system : System) (slot : Nat) (process : Process) : System :=
  if slot < system.slots.length then system.setProcess slot process
  else { system with slots := system.slots ++ [process] }

/-! `elf_load_process`. -/

def splitCommand (path : List UInt8) : List UInt8 × Option (List UInt8) :=
  let file := (path.takeWhile (· != 32)).take (filePathMax - 1)
  let rest := (path.drop file.length).dropWhile (· == 32)
  (file, if rest = [] then none else some (rest.take 255))

def loadSegment (node : FileNode) (pml4 : BitVec 64) (segment : ProgramHeader) (heapStart : Nat) (state : Loading) :
    Loading × Option Nat :=
  let (state, mapped) := mapSegment node pml4 segment state
  (state, if mapped then some (max heapStart (alignUp (segment.vaddr + segment.memsz))) else none)

def loadImage (node : FileNode) (header : ElfHeader) (argument : Option (List UInt8)) (pml4 : BitVec 64)
    (state : Loading) : Loading × Option Nat :=
  match forSegments node header (loadSegment node pml4) header.phnum 0 0 state with
  | (state, none) => (state, none)
  | (state, some heapStart) =>
    match mapUserStack pml4 argument state with
    | (state, false) => (state, none)
    | (state, true) =>
      match mapSignalTrampoline pml4 state with
      | (state, false) => (state, none)
      | (state, true) =>
        if !vmmIsMapped state.machine pml4 (BitVec.ofNat 64 header.entry) ||
            !vmmIsMapped state.machine pml4 (BitVec.ofNat 64 (elfUserStackTop - 8)) ||
            !vmmIsMapped state.machine pml4 signalTrampolineAddr then (state, none)
        else (state, some (alignUp heapStart))

def loadedTask (before : ExecTask) (path : List UInt8) (entry heapStart : Nat) (pml4 : BitVec 64)
    (pages : List (BitVec 64)) : ExecTask where
  cr3 := pml4
  userPhysicalPages index := pages.getD index (before.userPhysicalPages index)
  userPageCount := BitVec.ofNat 32 pages.length
  signalHandlers signum := if signum < taskSignalCount then 0 else before.signalHandlers signum
  pendingSignals := 0
  blockedSignals := 0
  activeSignal := 0
  signalContext := { before.signalContext with signum := 0 }
  heapStart := heapStart
  heapEnd := heapStart
  name := copyProcessName path
  registers := { before.registers with rip := BitVec.ofNat 64 entry, rflags := elfInitialRflags }
  sigreturnFrame := before.sigreturnFrame

def blankTask : ExecTask where
  cr3 := 0
  userPhysicalPages _ := 0
  userPageCount := 0
  signalHandlers _ := 0
  pendingSignals := 0
  blockedSignals := 0
  activeSignal := 0
  signalContext := zeroContext
  heapStart := 0
  heapEnd := 0
  name := []
  registers := zeroRegisters
  sigreturnFrame := zeroSigreturnFrame

def blankFrame : SyscallFrame := ⟨0, 0, 0, 0, 0, 0, 0, 0, 0, 0, 0, 0, 0, 0, 0⟩

def System.taskAt (system : System) (slot : Nat) : ExecTask := ((system.slots[slot]?).map Process.task).getD blankTask

def elfLoadProcess (system : System) (path : List UInt8) (find : List UInt8 → Option FileNode) : System × Option Nat :=
  let (file, argument) := splitCommand path
  match openExecutable find file with
  | none => (system, none)
  | some (node, header) =>
    let (machine, pml4) := vmmCreateAddressSpace system.machine
    if pml4 = 0 then ({ system with machine := machine }, none)
    else
      match loadImage node header argument pml4 { machine := machine, pages := [] } with
      | (state, none) => ({ system with machine := vmmDestroyAddressSpace pml4 state.machine }, none)
      | (state, some heapStart) =>
        match allocateTaskSlot { system with machine := state.machine } with
        | (system, none) => ({ system with machine := vmmDestroyAddressSpace pml4 system.machine }, none)
        | (system, some slot) =>
          (enterProcess system slot
            { task := loadedTask (system.taskAt slot) file header.entry heapStart pml4 state.pages
              frame := blankFrame
              live := true }, some slot)

/-! The calls of a running process. -/

def userHeapMaxSize : Nat := 4 * 1024 * 1024

def brkPages : Nat → Nat → Machine → ExecTask → Machine × ExecTask × Bool
  | 0, _, machine, task => (machine, task, true)
  | count + 1, page, machine, task =>
    let (machine, physical) := pmmAlloc machine
    if physical = 0 ∨ task.userPageCount ≥ taskMaxUserPages then
      (if physical ≠ 0 then pmmFree machine physical else machine, task, false)
    else
      let task := { task with
        userPhysicalPages := fun index =>
          if index = task.userPageCount.toNat then physical else task.userPhysicalPages index
        userPageCount := task.userPageCount + 1 }
      brkPages count (page + pageSize)
        (vmmMapInSpace (machine.clearPage physical) task.cr3 (BitVec.ofNat 64 page) physical
          (pagePresent ||| pageWritable ||| pageUser)) task

def sysBrk (machine : Machine) (task : ExecTask) (address : Nat) : Machine × ExecTask :=
  if task.heapStart = 0 ∨ address = 0 then (machine, task)
  else if address < task.heapStart ∨ address > task.heapStart + userHeapMaxSize then (machine, task)
  else if address ≤ task.heapEnd then (machine, { task with heapEnd := address })
  else
    let first := alignUp task.heapEnd
    match brkPages ((alignUp address - first) / pageSize) first machine task with
    | (machine, task, false) => (machine, task)
    | (machine, task, true) => (machine, { task with heapEnd := address })

/-- `scheduler_fork_current`: the child gets a clone of the address space and a copy of the control block. -/
def schedulerForkCurrent (system : System) (parent : Process) : System :=
  let (machine, childPml4) := vmmCloneAddressSpace system.machine parent.task.cr3
  if childPml4 = 0 then { system with machine := machine }
  else
    match allocateTaskSlot { system with machine := machine } with
    | (system, none) => { system with machine := vmmDestroyAddressSpace childPml4 system.machine }
    | (system, some slot) =>
      enterProcess system slot
        { task := { parent.task with cr3 := childPml4, activeSignal := 0, pendingSignals := 0 }
          frame := parent.frame
          live := true }

def terminate (system : System) (slot : Nat) (process : Process) : System :=
  let system := { system with machine := vmmDestroyAddressSpace process.task.cr3 system.machine }
  system.setProcess slot
    { process with
      task := { process.task with
        cr3 := system.machine.kernelPml4, userPageCount := 0, pendingSignals := 0, activeSignal := 0 }
      live := false }

def afterDelivery {Frame : Type} (system : System) (slot : Nat) (process : Process) (delivery : Delivery Frame)
    (frame : SyscallFrame) : System :=
  let process := { process with
    task := { process.task with toSignalTask := delivery.task }
    frame := frame }
  let system := { system with machine := delivery.machine }
  match delivery.outcome with
  | .terminated _ => terminate (system.setProcess slot process) slot process
  | _ => system.setProcess slot process

inductive SpaceEvent where
  | load (path : List UInt8) (find : List UInt8 → Option FileNode)
  | exec (slot : Nat) (call : ExecCall)
  | fork (slot : Nat)
  | fault (slot : Nat) (errorCode address : BitVec 64)
  | brk (slot : Nat) (address : Nat)
  | tick (slot : Nat) (frame : InterruptTaskFrame)
  | syscallReturn (slot : Nat) (ret : BitVec 64)
  | exit (slot : Nat)

/-- The system after an `execve` of the process in `slot`. A heap walk that does not end leaves it as it was. -/
def execProcess (system : System) (slot : Nat) (process : Process) (call : ExecCall) : System :=
  match elfExecCurrent
      { machine := system.machine, heap := system.heap, cr3 := system.cr3, task := process.task, frame := process.frame }
      call with
  | none => system
  | some (kernel, _) =>
    { system with machine := kernel.machine, heap := kernel.heap, cr3 := kernel.cr3 }.setProcess slot
      { process with task := kernel.task, frame := kernel.frame }

def processEvent (system : System) (slot : Nat) (process : Process) : SpaceEvent → System
  | .load .. => system
  | .exec _ call => execProcess system slot process call
  | .fork _ => schedulerForkCurrent system process
  | .fault _ errorCode address =>
    { system with machine := (vmmPageFaultHandler system.machine process.task.cr3 errorCode address).1 }
  | .brk _ address =>
    let (machine, task) := sysBrk system.machine process.task address
    { system with machine := machine }.setProcess slot { process with task := task }
  | .tick _ frame =>
    afterDelivery system slot process
      (deliverPendingSignalUnlocked system.machine process.task.toSignalTask frame) process.frame
  | .syscallReturn _ ret =>
    let delivery := schedulerHandleSyscallSignals system.machine process.task.toSignalTask process.frame ret
    afterDelivery system slot process delivery delivery.frame
  | .exit _ => terminate system slot process

def SpaceEvent.slot : SpaceEvent → Nat
  | .load .. => 0
  | .exec slot _ | .fork slot | .fault slot .. | .brk slot _ | .tick slot _ | .syscallReturn slot _ | .exit slot => slot

def spaceStep (system : System) (event : SpaceEvent) : System :=
  match event with
  | .load path find => (elfLoadProcess system path find).1
  | event =>
    match system.process event.slot with
    | none => system
    | some process => processEvent system event.slot process event

/-! A small machine and a small image. -/

def bytesLe (count value : Nat) : List UInt8 := (Bytes.toBytes count value).reverse

def tinyImage (flags : Nat) : List UInt8 :=
  elfIdent ++ List.replicate 9 0 ++ bytesLe 2 2 ++ bytesLe 2 62 ++ bytesLe 4 1 ++ bytesLe 8 0x8000001000 ++
    bytesLe 8 64 ++ bytesLe 8 0 ++ bytesLe 4 0 ++ bytesLe 2 64 ++ bytesLe 2 56 ++ bytesLe 2 1 ++ bytesLe 6 0 ++
    bytesLe 4 1 ++ bytesLe 4 flags ++ bytesLe 8 0 ++ bytesLe 8 0x8000001000 ++ bytesLe 8 0 ++ bytesLe 8 0 ++ bytesLe 8 1 ++
    bytesLe 8 4096

def tinyNode (flags : Nat) : FileNode where
  isFile := true
  size := (tinyImage flags).length
  read offset count := some (((tinyImage flags).drop offset).take count)

def tinyMachine : Machine where
  mem _ _ := 0
  pmm := {
    bitmap := fun frame => decide (frame < 2)
    refcounts := fun frame => if frame < 2 then 1 else 0
    total := 16
    reserved := 2
    exhausted := false }
  kernelPml4 := frameAddress 1

end PhotonOS.Exec
