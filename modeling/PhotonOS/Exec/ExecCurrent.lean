import PhotonOS.Exec.Loader
import PhotonOS.Heap.Allocator
import PhotonOS.Signal.Dispositions
import PhotonOS.Signal.Sigreturn

/-!
`elf_exec_current`. The copied strings are kept beside the heap block that holds
them: nothing else looks at the block before `kfree` poisons it. `vfs_find` and
`vfs_read` are given as functions and change neither frames nor heap.
-/

namespace PhotonOS.Exec

open ByteMemory

def elfInitialRflags : BitVec 64 := 0x202
def taskNameMax : Nat := 32

def filePathMax : Nat := 256

structure ExecTask extends SignalTask where
  heapStart : Nat
  heapEnd : Nat
  name : List UInt8
  registers : TaskRegisters
  sigreturnFrame : SigreturnFrame

structure ExecKernel where
  machine : Machine
  heap : KernelHeap.Heap
  cr3 : BitVec 64
  task : ExecTask
  frame : SyscallFrame

structure ExecCall where
  user : UserSpace
  path : Nat
  argv : Nat
  envp : Nat
  frameAddr : BitVec 64
  find : List UInt8 → Option FileNode

/-! The heap, with the frames that `heap_expand` takes. -/

def heapFlags : BitVec 64 := pagePresent ||| pageWritable ||| pageNx

def heapMapPage (machine : Machine) (page : BitVec 64) : Machine × Option (BitVec 64) :=
  let (machine, physical) := pmmAlloc machine
  if physical = 0 then (machine, none)
  else
    let machine := mapInPml4 machine machine.kernelPml4 page physical heapFlags
    if !vmmIsMapped machine machine.kernelPml4 page then (pmmFree machine physical, none)
    else (machine, some physical)

def heapMapPages : Nat → Nat → Machine → Machine × List (BitVec 64)
  | 0, _, machine => (machine, [])
  | count + 1, page, machine =>
    match heapMapPage machine (BitVec.ofNat 64 page) with
    | (machine, none) => (machine, [])
    | (machine, some physical) =>
      let (machine, rest) := heapMapPages count (page + pageSize) machine
      (machine, physical :: rest)

def expandedEnd (heap : KernelHeap.Heap) (size : Nat) : Nat :=
  KernelHeap.alignUp (heap.stop + (size + KernelHeap.headerSize)) pageSize

def heapGrows (heap : KernelHeap.Heap) (size : Nat) : Bool :=
  KernelHeap.findBlock heap.fuel heap.mem heap.head size == some 0 && decide (expandedEnd heap size ≤ heap.limit)

def growHeap (machine : Machine) (heap : KernelHeap.Heap) (size : Nat) : Machine × List (BitVec 64) :=
  if heapGrows heap size then
    heapMapPages ((expandedEnd heap size - heap.stop) / pageSize) heap.stop machine
  else (machine, [])

def heapFrames (machine : Machine) (heap : KernelHeap.Heap) (pages : List (BitVec 64)) : KernelHeap.Frames where
  maps _ page := decide (page < heap.stop + pageSize * pages.length)
  contents _ address := (machine.read (pages.getD ((address - heap.stop) / pageSize) 0) (address % pageSize / 8)).toNat

def kmalloc (machine : Machine) (heap : KernelHeap.Heap) (size : Nat) : Option (Machine × KernelHeap.Heap × Nat) :=
  let (machine, pages) := growHeap machine heap (KernelHeap.alignUp size 16)
  (KernelHeap.kmalloc (heapFrames machine heap pages) size heap).map fun result => (machine, result.1, result.2)

/-! The new image. -/

structure ExecScan where
  heapStart : Nat
  entryExecutable : Bool
  deriving DecidableEq, Repr

def execSegmentAllowed (node : FileNode) (header : ProgramHeader) : Bool :=
  !(decide (header.filesz > header.memsz) || decide (header.offset > node.size) ||
    decide (header.filesz > node.size - header.offset) || decide (header.vaddr < userBase) || header.memsz == 0 ||
    decide (header.vaddr > userLimit) || decide (header.memsz > userLimit - header.vaddr) ||
    decide (header.vaddr + header.memsz > stackBottom) ||
    decide (header.vaddr + header.memsz > signalTrampolineAddr.toNat))

def scanSegment (entry : Nat) (header : ProgramHeader) (scan : ExecScan) : ExecScan where
  heapStart := max scan.heapStart (alignUp (header.vaddr + header.memsz))
  entryExecutable := scan.entryExecutable ||
    (header.executable && decide (entry ≥ header.vaddr) && decide (entry < header.vaddr + header.memsz))

def loadExecSegment (node : FileNode) (header : ElfHeader) (pml4 : BitVec 64) (segment : ProgramHeader)
    (scan : ExecScan) (state : Loading) : Loading × Option ExecScan :=
  if !execSegmentAllowed node segment then (state, none)
  else
    match mapSegment node pml4 segment state with
    | (state, false) => (state, none)
    | (state, true) => (state, some (scanSegment header.entry segment scan))

def storeStack (memory : Memory) : Nat → List (BitVec 64) → Machine → Machine
  | _, [], machine => machine
  | page, physical :: rest, machine =>
    storeStack memory (page + pageSize) rest
      (machine.fill physical fun index => BitVec.ofNat 64 (loadWord memory (page + 8 * index)))

def mapExecStackPages (pml4 : BitVec 64) (vectors : ExecVectors) (state : Loading) : Loading × Option ExecStack :=
  match mapStackPages pml4 elfUserStackPages stackBottom state with
  | (state, false) => (state, none)
  | (stacked, true) =>
    match mapSignalTrampoline pml4 stacked with
    | (state, false) => (state, none)
    | (mapped, true) =>
      match mapExecStack vectors with
      | none => (mapped, none)
      | some stack =>
        ({ mapped with
          machine := storeStack stack.memory stackBottom (stacked.pages.drop state.pages.length) mapped.machine },
          some stack)

def buildExecImage (node : FileNode) (header : ElfHeader) (vectors : ExecVectors) (pml4 : BitVec 64)
    (state : Loading) : Loading × Option (ExecScan × ExecStack) :=
  match forSegments node header (loadExecSegment node header pml4) header.phnum 0 ⟨0, false⟩ state with
  | (state, none) => (state, none)
  | (state, some scan) =>
    if !scan.entryExecutable || decide (state.pages.length > taskPageLimit - elfUserStackPages - 1) then (state, none)
    else
      match mapExecStackPages pml4 vectors state with
      | (state, none) => (state, none)
      | (state, some stack) => (state, some (scan, stack))

/-! The call. -/

def slash : UInt8 := 47
def dot : UInt8 := 46

def pathBasename (path : List UInt8) : List UInt8 := (path.reverse.takeWhile (· != slash)).reverse

def copyProcessName (path : List UInt8) : List UInt8 :=
  let name := (pathBasename path).take (taskNameMax - 1)
  if !name.contains dot && decide (name.length + 4 < taskNameMax) then name ++ [dot, 101, 108, 102] else name

def zeroRegisters : TaskRegisters := ⟨0, 0, 0, 0, 0, 0, 0, 0, 0, 0, 0, 0, 0, 0, 0, 0, 0⟩
def zeroContext : SignalContext := ⟨zeroRegisters, 0, 0, 0, 0⟩
def zeroSigreturnFrame : SigreturnFrame := ⟨0, 0, 0, 0, 0, 0, 0, 0, 0, 0, 0, 0, 0, 0, 0, 0, 0, 0, 0, 0⟩

def execTask (task : ExecTask) (path : List UInt8) (entry : Nat) (vectors : ExecVectors) (scan : ExecScan)
    (stack : ExecStack) (pml4 : BitVec 64) (pages : List (BitVec 64)) : ExecTask where
  cr3 := pml4
  userPhysicalPages index := pages.getD index (task.userPhysicalPages index)
  userPageCount := BitVec.ofNat 32 pages.length
  signalHandlers signum :=
    if signum < taskSignalCount ∧ task.signalHandlers signum ≠ sigIgn then sigDfl else task.signalHandlers signum
  pendingSignals := task.pendingSignals
  blockedSignals := task.blockedSignals
  activeSignal := 0
  signalContext := zeroContext
  heapStart := scan.heapStart
  heapEnd := scan.heapStart
  name := copyProcessName path
  registers := { zeroRegisters with
    rip := BitVec.ofNat 64 entry
    rflags := elfInitialRflags
    rdi := BitVec.ofNat 64 vectors.argOffsets.length
    rsi := BitVec.ofNat 64 stack.argvAddr
    rdx := BitVec.ofNat 64 stack.envpAddr }
  sigreturnFrame := zeroSigreturnFrame

def execFrame (entry : Nat) (vectors : ExecVectors) (stack : ExecStack) : SyscallFrame where
  r9 := 0
  r8 := 0
  r10 := 0
  rdx := BitVec.ofNat 64 stack.envpAddr
  rsi := BitVec.ofNat 64 stack.argvAddr
  rdi := BitVec.ofNat 64 vectors.argOffsets.length
  r15 := 0
  r14 := 0
  r13 := 0
  r12 := 0
  rbp := 0
  rbx := 0
  r11 := elfInitialRflags
  rcx := BitVec.ofNat 64 entry
  userRsp := BitVec.ofNat 64 stack.initialRsp

def failExec (storage : Nat) (kernel : ExecKernel) : Option (ExecKernel × Int) :=
  (KernelHeap.kfree storage kernel.heap).map fun heap => ({ kernel with heap := heap }, -1)

def execImage (kernel : ExecKernel) (storage : Nat) (vectors : ExecVectors) (path : List UInt8) (node : FileNode)
    (header : ElfHeader) : Option (ExecKernel × Int) :=
  let (machine, pml4) := vmmCreateAddressSpace kernel.machine
  if pml4 = 0 then failExec storage { kernel with machine := machine, cr3 := kernel.task.cr3 }
  else
    match buildExecImage node header vectors pml4 { machine := machine, pages := [] } with
    | (state, none) =>
      failExec storage { kernel with
        machine := vmmDestroyAddressSpace pml4 state.machine
        cr3 := kernel.task.cr3 }
    | (state, some (scan, stack)) =>
      (KernelHeap.kfree storage kernel.heap).map fun heap =>
        ({ machine := vmmDestroyAddressSpace kernel.task.cr3 state.machine
           heap := heap
           cr3 := pml4
           task := execTask kernel.task path header.entry vectors scan stack pml4 state.pages
           frame := execFrame header.entry vectors stack }, 0)

def execWithStrings (kernel : ExecKernel) (storage : Nat) (call : ExecCall) : Option (ExecKernel × Int) :=
  match copyExecVectors call.user call.argv call.envp with
  | none => failExec storage kernel
  | some vectors =>
    let path := stringFrom call.user.byte filePathMax call.path
    if path.length = 0 ∨ path.length ≥ filePathMax then failExec storage kernel
    else
      match openExecutable call.find path with
      | none => failExec storage { kernel with cr3 := kernel.task.cr3 }
      | some (node, header) => execImage kernel storage vectors path node header

/-- `elf_exec_current`; `none` stands for a walk of the heap that does not end. The null checks on the
current task are left out: `scheduler_current_task` never returns null. -/
def elfExecCurrent (kernel : ExecKernel) (call : ExecCall) : Option (ExecKernel × Int) :=
  if call.frameAddr = 0 ∨ !vmmValidateUserString call.user call.path filePathMax then some (kernel, -1)
  else do
    let (machine, heap, storage) ← kmalloc kernel.machine kernel.heap execStringsMax
    let kernel := { kernel with machine := machine, heap := heap }
    if storage = 0 then return (kernel, -1) else execWithStrings kernel storage call

end PhotonOS.Exec
