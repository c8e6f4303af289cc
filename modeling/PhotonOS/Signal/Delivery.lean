import PhotonOS.Vmm.AddressSpaces

/-!
Signal delivery of `scheduler.c`. Both paths choose a signal, make sure that the
user stack has a page and store the address of the trampoline on it; the store
runs in the kernel, with the page tables of the task.
-/

namespace PhotonOS

def taskMaxUserPages : BitVec 32 := 128
def taskSignalCount : Nat := 32

def sigint : Nat := 2
def sigkill : Nat := 9
def sigpipe : Nat := 13
def sigterm : Nat := 15
def sigchld : Nat := 17
def sigcont : Nat := 18

def signalTrampolineAddr : BitVec 64 := 0x0000008000700000
def userCodeSelector : BitVec 64 := 0x2B
def userDataSelector : BitVec 64 := 0x23

structure TaskRegisters where
  r15 : BitVec 64
  r14 : BitVec 64
  r13 : BitVec 64
  r12 : BitVec 64
  r11 : BitVec 64
  r10 : BitVec 64
  r9 : BitVec 64
  r8 : BitVec 64
  rbp : BitVec 64
  rdi : BitVec 64
  rsi : BitVec 64
  rdx : BitVec 64
  rcx : BitVec 64
  rbx : BitVec 64
  rax : BitVec 64
  rip : BitVec 64
  rflags : BitVec 64

structure SignalContext where
  registers : TaskRegisters
  userRsp : BitVec 64
  cs : BitVec 64
  ss : BitVec 64
  signum : BitVec 32

structure InterruptTaskFrame where
  registers : TaskRegisters
  cs : BitVec 64
  userRsp : BitVec 64
  ss : BitVec 64

/-- The frame of the syscall entry; `rcx` and `r11` hold the user's `rip` and `rflags`. -/
structure SyscallFrame where
  r9 : BitVec 64
  r8 : BitVec 64
  r10 : BitVec 64
  rdx : BitVec 64
  rsi : BitVec 64
  rdi : BitVec 64
  r15 : BitVec 64
  r14 : BitVec 64
  r13 : BitVec 64
  r12 : BitVec 64
  rbp : BitVec 64
  rbx : BitVec 64
  r11 : BitVec 64
  rcx : BitVec 64
  userRsp : BitVec 64

structure SignalTask where
  cr3 : BitVec 64
  userPhysicalPages : Nat → BitVec 64
  userPageCount : BitVec 32
  signalHandlers : Nat → BitVec 64
  pendingSignals : BitVec 32
  blockedSignals : BitVec 32
  activeSignal : BitVec 32
  signalContext : SignalContext

def signalBit (signum : Nat) : BitVec 32 := 1#32 <<< signum

def nextPendingSignal (task : SignalTask) : Nat :=
  let deliverable := task.pendingSignals &&& ~~~task.blockedSignals
  ((List.range' 1 (taskSignalCount - 1)).find? fun signum => deliverable &&& signalBit signum != 0).getD 0

def SignalTask.clearPending (task : SignalTask) (signum : Nat) : SignalTask :=
  { task with pendingSignals := task.pendingSignals &&& ~~~signalBit signum }

inductive SignalChoice where
  | nothing
  | ignored (signum : Nat)
  | fatal (signum : Nat)
  | handled (signum : Nat) (handler : BitVec 64)
  deriving DecidableEq

def chooseSignal (task : SignalTask) : SignalChoice :=
  if task.activeSignal ≠ 0 then .nothing
  else
    let signum := nextPendingSignal task
    if signum = 0 then .nothing
    else
      let entry := task.signalHandlers signum
      if (signum = sigchld ∨ signum = sigcont) ∧ (entry = 0 ∨ entry = 1) then .ignored signum
      else if (signum = sigpipe ∨ signum = sigint ∨ signum = sigterm) ∧ entry = 1 then .ignored signum
      else
        let handler := if signum = sigkill then 0 else entry
        if handler = 0 ∨ handler = -1 then .fatal signum else .handled signum handler

def signalHandlerStack (userRsp : BitVec 64) : BitVec 64 := (userRsp &&& ~~~0xF#64) - 8

def stackInRange (userRsp : BitVec 64) : Bool := !(decide (userRsp ≥ vmmUserLimit) || decide (userRsp < vmmUserBase))

def prepareStack (machine : Machine) (task : SignalTask) (stackPage : BitVec 64) : Machine × Option SignalTask :=
  if vmmIsMapped machine task.cr3 stackPage then (machine, some task)
  else
    let (machine, physical) := pmmAlloc machine
    if physical = 0 ∨ task.userPageCount ≥ taskMaxUserPages then
      (if physical ≠ 0 then pmmFree machine physical else machine, none)
    else
      let machine := machine.clearPage physical
      let task := { task with
        userPhysicalPages := fun index =>
          if index = task.userPageCount.toNat then physical else task.userPhysicalPages index
        userPageCount := task.userPageCount + 1 }
      (vmmMapInSpace machine task.cr3 stackPage physical (pagePresent ||| pageWritable ||| pageUser), some task)

def walkEntries (machine : Machine) (cr3 address : BitVec 64) : Option (List (BitVec 64)) :=
  entriesAlong machine (frameOf cr3) (indicesOf address).toList

def supervisorWrite (machine : Machine) (cr3 address value : BitVec 64) : Option Machine :=
  match walkEntries machine cr3 address with
  | none => none
  | some entries =>
    if entries.all (hasFlag · pageWritable) then
      entries.getLast?.map fun entry => machine.write (entryTable entry) (wordIndex address) value
    else none

structure StackStore where
  tables : Machine
  address : BitVec 64

/-- `*(uint64_t *)address = value`; a fault that the handler cannot resolve halts the kernel. -/
def kernelStore (machine : Machine) (cr3 address value : BitVec 64) : Machine × Option StackStore :=
  match supervisorWrite machine cr3 address value with
  | some written => (written, some ⟨machine, address⟩)
  | none =>
    let present := if (walkEntries machine cr3 address).isSome then pfErrorPresent else 0
    let (handled, resolved) := vmmPageFaultHandler machine cr3 (present ||| pfErrorWrite) address
    if resolved then
      match supervisorWrite handled cr3 address value with
      | some written => (written, some ⟨handled, address⟩)
      | none => (handled, none)
    else (handled, none)

inductive SignalOutcome where
  | returned
  | terminated (status : Nat)
  | halted
  | delivered
  deriving DecidableEq

/-- The result of a delivery; `stores` are its stores outside control block and frame. -/
structure Delivery (Frame : Type) where
  machine : Machine
  task : SignalTask
  frame : Frame
  outcome : SignalOutcome
  stores : List StackStore

/-- The end of both paths: the stack page, the trampoline, then `finish` for control block and frame. -/
def pushTrampoline {Frame : Type} (machine : Machine) (task : SignalTask) (frame : Frame) (userRsp : BitVec 64)
    (signum : Nat) (finish : SignalTask → SignalTask × Frame) : Delivery Frame :=
  if !stackInRange userRsp then
    ⟨machine, task.clearPending signum, frame, .terminated (128 + signum), []⟩
  else
    match prepareStack machine task (userRsp &&& vmmPageMask) with
    | (machine, none) => ⟨machine, task, frame, .terminated (128 + signum), []⟩
    | (machine, some task) =>
      match kernelStore machine task.cr3 userRsp signalTrampolineAddr with
      | (machine, none) => ⟨machine, task, frame, .halted, []⟩
      | (machine, some store) => ⟨machine, (finish task).1, (finish task).2, .delivered, [store]⟩

def withChosenSignal {Frame : Type} (machine : Machine) (task : SignalTask) (frame : Frame)
    (handle : Nat → BitVec 64 → Delivery Frame) : Delivery Frame :=
  match chooseSignal task with
  | .nothing => ⟨machine, task, frame, .returned, []⟩
  | .ignored signum => ⟨machine, task.clearPending signum, frame, .returned, []⟩
  | .fatal signum => ⟨machine, task.clearPending signum, frame, .terminated (128 + signum), []⟩
  | .handled signum handler => handle signum handler

/-- `deliver_pending_signal_unlocked`, the path of the timer interrupt. -/
def deliverPendingSignalUnlocked (machine : Machine) (task : SignalTask) (frame : InterruptTaskFrame) :
    Delivery InterruptTaskFrame :=
  withChosenSignal machine task frame fun signum handler =>
    if frame.cs &&& 0x3#64 ≠ 0x3#64 then ⟨machine, task, frame, .returned, []⟩
    else
      let userRsp := signalHandlerStack frame.userRsp
      pushTrampoline machine task frame userRsp signum fun task =>
        ({ task.clearPending signum with
            activeSignal := BitVec.ofNat 32 signum
            signalContext :=
              { registers := frame.registers
                userRsp := frame.userRsp
                cs := frame.cs
                ss := frame.ss
                signum := BitVec.ofNat 32 signum } }, { frame with
            registers := { frame.registers with rip := handler, rdi := BitVec.ofNat 64 signum }
            userRsp := userRsp })

/-- `scheduler_handle_syscall_signals`, the path of the syscall return. -/
def schedulerHandleSyscallSignals (machine : Machine) (task : SignalTask) (frame : SyscallFrame)
    (syscallRet : BitVec 64) : Delivery SyscallFrame :=
  withChosenSignal machine task frame fun signum handler =>
    let userRsp := signalHandlerStack frame.userRsp
    pushTrampoline machine task frame userRsp signum fun task =>
      ({ task.clearPending signum with
          activeSignal := BitVec.ofNat 32 signum
          signalContext :=
            { registers :=
                { r15 := frame.r15, r14 := frame.r14, r13 := frame.r13, r12 := frame.r12, r11 := frame.r11
                  r10 := frame.r10, r9 := frame.r9, r8 := frame.r8, rbp := frame.rbp, rdi := frame.rdi
                  rsi := frame.rsi, rdx := frame.rdx, rcx := frame.rcx, rbx := frame.rbx, rax := syscallRet
                  rip := frame.rcx, rflags := frame.r11 }
              userRsp := frame.userRsp
              cs := userCodeSelector
              ss := userDataSelector
              signum := BitVec.ofNat 32 signum } },
        { frame with rcx := handler, userRsp := userRsp, rdi := BitVec.ofNat 64 signum })

end PhotonOS
