import PhotonOS.Signal.Delivery

/-!
The two ways out of the kernel, as `kernel.asm` leaves it: the timer stub pops an
interrupt frame and ends with `iretq`, the syscall entry pops a syscall frame and
ends with `sysret`. Each is also the point where a signal is delivered.
-/

namespace PhotonOS

deriving instance DecidableEq for TaskRegisters

structure UserContext where
  registers : TaskRegisters
  rsp : BitVec 64
  cs : BitVec 64
  ss : BitVec 64
  deriving DecidableEq

def stackWords (words : List (BitVec 64)) (slot : Nat) : BitVec 64 := words.getD slot 0

def InterruptTaskFrame.words (frame : InterruptTaskFrame) : List (BitVec 64) :=
  [frame.registers.r15, frame.registers.r14, frame.registers.r13, frame.registers.r12, frame.registers.r11,
    frame.registers.r10, frame.registers.r9, frame.registers.r8, frame.registers.rbp, frame.registers.rdi,
    frame.registers.rsi, frame.registers.rdx, frame.registers.rcx, frame.registers.rbx, frame.registers.rax,
    frame.registers.rip, frame.cs, frame.registers.rflags, frame.userRsp, frame.ss]

def SyscallFrame.words (frame : SyscallFrame) : List (BitVec 64) :=
  [frame.r9, frame.r8, frame.r10, frame.rdx, frame.rsi, frame.rdi, frame.r15, frame.r14, frame.r13, frame.r12,
    frame.rbp, frame.rbx, frame.r11, frame.rcx, frame.userRsp]

/-- The fifteen pops that both `iretq` paths of `kernel.asm` share, and the five words that `iretq` takes. -/
def popIretq (stack : Nat → BitVec 64) : UserContext where
  registers :=
    { r15 := stack 0, r14 := stack 1, r13 := stack 2, r12 := stack 3, r11 := stack 4, r10 := stack 5
      r9 := stack 6, r8 := stack 7, rbp := stack 8, rdi := stack 9, rsi := stack 10, rdx := stack 11
      rcx := stack 12, rbx := stack 13, rax := stack 14, rip := stack 15, rflags := stack 17 }
  rsp := stack 18
  cs := stack 16
  ss := stack 19

/-- `.normal_return` of the syscall entry; `sysret` takes `rip` from `rcx` and `rflags` from `r11`, and the
selectors from `IA32_STAR`. -/
def popSysret (stack : Nat → BitVec 64) (rax : BitVec 64) : UserContext where
  registers :=
    { r9 := stack 0, r8 := stack 1, r10 := stack 2, rdx := stack 3, rsi := stack 4, rdi := stack 5
      r15 := stack 6, r14 := stack 7, r13 := stack 8, r12 := stack 9, rbp := stack 10, rbx := stack 11
      r11 := stack 12, rcx := stack 13, rax := rax, rip := stack 13, rflags := stack 12 }
  rsp := stack 14
  cs := userCodeSelector
  ss := userDataSelector

/-- The kernel about to return: from the timer interrupt, or from a syscall with its result. -/
inductive KernelExit where
  | tick (frame : InterruptTaskFrame)
  | syscall (frame : SyscallFrame) (ret : BitVec 64)

def KernelExit.resume : KernelExit → UserContext
  | .tick frame => popIretq (stackWords frame.words)
  | .syscall frame ret => popSysret (stackWords frame.words) ret

def KernelExit.toUser : KernelExit → Bool
  | .tick frame => frame.cs &&& 0x3#64 == 0x3#64
  | .syscall _ _ => true

def KernelExit.userRsp : KernelExit → BitVec 64
  | .tick frame => frame.userRsp
  | .syscall frame _ => frame.userRsp

def Delivery.mapFrame {First Second : Type} (change : First → Second) (delivery : Delivery First) : Delivery Second :=
  ⟨delivery.machine, delivery.task, change delivery.frame, delivery.outcome, delivery.stores⟩

def deliverSignals (machine : Machine) (task : SignalTask) : KernelExit → Delivery KernelExit
  | .tick frame => (deliverPendingSignalUnlocked machine task frame).mapFrame .tick
  | .syscall frame ret => (schedulerHandleSyscallSignals machine task frame ret).mapFrame (.syscall · ret)

def KernelExit.saved (signum : Nat) (exit : KernelExit) : SignalContext where
  registers := exit.resume.registers
  userRsp := exit.resume.rsp
  cs := exit.resume.cs
  ss := exit.resume.ss
  signum := BitVec.ofNat 32 signum

def KernelExit.enter (signum : Nat) (handler userRsp : BitVec 64) : KernelExit → KernelExit
  | .tick frame =>
    .tick { frame with
      registers := { frame.registers with rip := handler, rdi := BitVec.ofNat 64 signum }
      userRsp := userRsp }
  | .syscall frame ret =>
    .syscall { frame with rcx := handler, userRsp := userRsp, rdi := BitVec.ofNat 64 signum } ret

variable {signum : Nat} {handler : BitVec 64}

theorem KernelExit.resume_enter {userRsp : BitVec 64} (exit : KernelExit) :
    (exit.enter signum handler userRsp).resume.registers.rip = handler ∧
      (exit.enter signum handler userRsp).resume.registers.rdi = BitVec.ofNat 64 signum := by
  cases exit <;> exact ⟨rfl, rfl⟩

variable {machine : Machine} {task : SignalTask}

theorem pushTrampoline_mapFrame {First Second : Type} {frame : First} {userRsp : BitVec 64}
    {finish : SignalTask → SignalTask × First} {change : First → Second} :
    (pushTrampoline machine task frame userRsp signum finish).mapFrame change =
      pushTrampoline machine task (change frame) userRsp signum
        (fun task => ((finish task).1, change (finish task).2)) := by
  simp only [pushTrampoline]
  split
  · rfl
  · split
    · rfl
    · split <;> rfl

theorem deliverSignals_eq {exit : KernelExit} : deliverSignals machine task exit =
      withChosenSignal machine task exit fun signum handler =>
        if exit.toUser then
          pushTrampoline machine task exit (signalHandlerStack exit.userRsp) signum fun task =>
            ({ task.clearPending signum with
                activeSignal := BitVec.ofNat 32 signum
                signalContext := exit.saved signum }, exit.enter signum handler (signalHandlerStack exit.userRsp))
        else ⟨machine, task, exit, .returned, []⟩ := by
  cases exit with
  | tick frame =>
    simp only [deliverSignals, deliverPendingSignalUnlocked, withChosenSignal, KernelExit.toUser, beq_iff_eq]
    cases chooseSignal task with
    | handled signum handler =>
      dsimp only
      by_cases ring : frame.cs &&& 0x3#64 = 0x3#64
      · rw [if_neg (not_not_intro ring), if_pos ring, pushTrampoline_mapFrame]
        rfl
      · rw [if_pos ring, if_neg ring]
        rfl
    | nothing => rfl
    | ignored signum => rfl
    | fatal signum => rfl
  | syscall frame ret =>
    simp only [deliverSignals, schedulerHandleSyscallSignals, withChosenSignal]
    cases chooseSignal task with
    | handled signum handler =>
      dsimp only
      rw [pushTrampoline_mapFrame]
      rfl
    | nothing => rfl
    | ignored signum => rfl
    | fatal signum => rfl

theorem nextPendingSignal_spec (found : nextPendingSignal task ≠ 0) : nextPendingSignal task < taskSignalCount ∧
      task.pendingSignals &&& signalBit (nextPendingSignal task) ≠ 0#32 := by
  simp only [nextPendingSignal] at found ⊢
  generalize hit : List.find? _ _ = first at found ⊢
  cases first with
  | none => simp at found
  | some signum =>
    have member := List.mem_of_find?_eq_some hit
    have deliverable := List.find?_some hit
    simp only [List.mem_range', taskSignalCount] at member
    simp only [bne_iff_ne] at deliverable
    rw [Option.getD_some]
    constructor
    · rw [taskSignalCount]
      omega
    · intro clear
      apply deliverable
      rw [BitVec.and_assoc, BitVec.and_comm (~~~task.blockedSignals), ← BitVec.and_assoc, clear, BitVec.zero_and]
      rfl

theorem chooseSignal_handled
    (chosen : chooseSignal task = .handled signum handler) :
    signum = nextPendingSignal task ∧ nextPendingSignal task ≠ 0 := by
  simp only [chooseSignal] at chosen
  grind

def stackTakesTrampoline (machine : Machine) (task : SignalTask) (userRsp : BitVec 64) : Bool :=
  stackInRange userRsp &&
    match prepareStack machine task (userRsp &&& vmmPageMask) with
    | (_, none) => false
    | (machine, some task) => (kernelStore machine task.cr3 userRsp signalTrampolineAddr).2.isSome

theorem pushTrampoline_cases {Frame : Type} {frame : Frame} {userRsp : BitVec 64}
    (finish : SignalTask → SignalTask × Frame) : (stackTakesTrampoline machine task userRsp = true ∧
      ∃ final prepared stores, pushTrampoline machine task frame userRsp signum finish =
        ⟨final, (finish prepared).1, (finish prepared).2, .delivered, stores⟩) ∨
    (stackTakesTrampoline machine task userRsp = false ∧
      ((pushTrampoline machine task frame userRsp signum finish).outcome = .terminated (128 + signum) ∨
        (pushTrampoline machine task frame userRsp signum finish).outcome = .halted)) := by
  simp only [stackTakesTrampoline, pushTrampoline]
  cases stackInRange userRsp with
  | false => exact Or.inr ⟨rfl, Or.inl rfl⟩
  | true =>
    rcases prepareStack machine task (userRsp &&& vmmPageMask) with ⟨ready, _ | prepared⟩
    · exact Or.inr ⟨rfl, Or.inl rfl⟩
    · dsimp only
      rcases kernelStore ready prepared.cr3 userRsp signalTrampolineAddr with ⟨final, _ | store⟩
      · exact Or.inr ⟨rfl, Or.inr rfl⟩
      · exact Or.inl ⟨rfl, final, prepared, [store], rfl⟩

def stackMachine : Machine where
  mem := fun frame index =>
    if frame = 1 ∧ index = 1 then 0x2007
    else if frame = 2 ∧ index = 0 then 0x3007
    else if frame = 3 ∧ index = 0 then 0x4007
    else if frame = 4 ∧ index = 0 then 0x5007
    else 0
  pmm := { bitmap := fun _ => true, refcounts := fun _ => 1, total := 32768, reserved := 256, exhausted := false }
  kernelPml4 := 0x1000

def stackExit : KernelExit :=
  .syscall ⟨0, 0, 0, 0, 0, 0, 0, 0, 0, 0, 0, 0, 0x202, 0x8000000100, 0x8000000800⟩ 3

end PhotonOS
