import PhotonOS.Sched.Tasks
import PhotonOS.Signal.KernelExit

/-!
`sys_sigreturn` and the way back from a handler. The control block holds one
saved context; it is written by the deliveries alone, and these do nothing while
a handler runs.
-/

namespace PhotonOS

open Sched (sigstop MaskChange)

structure SigreturnFrame where
  r15 : BitVec 64
  r14 : BitVec 64
  r13 : BitVec 64
  r12 : BitVec 64
  r11 : BitVec 64
  r10 : BitVec 64
  r9 : BitVec 64
  r8 : BitVec 64
  rbp : BitVec 64
  rdi : BitVec 64
  rsi : BitVec 64
  rdx : BitVec 64
  rcx : BitVec 64
  rbx : BitVec 64
  rax : BitVec 64
  rip : BitVec 64
  cs : BitVec 64
  rflags : BitVec 64
  userRsp : BitVec 64
  ss : BitVec 64

def SigreturnFrame.words (frame : SigreturnFrame) : List (BitVec 64) :=
  [frame.r15, frame.r14, frame.r13, frame.r12, frame.r11, frame.r10, frame.r9, frame.r8, frame.rbp, frame.rdi,
    frame.rsi, frame.rdx, frame.rcx, frame.rbx, frame.rax, frame.rip, frame.cs, frame.rflags, frame.userRsp, frame.ss]

/-- `sys_sigreturn`; without an active signal it returns 0 and no frame. -/
def sysSigreturn (task : SignalTask) : SignalTask × Option SigreturnFrame :=
  if task.activeSignal = 0#32 then (task, none)
  else
    let context := task.signalContext
    let saved := context.registers
    ({ task with activeSignal := 0, signalContext := { context with signum := 0 } }, some
        { r15 := saved.r15, r14 := saved.r14, r13 := saved.r13, r12 := saved.r12, r11 := saved.r11
          r10 := saved.r10, r9 := saved.r9, r8 := saved.r8, rbp := saved.rbp, rdi := saved.rdi
          rsi := saved.rsi, rdx := saved.rdx, rcx := saved.rcx, rbx := saved.rbx, rax := saved.rax
          rip := saved.rip, cs := context.cs, rflags := saved.rflags, userRsp := context.userRsp
          ss := context.ss })

/-- The instruction behind the trampoline's `syscall`: a seven-byte `mov` and the two bytes of `syscall`. -/
def trampolineNext : BitVec 64 := signalTrampolineAddr + 9

/-- What the syscall entry pushes for the trampoline; the processor has put `rip` into `rcx` and `rflags`
into `r11`. -/
def trampolineFrame (user : UserContext) : SyscallFrame where
  r9 := user.registers.r9
  r8 := user.registers.r8
  r10 := user.registers.r10
  rdx := user.registers.rdx
  rsi := user.registers.rsi
  rdi := user.registers.rdi
  r15 := user.registers.r15
  r14 := user.registers.r14
  r13 := user.registers.r13
  r12 := user.registers.r12
  rbp := user.registers.rbp
  rbx := user.registers.rbx
  r11 := user.registers.rflags
  rcx := trampolineNext
  userRsp := user.rsp

/-- The syscall entry with number `SYS_SIGRETURN`: a frame is popped with `iretq`, a result of 0 is returned
like any other. -/
def returnThroughTrampoline (task : SignalTask) (user : UserContext) : UserContext :=
  match (sysSigreturn task).2 with
  | some frame => popIretq (stackWords frame.words)
  | none => popSysret (stackWords (trampolineFrame user).words) 0

def SignalTask.addPending (task : SignalTask) (signum : Nat) : SignalTask :=
  { task with pendingSignals := task.pendingSignals ||| signalBit signum }

def SignalTask.ignores (task : SignalTask) (signum : Nat) : Bool :=
  task.signalHandlers signum == 0 || task.signalHandlers signum == 1

/-- What `scheduler_send_signal` does to the signal fields of its target. A task that is stopped keeps them,
and one that `SIGKILL` ends does not come back to its handler. -/
def SignalTask.receive (task : SignalTask) (signum : Nat) : SignalTask :=
  if signum = sigkill ∨ signum = sigstop then task
  else if signum = sigcont then
    let task := task.clearPending sigstop
    if task.ignores sigcont then task else task.addPending signum
  else if signum = sigchld ∧ task.ignores sigchld then task
  else task.addPending signum

def SignalTask.sigaction (task : SignalTask) (signum : Int) (handler : BitVec 64) : SignalTask :=
  if signum ≤ 0 ∨ signum ≥ taskSignalCount ∨ signum = sigkill ∨ signum = sigstop then task
  else
    { task with signalHandlers := fun other => if other = signum.toNat then handler else task.signalHandlers other }

def SignalTask.sigprocmask (task : SignalTask) (how : MaskChange) (set : BitVec 32) : SignalTask :=
  let newSet := set &&& ~~~signalBit sigkill &&& ~~~signalBit sigstop
  { task with blockedSignals :=
      match how with
      | .block => task.blockedSignals ||| newSet
      | .unblock => task.blockedSignals &&& ~~~newSet
      | .set => newSet }

structure SignalState where
  machine : Machine
  task : SignalTask

/-- What can happen to the signal fields of a task. A syscall is what it does to them or to memory, followed
by its exit; `memory` also stands for page faults and for everything other tasks do. -/
inductive TaskEvent where
  | signalled (signum : Nat)
  | sigaction (signum : Int) (handler : BitVec 64)
  | sigprocmask (how : MaskChange) (set : BitVec 32)
  | memory (machine : Machine) (pages : Nat → BitVec 64) (count : BitVec 32)
  | leave (exit : KernelExit)
  | sigreturn

def taskStep (state : SignalState) : TaskEvent → SignalState
  | .signalled signum => { state with task := state.task.receive signum }
  | .sigaction signum handler => { state with task := state.task.sigaction signum handler }
  | .sigprocmask how set => { state with task := state.task.sigprocmask how set }
  | .memory machine pages count => ⟨machine, { state.task with userPhysicalPages := pages, userPageCount := count }⟩
  | .leave exit =>
    let delivery := deliverSignals state.machine state.task exit
    ⟨delivery.machine, delivery.task⟩
  | .sigreturn => { state with task := (sysSigreturn state.task).1 }

def entersHandler (state : SignalState) : TaskEvent → Bool
  | .leave exit => (deliverSignals state.machine state.task exit).outcome == .delivered
  | _ => false

/-- A handler runs, and `context` is the one to come back to. -/
structure InHandler (context : SignalContext) (task : SignalTask) : Prop where
  active : task.activeSignal ≠ 0#32
  saved : task.signalContext = context

theorem receive_active (task : SignalTask) (signum : Nat) : (task.receive signum).activeSignal = task.activeSignal ∧
      (task.receive signum).signalContext = task.signalContext := by
  simp only [SignalTask.receive]
  split
  · exact ⟨rfl, rfl⟩
  · split
    · split <;> exact ⟨rfl, rfl⟩
    · split <;> exact ⟨rfl, rfl⟩

theorem sigaction_active (task : SignalTask) (signum : Int) (handler : BitVec 64) :
    (task.sigaction signum handler).activeSignal = task.activeSignal ∧
      (task.sigaction signum handler).signalContext = task.signalContext := by
  simp only [SignalTask.sigaction]
  split <;> exact ⟨rfl, rfl⟩

variable {context : SignalContext} {task : SignalTask} {state : SignalState}

theorem InHandler.delivery (running : InHandler context task) (machine : Machine) (exit : KernelExit) :
    deliverSignals machine task exit = ⟨machine, task, exit, .returned, []⟩ := by
  have chosen : chooseSignal task = .nothing := by exact if_pos running.active
  rw [deliverSignals_eq, withChosenSignal, chosen]

theorem InHandler.step (running : InHandler context state.task) (event : TaskEvent) (inside : event ≠ .sigreturn) :
    InHandler context (taskStep state event).task ∧ entersHandler state event = false := by
  obtain ⟨active, saved⟩ := running
  cases event with
  | signalled signum =>
    obtain ⟨sameActive, sameContext⟩ := receive_active state.task signum
    exact ⟨⟨sameActive ▸ active, sameContext.trans saved⟩, rfl⟩
  | sigaction signum handler =>
    obtain ⟨sameActive, sameContext⟩ := sigaction_active state.task signum handler
    exact ⟨⟨sameActive ▸ active, sameContext.trans saved⟩, rfl⟩
  | sigprocmask how set => exact ⟨⟨active, saved⟩, rfl⟩
  | memory machine pages count => exact ⟨⟨active, saved⟩, rfl⟩
  | leave exit =>
    have returned := InHandler.delivery ⟨active, saved⟩ state.machine exit
    constructor
    · simp only [taskStep, returned]
      exact ⟨active, saved⟩
    · simp only [entersHandler, returned]
      rfl
  | sigreturn => exact absurd rfl inside

theorem InHandler.run : ∀ (events : List TaskEvent) (state : SignalState), InHandler context state.task →
      (∀ event ∈ events, event ≠ .sigreturn) → InHandler context (Transition.run taskStep state events).task ∧
        Transition.Admissible taskStep (fun state event => entersHandler state event = false) state events := by
  intro events
  induction events with
  | nil => intro state running _; exact ⟨running, trivial⟩
  | cons event events ih =>
    intro state running inside
    obtain ⟨after, quiet⟩ := running.step event (inside event List.mem_cons_self)
    obtain ⟨final, rest⟩ := ih (taskStep state event) after fun other member => inside other (List.mem_cons_of_mem _ member)
    exact ⟨final, quiet, rest⟩

theorem InHandler.returns (running : InHandler context task) (user : UserContext) :
    returnThroughTrampoline task user = ⟨context.registers, context.userRsp, context.cs, context.ss⟩ := by
  rw [returnThroughTrampoline, sysSigreturn, if_neg running.active, running.saved]
  rfl

theorem inHandler_of_entered {exit : KernelExit} (entered : entersHandler state (.leave exit) = true) :
    ∃ signum, InHandler (exit.saved signum) (taskStep state (.leave exit)).task := by
  simp only [entersHandler, beq_iff_eq, deliverSignals_eq, withChosenSignal] at entered
  simp only [taskStep, deliverSignals_eq, withChosenSignal]
  cases chosen : chooseSignal state.task with
  | nothing => simp [chosen] at entered
  | ignored signum => simp [chosen] at entered
  | fatal signum => simp [chosen] at entered
  | handled signum handler =>
    obtain ⟨rfl, found⟩ := chooseSignal_handled chosen
    have bound := (nextPendingSignal_spec found).1
    rw [taskSignalCount] at bound
    refine ⟨nextPendingSignal state.task, ?_⟩
    simp only [chosen] at entered
    cases user : exit.toUser with
    | false => simp [user] at entered
    | true =>
      simp only [user, if_true] at entered ⊢
      rcases pushTrampoline_cases _ with
        ⟨_, _, _, _, result⟩ | ⟨_, outcome⟩
      · rw [result]
        refine ⟨?_, rfl⟩
        intro zero
        have value := congrArg BitVec.toNat zero
        simp only [BitVec.toNat_ofNat] at value
        omega
      · rw [entered] at outcome
        simp at outcome

def handlingTask : SignalTask where
  cr3 := 0x1000
  userPhysicalPages := fun _ => 0x5000
  userPageCount := 1
  signalHandlers := fun _ => 0x8000000200
  pendingSignals := signalBit 10
  blockedSignals := 0
  activeSignal := 0
  signalContext := ⟨⟨0, 0, 0, 0, 0, 0, 0, 0, 0, 0, 0, 0, 0, 0, 0, 0, 0⟩, 0, 0, 0, 0⟩

def handlerEvents : List TaskEvent := [.signalled 12, .sigprocmask .set 0, .leave stackExit]

end PhotonOS
