import PhotonOS.Signal.Sigreturn

/-!
`fork` inside a signal handler.
-/

namespace PhotonOS

def forkedSignals (parent : SignalTask) (childPml4 : BitVec 64) : SignalTask :=
  { parent with
    cr3 := childPml4
    activeSignal := 0
    pendingSignals := 0 }

def SameContext (atFork : Bool) (child parent : UserContext) : Prop :=
  child.rsp = parent.rsp ∧ child.registers.rip = parent.registers.rip ∧
    if atFork then { child.registers with rax := 0 } = { parent.registers with rax := 0 }
    else child.registers = parent.registers

instance (atFork : Bool) (child parent : UserContext) : Decidable (SameContext atFork child parent) := by
  unfold SameContext
  infer_instance

/-- The interrupted context is the loop of the trampoline, with the registers that `user` has there. -/
structure InterruptedLoop (atFork : Bool) (user : UserContext) (saved : SignalContext) : Prop where
  rip : saved.registers.rip = trampolineNext
  rcx : saved.registers.rcx = trampolineNext
  r11 : saved.registers.r11 = user.registers.rflags
  rax : atFork = true ∨ saved.registers.rax = 0#64
  others : { saved.registers with rip := 0, rcx := 0, r11 := 0, rax := 0 } =
    { user.registers with rip := 0, rcx := 0, r11 := 0, rax := 0 }
  rsp : saved.userRsp = user.rsp

variable {user : UserContext}

theorem returnThroughTrampoline_idle {task : SignalTask} (idle : task.activeSignal = 0#32) :
    returnThroughTrampoline task user = ⟨
      { user.registers with rip := trampolineNext, rcx := trampolineNext, r11 := user.registers.rflags, rax := 0 },
      user.rsp, userCodeSelector, userDataSelector⟩ := by
  rw [returnThroughTrampoline, sysSigreturn, if_pos idle]
  rfl

theorem sameContext_loop_iff {atFork : Bool} {saved : SignalContext} {cs ss : BitVec 64} :
    SameContext atFork
        { registers :=
            { user.registers with rip := trampolineNext, rcx := trampolineNext, r11 := user.registers.rflags, rax := 0 }
          rsp := user.rsp
          cs := userCodeSelector
          ss := userDataSelector }
        ⟨saved.registers, saved.userRsp, cs, ss⟩ ↔ InterruptedLoop atFork user saved := by
  obtain ⟨⟨r15, r14, r13, r12, r11, r10, r9, r8, rbp, rdi, rsi, rdx, rcx, rbx, rax, rip, rflags⟩, rsp, _, _⟩ := user
  obtain ⟨⟨s15, s14, s13, s12, s11, s10, s9, s8, sbp, sdi, ssi, sdx, scx, sbx, sax, sip, sflags⟩, ssp, _, _, _⟩ := saved
  constructor
  · rintro ⟨sameRsp, sameRip, sameRegisters⟩
    cases atFork with
    | true =>
      simp only [if_true, TaskRegisters.mk.injEq] at sameRsp sameRip sameRegisters
      obtain ⟨rfl, rfl, rfl, rfl, rfl, rfl, rfl, rfl, rfl, rfl, rfl, rfl, rfl, rfl, _, rfl, rfl⟩ := sameRegisters
      exact ⟨rfl, rfl, rfl, Or.inl rfl, rfl, sameRsp.symm⟩
    | false =>
      simp only [Bool.false_eq_true, if_false, TaskRegisters.mk.injEq] at sameRsp sameRip sameRegisters
      obtain ⟨rfl, rfl, rfl, rfl, rfl, rfl, rfl, rfl, rfl, rfl, rfl, rfl, rfl, rfl, rfl, rfl, rfl⟩ := sameRegisters
      exact ⟨rfl, rfl, rfl, Or.inr rfl, rfl, sameRsp.symm⟩
  · rintro ⟨sameRip, sameRcx, sameR11, sameRax, others, sameRsp⟩
    simp only [TaskRegisters.mk.injEq] at sameRip sameRcx sameR11 sameRax others sameRsp
    obtain ⟨rfl, rfl, rfl, rfl, _, rfl, rfl, rfl, rfl, rfl, rfl, rfl, _, rfl, _, _, rfl⟩ := others
    subst sameRip sameRcx sameR11 sameRsp
    refine ⟨rfl, rfl, ?_⟩
    cases atFork with
    | true => rfl
    | false =>
      obtain rfl : sax = 0#64 := by simpa using sameRax
      rfl

/-- Parent and child of a fork inside a handler come back to the same context exactly when the handler had
interrupted the loop of the trampoline. -/
theorem fork_in_handler_iff (parent : SignalState) (childMachine : Machine) (childPml4 : BitVec 64)
    (parentEvents childEvents : List TaskEvent) (parentUser childUser : UserContext) (atFork : Bool)
    (running : parent.task.activeSignal ≠ 0#32) (inside : ∀ event ∈ parentEvents, event ≠ .sigreturn)
    (ownDone : (Transition.run taskStep ⟨childMachine, forkedSignals parent.task childPml4⟩
      childEvents).task.activeSignal = 0#32) : SameContext atFork
        (returnThroughTrampoline
          (Transition.run taskStep ⟨childMachine, forkedSignals parent.task childPml4⟩ childEvents).task childUser)
        (returnThroughTrampoline (Transition.run taskStep parent parentEvents).task parentUser) ↔
      InterruptedLoop atFork childUser parent.task.signalContext := by
  obtain ⟨final, _⟩ := InHandler.run parentEvents parent ⟨running, rfl⟩ inside
  rw [final.returns, returnThroughTrampoline_idle ownDone]
  exact sameContext_loop_iff

def handlerState : SignalState := taskStep ⟨stackMachine, handlingTask⟩ (.leave stackExit)

def atTrampoline : UserContext where
  registers := { stackExit.resume.registers with rip := signalTrampolineAddr, rax := 12 }
  rsp := 0x8000000800
  cs := userCodeSelector
  ss := userDataSelector

theorem fork_in_handler_iff_sigusr1 : SameContext false
        (returnThroughTrampoline (forkedSignals handlerState.task 0x6000) atTrampoline)
        (returnThroughTrampoline handlerState.task atTrampoline) ↔
      InterruptedLoop false atTrampoline handlerState.task.signalContext :=
  fork_in_handler_iff handlerState stackMachine 0x6000 [] [] atTrampoline atTrampoline false (by decide +kernel)
    (fun _ member => absurd member List.not_mem_nil) rfl

/-- The parent comes back to the interrupted code, the child stays behind the `syscall` of the trampoline. -/
theorem forked_child_spins : (returnThroughTrampoline handlerState.task atTrampoline).registers.rip = 0x8000000100 ∧
      (returnThroughTrampoline (forkedSignals handlerState.task 0x6000) atTrampoline).registers.rip = trampolineNext ∧
      ¬ SameContext true (returnThroughTrampoline (forkedSignals handlerState.task 0x6000) atTrampoline)
        (returnThroughTrampoline handlerState.task atTrampoline) := by
  decide +kernel

end PhotonOS
