import PhotonOS.Pipe.EndOfFile
import PhotonOS.Signal.KernelExit
import PhotonOS.TableLock.LastOwner

/-!
When a call asks for `task_table_lock` although its CPU has it: when the task
that it ends is the last to have an end of a pipe or a socket.
-/

namespace PhotonOS.TableLock

open Files Sched LockState
open Pipe (FileNode PipeKernel PipeBuffer pipeOps Settled)

structure Locked (state : LockState) : Prop where
  held : state.held = true
  masked : state.interrupts = false
  current : state.currentPid ≠ 0
  consistent : Consistent Settled state.kernel

def LockState.withKernel (state : LockState) (kernel : PipeKernel) : LockState := { state with kernel := kernel }

variable {state after : LockState} {kernel : PipeKernel}

theorem Locked.withKernel (locked : Locked state) (consistent : Consistent Settled kernel) :
    Locked (state.withKernel kernel) :=
  ⟨locked.held, locked.masked, locked.current, consistent⟩

/-! One descriptor. -/

theorem leave_users_iff (consistent : Consistent Settled kernel) {position : Nat × Nat} {id pipe : Nat}
    {side : Pipe.Side} {description : FileDescription FileNode} (held : kernel.files.fds position = some id)
    (present : kernel.files.descriptions id = some description) (node : description.node = .pipeEnd pipe side)
    (final : description.refCount - 1 = 0) : ∃ buffer, kernel.world.buffers pipe = some buffer ∧
      ((buffer.leave side).users side = 0 ↔ ∀ other, On kernel.files other (.pipeEnd pipe side) → other = position) := by
  have counted := consistent.counted
  have refers : kernel.files.nodeOf id = some (.pipeEnd pipe side) := by
    rw [Files.nodeOf, present, Option.map_some, node]
  have isOpen : Pipe.EndOpen kernel pipe side := ⟨position, id, held, refers⟩
  have user := (Pipe.endOpen_iff counted pipe side).mp isOpen
  have attached : .pipeEnd pipe side ∉ kernel.world.unattached := by
    intro member
    have zero := consistent.world.abandoned pipe side (by simp) member side
    omega
  obtain ⟨buffer, inUse, _⟩ := Pipe.open_pipe consistent isOpen
  refine ⟨buffer, inUse.present, ?_⟩
  have users : (buffer.leave side).users side = opened kernel.files (.pipeEnd pipe side) - 1 := by
    rw [Pipe.leave_users, Function.update_self, inUse.users]
    simp only [Pipe.view, if_neg attached, Nat.add_zero]
  have single : (buffer.leave side).users side = 0 ↔ opened kernel.files (.pipeEnd pipe side) ≤ 1 := by omega
  rw [single, opened, SharedRefs.references_le_one_iff]
  have small : ∀ other, kernel.files.nodeOf other = some (.pipeEnd pipe side) → other ∈ Finset.range kernel.files.next := by
    intro other also
    obtain ⟨found, presentAlso, _⟩ := Option.map_eq_some_iff.mp also
    exact Finset.mem_range.mpr (counted.bounded other found presentAlso)
  constructor
  · rintro unique other ⟨otherId, otherHeld, otherRefers⟩
    obtain rfl : otherId = id := unique otherId (small _ otherRefers) id (small _ refers) otherRefers refers
    exact (counted.last_iff held present).mp final other otherHeld
  intro only
  -- every description on the end has a descriptor, which is this one
  have same : ∀ other, kernel.files.nodeOf other = some (.pipeEnd pipe side) → other = id := by
    intro other also
    obtain ⟨found, presentAlso, _⟩ := Option.map_eq_some_iff.mp also
    obtain ⟨count, positive⟩ := counted.counted other found presentAlso
    rw [count] at positive
    obtain ⟨place, _, heldAlso⟩ := SharedRefs.references_pos_iff.mp positive
    rw [only place ⟨other, heldAlso, also⟩, held] at heldAlso
    exact (Option.some.inj heldAlso).symm
  intro first _ second _ firstRefers secondRefers
  rw [same first firstRefers, same second secondRefers]

section

variable {state : LockState} (locked : Locked state) {slot fd : Nat}

include locked

theorem closeFd_not_last {arrives : Nat → Bool} (bound : fd < taskMaxFds)
    (notLast : ¬ Last state.kernel.files state.sockets (slot, fd)) :
    closeFd arrives slot state fd = some (state.withKernel (sysClose pipeOps state.kernel slot fd)) := by
  have counted := locked.consistent.counted
  simp only [closeFd, sysClose, fdAt, if_pos bound]
  cases held : state.kernel.files.fds (slot, fd) with
  | none => rfl
  | some id =>
    obtain ⟨description, present⟩ := counted.live _ id held
    have here : state.kernel.files.nodeOf id = some description.node := by rw [Files.nodeOf, present, Option.map_some]
    simp only [fileDescriptionUnref, Files.fileDescriptionUnref, withFiles, present]
    by_cases final : description.refCount - 1 = 0
    · rw [if_pos final, if_pos final]
      cases node : description.node with
      | pipeEnd pipe side =>
        obtain ⟨buffer, buffered, zero⟩ := leave_users_iff locked.consistent held present node final
        have used : ¬ (buffer.leave side).users side = 0 := by
          intro unused
          rw [node] at here
          exact notLast (Or.inl ⟨pipe, side, ⟨id, held, here⟩, zero.mp unused⟩)
        simp only [nodeClose, pipeNodeClose, buffered, if_neg used]
        rfl
      | other socket =>
        have outside : socket ∉ state.sockets := by
          intro member
          rw [node] at here
          exact notLast (Or.inr ⟨id, held, ⟨socket, member, here⟩, (counted.last_iff held present).mp final⟩)
        simp only [nodeClose, socketVfsClose, if_neg outside]
        rfl
    · rw [if_neg final, if_neg final]
      rfl

theorem closeFd_last (last : Last state.kernel.files state.sockets (slot, fd)) :
    closeFd (fun _ => true) slot state fd = none := by
  have counted := locked.consistent.counted
  unfold closeFd
  rcases last with ⟨pipe, side, ⟨id, held, refers⟩, only⟩ | ⟨id, held, ⟨socket, member, refers⟩, only⟩
  · obtain ⟨description, present, node⟩ := Option.map_eq_some_iff.mp refers
    have final : description.refCount - 1 = 0 :=
      (counted.last_iff held present).mpr fun position also => only position ⟨id, also, refers⟩
    obtain ⟨buffer, buffered, zero⟩ := leave_users_iff locked.consistent held present node final
    simp only [held, fileDescriptionUnref, withFiles, present, if_pos final, node, nodeClose, pipeNodeClose,
      buffered, if_pos (zero.mpr only), wake, withTableLock, locked.held, if_true, Option.map_none]
  · obtain ⟨description, present, node⟩ := Option.map_eq_some_iff.mp refers
    have final : description.refCount - 1 = 0 := (counted.last_iff held present).mpr only
    have schedulable : ((state.current.bind (state.table.tasks[·]?)).elim 0 Task.pid != 0) = true :=
      bne_iff_ne.mpr locked.current
    simp only [held, fileDescriptionUnref, withFiles, present, if_pos final, node, nodeClose, socketVfsClose,
      if_pos member, mutexLockPreemptible, currentPid, schedulable, locked.masked, Bool.not_false,
      Bool.and_self, if_true, interrupt, locked.held, Option.map_none]

end

/-! The loop over the descriptors. -/

theorem closeFds_iff {slot : Nat} : ∀ (fds : List Nat) (state : LockState), Locked state →
    (∀ fd ∈ fds, fd < taskMaxFds) → (∀ fd, state.kernel.files.fds (slot, fd) ≠ none → fd ∈ fds) →
    (OwnsLast state.kernel.files state.sockets slot → fds.foldlM (closeFd (fun _ => true) slot) state = none) ∧
    (¬ OwnsLast state.kernel.files state.sockets slot → ∀ arrives, fds.foldlM (closeFd arrives slot) state =
      some (state.withKernel (fds.foldl (fun kernel fd => sysClose pipeOps kernel slot fd) state.kernel))) := by
  intro fds
  induction fds with
  | nil =>
    intro state locked _ covered
    have empty : ∀ fd, state.kernel.files.fds (slot, fd) = none := by
      intro fd
      by_contra present
      exact absurd (covered fd present) List.not_mem_nil
    exact ⟨fun owns => absurd owns (not_ownsLast_of_empty empty), fun _ _ => rfl⟩
  | cons fd fds ih =>
    intro state locked bounded covered
    have bound := bounded fd List.mem_cons_self
    have counted := locked.consistent.counted
    simp only [List.foldlM_cons, List.foldl_cons]
    by_cases last : Last state.kernel.files state.sockets (slot, fd)
    · refine ⟨fun _ => ?_, fun owns => absurd last.ownsLast owns⟩
      rw [closeFd_last locked last]
      rfl
    have closed := locked.consistent.close (Pipe.lifetime_settled none) slot fd
    obtain ⟨stuck, returns⟩ := ih (state.withKernel (sysClose pipeOps state.kernel slot fd))
      (locked.withKernel closed) (fun other member => bounded other (List.mem_cons_of_mem _ member)) (by
        intro other present
        obtain ⟨id, held⟩ := Option.ne_none_iff_exists'.mp present
        obtain ⟨different, before⟩ := (fds_sysClose bound).mp held
        have member := covered other (by rw [before]; simp)
        rcases List.mem_cons.mp member with same | later
        · rw [same] at different
          exact absurd rfl different
        · exact later)
    have kept : OwnsLast (sysClose pipeOps state.kernel slot fd).files state.sockets slot ↔
        OwnsLast state.kernel.files state.sockets slot := ownsLast_sysClose counted bound last
    constructor
    · intro owns
      rw [closeFd_not_last locked bound last]
      exact stuck (kept.mpr owns)
    · intro owns arrives
      rw [closeFd_not_last locked bound last]
      exact returns (fun after => owns (kept.mp after)) arrives

theorem taskCloseAllFds_iff (locked : Locked state) {slot : Nat} :
    (OwnsLast state.kernel.files state.sockets slot → taskCloseAllFds (fun _ => true) state slot = none) ∧
    (¬ OwnsLast state.kernel.files state.sockets slot → ∀ arrives, taskCloseAllFds arrives state slot =
      some (state.withKernel (Files.taskCloseAllFds pipeOps state.kernel slot))) := by
  refine closeFds_iff (List.range taskMaxFds) state locked (fun fd member => List.mem_range.mp member) ?_
  intro fd present
  obtain ⟨id, held⟩ := Option.ne_none_iff_exists'.mp present
  have inside := locked.consistent.counted.inside _ _ held
  rw [domain, Finset.mem_product] at inside
  exact inside.2

/-! Termination. -/

def LockState.liveAt (state : LockState) (slot : Nat) : Bool := (state.table.tasks[slot]?).any Task.live

theorem currentPid_eq {before : LockState} (current : after.current = before.current)
    (pids : ∀ slot : Nat, (after.table.tasks[slot]?).map Task.pid = (before.table.tasks[slot]?).map Task.pid) :
    after.currentPid = before.currentPid := by
  unfold currentPid
  rw [current]
  cases before.current with
  | none => rfl
  | some slot =>
    have same := pids slot
    cases first : after.table.tasks[slot]? <;> cases second : before.table.tasks[slot]? <;>
      simp_all

theorem terminateUnlocked_iff (locked : Locked state) (slot : Nat) (status : BitVec 32) :
    (∀ arrives, schedulerTerminateTaskUnlocked arrives state slot status ≠ none) ↔
      (state.liveAt slot = true → ¬ OwnsLast state.kernel.files state.sockets slot) := by
  unfold schedulerTerminateTaskUnlocked liveAt
  cases found : state.table.tasks[slot]? with
  | none => simp
  | some task =>
    cases live : task.live with
    | false => simp [live]
    | true =>
      have marked : Locked (state.withTasks (state.table.tasks.set slot (endedTask task status))) := by
        have same : (state.withTasks (state.table.tasks.set slot (endedTask task status))).currentPid =
            state.currentPid := by
          apply currentPid_eq
          · rfl
          · intro other
            simp only [withTasks, List.getElem?_set]
            grind [endedTask]
        exact ⟨locked.held, locked.masked, same ▸ locked.current, locked.consistent⟩
      obtain ⟨stuck, returns⟩ := taskCloseAllFds_iff marked
      simp only [live, Option.any_some, Bool.not_true, Bool.false_eq_true, if_false, forall_const]
      constructor
      · intro safe owns
        exact safe _ (by rw [stuck owns]; rfl)
      · intro owns arrives
        rw [returns owns arrives]
        exact Option.some_ne_none _

/-! Signals. -/

def endsTask : SignalOutcome → Bool
  | .terminated _ => true
  | _ => false

def fatalSignal (machine : Machine) (task : SignalTask) (exit : KernelExit) : Bool :=
  match chooseSignal task with
  | .nothing | .ignored _ => false
  | .fatal _ => true
  | .handled _ _ =>
    let userRsp := signalHandlerStack exit.userRsp
    exit.toUser && (!stackInRange userRsp || (prepareStack machine task (userRsp &&& vmmPageMask)).2.isNone)

theorem deliverSignals_ends (machine : Machine) (task : SignalTask) (exit : KernelExit) :
    endsTask (deliverSignals machine task exit).outcome = fatalSignal machine task exit := by
  rw [deliverSignals_eq]
  unfold withChosenSignal fatalSignal
  cases chooseSignal task with
  | handled signum handler =>
    cases exit.toUser with
    | false => rfl
    | true =>
      simp only [if_true, pushTrampoline, Bool.true_and]
      cases stackInRange (signalHandlerStack exit.userRsp) with
      | false => rfl
      | true =>
        simp only [Bool.not_true, Bool.false_eq_true, if_false, Bool.false_or]
        split
        next failed => simp [failed, endsTask]
        next prepared =>
          rw [prepared]
          split <;> rfl
  | nothing => rfl
  | ignored signum => rfl
  | fatal signum => rfl

/-! The calls. -/

inductive LockCall where
  | exit (status : BitVec 32)
  | sendSignal (pid : BitVec 32) (signum : Int)
  | syscallReturn (frame : SyscallFrame) (ret : BitVec 64)
  | tickDelivery (slot : Nat)

/-- A delivery of the timer interrupt, with the lock that `scheduler_tick` has around it. -/
def lockCall (arrives : Nat → Bool) (state : LockState) : LockCall → Option LockState
  | .exit status => sysExit arrives state status
  | .sendSignal pid signum => schedulerSendSignal arrives state pid signum
  | .syscallReturn frame ret => schedulerHandleSyscallSignals arrives state frame ret
  | .tickDelivery slot =>
    withTableLock state fun state => (deliverPendingSignalUnlocked arrives state slot).map Prod.fst

def LockState.fatalAt (state : LockState) (slot : Nat) (exit : KernelExit) : Bool :=
  (state.table.tasks[slot]?).any fun task => fatalSignal state.machine (signalView task (state.memory slot)) exit

def endedBy (state : LockState) : LockCall → Option Nat
  | .exit _ => state.current
  | .sendSignal pid signum => if signum = sigkill then findTask state.table.tasks pid else none
  | .syscallReturn frame ret => state.current.filter fun slot => state.fatalAt slot (.syscall frame ret)
  | .tickDelivery slot => if state.fatalAt slot (.tick (state.memory slot).frame) then some slot else none

/-- The kernel between two calls: it does not have the lock, the descriptor counts are right, and a task is
running. -/
structure KernelState where
  state : LockState
  free : state.held = false
  running : state.currentPid ≠ 0
  consistent : Consistent Settled state.kernel

def LockState.locked (state : LockState) : LockState := { state with held := true, interrupts := false }

theorem KernelState.locked (kernel : KernelState) : Locked kernel.state.locked :=
  ⟨rfl, rfl, kernel.running, kernel.consistent⟩

theorem withTableLock_ne_none (free : state.held = false) (body : LockState → Option LockState) :
    withTableLock state body ≠ none ↔ body state.locked ≠ none := by
  simp only [withTableLock, free, Bool.false_eq_true, if_false, ne_eq, Option.map_eq_none_iff]
  rfl

theorem terminateTask_iff (kernel : KernelState) (slot : Nat) (status : BitVec 32) :
    (∀ arrives, schedulerTerminateTask arrives kernel.state slot status ≠ none) ↔
      (kernel.state.liveAt slot = true → ¬ OwnsLast kernel.state.kernel.files kernel.state.sockets slot) := by
  unfold schedulerTerminateTask
  cases live : kernel.state.liveAt slot with
  | false =>
    unfold liveAt at live
    simp [live]
  | true =>
    have inside := terminateUnlocked_iff kernel.locked slot status
    have same : kernel.state.locked.liveAt slot = true := live
    unfold liveAt at live
    simp only [live, if_true, withTableLock_ne_none kernel.free, inside, same]
    rfl

variable {machine : Machine} {view : SignalTask} {frame : InterruptTaskFrame} {pid : BitVec 32}

theorem afterDelivery_liveAt {slot other : Nat} :
    (state.afterDelivery slot machine view frame).liveAt other = state.liveAt other := by
  simp only [liveAt, afterDelivery, List.getElem?_modify]
  grind [Task.live, Task.vacant]

theorem afterDelivery_currentPid {slot : Nat} :
    (state.afterDelivery slot machine view frame).currentPid = state.currentPid := by
  apply currentPid_eq
  · rfl
  · intro other
    simp only [afterDelivery, List.getElem?_modify]
    grind

def KernelState.afterDelivery (kernel : KernelState) (slot : Nat) (machine : Machine) (view : SignalTask)
    (frame : InterruptTaskFrame) : KernelState where
  state := kernel.state.afterDelivery slot machine view frame
  free := kernel.free
  running := by
    rw [afterDelivery_currentPid]
    exact kernel.running
  consistent := kernel.consistent

theorem deliver_iff (locked : Locked state) {slot : Nat} :
    (∀ arrives, deliverPendingSignalUnlocked arrives state slot ≠ none) ↔
      (state.fatalAt slot (.tick (state.memory slot).frame) = true → state.liveAt slot = true →
        ¬ OwnsLast state.kernel.files state.sockets slot) := by
  unfold deliverPendingSignalUnlocked fatalAt
  cases found : state.table.tasks[slot]? with
  | none => simp
  | some task =>
    have ends : endsTask (PhotonOS.deliverPendingSignalUnlocked state.machine (signalView task (state.memory slot))
        (state.memory slot).frame).outcome = _ := deliverSignals_ends _ _ (.tick (state.memory slot).frame)
    simp only [Option.any_some, ← ends]
    generalize PhotonOS.deliverPendingSignalUnlocked _ _ _ = delivery
    have after : Locked (state.afterDelivery slot delivery.machine delivery.task delivery.frame) := by
      refine ⟨locked.held, locked.masked, ?_, locked.consistent⟩
      rw [afterDelivery_currentPid]
      exact locked.current
    cases delivery.outcome with
    | terminated status =>
      have inside := terminateUnlocked_iff after slot (BitVec.ofNat 32 status)
      rw [afterDelivery_liveAt] at inside
      simp only [endsTask, forall_const, ne_eq, Option.map_eq_none_iff]
      exact inside
    | returned => simp [endsTask]
    | halted => simp [endsTask]
    | delivered => simp [endsTask]

theorem syscallReturn_iff {kernel : KernelState} {frame : SyscallFrame} {ret : BitVec 64} :
    (∀ arrives, schedulerHandleSyscallSignals arrives kernel.state frame ret ≠ none) ↔
      ∀ slot, kernel.state.current = some slot → kernel.state.fatalAt slot (.syscall frame ret) = true →
        kernel.state.liveAt slot = true → ¬ OwnsLast kernel.state.kernel.files kernel.state.sockets slot := by
  unfold schedulerHandleSyscallSignals fatalAt
  cases current : kernel.state.current with
  | none => simp
  | some slot =>
    simp only [Option.some.injEq, forall_eq']
    cases found : kernel.state.table.tasks[slot]? with
    | none => simp
    | some task =>
      have ends : endsTask (PhotonOS.schedulerHandleSyscallSignals kernel.state.machine
          (signalView task (kernel.state.memory slot)) frame ret).outcome = _ :=
        deliverSignals_ends _ _ (.syscall frame ret)
      simp only [Option.any_some, ← ends]
      generalize PhotonOS.schedulerHandleSyscallSignals _ _ _ _ = delivery
      cases delivery.outcome with
      | terminated status =>
        have inside := terminateTask_iff (kernel.afterDelivery slot delivery.machine delivery.task
          (kernel.state.memory slot).frame) slot (BitVec.ofNat 32 status)
        simp only [KernelState.afterDelivery, afterDelivery_liveAt] at inside
        simp only [endsTask, forall_const]
        exact inside
      | returned => simp [endsTask]
      | halted => simp [endsTask]
      | delivered => simp [endsTask]

theorem sendLocked_iff (locked : Locked state) {signum : Nat} :
    (∀ arrives, sendLocked arrives state pid signum ≠ none) ↔
      (signum = sigkill → ∀ slot, findTask state.table.tasks pid = some slot → state.liveAt slot = true →
        ¬ OwnsLast state.kernel.files state.sockets slot) := by
  unfold sendLocked
  cases found : findTask state.table.tasks pid with
  | none => simp
  | some slot =>
    simp only [Option.some.injEq, forall_eq']
    cases present : state.table.tasks[slot]? with
    | none => simp [liveAt, present]
    | some task =>
      have inside := terminateUnlocked_iff locked slot (BitVec.ofNat 32 (128 + sigkill))
      by_cases zombie : task.state = .zombie
      · have ended : state.liveAt slot = false := by
          simp [liveAt, present, Task.live, zombie]
        simp [zombie, ended]
      by_cases kill : signum = sigkill
      · simp only [if_neg zombie, kill, if_true, forall_const]
        exact inside
      · simp only [if_neg zombie, kill, if_false, false_implies, iff_true]
        intro _
        split <;> exact Option.some_ne_none _

theorem withTableLock_free {body : LockState → Option LockState}
    (returns : withTableLock state body = some after) : after.held = false := by
  unfold withTableLock at returns
  split at returns
  · cases returns
  · obtain ⟨_, _, rfl⟩ := Option.map_eq_some_iff.mp returns
    rfl

theorem sendSignal_iff {kernel : KernelState} {signum : Int} :
    (∀ arrives, schedulerSendSignal arrives kernel.state pid signum ≠ none) ↔
      (signum = sigkill → ∀ slot, findTask kernel.state.table.tasks pid = some slot → kernel.state.liveAt slot = true →
        ¬ OwnsLast kernel.state.kernel.files kernel.state.sockets slot) := by
  have first : ∀ arrives, schedulerSendSignal arrives kernel.state pid signum ≠ none ↔
      (0 < signum ∧ signum < taskSignalCount → sendLocked arrives kernel.state.locked pid signum.toNat ≠ none) := by
    intro arrives
    unfold schedulerSendSignal
    by_cases supported : 0 < signum ∧ signum < taskSignalCount
    · have entry := withTableLock_ne_none kernel.free fun state => sendLocked arrives state pid signum.toNat
      rw [if_neg (not_not_intro supported), ← entry]
      cases entered : withTableLock kernel.state fun state => sendLocked arrives state pid signum.toNat with
      | none => simp [supported]
      | some after =>
        simp only [Option.bind_some, supported, and_self, forall_const, ne_eq, reduceCtorEq, not_false_eq_true, iff_true]
        split
        · rw [← ne_eq, withTableLock_ne_none (withTableLock_free entered)]
          exact Option.some_ne_none _
        · exact Option.some_ne_none _
    · simp [supported]
  simp only [first]
  by_cases supported : 0 < signum ∧ signum < taskSignalCount
  · have same : signum.toNat = sigkill ↔ signum = sigkill := by
      omega
    simp only [supported, and_self, forall_const, sendLocked_iff kernel.locked, same]
    rfl
  · have other : ¬ signum = sigkill := by
      rintro rfl
      exact supported (by decide)
    simp [supported, other]

def pipeOwner : KernelState where
  state :=
    { table := (schedulerAddUserProcess schedulerInit none).1
      current := some 1
      kernel := Pipe.pipeStep Pipe.pipeInit
        (.pipe ⟨1, by decide⟩ { objects := true, readDescription := true, writeDescription := true })
      sockets := ∅
      machine := stackMachine
      memory := fun _ =>
        { cr3 := 0
          userPhysicalPages := fun _ => 0
          userPageCount := 0
          signalContext := stackExit.saved 0
          frame := ⟨stackExit.resume.registers, stackExit.resume.cs, stackExit.resume.rsp, stackExit.resume.ss⟩ }
      held := false
      interrupts := false }
  free := rfl
  running := by decide
  consistent := Pipe.settled_reachable
    [.pipe ⟨1, by decide⟩ { objects := true, readDescription := true, writeDescription := true }]

end PhotonOS.TableLock
