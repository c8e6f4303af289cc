import PhotonOS.Pipe.EndOfFile

/-!
A pipe is a queue, and its buffer is released with the last file description on
its ends, unless `sys_pipe` ran out of memory half way.
-/

namespace PhotonOS.Pipe

open Files Transition

structure PipeExact (kernel : PipeKernel) (pipe : Nat) : Prop where
  order : kernel.world.history.returned pipe <+: kernel.world.history.accepted pipe
  count : ∀ buffer, kernel.world.buffers pipe = some buffer →
    (kernel.world.history.returned pipe).length + buffer.ring.count = (kernel.world.history.accepted pipe).length ∧
      buffer.ring.count ≤ pipeBufferSize
  releasedOnce : kernel.world.history.released.count pipe ≤ 1
  releasedLast : 0 < kernel.world.history.released.count pipe ↔
    ¬EndOpen kernel pipe .read ∧ ¬EndOpen kernel pipe .write

def GetsDescriptions : PipeCall → Prop
  | .pipe _ memory => memory.objects = true → memory.readDescription = true ∧ memory.writeDescription = true
  | _ => True

section

variable {kernel : PipeKernel} (consistent : Consistent Settled kernel) {pipe : Nat}

include consistent

theorem exact_of_attached (bound : pipe < kernel.world.next)
    (attached : ∀ side, .pipeEnd pipe side ∉ kernel.world.unattached) : PipeExact kernel pipe := by
  have heldEq : ∀ side, (view kernel.world (opened kernel.files) pipe).held side =
      opened kernel.files (.pipeEnd pipe side) := by
    intro side
    simp only [view, if_neg (attached side), Nat.add_zero]
  have isOpen := fun side => endOpen_iff consistent.counted pipe side
  rcases consistent.world.inv.made pipe bound with ⟨buffer, inUse⟩ | gone
  · have present : kernel.world.buffers pipe = some buffer := inUse.present
    have queue : kernel.world.history.returned pipe ++ buffer.ring.contents pipeBufferSize =
        kernel.world.history.accepted pipe := inUse.queue
    have unreleased : kernel.world.history.released.count pipe = 0 := inUse.unreleased
    refine ⟨⟨_, queue⟩, ?_, by omega, ?_⟩
    · intro found foundAt
      rw [present] at foundAt
      cases foundAt
      refine ⟨?_, inUse.wellFormed.countBound⟩
      rw [← queue, List.length_append, RingQueue.contents_length]
    · have needed := inUse.needed
      rw [heldEq, heldEq] at needed
      rw [unreleased, isOpen, isOpen]
      omega
  · have absent : kernel.world.buffers pipe = none := gone.absent
    have released : kernel.world.history.released.count pipe = 1 := gone.released
    have readClosed := gone.unheld .read
    have writeClosed := gone.unheld .write
    rw [heldEq] at readClosed writeClosed
    refine ⟨gone.queue, ?_, by omega, ?_⟩
    · intro buffer found
      rw [absent] at found
      cases found
    · rw [released, isOpen, isOpen]
      omega

theorem not_exact_of_unattached {side : Side} (member : .pipeEnd pipe side ∈ kernel.world.unattached) :
    pipe < kernel.world.next ∧ ¬PipeExact kernel pipe := by
  have user : 0 < (view kernel.world (opened kernel.files) pipe).held side := by
    simp only [view, if_pos member]
    omega
  obtain ⟨bound, buffer, inUse⟩ := consistent.world.inv.inUse user
  refine ⟨bound, ?_⟩
  intro exactly
  have unreleased : kernel.world.history.released.count pipe = 0 := inUse.unreleased
  have closed := consistent.world.abandoned pipe side (by simp) member
  have isOpen := fun side => endOpen_iff consistent.counted pipe side
  have released := exactly.releasedLast.mpr ⟨by rw [isOpen, closed]; decide, by rw [isOpen, closed]; decide⟩
  omega

theorem exact_iff_unattached_empty :
    (∀ pipe, pipe < kernel.world.next → PipeExact kernel pipe) ↔ kernel.world.unattached = ∅ := by
  constructor
  · intro exactly
    rw [Finset.eq_empty_iff_forall_notMem]
    intro node member
    cases node with
    | other id => exact consistent.world.ends id member
    | pipeEnd pipe side =>
      obtain ⟨bound, inexact⟩ := not_exact_of_unattached consistent member
      exact inexact (exactly pipe bound)
  · intro empty pipe bound
    apply exact_of_attached consistent bound
    intro side
    rw [empty]
    exact Finset.notMem_empty _

theorem sysPipe_unattached_empty {task : Nat} (taskBound : task < maxTasks) {memory : PipeMemory} :
    (sysPipe kernel task memory).1.world.unattached = ∅ ↔ kernel.world.unattached = ∅ ∧
      (memory.objects = true → memory.readDescription = true ∧ memory.writeDescription = true) := by
  cases made : memory.objects with
  | false =>
    unfold sysPipe
    simp [made]
  | true =>
    have member := sysPipe_unattached consistent taskBound made
    simp only [Finset.eq_empty_iff_forall_notMem, member, not_or, not_and, Bool.not_eq_false, forall_and, forall_eq,
      forall_const]
    constructor
    · rintro ⟨read, write, before⟩
      exact ⟨before, read, write⟩
    · rintro ⟨before, read, write⟩
      exact ⟨read, write, before⟩

theorem step_unattached_empty {call : PipeCall} :
    (pipeStep kernel call).world.unattached = ∅ ↔ kernel.world.unattached = ∅ ∧ GetsDescriptions call := by
  have same : ∀ after : PipeKernel, after.world.unattached = kernel.world.unattached →
      (after.world.unattached = ∅ ↔ kernel.world.unattached = ∅ ∧ True) := by
    intro after eq
    rw [eq, and_true]
  cases call with
  | openOther task id allocated =>
    apply same
    simp only [pipeStep]
    rw [alloc_unattached consistent.counted, Finset.erase_eq_of_notMem (consistent.world.ends id), ite_self]
  | pipe task memory => exact sysPipe_unattached_empty consistent task.isLt
  | dup task oldFd start =>
    apply same
    simp only [pipeStep, dupFrom]
    split
    · rfl
    · split <;> rfl
  | dup2 task oldFd newFd =>
    apply same
    simp only [pipeStep, sysDup2]
    split
    · rfl
    split
    · rfl
    · split
      · rfl
      · exact sysClose_unattached
  | inherit parent child =>
    apply same
    simp only [pipeStep]
    split <;> rfl
  | close task fd => exact same _ sysClose_unattached
  | exit task =>
    apply same
    exact run_invariant (fun after fd => sysClose pipeOps after task fd)
      (fun after => after.world.unattached = kernel.world.unattached)
      (fun after fd eq => sysClose_unattached.trans eq) kernel rfl (List.range taskMaxFds)
  | read task fd size =>
    apply same
    simp only [pipeStep]
    split
    · exact pipeRead_unattached
    · rfl
  | write task fd bytes =>
    apply same
    simp only [pipeStep]
    split
    · exact pipeWrite_unattached
    · rfl

end

theorem run_unattached_empty : ∀ history kernel, Consistent Settled kernel →
    ((run pipeStep kernel history).world.unattached = ∅ ↔
      kernel.world.unattached = ∅ ∧ ∀ call ∈ history, GetsDescriptions call) := by
  intro history
  induction history with
  | nil => intro kernel _; simp
  | cons call history ih =>
    intro kernel consistent
    rw [run_cons, ih _ (settled_step kernel call consistent), step_unattached_empty consistent,
      List.forall_mem_cons, and_assoc]

/-- `sys_pipe` gets a description for the read end only. It closes that end again, but the buffer stays
with the write end that nobody has. -/
def halfPipe : List PipeCall :=
  [.pipe ⟨0, maxTasks_pos⟩ { objects := true, readDescription := true, writeDescription := false }]

end PhotonOS.Pipe
