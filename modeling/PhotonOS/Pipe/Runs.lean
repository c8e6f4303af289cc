import PhotonOS.Pipe.Lifetime

/-!
Every system call keeps the descriptors and the pipes consistent, and the bytes
of a pipe in order.
-/

namespace PhotonOS.Pipe

open Files

variable {pipes : Pipes} {counts : FileNode → Nat} {pipe : Nat} {buffer : PipeBuffer}

section

variable (inv : PipesInv pipes counts)
include inv

theorem PipesInv.inUse_of_present (present : pipes.buffers pipe = some buffer) :
    pipe < pipes.next ∧ InUse (view pipes counts pipe) buffer := by
  have bound : pipe < pipes.next := by
    by_contra beyond
    have absent : pipes.buffers pipe = none := (inv.unmade pipe (by omega)).absent
    rw [present] at absent
    cases absent
  refine ⟨bound, ?_⟩
  rcases inv.made pipe bound with ⟨found, inUse⟩ | gone
  · have same : some buffer = some found := present.symm.trans inUse.present
    cases same
    exact inUse
  · have absent : pipes.buffers pipe = none := gone.absent
    rw [present] at absent
    cases absent

theorem PipesInv.exchange (present : pipes.buffers pipe = some buffer)
    {ring : RingQueue Byte} (wellFormed : ring.WellFormed pipeBufferSize) {returned : List Byte} (accepted : List Byte)
    (queue : returned ++ ring.contents pipeBufferSize = accepted) : PipesInv { pipes with
      buffers := Function.update pipes.buffers pipe (some { buffer with ring := ring })
      history := { pipes.history with
        returned := Function.update pipes.history.returned pipe returned
        accepted := Function.update pipes.history.accepted pipe accepted } } counts := by
  obtain ⟨bound, inUse⟩ := inv.inUse_of_present present
  refine inv.change pipe bound rfl ?_ (Or.inl ⟨{ buffer with ring := ring }, ?_⟩)
  · intro other different
    simp only [view, Function.update_of_ne different]
  · refine ⟨Function.update_self _ _ _, inUse.users, inUse.needed, inUse.unreleased, wellFormed, ?_⟩
    simp only [view, Function.update_self]
    exact queue

theorem PipesInv.read (pipe size : Nat) : PipesInv (pipeRead pipes pipe size).1 counts := by
  unfold pipeRead
  cases present : pipes.buffers pipe with
  | none => exact inv
  | some buffer =>
    obtain ⟨_, inUse⟩ := inv.inUse_of_present present
    obtain ⟨wellFormed, contents, _⟩ := RingQueue.popMany_spec pipeBufferSize size buffer.ring inUse.wellFormed
    have after := inv.exchange present wellFormed
      (pipes.history.accepted pipe) (by rw [List.append_assoc, contents]; exact inUse.queue)
    rw [Function.update_eq_self pipe pipes.history.accepted] at after
    exact after

theorem PipesInv.write (pipe : Nat) (bytes : List Byte) : PipesInv (pipeWrite pipes pipe bytes).1 counts := by
  unfold pipeWrite
  cases present : pipes.buffers pipe with
  | none => exact inv
  | some buffer =>
    dsimp only
    split
    · exact inv
    obtain ⟨_, inUse⟩ := inv.inUse_of_present present
    obtain ⟨wellFormed, contents⟩ := RingQueue.pushMany_spec pipeBufferSize buffer.ring inUse.wellFormed
    have queue : pipes.history.returned pipe ++ buffer.ring.contents pipeBufferSize = pipes.history.accepted pipe :=
      inUse.queue
    have after := inv.exchange present wellFormed
      (pipes.history.accepted pipe ++ bytes.take (RingQueue.pushMany pipeBufferSize buffer.ring bytes).2)
      (by rw [contents, ← List.append_assoc, queue])
    rw [Function.update_eq_self pipe pipes.history.returned] at after
    exact after

end

theorem pipeRead_unattached {size : Nat} : (pipeRead pipes pipe size).1.unattached = pipes.unattached := by
  unfold pipeRead
  split <;> rfl

theorem pipeWrite_unattached {bytes : List Byte} : (pipeWrite pipes pipe bytes).1.unattached = pipes.unattached := by
  unfold pipeWrite
  split
  · rfl
  · split <;> rfl

theorem settled_world {kernel : PipeKernel} (consistent : Consistent Settled kernel) {world : Pipes}
    (inv : PipesInv world (opened kernel.files)) (same : world.unattached = kernel.world.unattached) :
    Consistent Settled { kernel with world := world } := by
  refine ⟨consistent.counted, inv, ?_, ?_⟩
  · intro id
    rw [same]
    exact consistent.world.ends id
  · intro pipe side _ member
    rw [same] at member
    exact consistent.world.abandoned pipe side (by simp) member

theorem settled_step (kernel : PipeKernel) (call : PipeCall) (consistent : Consistent Settled kernel) :
    Consistent Settled (pipeStep kernel call) := by
  have lifetime := lifetime_settled none
  cases call with
  | openOther task id allocated =>
    apply consistent.alloc lifetime task.isLt
    rintro pipe side ⟨⟩
  | pipe task memory => exact settled_sysPipe consistent task.isLt
  | dup task oldFd start => exact consistent.dupFrom task.isLt oldFd start
  | dup2 task oldFd newFd => exact consistent.dup2 lifetime task.isLt oldFd newFd
  | inherit parent child =>
    simp only [pipeStep]
    split
    next empty => exact consistent.inherit parent child child.isLt (consistent.counted.row_empty empty)
    next => exact consistent
  | close task fd => exact consistent.close lifetime task fd
  | exit task => exact consistent.closeAll lifetime
  | read task fd size =>
    simp only [pipeStep]
    split
    · exact settled_world consistent (consistent.world.inv.read _ size) pipeRead_unattached
    · exact consistent
  | write task fd bytes =>
    simp only [pipeStep]
    split
    · exact settled_world consistent (consistent.world.inv.write _ bytes) pipeWrite_unattached
    · exact consistent

theorem settled_init : Consistent Settled pipeInit := by
  refine ⟨⟨?_, ?_, ?_, ?_⟩, ⟨?_, ?_⟩, ?_, ?_⟩
  · intro slot id found
    cases found
  · intro slot id found
    cases found
  · intro id description found
    cases found
  · intro id description found
    cases found
  · intro pipe bound
    exact absurd bound (Nat.not_lt_zero pipe)
  · intro pipe _
    refine ⟨rfl, fun side => ?_, rfl, rfl, rfl⟩
    rfl
  · intro id member
    cases member
  · intro pipe side _ member
    cases member

theorem settled_reachable (history : List PipeCall) : Consistent Settled (Transition.run pipeStep pipeInit history) :=
  Transition.run_invariant pipeStep (Consistent Settled) settled_step pipeInit settled_init history

end PhotonOS.Pipe
