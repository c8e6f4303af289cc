import PhotonOS.Pipe.Runs

/-!
What a program learns from `sys_read` returning 0 and `sys_write` returning -1 on
a pipe.
-/

namespace PhotonOS.Pipe

open Files Transition

def EndOpen (kernel : PipeKernel) (pipe : Nat) (side : Side) : Prop :=
  ∃ slot id, kernel.files.fds slot = some id ∧ kernel.files.nodeOf id = some (.pipeEnd pipe side)

def Drained (kernel : PipeKernel) (pipe : Nat) : Prop :=
  kernel.world.history.accepted pipe = kernel.world.history.returned pipe

/-- A system call on a descriptor of a pipe. A read has a valid buffer and a size that is not zero. -/
inductive PipeRequest where
  | read (size : Nat) (positive : 0 < size) (allocated : Bool)
  | write (bytes : List Byte) (mapped allocated : Bool)

def PipeRequest.side : PipeRequest → Side
  | .read _ _ _ => .read
  | .write _ _ _ => .write

/-- 0 is the end of the file, and -1 a pipe that nobody reads. -/
def TellsTruth (kernel : PipeKernel) (pipe : Nat) : PipeRequest → Prop
  | .read size _ allocated => (sysReadPipe kernel pipe size true allocated).2 = 0 →
      Drained kernel pipe ∧ ¬EndOpen kernel pipe .write
  | .write bytes mapped allocated => (sysWritePipe kernel pipe bytes mapped allocated).2 = -1 →
      ¬EndOpen kernel pipe .read

/-- A read does not meet an empty pipe that still has a writer, and a write that has a reader has a valid
buffer and gets its memory. -/
def Answerable (kernel : PipeKernel) (pipe : Nat) : PipeRequest → Prop
  | .read _ _ allocated => allocated = true → Drained kernel pipe → ¬EndOpen kernel pipe .write
  | .write bytes mapped allocated => EndOpen kernel pipe .read → mapped = true ∧ (bytes ≠ [] → allocated = true)

variable {kernel : PipeKernel} {pipe : Nat} {side : Side} {buffer : PipeBuffer} {allocated : Bool}

theorem endOpen_iff (counted : Counted kernel.files) (pipe : Nat) (side : Side) :
    EndOpen kernel pipe side ↔ 0 < opened kernel.files (.pipeEnd pipe side) := by
  rw [opened, SharedRefs.references_pos_iff]
  constructor
  · rintro ⟨slot, id, refers, node⟩
    obtain ⟨description, present⟩ := counted.live slot id refers
    exact ⟨id, Finset.mem_range.mpr (counted.bounded id description present), node⟩
  rintro ⟨id, _, node⟩
  obtain ⟨description, present, _⟩ := Option.map_eq_some_iff.mp node
  obtain ⟨count, positive⟩ := counted.counted id description present
  rw [count] at positive
  obtain ⟨slot, _, refers⟩ := SharedRefs.references_pos_iff.mp positive
  exact ⟨slot, id, refers, node⟩

theorem open_pipe (consistent : Consistent Settled kernel) (isOpen : EndOpen kernel pipe side) :
    ∃ buffer, InUse (view kernel.world (opened kernel.files) pipe) buffer ∧
      ∀ any, buffer.users any = 0 ↔ ¬EndOpen kernel pipe any := by
  have user := (endOpen_iff consistent.counted pipe side).mp isOpen
  obtain ⟨_, buffer, inUse⟩ := consistent.world.inv.inUse
    (show 0 < (view kernel.world (opened kernel.files) pipe).held side from
      Nat.lt_of_lt_of_le user (Nat.le_add_right _ _))
  refine ⟨buffer, inUse, ?_⟩
  intro any
  have attached : .pipeEnd pipe any ∉ kernel.world.unattached := by
    intro member
    have zero := consistent.world.abandoned pipe any (by simp) member side
    omega
  rw [endOpen_iff consistent.counted, inUse.users]
  simp only [view, if_neg attached]
  omega

section

variable (inUse : InUse (view kernel.world (opened kernel.files) pipe) buffer)
include inUse

theorem drained_iff : Drained kernel pipe ↔ buffer.ring.count = 0 := by
  have queue : kernel.world.history.returned pipe ++ buffer.ring.contents pipeBufferSize =
      kernel.world.history.accepted pipe := inUse.queue
  rw [Drained, ← queue, List.append_right_eq_self, ← List.length_eq_zero_iff, RingQueue.contents_length]

theorem sysReadPipe_eq_zero_iff {size : Nat} (positive : 0 < size) :
    (sysReadPipe kernel pipe size true allocated).2 = 0 ↔ allocated = true ∧ buffer.ring.count = 0 := by
  have present : kernel.world.buffers pipe = some buffer := inUse.present
  obtain ⟨_, _, length⟩ := RingQueue.popMany_spec pipeBufferSize size buffer.ring inUse.wellFormed
  unfold sysReadPipe
  cases allocated with
  | false => simp
  | true =>
    simp only [Bool.not_true, Bool.false_eq_true, if_false, and_false, pipeRead, present, length, true_and]
    omega

theorem sysWritePipe_eq_neg_one_iff {bytes : List Byte} {mapped : Bool} :
    (sysWritePipe kernel pipe bytes mapped allocated).2 = -1 ↔
      mapped = false ∨ (bytes ≠ [] ∧ (allocated = false ∨ buffer.readers = 0)) := by
  have present : kernel.world.buffers pipe = some buffer := inUse.present
  unfold sysWritePipe
  cases mapped with
  | false => simp
  | true =>
    by_cases empty : bytes = []
    · simp [empty]
    cases allocated with
    | false => simp [empty]
    | true =>
      by_cases unread : buffer.readers = 0
      · simp [empty, pipeWrite, present, unread]
      · simp only [Bool.not_true, Bool.false_eq_true, if_false, empty, pipeWrite, present, unread, ne_eq,
          Bool.true_eq_false, not_false_eq_true, and_false, or_self, iff_false]
        omega

end

theorem tellsTruth_iff_of_settled (consistent : Consistent Settled kernel) {request : PipeRequest}
    (isOpen : EndOpen kernel pipe request.side) :
    TellsTruth kernel pipe request ↔ Answerable kernel pipe request := by
  obtain ⟨buffer, inUse, users⟩ := open_pipe consistent isOpen
  cases request with
  | read size positive allocated =>
    simp only [TellsTruth, Answerable, sysReadPipe_eq_zero_iff inUse positive, ← drained_iff inUse]
    constructor
    · intro truth gets drained
      exact (truth ⟨gets, drained⟩).2
    · rintro answer ⟨gets, drained⟩
      exact ⟨drained, answer gets drained⟩
  | write bytes mapped allocated =>
    have unread : buffer.readers = 0 ↔ ¬EndOpen kernel pipe .read := users .read
    simp only [TellsTruth, Answerable, sysWritePipe_eq_neg_one_iff inUse, unread]
    constructor
    · intro truth reader
      constructor
      · by_contra unmapped
        exact truth (Or.inl (Bool.eq_false_iff.mpr unmapped)) reader
      · intro some
        by_contra unallocated
        exact truth (Or.inr ⟨some, Or.inl (Bool.eq_false_iff.mpr unallocated)⟩) reader
    · rintro answer (unmapped | ⟨some, unallocated | noReader⟩) reader
      · exact Bool.noConfusion (unmapped.symm.trans (answer reader).1)
      · exact Bool.noConfusion (unallocated.symm.trans ((answer reader).2 some))
      · exact noReader reader

/-- After every history, a call on a descriptor of a pipe tells the truth exactly when it is answerable. -/
theorem pipe_end_of_file_iff (history : List PipeCall) (task fd pipe : Nat) (request : PipeRequest)
    (node : nodeAt (run pipeStep pipeInit history) task fd = some (.pipeEnd pipe request.side)) :
    TellsTruth (run pipeStep pipeInit history) pipe request ↔
      Answerable (run pipeStep pipeInit history) pipe request := by
  obtain ⟨id, found, nodeOf⟩ := Option.bind_eq_some_iff.mp node
  exact tellsTruth_iff_of_settled (settled_reachable history) ⟨(task, fd), id, fdAt_spec found, nodeOf⟩

def newPipe : List PipeCall := [.pipe ⟨0, maxTasks_pos⟩ { objects := true, readDescription := true, writeDescription := true }]

theorem pipe_end_of_file_iff_newPipe : TellsTruth (run pipeStep pipeInit newPipe) 0 (.read 1 (by decide) true) ↔
      Answerable (run pipeStep pipeInit newPipe) 0 (.read 1 (by decide) true) :=
  pipe_end_of_file_iff newPipe 0 3 0 (.read 1 (by decide) true) rfl

theorem newPipe_read_returns_zero : ¬TellsTruth (run pipeStep pipeInit newPipe) 0 (.read 1 (by decide) true) := by
  intro truth
  exact (truth rfl).2 ⟨(0, 4), 1, rfl, rfl⟩

end PhotonOS.Pipe
