import PhotonOS.TableLock.Calls

/-!
What a task is the last to have: an end of a pipe, or the description of a
socket. Closing a descriptor takes it away exactly when it was the only one.
-/

namespace PhotonOS.TableLock

open Files
open Pipe (FileNode PipeKernel pipeOps Settled)

variable {files : Files FileNode} {sockets : Finset Nat} {slot : Nat} {position : Nat × Nat}

def On (files : Files FileNode) (position : Nat × Nat) (node : FileNode) : Prop :=
  ∃ id, files.fds position = some id ∧ files.nodeOf id = some node

def OwnsEnd (files : Files FileNode) (slot pipe : Nat) (side : Pipe.Side) : Prop :=
  (∃ fd, On files (slot, fd) (.pipeEnd pipe side)) ∧
    ∀ position, On files position (.pipeEnd pipe side) → position.1 = slot

def OwnsSocket (files : Files FileNode) (sockets : Finset Nat) (slot : Nat) : Prop :=
  ∃ fd id, files.fds (slot, fd) = some id ∧ (∃ socket ∈ sockets, files.nodeOf id = some (.other socket)) ∧
    ∀ position, files.fds position = some id → position.1 = slot

def OwnsLast (files : Files FileNode) (sockets : Finset Nat) (slot : Nat) : Prop :=
  (∃ pipe side, OwnsEnd files slot pipe side) ∨ OwnsSocket files sockets slot

def Last (files : Files FileNode) (sockets : Finset Nat) (position : Nat × Nat) : Prop :=
  (∃ pipe side, On files position (.pipeEnd pipe side) ∧
    ∀ other, On files other (.pipeEnd pipe side) → other = position) ∨
  ∃ id, files.fds position = some id ∧ (∃ socket ∈ sockets, files.nodeOf id = some (.other socket)) ∧
    ∀ other, files.fds other = some id → other = position

theorem Last.ownsLast {fd : Nat} (last : Last files sockets (slot, fd)) : OwnsLast files sockets slot := by
  rcases last with ⟨pipe, side, here, only⟩ | ⟨id, held, socket, only⟩
  · exact Or.inl ⟨pipe, side, ⟨fd, here⟩, fun position also => by rw [only position also]⟩
  · exact Or.inr ⟨fd, id, held, socket, fun position also => by rw [only position also]⟩

section

variable {kernel : PipeKernel} (counted : Counted kernel.files) {slot fd : Nat} (bound : fd < taskMaxFds)

include counted bound

omit counted in
theorem fds_sysClose {id : Nat} :
    (sysClose pipeOps kernel slot fd).files.fds position = some id ↔
      position ≠ (slot, fd) ∧ kernel.files.fds position = some id := by
  by_cases here : position = (slot, fd)
  · subst here
    simp [sysClose_fds_same bound]
  · simp [sysClose_fds_other here, here]

theorem on_sysClose {node : FileNode} :
    On (sysClose pipeOps kernel slot fd).files position node ↔
      position ≠ (slot, fd) ∧ On kernel.files position node := by
  constructor
  · rintro ⟨id, held, refers⟩
    obtain ⟨other, before⟩ := (fds_sysClose bound).mp held
    exact ⟨other, id, before, (sysClose_nodeOf counted other before).symm.trans refers⟩
  · rintro ⟨other, id, held, refers⟩
    exact ⟨id, (fds_sysClose bound).mpr ⟨other, held⟩, (sysClose_nodeOf counted other held).trans refers⟩

theorem ownsEnd_sysClose {pipe : Nat} {side : Pipe.Side} (shared : On kernel.files (slot, fd) (.pipeEnd pipe side) →
      ∃ position, position ≠ (slot, fd) ∧ On kernel.files position (.pipeEnd pipe side)) :
    OwnsEnd (sysClose pipeOps kernel slot fd).files slot pipe side ↔ OwnsEnd kernel.files slot pipe side := by
  simp only [OwnsEnd, on_sysClose counted bound]
  constructor
  · rintro ⟨⟨other, _, here⟩, only⟩
    refine ⟨⟨other, here⟩, ?_⟩
    intro position also
    by_cases same : position = (slot, fd)
    · rw [same]
    · exact only position ⟨same, also⟩
  · rintro ⟨⟨first, here⟩, only⟩
    refine ⟨?_, fun position also => only position also.2⟩
    by_cases same : first = fd
    · subst same
      obtain ⟨⟨owner, other⟩, different, also⟩ := shared here
      obtain rfl : owner = slot := only _ also
      exact ⟨other, different, also⟩
    · exact ⟨first, by simp [same], here⟩

theorem ownsSocket_sysClose (shared : ∀ id, kernel.files.fds (slot, fd) = some id →
      (∃ socket ∈ sockets, kernel.files.nodeOf id = some (.other socket)) →
      ∃ position, position ≠ (slot, fd) ∧ kernel.files.fds position = some id) :
    OwnsSocket (sysClose pipeOps kernel slot fd).files sockets slot ↔ OwnsSocket kernel.files sockets slot := by
  constructor
  · rintro ⟨other, id, held, ⟨socket, member, refers⟩, only⟩
    obtain ⟨different, before⟩ := (fds_sysClose bound).mp held
    rw [sysClose_nodeOf counted different before] at refers
    refine ⟨other, id, before, ⟨socket, member, refers⟩, ?_⟩
    intro position also
    by_cases same : position = (slot, fd)
    · rw [same]
    · exact only position ((fds_sysClose bound).mpr ⟨same, also⟩)
  · rintro ⟨first, id, held, ⟨socket, member, refers⟩, only⟩
    -- a descriptor that stays: this one, or another if this is the one that is closed
    obtain ⟨kept, different, keptHeld⟩ : ∃ kept, (slot, kept) ≠ (slot, fd) ∧ kernel.files.fds (slot, kept) = some id := by
      by_cases same : first = fd
      · subst same
        obtain ⟨⟨owner, other⟩, different, also⟩ := shared id held ⟨socket, member, refers⟩
        obtain rfl : owner = slot := only _ also
        exact ⟨other, different, also⟩
      · exact ⟨first, by simp [same], held⟩
    refine ⟨kept, id, (fds_sysClose bound).mpr ⟨different, keptHeld⟩, ⟨socket, member, ?_⟩, ?_⟩
    · rw [sysClose_nodeOf counted different keptHeld]
      exact refers
    · exact fun position also => only position ((fds_sysClose bound).mp also).2

theorem ownsLast_sysClose (notLast : ¬ Last kernel.files sockets (slot, fd)) :
    OwnsLast (sysClose pipeOps kernel slot fd).files sockets slot ↔ OwnsLast kernel.files sockets slot := by
  have ends : ∀ pipe side, OwnsEnd (sysClose pipeOps kernel slot fd).files slot pipe side ↔
      OwnsEnd kernel.files slot pipe side := by
    intro pipe side
    apply ownsEnd_sysClose counted bound
    intro here
    by_contra none
    push Not at none
    refine notLast (Or.inl ⟨pipe, side, here, fun other also => ?_⟩)
    by_contra different
    exact none other different also
  have socket : OwnsSocket (sysClose pipeOps kernel slot fd).files sockets slot ↔
      OwnsSocket kernel.files sockets slot := by
    apply ownsSocket_sysClose counted bound
    intro id held refers
    by_contra none
    push Not at none
    refine notLast (Or.inr ⟨id, held, refers, fun other also => ?_⟩)
    by_contra different
    exact none other different also
  simp only [OwnsLast, ends, socket]

end

theorem not_ownsLast_of_empty (empty : ∀ fd, files.fds (slot, fd) = none) : ¬ OwnsLast files sockets slot := by
  rintro (⟨pipe, side, ⟨fd, id, held, _⟩, _⟩ | ⟨fd, id, held, _, _⟩)
  · rw [empty fd] at held
    cases held
  · rw [empty fd] at held
    cases held

end PhotonOS.TableLock
