import PhotonOS.Pipe.Pipes

/-!
The counts of a pipe are the numbers of file descriptions on its ends, and its
buffer goes with the last of them.
-/

namespace PhotonOS.Pipe

open Files
open Function

variable {pipes after : Pipes} {counts countsAfter : FileNode → Nat} {pipe task : Nat} {side : Side}
    {kernel : PipeKernel}

/-- What the invariant says about one pipe depends on this alone. `held` counts the descriptions on an
end, and the end itself while it has none. -/
structure PipeView where
  buffer : Option PipeBuffer
  held : Side → Nat
  released : Nat
  returned : List Byte
  accepted : List Byte

def view (pipes : Pipes) (counts : FileNode → Nat) (pipe : Nat) : PipeView where
  buffer := pipes.buffers pipe
  held side := counts (.pipeEnd pipe side) + if .pipeEnd pipe side ∈ pipes.unattached then 1 else 0
  released := pipes.history.released.count pipe
  returned := pipes.history.returned pipe
  accepted := pipes.history.accepted pipe

def PipeBuffer.users (buffer : PipeBuffer) : Side → Nat
  | .read => buffer.readers
  | .write => buffer.writers

structure InUse (view : PipeView) (buffer : PipeBuffer) : Prop where
  present : view.buffer = some buffer
  users : buffer.users = view.held
  needed : 0 < view.held .read + view.held .write
  unreleased : view.released = 0
  wellFormed : buffer.ring.WellFormed pipeBufferSize
  queue : view.returned ++ buffer.ring.contents pipeBufferSize = view.accepted

structure Gone (view : PipeView) : Prop where
  absent : view.buffer = none
  unheld : ∀ side, view.held side = 0
  released : view.released = 1
  queue : view.returned <+: view.accepted

structure Unmade (view : PipeView) : Prop where
  absent : view.buffer = none
  unheld : ∀ side, view.held side = 0
  unreleased : view.released = 0
  fresh : view.returned = [] ∧ view.accepted = []

structure PipesInv (pipes : Pipes) (counts : FileNode → Nat) : Prop where
  made : ∀ pipe, pipe < pipes.next → (∃ buffer, InUse (view pipes counts pipe) buffer) ∨ Gone (view pipes counts pipe)
  unmade : ∀ pipe, pipes.next ≤ pipe → Unmade (view pipes counts pipe)

theorem PipesInv.congr (inv : PipesInv pipes counts) (next : after.next = pipes.next)
    (views : view after countsAfter = view pipes counts) : PipesInv after countsAfter := by
  constructor
  · intro pipe bound
    rw [views]
    exact inv.made pipe (by omega)
  · intro pipe bound
    rw [views]
    exact inv.unmade pipe (by omega)

theorem PipesInv.change (inv : PipesInv pipes counts) (pipe : Nat) (inside : pipe < pipes.next)
    (next : after.next = pipes.next)
    (others : ∀ other, other ≠ pipe → view after countsAfter other = view pipes counts other)
    (here : (∃ buffer, InUse (view after countsAfter pipe) buffer) ∨ Gone (view after countsAfter pipe)) :
    PipesInv after countsAfter := by
  constructor
  · intro other bound
    by_cases same : other = pipe
    · rw [same]
      exact here
    · rw [others other same]
      exact inv.made other (by omega)
  · intro other bound
    rw [others other (by omega)]
    exact inv.unmade other (by omega)

theorem PipesInv.inUse (inv : PipesInv pipes counts) (user : 0 < (view pipes counts pipe).held side) :
    pipe < pipes.next ∧ ∃ buffer, InUse (view pipes counts pipe) buffer := by
  by_cases bound : pipe < pipes.next
  · refine ⟨bound, ?_⟩
    rcases inv.made pipe bound with inUse | gone
    · exact inUse
    · exact absurd (gone.unheld side) (by omega)
  · exact absurd ((inv.unmade pipe (by omega)).unheld side) (by omega)

/-! Descriptions come and go. -/

def EndReady (pipes : Pipes) (node : FileNode) : Prop := ∀ pipe side, node = .pipeEnd pipe side → node ∈ pipes.unattached

theorem PipesInv.ref (inv : PipesInv pipes counts) (node : FileNode) (ready : EndReady pipes node) :
    PipesInv (pipeOps.ref pipes node) (update counts node (counts node + 1)) := by
  apply inv.congr
  · rfl
  funext pipe
  simp only [view, pipeOps, PipeView.mk.injEq, true_and, and_true]
  funext side
  by_cases here : FileNode.pipeEnd pipe side = node
  · have member := ready pipe side here.symm
    subst here
    simp [member]
  · simp only [update_of_ne here, Finset.mem_erase, ne_eq, here, not_false_eq_true, true_and]

theorem leave_users {buffer : PipeBuffer} :
    (buffer.leave side).users = update buffer.users side (buffer.users side - 1) := by
  funext other
  cases side <;> cases other <;> rfl

theorem PipesInv.closeEnd (inv : PipesInv pipes counts) (user : 0 < counts (.pipeEnd pipe side)) :
    PipesInv (pipeNodeClose pipes pipe side)
      (update counts (.pipeEnd pipe side) (counts (.pipeEnd pipe side) - 1)) := by
  obtain ⟨bound, buffer, inUse⟩ := inv.inUse
    (show 0 < (view pipes counts pipe).held side from Nat.lt_of_lt_of_le user (Nat.le_add_right _ _))
  have present : pipes.buffers pipe = some buffer := inUse.present
  -- one user of this end fewer, nothing else is different
  have heldHere : (view pipes (update counts (.pipeEnd pipe side) (counts (.pipeEnd pipe side) - 1)) pipe).held =
      (buffer.leave side).users := by
    rw [leave_users, inUse.users]
    funext other
    by_cases here : other = side
    · subst here
      simp only [view, update_self]
      omega
    have different : FileNode.pipeEnd pipe other ≠ .pipeEnd pipe side := by
      intro equal
      cases equal
      exact here rfl
    simp only [view, update_of_ne different, update_of_ne here]
  have heldElsewhere : ∀ other otherSide, other ≠ pipe → FileNode.pipeEnd other otherSide ≠ .pipeEnd pipe side := by
    intro other otherSide different equal
    cases equal
    exact different rfl
  unfold pipeNodeClose
  simp only [present]
  split
  next last =>
    refine inv.change pipe bound rfl ?_ (Or.inr ⟨?_, ?_, ?_, ?_⟩)
    · intro other different
      simp only [view, update_of_ne different, update_of_ne (heldElsewhere other _ different),
        List.count_cons_of_ne (Ne.symm different)]
    · exact update_self _ _ _
    · intro other
      refine (congrFun heldHere other).trans ?_
      cases other
      · exact last.1
      · exact last.2
    · have before : pipes.history.released.count pipe = 0 := inUse.unreleased
      simp only [view, List.count_cons_self, before]
    · exact ⟨_, inUse.queue⟩
  next needed =>
    refine inv.change pipe bound rfl ?_ (Or.inl ⟨buffer.leave side, ?_⟩)
    · intro other different
      simp only [view, update_of_ne different, update_of_ne (heldElsewhere other _ different)]
    refine ⟨update_self _ _ _, heldHere.symm, ?_, inUse.unreleased, ?_, ?_⟩
    · refine Nat.lt_of_lt_of_eq ?_ (congrArg (fun held => held Side.read + held Side.write) heldHere).symm
      change 0 < (buffer.leave side).readers + (buffer.leave side).writers
      omega
    · cases side <;> exact inUse.wellFormed
    · cases side <;> exact inUse.queue

theorem PipesInv.close (inv : PipesInv pipes counts) (node : FileNode) (user : 0 < counts node) :
    PipesInv (pipeOps.close pipes node) (update counts node (counts node - 1)) := by
  cases node with
  | pipeEnd pipe side => exact inv.closeEnd user
  | other id => exact inv.congr rfl rfl

theorem pipeNodeClose_unattached :
    (pipeNodeClose pipes pipe side).unattached = pipes.unattached := by
  unfold pipeNodeClose
  split
  · rfl
  · split <;> rfl

theorem close_unattached {node : FileNode} : (pipeOps.close pipes node).unattached = pipes.unattached := by
  cases node with
  | pipeEnd pipe side => exact pipeNodeClose_unattached
  | other id => rfl

/-! A pipe with an end that never got its description has no descriptions at all, apart from the pipe
that is just being made. -/

structure SettledExcept (current : Option Nat) (pipes : Pipes) (counts : FileNode → Nat) : Prop where
  inv : PipesInv pipes counts
  ends : ∀ id, .other id ∉ pipes.unattached
  abandoned : ∀ pipe side, some pipe ≠ current → .pipeEnd pipe side ∈ pipes.unattached →
    ∀ any, counts (.pipeEnd pipe any) = 0

abbrev Settled := SettledExcept none

def ReadyFor (current : Option Nat) (pipes : Pipes) (node : FileNode) : Prop :=
  ∀ pipe side, node = .pipeEnd pipe side → some pipe = current ∧ node ∈ pipes.unattached

theorem lifetime_settled (current : Option Nat) : Lifetime pipeOps (ReadyFor current) (SettledExcept current) := by
  constructor
  · intro pipes counts node settled ready
    refine ⟨settled.inv.ref node fun pipe side eq => (ready pipe side eq).2,
      fun id member => settled.ends id (Finset.mem_of_mem_erase member), ?_⟩
    intro pipe side other member any
    have different : FileNode.pipeEnd pipe any ≠ node := fun same => other (ready pipe any same.symm).1
    rw [update_of_ne different]
    exact settled.abandoned pipe side other (Finset.mem_of_mem_erase member) any
  · intro pipes counts node settled user
    refine ⟨settled.inv.close node user, fun id => by rw [close_unattached]; exact settled.ends id, ?_⟩
    intro pipe side other member any
    rw [close_unattached] at member
    have zero := settled.abandoned pipe side other member any
    by_cases same : FileNode.pipeEnd pipe any = node
    · rw [same] at zero
      omega
    · rw [update_of_ne same]
      exact zero

theorem PipesInv.makePipe (inv : PipesInv pipes counts) :
    PipesInv (makePipe pipes) counts := by
  have others : ∀ pipe, pipe ≠ pipes.next → view (Pipe.makePipe pipes) counts pipe = view pipes counts pipe := by
    intro pipe different
    have outside : ∀ side, (FileNode.pipeEnd pipe side ∈ (Pipe.makePipe pipes).unattached ↔
        FileNode.pipeEnd pipe side ∈ pipes.unattached) := by
      intro side
      simp [Pipe.makePipe, different]
    simp only [view, outside]
    simp [Pipe.makePipe, update_of_ne different]
  have fresh := inv.unmade pipes.next (Nat.le_refl _)
  constructor
  · intro pipe bound
    by_cases here : pipe = pipes.next
    · subst here
      have alone : ∀ side, counts (.pipeEnd pipes.next side) = 0 :=
        fun side => Nat.eq_zero_of_add_eq_zero_right (fresh.unheld side)
      have heldHere : (view (Pipe.makePipe pipes) counts pipes.next).held = fun _ => 1 := by
        funext side
        cases side <;> simp [view, Pipe.makePipe, alone]
      refine Or.inl ⟨emptyBuffer, update_self _ _ _, ?_, ?_, fresh.unreleased, ?_, ?_⟩
      · rw [heldHere]
        funext side
        cases side <;> rfl
      · rw [heldHere]
        decide
      · exact ⟨by decide, by decide, by decide⟩
      · obtain ⟨returned, accepted⟩ := fresh.fresh
        change pipes.history.returned pipes.next ++ [] = pipes.history.accepted pipes.next
        rw [List.append_nil]
        exact returned.trans accepted.symm
    · rw [others pipe here]
      change pipe < pipes.next + 1 at bound
      exact inv.made pipe (by omega)
  · intro pipe bound
    change pipes.next + 1 ≤ pipe at bound
    rw [others pipe (by omega)]
    exact inv.unmade pipe (by omega)

/-! `sys_pipe`. -/

theorem alloc_unattached (counted : Counted kernel.files) (task : Nat) (node : FileNode) (allocated : Bool) :
    (taskAllocFd pipeOps kernel task node allocated).1.world.unattached =
      if allocated then kernel.world.unattached.erase node else kernel.world.unattached := by
  cases allocated with
  | false => rfl
  | true =>
    rcases taskAllocFd_cases counted task node with ⟨fd, _, outcome⟩ | ⟨_, outcome⟩
    · rw [outcome]
      rfl
    · rw [outcome]
      exact close_unattached

theorem sysClose_unattached {fd : Nat} :
    (sysClose pipeOps kernel task fd).world.unattached = kernel.world.unattached := by
  unfold sysClose
  split
  · rfl
  unfold fileDescriptionUnref
  split
  · rfl
  · split
    · exact close_unattached
    · rfl

theorem closeObtained_unattached (kernel : PipeKernel) (task : Nat) (fd : Option Nat) :
    (closeObtained kernel task fd).world.unattached = kernel.world.unattached := by
  cases fd with
  | none => rfl
  | some fd => exact sysClose_unattached

theorem closeObtained_consistent {current : Option Nat} (consistent : Consistent (SettledExcept current) kernel)
    {fd : Option Nat} :
    Consistent (SettledExcept current) (closeObtained kernel task fd) := by
  cases fd with
  | none => exact consistent
  | some fd => exact consistent.close (lifetime_settled current) task fd

theorem closeObtained_alloc (counted : Counted kernel.files) (taskBound : task < maxTasks) (node : FileNode) :
    closeObtained (taskAllocFd pipeOps kernel task node true).1 task (taskAllocFd pipeOps kernel task node true).2 =
      kernel.discarded pipeOps node := by
  rcases taskAllocFd_cases counted task node with ⟨fd, found, outcome⟩ | ⟨_, outcome⟩
  · rw [outcome]
    exact sysClose_attached counted found taskBound
  · rw [outcome]
    rfl

def pipeAllocated (kernel : PipeKernel) (task : Nat) (memory : PipeMemory) : PipeKernel × Option Nat × Option Nat :=
  let first := taskAllocFd pipeOps { kernel with world := makePipe kernel.world } task (.pipeEnd kernel.world.next .read)
    memory.readDescription
  let second := taskAllocFd pipeOps first.1 task (.pipeEnd kernel.world.next .write) memory.writeDescription
  (second.1, first.2, second.2)

theorem sysPipe_cases (kernel : PipeKernel) (task : Nat) (memory : PipeMemory) (made : memory.objects = true) :
    (∃ readFd writeFd, (pipeAllocated kernel task memory).2 = (some readFd, some writeFd) ∧
      (sysPipe kernel task memory).1 = (pipeAllocated kernel task memory).1) ∨
    (sysPipe kernel task memory).1 = closeObtained (closeObtained (pipeAllocated kernel task memory).1 task
      (pipeAllocated kernel task memory).2.1) task (pipeAllocated kernel task memory).2.2 := by
  unfold sysPipe
  simp only [made, Bool.not_true, Bool.false_eq_true, if_false]
  split
  next readFd writeFd first second => exact Or.inl ⟨readFd, writeFd, Prod.ext first second, rfl⟩
  next => exact Or.inr rfl

section

variable {kernel : PipeKernel} (consistent : Consistent Settled kernel)

include consistent

theorem made_consistent : Consistent (SettledExcept (some kernel.world.next))
    { kernel with world := makePipe kernel.world } := by
  refine ⟨consistent.counted, consistent.world.inv.makePipe, ?_, ?_⟩
  · intro id
    simpa [makePipe] using consistent.world.ends id
  intro pipe side different member any
  refine consistent.world.abandoned pipe side (by simp) ?_ any
  have other : pipe ≠ kernel.world.next := fun same => different (congrArg some same)
  simpa [makePipe, other] using member

variable {task : Nat} {memory : PipeMemory}

variable (taskBound : task < maxTasks)
include taskBound

theorem pipeAllocated_consistent (memory : PipeMemory) :
    Consistent (SettledExcept (some kernel.world.next)) (pipeAllocated kernel task memory).1 := by
  have made := made_consistent consistent
  have first := made.alloc (lifetime_settled _) taskBound (.pipeEnd kernel.world.next .read)
    (by rintro pipe side ⟨⟩; exact ⟨rfl, by simp [makePipe]⟩) memory.readDescription
  apply first.alloc (lifetime_settled _) taskBound
  rintro pipe side ⟨⟩
  rw [alloc_unattached made.counted]
  split <;> simp [makePipe]

theorem sysPipe_unattached (made : memory.objects = true) (node : FileNode) :
    node ∈ (sysPipe kernel task memory).1.world.unattached ↔
      (node = .pipeEnd kernel.world.next .read ∧ memory.readDescription = false) ∨
      (node = .pipeEnd kernel.world.next .write ∧ memory.writeDescription = false) ∨ node ∈ kernel.world.unattached := by
  have allocated : (sysPipe kernel task memory).1.world.unattached =
      (pipeAllocated kernel task memory).1.world.unattached := by
    rcases sysPipe_cases kernel task memory made with ⟨_, _, _, outcome⟩ | outcome
    · rw [outcome]
    · rw [outcome, closeObtained_unattached, closeObtained_unattached]
  have created := made_consistent consistent
  have first := created.alloc (lifetime_settled _) taskBound (.pipeEnd kernel.world.next .read)
    (by rintro pipe side ⟨⟩; exact ⟨rfl, by simp [makePipe]⟩) memory.readDescription
  have fresh : ∀ side, .pipeEnd kernel.world.next side ∉ kernel.world.unattached := by
    intro side member
    have unheld := (consistent.world.inv.unmade _ (Nat.le_refl _)).unheld side
    simp [view, member] at unheld
  rw [allocated]
  simp only [pipeAllocated, alloc_unattached first.counted, alloc_unattached created.counted]
  by_cases isRead : node = .pipeEnd kernel.world.next .read
  · subst isRead
    cases memory.readDescription <;> cases memory.writeDescription <;> simp [makePipe, fresh]
  · by_cases isWrite : node = .pipeEnd kernel.world.next .write
    · subst isWrite
      cases memory.readDescription <;> cases memory.writeDescription <;> simp [makePipe, fresh]
    · cases memory.readDescription <;> cases memory.writeDescription <;> simp [makePipe, isRead, isWrite]

theorem sysPipe_opened_failed (made : memory.objects = true)
    (failed : ¬(memory.readDescription = true ∧ memory.writeDescription = true)) :
    opened (sysPipe kernel task memory).1.files = opened kernel.files := by
  have discards := fun node => closeObtained_alloc (made_consistent consistent).counted taskBound node
  -- one description was made, and it is closed before the call returns
  have single : ∀ side, memory.readDescription = decide (side = .read) → memory.writeDescription = decide (side = .write) →
      (sysPipe kernel task memory).1 =
        Kernel.discarded pipeOps { kernel with world := makePipe kernel.world } (.pipeEnd kernel.world.next side) := by
    intro side readOk writeOk
    rcases memory with ⟨objects, readDescription, writeDescription⟩
    subst made readOk writeOk
    rw [← discards]
    rcases sysPipe_cases kernel task ⟨true, decide (side = .read), decide (side = .write)⟩ rfl with
      ⟨_, _, both, _⟩ | closed
    · cases side
      · cases congrArg Prod.snd both
      · cases congrArg Prod.fst both
    · cases side <;> exact closed
  cases readOk : memory.readDescription with
  | false =>
    cases writeOk : memory.writeDescription with
    | false =>
      rcases memory with ⟨objects, readDescription, writeDescription⟩
      subst made readOk writeOk
      rfl
    | true =>
      rw [single .write readOk writeOk]
      exact opened_skip consistent.counted
  | true =>
    cases writeOk : memory.writeDescription with
    | false =>
      rw [single .read readOk writeOk]
      exact opened_skip consistent.counted
    | true => exact absurd ⟨readOk, writeOk⟩ failed

theorem settled_sysPipe : Consistent Settled (sysPipe kernel task memory).1 := by
  cases made : memory.objects with
  | false =>
    unfold sysPipe
    simp only [made, Bool.not_false, if_true]
    exact consistent
  | true =>
    have after : Consistent (SettledExcept (some kernel.world.next)) (sysPipe kernel task memory).1 := by
      have allocated := pipeAllocated_consistent consistent taskBound memory
      rcases sysPipe_cases kernel task memory made with ⟨_, _, _, outcome⟩ | outcome
      · rw [outcome]
        exact allocated
      · rw [outcome]
        exact closeObtained_consistent (closeObtained_consistent allocated)
    refine ⟨after.counted, after.world.inv, after.world.ends, ?_⟩
    intro pipe side _ member any
    by_cases current : pipe = kernel.world.next
    · subst current
      have failed : ¬(memory.readDescription = true ∧ memory.writeDescription = true) := by
        rintro ⟨read, write⟩
        rcases (sysPipe_unattached consistent taskBound made _).mp member with ⟨_, missing⟩ | ⟨_, missing⟩ | before
        · exact Bool.noConfusion (missing.symm.trans read)
        · exact Bool.noConfusion (missing.symm.trans write)
        · have unheld := (consistent.world.inv.unmade _ (Nat.le_refl _)).unheld side
          simp [view, before] at unheld
      rw [sysPipe_opened_failed consistent taskBound made failed]
      exact Nat.eq_zero_of_add_eq_zero_right ((consistent.world.inv.unmade _ (Nat.le_refl _)).unheld any)
    · exact after.world.abandoned pipe side (fun same => current (Option.some.inj same)) member any

end

end PhotonOS.Pipe
