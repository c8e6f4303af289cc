import PhotonOS.Vfs.Calls

/-!
How long nodes and their data live, over every sequence of calls.
-/

namespace PhotonOS.Vfs

open Files

abbrev TaskSlot := Fin maxTasks

inductive VfsCall where
  | create (parentPath name : List Char) (kind : NodeKind) (content : Bool)
  | link (oldPath newPath : List Char)
  | unlink (path : List Char)
  | rmdir (path : List Char)
  | mount (target : List Char)
  | umount (target : List Char)
  | openPath (task : TaskSlot) (path : List Char) (allocated : Bool)
  | dup (task : TaskSlot) (oldFd start : Nat)
  | dup2 (task : TaskSlot) (oldFd newFd : Nat)
  | fork (parent child : TaskSlot)
  | close (task : TaskSlot) (fd : Nat)

def vfsStep (kernel : VfsKernel) : VfsCall → VfsKernel
  | .create parentPath name kind content => { kernel with world := makeNode kernel.world parentPath name kind content }
  | .link oldPath newPath => { kernel with world := vfsLink kernel.world oldPath newPath }
  | .unlink path => { kernel with world := vfsUnlink kernel.world path }
  | .rmdir path => { kernel with world := vfsRmdir kernel.world path }
  | .mount target => { kernel with world := vfsMount kernel.world target }
  | .umount target => { kernel with world := vfsUmount kernel.world target }
  | .openPath task path allocated => sysOpen kernel task path allocated
  | .dup task oldFd start => (dupFrom kernel task oldFd start).1
  | .dup2 task oldFd newFd => (sysDup2 nodeOps kernel task oldFd newFd).1
  | .fork parent child =>
    -- the slot of a new task has no descriptors
    if (List.range taskMaxFds).all fun fd => (kernel.files.fds (child, fd)).isNone then
      { kernel with files := inheritFds kernel.files parent child }
    else kernel
  | .close task fd => sysClose nodeOps kernel task fd

/-- What a task asks for; `exit` closes its descriptors one after the other. -/
inductive VfsRequest where
  | single (call : VfsCall)
  | exit (task : TaskSlot)

def VfsRequest.calls : VfsRequest → List VfsCall
  | .single call => [call]
  | .exit task => (List.range taskMaxFds).map (.close task)

def vfsInit : VfsKernel where
  files := { fds := fun _ => none, descriptions := fun _ => none, next := 0 }
  world :=
    { nodes := Function.update (fun _ => blankNode) vfsRoot
        { blankNode with name := ['/'], kind := .directory, nlink := 1 }
      next := 1
      nextData := 0
      mounts := []
      released := [] }

def KernelIntact (kernel : VfsKernel) : Prop := Intact kernel.world (opened kernel.files)

/-- `open` finds no descriptor and gives the node back; this is not the root of a mount that nobody has open. -/
def OpenAllowed (kernel : VfsKernel) (task : Nat) (path : List Char) : Prop :=
  ∀ id, vfsFind kernel.world path = some id → freeFd kernel.files task 3 = none →
    (kernel.world.nodes id).refCount = 0 → ∀ mount ∈ kernel.world.mounts, mount.rootNode ≠ id

def CloseAllowed (kernel : VfsKernel) (task fd : Nat) : Prop :=
  ∀ id, closesNode kernel.files task fd = some id → UnrefAllowed kernel.world (opened kernel.files) id

def Allowed (kernel : VfsKernel) : VfsCall → Prop
  | .rmdir path => RmdirAllowed kernel.world path
  | .openPath task path allocated => allocated = true → OpenAllowed kernel task path
  | .close task fd => CloseAllowed kernel task fd
  | .dup2 task oldFd newFd => fdAt kernel.files task oldFd ≠ none → oldFd ≠ newFd → CloseAllowed kernel task newFd
  | _ => True

variable {kernel : VfsKernel} {task fd : Nat}

theorem close_consistent (consistent : Consistent Sound kernel) (allowed : CloseAllowed kernel task fd) :
    Consistent Sound (sysClose nodeOps kernel task fd) := by
  rcases sysClose_cases consistent.counted with ⟨_, files, counted, same, result⟩ |
      ⟨id, files, closes, positive, counted, fewer, result⟩
  · rw [result]
    refine ⟨counted, ?_⟩
    rw [same]
    exact consistent.world
  · rw [result]
    refine ⟨counted, ?_⟩
    rw [fewer]
    exact consistent.world.vfsNodeUnref positive (allowed id closes)

theorem close_allowed (consistent : Consistent Sound kernel)
    (intact : KernelIntact (sysClose nodeOps kernel task fd)) : CloseAllowed kernel task fd := by
  intro id closes
  rcases sysClose_cases consistent.counted with ⟨none, _⟩ | ⟨node, files, ends, _, _, fewer, result⟩
  · rw [none] at closes
    cases closes
  · rw [ends, Option.some.injEq] at closes
    subst closes
    rw [KernelIntact, result, fewer] at intact
    exact consistent.world.unrefAllowed intact

/-! Opening. -/

section

variable {kernel : VfsKernel} (consistent : Consistent Sound kernel) {path : List Char} {id : Nat}
  (found : vfsFind kernel.world path = some id)

include consistent found

theorem attached_consistent (inside : (task, fd) ∈ domain) (free : kernel.files.fds (task, fd) = none) :
    Consistent Sound (kernel.attached nodeOps id task fd) := by
  refine ⟨consistent.counted.attach id inside free, ?_⟩
  unfold Kernel.attached
  rw [opened_attach consistent.counted]
  exact consistent.world.vfsNodeRef (consistent.world.find found).2.1

theorem discarded_allowed_iff : UnrefAllowed (vfsNodeRef kernel.world id)
        (Function.update (opened kernel.files) id (opened kernel.files id + 1)) id ↔
      ((kernel.world.nodes id).refCount = 0 → ∀ mount ∈ kernel.world.mounts, mount.rootNode ≠ id) := by
  have node : (vfsNodeRef kernel.world id).nodes id =
      { kernel.world.nodes id with refCount := (kernel.world.nodes id).refCount + 1 } := by
    simp only [vfsNodeRef, FileSystem.modify, Function.update_self]
  simp only [UnrefAllowed, node]
  constructor
  · rintro allowed closed mount member rfl
    obtain ⟨orphan, notRoot⟩ := consistent.world.mounts.top mount member
    exact (allowed (by omega) orphan notRoot).1 ⟨mount, member, Or.inl rfl⟩
  intro allowed last orphan notRoot
  rcases (consistent.world.find found).1.orphan consistent.world.tree consistent.world.mounts orphan with
    root | ⟨mount, member, root⟩
  · exact absurd root notRoot
  · exact absurd root (allowed (by omega) mount member)

omit found in
theorem discarded_counts : opened (kernel.discarded nodeOps id).files =
      Function.update (Function.update (opened kernel.files) id (opened kernel.files id + 1)) id
        (Function.update (opened kernel.files) id (opened kernel.files id + 1) id - 1) := by
  rw [Function.update_self, Nat.add_sub_cancel, Function.update_idem, Function.update_eq_self]
  exact opened_skip consistent.counted

theorem discarded_consistent
    (allowed : (kernel.world.nodes id).refCount = 0 → ∀ mount ∈ kernel.world.mounts, mount.rootNode ≠ id) :
    Consistent Sound (kernel.discarded nodeOps id) := by
  refine ⟨consistent.counted.skip, ?_⟩
  rw [discarded_counts consistent]
  apply (consistent.world.vfsNodeRef (consistent.world.find found).2.1).vfsNodeUnref
  · rw [Function.update_self]
    exact Nat.succ_pos _
  · exact (discarded_allowed_iff consistent found).mpr allowed

theorem discarded_allowed (intact : KernelIntact (kernel.discarded nodeOps id)) :
    (kernel.world.nodes id).refCount = 0 → ∀ mount ∈ kernel.world.mounts, mount.rootNode ≠ id := by
  rw [KernelIntact, discarded_counts consistent] at intact
  rw [← discarded_allowed_iff consistent found]
  exact (consistent.world.vfsNodeRef (consistent.world.find found).2.1).unrefAllowed intact

end

theorem open_consistent (consistent : Consistent Sound kernel) {task : TaskSlot} {path : List Char}
    {allocated : Bool} (allowed : allocated = true → OpenAllowed kernel task path) :
    Consistent Sound (sysOpen kernel task path allocated) := by
  unfold sysOpen
  cases found : vfsFind kernel.world path with
  | none => exact consistent
  | some id =>
    dsimp only
    split
    · exact consistent
    cases allocated with
    | false => exact consistent
    | true =>
      rcases taskAllocFd_cases consistent.counted task id with ⟨fd, free, outcome⟩ | ⟨full, outcome⟩
      · obtain ⟨inside, unused⟩ := freeFd_spec free task.isLt
        rw [outcome]
        exact attached_consistent consistent found inside unused
      · rw [outcome]
        exact discarded_consistent consistent found (allowed rfl id found full)

theorem open_allowed (consistent : Consistent Sound kernel) {task : TaskSlot} {path : List Char}
    (intact : KernelIntact (sysOpen kernel task path true)) : OpenAllowed kernel task path := by
  intro id found full closed mount member root
  -- the root of a mount is a directory
  have directory : (kernel.world.nodes id).kind = .directory :=
    (consistent.world.mounts.kinds id ⟨mount, member, Or.inl root⟩).1
  have result : sysOpen kernel task path true = kernel.discarded nodeOps id := by
    rcases @taskAllocFd_cases Nat FileSystem nodeOps kernel consistent.counted task id with ⟨fd, free, _⟩ | ⟨_, outcome⟩
    · rw [full] at free
      cases free
    · simp only [sysOpen, found, directory, outcome]
      rfl
  rw [result] at intact
  exact discarded_allowed consistent found intact closed mount member root

/-! `dup2`. -/

theorem dup2_cases {oldFd newFd : Nat} :
    (sysDup2 nodeOps kernel task oldFd newFd).1 = kernel ∨
      ∃ id, fdAt kernel.files task oldFd = some id ∧ newFd < taskMaxFds ∧ oldFd ≠ newFd ∧
        (sysDup2 nodeOps kernel task oldFd newFd).1 = { sysClose nodeOps kernel task newFd with
            files := shareFd (sysClose nodeOps kernel task newFd).files task newFd id } := by
  unfold sysDup2
  cases found : fdAt kernel.files task oldFd with
  | none => exact Or.inl rfl
  | some id =>
    dsimp only
    split
    · exact Or.inl rfl
    next bound =>
      split
      · exact Or.inl rfl
      next different => exact Or.inr ⟨id, rfl, by omega, different, rfl⟩

variable {oldFd newFd : Nat} {call : VfsCall}

theorem dup2_consistent (consistent : Consistent Sound kernel) {task : TaskSlot}
    (allowed : fdAt kernel.files task oldFd ≠ none → oldFd ≠ newFd → CloseAllowed kernel task newFd) :
    Consistent Sound (sysDup2 nodeOps kernel task oldFd newFd).1 := by
  rcases dup2_cases with same | ⟨id, found, bound, different, result⟩
  · rw [same]
    exact consistent
  have closed := close_consistent consistent (allowed (by simp [found]) different)
  have inside : (task.val, newFd) ∈ domain := by
    rw [domain, Finset.mem_product]
    exact ⟨Finset.mem_range.mpr task.isLt, Finset.mem_range.mpr bound⟩
  have held : (sysClose nodeOps kernel task newFd).files.fds (task, oldFd) = some id := by
    rw [sysClose_fds_other (by simpa using different)]
    exact fdAt_spec found
  rw [result]
  exact closed.share inside (sysClose_fds_same bound) held

theorem dup2_allowed (consistent : Consistent Sound kernel) {task : TaskSlot}
    (intact : KernelIntact (sysDup2 nodeOps kernel task oldFd newFd).1) :
    fdAt kernel.files task oldFd ≠ none → oldFd ≠ newFd → CloseAllowed kernel task newFd := by
  intro isOpen different
  obtain ⟨id, found⟩ := Option.ne_none_iff_exists'.mp isOpen
  by_cases bound : newFd < taskMaxFds
  · have result : (sysDup2 nodeOps kernel task oldFd newFd).1 = { sysClose nodeOps kernel task newFd with
          files := shareFd (sysClose nodeOps kernel task newFd).files task newFd id } := by
      simp only [sysDup2, found, Nat.not_le.mpr bound, different, if_false]
    rw [result, KernelIntact, opened_share] at intact
    exact close_allowed consistent intact
  · intro node closes
    simp only [closesNode, fdAt, if_neg bound, Option.bind_none] at closes
    cases closes

/-! Whole runs. -/

theorem step_consistent (allowed : Allowed kernel call) (consistent : Consistent Sound kernel) :
    Consistent Sound (vfsStep kernel call) := by
  cases call with
  | create parentPath name kind content =>
    exact ⟨consistent.counted, consistent.world.makeNode parentPath name kind content⟩
  | link oldPath newPath => exact ⟨consistent.counted, consistent.world.vfsLink oldPath newPath⟩
  | unlink path => exact ⟨consistent.counted, consistent.world.vfsUnlink path⟩
  | rmdir path => exact ⟨consistent.counted, consistent.world.vfsRmdir allowed⟩
  | mount target => exact ⟨consistent.counted, consistent.world.vfsMount target⟩
  | umount target => exact ⟨consistent.counted, consistent.world.vfsUmount target⟩
  | openPath task path allocated => exact open_consistent consistent allowed
  | dup task oldFd start => exact consistent.dupFrom task.isLt oldFd start
  | dup2 task oldFd newFd => exact dup2_consistent consistent allowed
  | fork parent child =>
    simp only [vfsStep]
    split
    next empty => exact consistent.inherit parent child child.isLt (consistent.counted.row_empty empty)
    next => exact consistent
  | close task fd => exact close_consistent consistent allowed

theorem step_allowed (consistent : Consistent Sound kernel) (intact : KernelIntact (vfsStep kernel call)) :
    Allowed kernel call := by
  cases call with
  | rmdir path => exact consistent.world.rmdirAllowed intact
  | openPath task path allocated =>
    rintro rfl
    exact open_allowed consistent intact
  | dup2 task oldFd newFd => exact dup2_allowed consistent intact
  | close task fd => exact close_allowed consistent intact
  | _ => trivial

theorem consistent_init : Consistent Sound vfsInit := by
  have root : vfsInit.world.nodes vfsRoot = { blankNode with name := ['/'], kind := .directory, nlink := 1 } := rfl
  have others : ∀ id, id ≠ vfsRoot → vfsInit.world.nodes id = blankNode :=
    fun id different => Function.update_of_ne different _ (fun _ => blankNode)
  have field : ∀ id, (vfsInit.world.nodes id).parent = none ∧ (vfsInit.world.nodes id).child = [] ∧
      (vfsInit.world.nodes id).mountedHere = none ∧ (vfsInit.world.nodes id).data = none ∧
      (vfsInit.world.nodes id).refCount = 0 := by
    intro id
    by_cases here : id = vfsRoot
    · rw [here, root]
      exact ⟨rfl, rfl, rfl, rfl, rfl⟩
    · rw [others id here]
      exact ⟨rfl, rfl, rfl, rfl, rfl⟩
  refine ⟨⟨?_, ?_, ?_, ?_⟩, ⟨?_, ?_, ?_, ?_, ?_⟩⟩
  · rintro slot id ⟨⟩
  · rintro slot id ⟨⟩
  · rintro id description ⟨⟩
  · rintro id description ⟨⟩
  · refine ⟨rfl, rfl, Nat.one_pos, ?_, ?_, ?_, ?_, ?_⟩
    · intro parent id member
      rw [(field parent).2.1] at member
      cases member
    · intro parent id above
      rw [(field id).1] at above
      cases above
    · intro parent
      rw [(field parent).2.1]
      exact List.nodup_nil
    · exact fun id _ => (field id).2.1
    · intro id beyond
      exact others id (Nat.ne_of_gt beyond)
  · refine ⟨?_, ?_, ?_, ?_, List.Pairwise.nil⟩
    · rintro mount ⟨⟩
    · rintro id ⟨mount, ⟨⟩, _⟩
    · rintro mount ⟨⟩
    · intro id top here
      rw [(field id).2.2.1] at here
      cases here
  · refine ⟨fun id _ => (field id).2.2.2.1, ?_, ?_, ?_⟩
    · intro id data present
      rw [(field id).2.2.2.1] at present
      cases present
    · exact fun id attached => absurd (field id).1 attached
    · exact fun first _ _ _ _ _ attached => absurd (field first).1 attached
  · refine ⟨?_, ?_, List.nodup_nil⟩
    · rintro id ⟨⟩
    · rintro data ⟨⟩
  · exact fun id => (field id).2.2.2.2

/-- In every run, no block is released while it is reachable and none twice, exactly when no call of it
releases the node or the data that something else still uses. -/
theorem vfs_lifetime_iff (requests : List VfsRequest) :
    Transition.Admissible vfsStep (fun kernel call => KernelIntact (vfsStep kernel call)) vfsInit
        (requests.flatMap VfsRequest.calls) ↔
      Transition.Admissible vfsStep Allowed vfsInit (requests.flatMap VfsRequest.calls) := by
  refine Transition.admissible_iff vfsStep _ Allowed (fun _ => True) (Consistent Sound) ?_ ?_ _ _ (fun _ _ => trivial)
    consistent_init
  · intro kernel call _ consistent
    constructor
    · exact step_allowed consistent
    · exact fun allowed => (step_consistent allowed consistent).world.intact
  · exact fun kernel call _ allowed consistent => step_consistent allowed consistent

def firstTask : TaskSlot := ⟨0, maxTasks_pos⟩

def linkThenClose : List VfsRequest :=
  [.single (.create ['/'] ['f'] .file true), .single (.link ['/', 'f'] ['/', 'g']),
    .single (.openPath firstTask ['/', 'f'] true), .single (.unlink ['/', 'f']), .single (.close firstTask 3)]

/-- The second link is still in the root directory, and its data was released. -/
theorem linkThenClose_dangling :
    ¬ KernelIntact (Transition.run vfsStep vfsInit (linkThenClose.flatMap VfsRequest.calls)) := by
  intro intact
  refine intact.data 2 0 (.child .root ?_) ?_ ?_ <;> decide +kernel

end PhotonOS.Vfs
