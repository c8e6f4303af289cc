import PhotonOS.Access.Calls

/-!
A file whose nodes deny a task to write.
-/

namespace PhotonOS.Access

open Files (Kernel NodeOps fdAt freeFd dupFrom)
open Function

section

variable {Path NodeId File Content World : Type} (task : Nat) (who : Credentials) (file : File)

def Denied (system : System Path NodeId File Content World) : Prop :=
  who.uid ≠ 0 ∧ ∀ id node, system.nodes id = some node → node.file = file →
    node.uid ≠ who.uid ∧ vfsCheckPermission node 2 who.uid who.gid = false

def Unarmed (system : System Path NodeId File Content World) : Prop :=
  ∀ fd id node, fdAt system.kernel.files task fd = some id → system.nodeOf id = some node → node.file = file →
    ¬ Writing (system.flags id)

/-- The tests that the calls leave out: writing needs a descriptor opened for writing, truncating needs write
permission, only root and the owner change modes and owners, `F_SETFL` keeps a descriptor from becoming one for writing,
and a created node is not a second node of the file. -/
def Guarded (system : System Path NodeId File Content World) : AccessCall Path NodeId File → Prop
  | .openPath _ _ created _ _ => ∀ id, created ≠ some (id, file)
  | .write fd _ _ _ | .ftruncate fd _ =>
    ∀ id node, fdAt system.kernel.files task fd = some id → system.nodeOf id = some node → node.file = file →
      Writing (system.flags id)
  | .truncate path _ =>
    ∀ node, (system.find path).bind system.nodes = some node → node.file = file →
      vfsCheckPermission node 2 who.uid who.gid = true
  | .fcntl fd (.setFl flags) =>
    ∀ id node, fdAt system.kernel.files task fd = some id → system.nodeOf id = some node → node.file = file →
      Writing flags → Writing (system.flags id)
  | .chmod path _ | .chown path _ _ =>
    ∀ node, (system.find path).bind system.nodes = some node → node.file = file → who.uid = 0 ∨ node.uid = who.uid
  | .dup _ | .fcntl _ _ => True

variable {task who file} {node : Node File} {flags : BitVec 32}

structure KeptOut (task : Nat) (who : Credentials) (file : File) (content : Content)
    (system : System Path NodeId File Content World) : Prop where
  denied : Denied who file system
  unarmed : Unarmed task file system
  content : system.contents file = content

variable {content : Content} {system : System Path NodeId File Content World} {kernel : Kernel NodeId World}

theorem KeptOut.renode {after : System Path NodeId File Content World} (kept : KeptOut task who file content system)
    (kernel : after.kernel = system.kernel) (flags : after.flags = system.flags)
    (contents : after.contents = system.contents)
    (nodes : ∀ id node, after.nodes id = some node → node.file = file → system.nodes id = some node) :
    KeptOut task who file content after := by
  refine ⟨⟨kept.denied.1, ?_⟩, ?_, contents ▸ kept.content⟩
  · intro id node present same
    exact kept.denied.2 id node (nodes id node present same) same
  intro fd id node held present same
  rw [kernel] at held
  rw [System.nodeOf, kernel] at present
  obtain ⟨description, found, nodeAt⟩ := Option.bind_eq_some_iff.mp present
  rw [flags]
  refine kept.unarmed fd id node held ?_ same
  exact Option.bind_eq_some_iff.mpr ⟨description, found, nodes _ node nodeAt same⟩

theorem KeptOut.refile (kept : KeptOut task who file content system)
    {flags : Nat → BitVec 32} {offset : Nat → BitVec 64}
    (held : ∀ fd id description node, fdAt kernel.files task fd = some id →
      kernel.files.descriptions id = some description → system.nodes description.node = some node → node.file = file →
      ¬ Writing (flags id)) :
    KeptOut task who file content { system with kernel := kernel, flags := flags, offset := offset } := by
  refine ⟨kept.denied, ?_, kept.content⟩
  intro fd id node heldAt present same
  obtain ⟨description, found, nodeAt⟩ := Option.bind_eq_some_iff.mp present
  exact held fd id description node heldAt found nodeAt same

variable [DecidableEq File]

theorem KeptOut.store (kept : KeptOut task who file content system) (different : node.file ≠ file)
    (stored : Content) (offset : Nat → BitVec 64) : KeptOut task who file content
      { system with contents := update system.contents node.file stored, offset := offset } := by
  refine ⟨kept.denied, kept.unarmed, ?_⟩
  exact (update_of_ne (Ne.symm different) _ _).trans kept.content

/-! The calls. -/

variable {fileOps : FileOps File Content}

section

variable (kept : KeptOut task who file content system)
include kept

theorem KeptOut.write (fd : Nat) (bytes : List UInt8) (mapped allocated : Bool)
    (guarded : Guarded task who file system (.write fd bytes mapped allocated)) :
    KeptOut task who file content (sysWrite fileOps task system fd bytes mapped allocated).1 := by
  unfold sysWrite
  split
  · exact kept
  rename_i id held
  split
  · exact kept
  rename_i node present
  have different : node.file ≠ file := by
    intro same
    exact kept.unarmed fd id node held present same (guarded id node held present same)
  split
  · exact kept
  split
  · exact kept
  · split
    · exact kept
    · exact kept.store different _ _

theorem KeptOut.vfsTruncate (different : node.file ≠ file) (length : Nat) :
    KeptOut task who file content (vfsTruncate fileOps system node length).1 := by
  unfold Access.vfsTruncate
  split
  · exact kept.store different _ _
  · exact kept

theorem KeptOut.ftruncate (fd length : Nat) (guarded : Guarded task who file system (.ftruncate fd length)) :
    KeptOut task who file content (sysFtruncate fileOps task system fd length).1 := by
  unfold sysFtruncate
  split
  · exact kept
  rename_i node found
  obtain ⟨id, held, present⟩ := Option.bind_eq_some_iff.mp found
  refine kept.vfsTruncate ?_ length
  intro same
  exact kept.unarmed fd id node held present same (guarded id node held present same)

theorem KeptOut.truncate (path : Path) (length : Nat)
    (guarded : Guarded task who file system (.truncate path length)) :
    KeptOut task who file content (sysTruncate fileOps system path length).1 := by
  unfold sysTruncate
  split
  · exact kept
  rename_i node found
  refine kept.vfsTruncate ?_ length
  intro same
  obtain ⟨id, _, present⟩ := Option.bind_eq_some_iff.mp found
  have refused := (kept.denied.2 id node present same).2
  rw [guarded node found same] at refused
  cases refused

omit [DecidableEq File] in
theorem KeptOut.dup (fd start : Nat) : KeptOut task who file content (dupFd task system fd start).1 := by
  unfold dupFd dupFrom
  cases held : fdAt system.kernel.files task fd with
  | none => exact kept
  | some id =>
    cases found : freeFd system.kernel.files task start with
    | none => exact kept
    | some free =>
      refine kept.refile ?_
      intro other otherId description node otherHeld present nodeAt same
      -- the new descriptor is one more for a description that the task has
      have before : ∃ earlier, fdAt system.kernel.files task earlier = some otherId := by
        unfold fdAt at otherHeld
        split at otherHeld
        next small =>
          by_cases new : (task, other) = (task, free)
          · simp only [Files.shareFd, new, update_self, Option.some.injEq] at otherHeld
            exact ⟨fd, otherHeld ▸ held⟩
          · simp only [Files.shareFd, update_of_ne new] at otherHeld
            exact ⟨other, (if_pos small).trans otherHeld⟩
        · cases otherHeld
      obtain ⟨earlier, earlierHeld⟩ := before
      have described : ∃ old, system.kernel.files.descriptions otherId = some old ∧ old.node = description.node := by
        by_cases this : otherId = id
        · subst this
          simp only [Files.shareFd, update_self, Option.map_eq_some_iff] at present
          obtain ⟨old, oldAt, rfl⟩ := present
          exact ⟨old, oldAt, rfl⟩
        · simp only [Files.shareFd, update_of_ne this] at present
          exact ⟨description, present, rfl⟩
      obtain ⟨old, oldAt, sameNode⟩ := described
      refine kept.unarmed earlier otherId node earlierHeld ?_ same
      exact Option.bind_eq_some_iff.mpr ⟨old, oldAt, sameNode ▸ nodeAt⟩

omit [DecidableEq File] in
theorem KeptOut.fcntl (fd : Nat) (command : FcntlCommand)
    (guarded : Guarded task who file system (.fcntl fd command)) :
    KeptOut task who file content (sysFcntl task system fd command).1 := by
  unfold sysFcntl
  split
  · exact kept
  rename_i id held
  cases command with
  | dupFd minFd => exact kept.dup fd minFd
  | setFl flags =>
    refine kept.refile ?_
    intro other otherId description node otherHeld present nodeAt same
    have there : system.nodeOf otherId = some node := Option.bind_eq_some_iff.mpr ⟨description, present, nodeAt⟩
    by_cases this : otherId = id
    · subst this
      rw [update_self]
      intro writing
      exact kept.unarmed fd otherId node held there same (guarded otherId node held there same writing)
    · rw [update_of_ne this]
      exact kept.unarmed other otherId node otherHeld there same
  | getFd | setFd | getFl | other => exact kept

end

section

variable [DecidableEq NodeId]

omit [DecidableEq File] in
theorem KeptOut.changeNode (kept : KeptOut task who file content system) (path : Path)
    (owned : ∀ node, (system.find path).bind system.nodes = some node → node.file = file →
      who.uid = 0 ∨ node.uid = who.uid) (change : Node File → Node File)
    (sameFile : ∀ node, (change node).file = node.file) :
    KeptOut task who file content (changeNode system path change).1 := by
  unfold Access.changeNode
  split
  · exact kept
  rename_i changed found
  refine kept.renode rfl rfl rfl ?_
  intro id node present same
  by_cases this : id = changed
  · subst this
    simp only [update_self, Option.map_eq_some_iff] at present
    obtain ⟨old, oldAt, rfl⟩ := present
    rw [sameFile] at same
    have notOwner := (kept.denied.2 id old oldAt same).1
    rcases owned old (by rw [found]; exact oldAt) same with root | owner
    · exact absurd root kept.denied.1
    · exact absurd owner notOwner
  · simp only [update_of_ne this] at present
    exact present

variable {ops : NodeOps NodeId World}

omit [DecidableEq NodeId] [DecidableEq File] in
theorem sysOpen_seen {node : NodeId} {opens : Bool} {fd id : Nat}
    {description : Files.FileDescription NodeId}
    (held : fdAt (Files.sysOpen ops kernel task node true opens).files task fd = some id)
    (present : (Files.sysOpen ops kernel task node true opens).files.descriptions id = some description) :
    id = kernel.files.next ∧ description.node = node ∨
      id ≠ kernel.files.next ∧ fdAt kernel.files task fd = some id ∧ kernel.files.descriptions id = some description := by
  have unref : fdAt (Files.fileDescriptionUnref ops (Files.fileDescriptionAlloc ops kernel node).1
        kernel.files.next).files task fd = some id →
      (Files.fileDescriptionUnref ops (Files.fileDescriptionAlloc ops kernel node).1
        kernel.files.next).files.descriptions id = some description →
      id ≠ kernel.files.next ∧ fdAt kernel.files task fd = some id ∧
        kernel.files.descriptions id = some description := by
    intro held present
    simp only [Files.fileDescriptionUnref, Files.fileDescriptionAlloc, update_self, Nat.sub_self, if_true,
      update_idem] at held present
    by_cases new : id = kernel.files.next
    · rw [new, update_self] at present
      cases present
    · rw [update_of_ne new] at present
      exact ⟨new, held, present⟩
  unfold Files.sysOpen at held present
  cases found : freeFd (Files.fileDescriptionAlloc ops kernel node).1.files task 3 with
  | none =>
    simp only [found] at held present
    exact Or.inr (unref held present)
  | some free =>
    simp only [found] at held present
    cases opens with
    | false => exact Or.inr (unref held present)
    | true =>
      simp only [Files.fileDescriptionAlloc, Bool.not_true, Bool.false_eq_true, if_false] at held present
      by_cases new : id = kernel.files.next
      · rw [new, update_self, Option.some.injEq] at present
        exact Or.inl ⟨new, present ▸ rfl⟩
      rw [update_of_ne new] at present
      refine Or.inr ⟨new, ?_, present⟩
      unfold fdAt at held ⊢
      split at held
      next small =>
        rw [if_pos small]
        by_cases here : (task, fd) = (task, free)
        · simp only [here, update_self, Option.some.injEq] at held
          exact absurd held.symm new
        · simp only [update_of_ne here] at held
          exact held
      · cases held

omit [DecidableEq NodeId] [DecidableEq File] in
theorem KeptOut.openNode (kept : KeptOut task who file content system) {id : NodeId}
    (present : system.nodes id = some node) (opened : mayOpen node flags who = true)
    (allocated opens : Bool) :
    KeptOut task who file content (openNode ops task system id flags allocated opens).1 := by
  unfold Access.openNode
  split
  · exact kept
  refine kept.refile ?_
  intro fd otherId description other held described otherAt same
  rcases sysOpen_seen held described with ⟨rfl, sameNode⟩ | ⟨different, before, descriptionAt⟩
  · rw [update_self]
    intro writing
    rw [sameNode, present, Option.some.injEq] at otherAt
    have refused := (kept.denied.2 id node present (otherAt ▸ same)).2
    simp only [mayOpen, Bool.and_eq_true] at opened
    rw [(if_pos writing).symm.trans opened.2] at refused
    cases refused
  · rw [update_of_ne different]
    exact kept.unarmed fd otherId other before (Option.bind_eq_some_iff.mpr ⟨description, descriptionAt, otherAt⟩) same

omit [DecidableEq File] in
theorem KeptOut.create [DecidableEq Path] (kept : KeptOut task who file content system) (path : Path)
    (created : Option (NodeId × File)) (other : ∀ id, created ≠ some (id, file)) :
    KeptOut task who file content (fat16VfsCreate who system path created) := by
  unfold fat16VfsCreate
  split
  · exact kept
  rename_i id new
  split
  · refine kept.renode rfl rfl rfl ?_
    intro otherId node present same
    by_cases this : otherId = id
    · subst this
      simp only [update_self, Option.some.injEq] at present
      subst present
      exact absurd (congrArg (fun entry => some (otherId, entry)) same) (other otherId)
    · simp only [update_of_ne this] at present
      exact present
  · exact kept

omit [DecidableEq File] in
theorem KeptOut.open [DecidableEq Path] (kept : KeptOut task who file content system) (path : Path) (flags : BitVec 32)
    (created : Option (NodeId × File)) (allocated opens : Bool)
    (guarded : Guarded task who file system (.openPath path flags created allocated opens)) :
    KeptOut task who file content (sysOpen ops task who system path flags created allocated opens).1 := by
  unfold sysOpen
  have found : KeptOut task who file content
      (if (system.find path).isNone ∧ flags &&& 0o100 ≠ 0 then fat16VfsCreate who system path created else system) := by
    split
    · exact kept.create path created guarded
    · exact kept
  generalize (if (system.find path).isNone ∧ flags &&& 0o100 ≠ 0 then fat16VfsCreate who system path created
    else system) = after at found
  simp only
  split
  · exact found
  split
  · exact found
  rename_i node present
  split
  next allowed => exact found.openNode present allowed.2 allocated opens
  · exact found

variable [DecidableEq Path]

theorem KeptOut.step (kept : KeptOut task who file content system) (call : AccessCall Path NodeId File)
    (guarded : Guarded task who file system call) :
    KeptOut task who file content (accessStep ops fileOps task who system call) := by
  cases call with
  | openPath path flags created allocated opens => exact kept.open path flags created allocated opens guarded
  | write fd bytes mapped allocated => exact kept.write fd bytes mapped allocated guarded
  | ftruncate fd length => exact kept.ftruncate fd length guarded
  | truncate path length => exact kept.truncate path length guarded
  | fcntl fd command => exact kept.fcntl fd command guarded
  | dup fd => exact kept.dup fd 0
  | chmod path mode => exact kept.changeNode path guarded _ fun _ => rfl
  | chown path uid gid => exact kept.changeNode path guarded _ fun _ => rfl

end

end

/-! A file of root that everyone may read, and a task of another user. -/

def plainFile : Node Unit where
  type := .file
  uid := 0
  gid := 0
  mode := 0o644
  writes := true
  file := ()

def plainSystem : System Unit Unit Unit (List UInt8) Unit where
  kernel := { files := { fds := fun _ => none, descriptions := fun _ => none, next := 0 }, world := () }
  flags := fun _ => 0
  offset := fun _ => 0
  find := fun _ => some ()
  nodes := fun _ => some plainFile
  contents := fun _ => [1, 2, 3]

def plainOps : FileOps Unit (List UInt8) where
  write _ content offset bytes :=
    (content.take offset.toNat ++ bytes ++ content.drop (offset.toNat + bytes.length), bytes.length)
  truncate _ content length := (content.take length, true)

def plainUser : Credentials where
  uid := 1000
  gid := 1000
  umask := 0o022

def unitOps : NodeOps Unit Unit where
  ref := fun _ _ => ()
  close := fun _ _ => ()

theorem plain_denied : Denied plainUser () plainSystem := by
  refine ⟨by decide, ?_⟩
  rintro id node ⟨⟩ _
  decide

theorem plain_unarmed : Unarmed 1 () plainSystem := by
  intro fd id node held
  unfold fdAt at held
  split at held
  · cases held
  · cases held

def readerCalls : List (AccessCall Unit Unit Unit) :=
  [.openPath () 0 none true true, .openPath () 1 none true true, .dup 3, .fcntl 3 (.setFl 0o4000)]

end PhotonOS.Access
