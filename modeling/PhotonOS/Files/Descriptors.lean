import Mathlib.Data.Finset.Prod
import PhotonOS.Lib.SharedRefs
import PhotonOS.Lib.Transition

/-!
File descriptors and the file descriptions they share. What a node is, and what
happens to it when its first and last descriptions come and go, is a parameter,
so pipes and the nodes of the file system use the same functions.
-/

namespace PhotonOS.Files

open SharedRefs
open Function

def maxTasks : Nat := 16
def taskMaxFds : Nat := 32

theorem maxTasks_pos : 0 < maxTasks := by decide

structure FileDescription (Node : Type) where
  node : Node
  refCount : Nat

/-- `fds (task, fd)` is `tasks[task].file_descriptors[fd]`. Descriptions have numbers for addresses;
`next` has not been given out yet. -/
structure Files (Node : Type) where
  fds : Nat × Nat → Option Nat
  descriptions : Nat → Option (FileDescription Node)
  next : Nat

structure Kernel (Node World : Type) where
  files : Files Node
  world : World

/-- `vfs_node_ref`, and `node->close` followed by `vfs_node_unref`. -/
structure NodeOps (Node World : Type) where
  ref : World → Node → World
  close : World → Node → World

variable {Node World : Type} (ops : NodeOps Node World)

def fileDescriptionUnref (kernel : Kernel Node World) (id : Nat) : Kernel Node World :=
  match kernel.files.descriptions id with
  | none => kernel
  | some description =>
    if description.refCount - 1 = 0 then
      { files := { kernel.files with descriptions := update kernel.files.descriptions id none }
        world := ops.close kernel.world description.node }
    else
      { kernel with files := { kernel.files with
          descriptions := update kernel.files.descriptions id
            (some { description with refCount := description.refCount - 1 }) } }

def fdAt (files : Files Node) (task fd : Nat) : Option Nat := if fd < taskMaxFds then files.fds (task, fd) else none

def freeFd (files : Files Node) (task start : Nat) : Option Nat :=
  (List.range' start (taskMaxFds - start)).find? fun fd => (files.fds (task, fd)).isNone

/-- `task_alloc_fd`; `allocated` is the outcome of the `kmalloc` in `file_description_alloc`. -/
def taskAllocFd (kernel : Kernel Node World) (task : Nat) (node : Node) (allocated : Bool) :
    Kernel Node World × Option Nat :=
  if !allocated then (kernel, none)
  else
    let id := kernel.files.next
    let files := { kernel.files with
      descriptions := update kernel.files.descriptions id (some { node := node, refCount := 1 })
      next := id + 1 }
    let world := ops.ref kernel.world node
    match freeFd files task 3 with
    | some fd => ({ files := { files with fds := update files.fds (task, fd) (some id) }, world := world }, some fd)
    | none => (fileDescriptionUnref ops { files := files, world := world } id, none)

def sysClose (kernel : Kernel Node World) (task fd : Nat) : Kernel Node World :=
  match fdAt kernel.files task fd with
  | none => kernel
  | some id =>
    fileDescriptionUnref ops
      { kernel with files := { kernel.files with fds := update kernel.files.fds (task, fd) none } } id

def shareFd (files : Files Node) (task fd id : Nat) : Files Node :=
  { files with
    fds := update files.fds (task, fd) (some id)
    descriptions := update files.descriptions id
      ((files.descriptions id).map fun description => { description with refCount := description.refCount + 1 }) }

/-- `sys_dup` with `start = 0` and the `F_DUPFD` case of `sys_fcntl`. -/
def dupFrom (kernel : Kernel Node World) (task oldFd start : Nat) : Kernel Node World × Option Nat :=
  match fdAt kernel.files task oldFd with
  | none => (kernel, none)
  | some id =>
    match freeFd kernel.files task start with
    | none => (kernel, none)
    | some fd => ({ kernel with files := shareFd kernel.files task fd id }, some fd)

def sysDup (kernel : Kernel Node World) (task oldFd : Nat) : Kernel Node World × Option Nat := dupFrom kernel task oldFd 0

def sysDup2 (kernel : Kernel Node World) (task oldFd newFd : Nat) : Kernel Node World × Option Nat :=
  match fdAt kernel.files task oldFd with
  | none => (kernel, none)
  | some id =>
    if newFd ≥ taskMaxFds then (kernel, none)
    else if oldFd = newFd then (kernel, some newFd)
    else
      let kernel := sysClose ops kernel task newFd
      ({ kernel with files := shareFd kernel.files task newFd id }, some newFd)

def inheritFds (files : Files Node) (parent child : Nat) : Files Node :=
  (List.range taskMaxFds).foldl (fun files fd =>
    match files.fds (parent, fd) with
    | none => files
    | some id => shareFd files child fd id) files

def taskCloseAllFds (kernel : Kernel Node World) (task : Nat) : Kernel Node World :=
  (List.range taskMaxFds).foldl (fun kernel fd => sysClose ops kernel task fd) kernel

/-! Reference counts. -/

def domain : Finset (Nat × Nat) := Finset.range maxTasks ×ˢ Finset.range taskMaxFds

structure Counted (files : Files Node) : Prop where
  inside : ∀ slot id, files.fds slot = some id → slot ∈ domain
  live : ∀ slot id, files.fds slot = some id → ∃ description, files.descriptions id = some description
  counted : ∀ id description, files.descriptions id = some description →
    description.refCount = references domain files.fds id ∧ 0 < description.refCount
  bounded : ∀ id description, files.descriptions id = some description → id < files.next

variable {files : Files Node} {task fd id : Nat} {slot : Nat × Nat} {kernel : Kernel Node World}
    {description : FileDescription Node}

theorem fdAt_spec (found : fdAt files task fd = some id) : files.fds (task, fd) = some id := by
  unfold fdAt at found
  split at found
  · exact found
  · cases found

theorem freeFd_spec {start : Nat} (found : freeFd files task start = some fd) (taskBound : task < maxTasks) :
    (task, fd) ∈ domain ∧ files.fds (task, fd) = none := by
  have free := List.find?_some found
  have member := List.mem_range'_1.mp (List.mem_of_find?_eq_some found)
  refine ⟨?_, Option.isNone_iff_eq_none.mp free⟩
  rw [domain, Finset.mem_product]
  refine ⟨Finset.mem_range.mpr taskBound, Finset.mem_range.mpr ?_⟩
  omega

theorem Counted.row_empty (counted : Counted files)
    (empty : ((List.range taskMaxFds).all fun fd => (files.fds (task, fd)).isNone) = true) (fd : Nat) :
    files.fds (task, fd) = none := by
  by_cases bound : fd < taskMaxFds
  · exact Option.isNone_iff_eq_none.mp (List.all_eq_true.mp empty fd (List.mem_range.mpr bound))
  cases found : files.fds (task, fd) with
  | none => rfl
  | some id =>
    have inside := counted.inside _ id found
    rw [domain, Finset.mem_product] at inside
    exact absurd (Finset.mem_range.mp inside.2) bound

def Files.nodeOf (files : Files Node) (id : Nat) : Option Node := (files.descriptions id).map FileDescription.node

variable [DecidableEq Node]

def opened (files : Files Node) : Node → Nat := references (Finset.range files.next) files.nodeOf

structure Lifetime (Ready : World → Node → Prop) (Inv : World → (Node → Nat) → Prop) : Prop where
  ref : ∀ world counts node, Inv world counts → Ready world node →
    Inv (ops.ref world node) (update counts node (counts node + 1))
  close : ∀ world counts node, Inv world counts → 0 < counts node →
    Inv (ops.close world node) (update counts node (counts node - 1))

structure Consistent (Inv : World → (Node → Nat) → Prop) (kernel : Kernel Node World) : Prop where
  counted : Counted kernel.files
  world : Inv kernel.world (opened kernel.files)

theorem opened_eq_of_nodes {before after : Files Node} (next : after.next = before.next)
    (nodes : ∀ id, after.nodeOf id = before.nodeOf id) : opened after = opened before := by
  unfold opened
  rw [next, funext nodes]

omit [DecidableEq Node] in
theorem Counted.share (counted : Counted files) (inside : (task, fd) ∈ domain)
    (free : files.fds (task, fd) = none) (held : files.fds slot = some id) : Counted (shareFd files task fd id) := by
  obtain ⟨shared, sharedAt⟩ := counted.live slot id held
  refine ⟨?_, ?_, ?_, ?_⟩
  · intro position other present
    simp only [shareFd] at present
    by_cases here : position = (task, fd)
    · rw [here]
      exact inside
    · rw [update_of_ne here] at present
      exact counted.inside position other present
  · intro position other present
    simp only [shareFd] at present ⊢
    by_cases same : other = id
    · subst same
      exact ⟨_, by rw [update_self, sharedAt]; rfl⟩
    rw [update_of_ne same]
    by_cases here : position = (task, fd)
    · subst here
      rw [update_self, Option.some.injEq] at present
      exact absurd present.symm same
    · rw [update_of_ne here] at present
      exact counted.live position other present
  · intro other description present
    simp only [shareFd] at present ⊢
    rw [references_set inside free]
    by_cases same : other = id
    · subst same
      rw [update_self, sharedAt] at present
      cases present
      obtain ⟨count, _⟩ := counted.counted other shared sharedAt
      rw [if_pos rfl]
      exact ⟨congrArg (· + 1) count, Nat.succ_pos _⟩
    · rw [update_of_ne same] at present
      rw [if_neg (Ne.symm same), Nat.add_zero]
      exact counted.counted other description present
  · intro other description present
    simp only [shareFd] at present ⊢
    by_cases same : other = id
    · subst same
      exact counted.bounded other shared sharedAt
    · rw [update_of_ne same] at present
      exact counted.bounded other description present

theorem opened_share : opened (shareFd files task fd id) = opened files := by
  apply opened_eq_of_nodes
  · rfl
  intro other
  simp only [Files.nodeOf, shareFd]
  by_cases same : other = id
  · subst same
    rw [update_self, Option.map_map]
    rfl
  · rw [update_of_ne same]

theorem Consistent.share {Inv : World → (Node → Nat) → Prop} (consistent : Consistent Inv kernel)
    (inside : (task, fd) ∈ domain) (free : kernel.files.fds (task, fd) = none)
    (held : kernel.files.fds slot = some id) :
    Consistent Inv { kernel with files := shareFd kernel.files task fd id } := by
  refine ⟨consistent.counted.share inside free held, ?_⟩
  rw [opened_share]
  exact consistent.world

/-! Closing a descriptor. -/

def Files.dropped (files : Files Node) (slot : Nat × Nat) (id : Nat) (description : FileDescription Node) : Files Node :=
  { files with
    fds := update files.fds slot none
    descriptions := update files.descriptions id
      (if description.refCount - 1 = 0 then none else some { description with refCount := description.refCount - 1 }) }

omit [DecidableEq Node] in
theorem Counted.drop (counted : Counted files) (held : files.fds slot = some id)
    (present : files.descriptions id = some description) : Counted (files.dropped slot id description) := by
  have inside := counted.inside slot id held
  obtain ⟨count, _⟩ := counted.counted id description present
  have cleared := fun other => references_clear inside held other
  have counted_id := cleared id
  rw [if_pos rfl] at counted_id
  -- only slots other than the closed one still hold anything
  have remains : ∀ position other, update files.fds slot none position = some other →
      position ≠ slot ∧ files.fds position = some other := by
    intro position other found
    by_cases here : position = slot
    · subst here
      rw [update_self] at found
      cases found
    · rw [update_of_ne here] at found
      exact ⟨here, found⟩
  refine ⟨?_, ?_, ?_, ?_⟩
  · intro position other found
    exact counted.inside position other (remains position other found).2
  · intro position other found
    obtain ⟨elsewhere, before⟩ := remains position other found
    simp only [Files.dropped]
    by_cases same : other = id
    · subst same
      have another : 0 < references domain (update files.fds slot none) other :=
        references_pos (counted.inside position other before) found
      exact ⟨_, by rw [update_self, if_neg (by omega)]⟩
    · rw [update_of_ne same]
      exact counted.live position other before
  · intro other kept found
    simp only [Files.dropped] at found ⊢
    by_cases same : other = id
    · subst same
      rw [update_self] at found
      split at found
      · cases found
      next more =>
        cases found
        refine ⟨?_, Nat.pos_of_ne_zero more⟩
        change description.refCount - 1 = _
        omega
    · rw [update_of_ne same] at found
      have kept_count := cleared other
      rw [if_neg (Ne.symm same), Nat.add_zero] at kept_count
      rw [← kept_count]
      exact counted.counted other kept found
  · intro other kept found
    simp only [Files.dropped] at found ⊢
    by_cases same : other = id
    · subst same
      exact counted.bounded other description present
    · rw [update_of_ne same] at found
      exact counted.bounded other kept found

theorem opened_drop (counted : Counted files) (slot : Nat × Nat)
    (present : files.descriptions id = some description) : opened (files.dropped slot id description) =
      if description.refCount - 1 = 0 then
        update (opened files) description.node (opened files description.node - 1)
      else opened files := by
  split
  next last =>
    have nodes : (files.dropped slot id description).nodeOf = update files.nodeOf id none := by
      funext other
      simp only [Files.nodeOf, Files.dropped, if_pos last]
      by_cases same : other = id
      · subst same
        simp
      · rw [update_of_ne same, update_of_ne same, Files.nodeOf]
    have held : files.nodeOf id = some description.node := by rw [Files.nodeOf, present]; rfl
    have cleared := fun node => references_clear (Finset.mem_range.mpr (counted.bounded id description present)) held node
    funext node
    simp only [opened, nodes]
    change references (Finset.range files.next) _ node = _
    by_cases same : node = description.node
    · subst same
      have one := cleared description.node
      rw [if_pos rfl] at one
      rw [update_self]
      omega
    · have none := cleared node
      rw [if_neg (Ne.symm same), Nat.add_zero] at none
      rw [update_of_ne same]
      exact none.symm
  next more =>
    apply opened_eq_of_nodes
    · rfl
    intro other
    simp only [Files.nodeOf, Files.dropped, if_neg more]
    by_cases same : other = id
    · subst same
      rw [update_self, present]
      rfl
    · rw [update_of_ne same]

theorem opened_pos (counted : Counted files) (present : files.descriptions id = some description) :
    0 < opened files description.node := by
  apply references_pos (Finset.mem_range.mpr (counted.bounded id description present))
  rw [Files.nodeOf, present]
  rfl

variable {ops} {Ready : World → Node → Prop} {Inv : World → (Node → Nat) → Prop} {node : Node}

def closesNode (files : Files Node) (task fd : Nat) : Option Node :=
  (fdAt files task fd).bind fun id => (files.descriptions id).bind fun description =>
    if description.refCount - 1 = 0 then some description.node else none

omit [DecidableEq Node] in
theorem Counted.last_iff (counted : Counted files) (held : files.fds slot = some id)
    (present : files.descriptions id = some description) :
    description.refCount - 1 = 0 ↔ ∀ position, files.fds position = some id → position = slot := by
  obtain ⟨count, _⟩ := counted.counted id description present
  have single : description.refCount - 1 = 0 ↔ references domain files.fds id ≤ 1 := by omega
  rw [single, references_le_one_iff]
  constructor
  · intro unique position also
    exact unique position (counted.inside _ _ also) slot (counted.inside _ _ held) also held
  · intro only first _ second _ firstHeld secondHeld
    rw [only first firstHeld, only second secondHeld]

theorem sysClose_cases (counted : Counted kernel.files) :
    (closesNode kernel.files task fd = none ∧ ∃ files, Counted files ∧ opened files = opened kernel.files ∧
      sysClose ops kernel task fd = { files := files, world := kernel.world }) ∨
    (∃ node files, closesNode kernel.files task fd = some node ∧ 0 < opened kernel.files node ∧ Counted files ∧
      opened files = update (opened kernel.files) node (opened kernel.files node - 1) ∧
      sysClose ops kernel task fd = { files := files, world := ops.close kernel.world node }) := by
  unfold sysClose closesNode
  cases found : fdAt kernel.files task fd with
  | none => exact Or.inl ⟨rfl, kernel.files, counted, rfl, rfl⟩
  | some id =>
    have held := fdAt_spec found
    obtain ⟨description, present⟩ := counted.live _ id held
    have dropped := counted.drop held present
    have openedAfter := opened_drop counted (task, fd) present
    unfold fileDescriptionUnref
    simp only [present, Option.bind_some]
    by_cases last : description.refCount - 1 = 0
    · rw [if_pos last, if_pos last]
      simp only [Files.dropped, if_pos last] at dropped openedAfter
      exact Or.inr ⟨description.node, _, rfl, opened_pos counted present, dropped, openedAfter, rfl⟩
    · rw [if_neg last, if_neg last]
      simp only [Files.dropped, if_neg last] at dropped openedAfter
      exact Or.inl ⟨rfl, _, dropped, openedAfter, rfl⟩

theorem Consistent.close (lifetime : Lifetime ops Ready Inv) (consistent : Consistent Inv kernel)
    (task fd : Nat) : Consistent Inv (sysClose ops kernel task fd) := by
  rcases sysClose_cases consistent.counted with ⟨_, files, counted, same, result⟩ |
      ⟨node, files, _, positive, counted, fewer, result⟩
  · rw [result]
    refine ⟨counted, ?_⟩
    rw [same]
    exact consistent.world
  · rw [result]
    refine ⟨counted, ?_⟩
    rw [fewer]
    exact lifetime.close _ _ _ consistent.world positive

theorem Consistent.closeAll (lifetime : Lifetime ops Ready Inv) (consistent : Consistent Inv kernel) :
    Consistent Inv (taskCloseAllFds ops kernel task) := by
  exact Transition.run_invariant (fun kernel fd => sysClose ops kernel task fd) (Consistent Inv)
    (fun kernel fd consistent => consistent.close lifetime task fd) kernel consistent (List.range taskMaxFds)

/-! Taking a descriptor. -/

theorem Consistent.dupFrom (consistent : Consistent Inv kernel) (taskBound : task < maxTasks)
    (oldFd start : Nat) : Consistent Inv (dupFrom kernel task oldFd start).1 := by
  unfold Files.dupFrom
  cases found : fdAt kernel.files task oldFd with
  | none => exact consistent
  | some id =>
    cases search : freeFd kernel.files task start with
    | none => exact consistent
    | some fd =>
      obtain ⟨inside, free⟩ := freeFd_spec search taskBound
      exact consistent.share inside free (fdAt_spec found)

omit [DecidableEq Node] in
theorem sysClose_fds_other (other : slot ≠ (task, fd)) :
    (sysClose ops kernel task fd).files.fds slot = kernel.files.fds slot := by
  unfold sysClose
  split
  · rfl
  · unfold fileDescriptionUnref
    split
    · exact update_of_ne other _ _
    · split <;> exact update_of_ne other _ _

omit [DecidableEq Node] in
theorem sysClose_fds_same (bound : fd < taskMaxFds) : (sysClose ops kernel task fd).files.fds (task, fd) = none := by
  unfold sysClose
  cases found : fdAt kernel.files task fd with
  | none =>
    rw [fdAt, if_pos bound] at found
    exact found
  | some id =>
    dsimp only
    unfold fileDescriptionUnref
    split
    · exact update_self _ _ _
    · split <;> exact update_self _ _ _

omit [DecidableEq Node] in
theorem sysClose_nodeOf (counted : Counted kernel.files) {position : Nat × Nat} (other : position ≠ (task, fd))
    (held : kernel.files.fds position = some id) :
    (sysClose ops kernel task fd).files.nodeOf id = kernel.files.nodeOf id := by
  unfold sysClose
  cases found : fdAt kernel.files task fd with
  | none => rfl
  | some closed =>
    have heldHere := fdAt_spec found
    obtain ⟨description, present⟩ := counted.live _ closed heldHere
    unfold fileDescriptionUnref
    simp only [present]
    by_cases same : id = closed
    · subst same
      have notLast : ¬ description.refCount - 1 = 0 :=
        fun last => other ((counted.last_iff heldHere present).mp last position held)
      rw [if_neg notLast]
      simp only [Files.nodeOf, update_self, present, Option.map_some]
    · split <;> simp only [Files.nodeOf, update_of_ne same]

theorem Consistent.dup2 (lifetime : Lifetime ops Ready Inv) (consistent : Consistent Inv kernel)
    (taskBound : task < maxTasks) (oldFd newFd : Nat) : Consistent Inv (sysDup2 ops kernel task oldFd newFd).1 := by
  unfold sysDup2
  cases found : fdAt kernel.files task oldFd with
  | none => exact consistent
  | some id =>
    dsimp only
    split
    · exact consistent
    next bound =>
      split
      · exact consistent
      next different =>
        have inside : (task, newFd) ∈ domain := by
          rw [domain, Finset.mem_product]
          exact ⟨Finset.mem_range.mpr taskBound, Finset.mem_range.mpr (by simpa using bound)⟩
        have closed := consistent.close lifetime task newFd
        have held : (sysClose ops kernel task newFd).files.fds (task, oldFd) = some id := by
          rw [sysClose_fds_other (by simpa using different)]
          exact fdAt_spec found
        exact closed.share inside (sysClose_fds_same (by simpa using bound)) held

theorem Consistent.inherit (consistent : Consistent Inv kernel) (parent child : Nat)
    (childBound : child < maxTasks) (empty : ∀ fd, kernel.files.fds (child, fd) = none) :
    Consistent Inv { kernel with files := inheritFds kernel.files parent child } := by
  -- the loop has not come to the descriptors from `fd` on
  have loop := Transition.foldl_range'_invariant
    (fun (files : Files Node) fd =>
      match files.fds (parent, fd) with
      | none => files
      | some id => shareFd files child fd id)
    (fun fd files => Consistent Inv { kernel with files := files } ∧ ∀ later, fd ≤ later → files.fds (child, later) = none)
    taskMaxFds 0 kernel.files ⟨consistent, fun later _ => empty later⟩ ?_
  · unfold inheritFds
    exact loop.1
  intro fd files _ bound ⟨before, rest⟩
  cases held : files.fds (parent, fd) with
  | none => exact ⟨before, fun later above => rest later (by omega)⟩
  | some id =>
    have inside : (child, fd) ∈ domain := by
      rw [domain, Finset.mem_product]
      exact ⟨Finset.mem_range.mpr childBound, Finset.mem_range.mpr (by simpa using bound)⟩
    refine ⟨before.share inside (rest fd (Nat.le_refl fd)) held, ?_⟩
    intro later above
    have other : (child, later) ≠ (child, fd) := by
      intro same
      have equal := congrArg Prod.snd same
      omega
    simp only [shareFd, update_of_ne other]
    exact rest later (by omega)

section

variable (counted : Counted files)
include counted

omit [DecidableEq Node] in
theorem Counted.next_free : files.descriptions files.next = none ∧ ∀ slot, files.fds slot ≠ some files.next := by
  have unused : files.descriptions files.next = none := by
    cases found : files.descriptions files.next with
    | none => rfl
    | some description => exact absurd (counted.bounded _ description found) (Nat.lt_irrefl _)
  refine ⟨unused, ?_⟩
  intro slot held
  obtain ⟨description, present⟩ := counted.live slot _ held
  rw [unused] at present
  cases present

omit [DecidableEq Node] in
theorem Counted.attach (node : Node) (inside : slot ∈ domain) (free : files.fds slot = none) : Counted { files with
      fds := update files.fds slot (some files.next)
      descriptions := update files.descriptions files.next (some { node := node, refCount := 1 })
      next := files.next + 1 } := by
  obtain ⟨_, unreferenced⟩ := counted.next_free
  have zero : references domain files.fds files.next = 0 := by
    rw [references, Finset.card_eq_zero, Finset.filter_eq_empty_iff]
    exact fun slot _ => unreferenced slot
  refine ⟨?_, ?_, ?_, ?_⟩
  · intro position other found
    by_cases here : position = slot
    · rw [here]
      exact inside
    · exact counted.inside position other (by simpa only [update_of_ne here] using found)
  · intro position other found
    dsimp only at found ⊢
    by_cases fresh : other = files.next
    · exact ⟨_, by rw [fresh, update_self]⟩
    rw [update_of_ne fresh]
    by_cases here : position = slot
    · rw [here, update_self, Option.some.injEq] at found
      exact absurd found.symm fresh
    · rw [update_of_ne here] at found
      exact counted.live position other found
  · intro other description found
    dsimp only at found ⊢
    rw [references_set inside free]
    by_cases fresh : other = files.next
    · rw [fresh, update_self, Option.some.injEq] at found
      rw [fresh, zero, if_pos rfl, ← found]
      exact ⟨rfl, Nat.one_pos⟩
    · rw [update_of_ne fresh] at found
      rw [if_neg (Ne.symm fresh), Nat.add_zero]
      exact counted.counted other description found
  · intro other description found
    dsimp only at found ⊢
    by_cases fresh : other = files.next
    · omega
    · rw [update_of_ne fresh] at found
      exact Nat.lt_succ_of_lt (counted.bounded other description found)

theorem opened_attach (fds : Nat × Nat → Option Nat) : opened { files with
      fds := fds
      descriptions := update files.descriptions files.next (some { node := node, refCount := 1 })
      next := files.next + 1 } = update (opened files) node (opened files node + 1) := by
  have empty : files.nodeOf files.next = none := by rw [Files.nodeOf, counted.next_free.1]; rfl
  have nodes : Files.nodeOf { files with
      fds := fds
      descriptions := update files.descriptions files.next (some { node := node, refCount := 1 })
      next := files.next + 1 } = update files.nodeOf files.next (some node) := by
    funext other
    by_cases fresh : other = files.next
    · subst fresh
      simp [Files.nodeOf]
    · simp [Files.nodeOf, update_of_ne fresh]
  funext other
  rw [opened, nodes, Finset.range_add_one, references_set (Finset.mem_insert_self _ _) empty, references_insert empty]
  by_cases same : other = node
  · subst same
    rw [if_pos rfl, update_self]
    rfl
  · rw [if_neg (Ne.symm same), update_of_ne same]
    rfl

omit [DecidableEq Node] in
theorem Counted.skip : Counted { files with next := files.next + 1 } :=
  ⟨counted.inside, counted.live, counted.counted,
    fun id description found => Nat.lt_succ_of_lt (counted.bounded id description found)⟩

theorem opened_skip : opened { files with next := files.next + 1 } = opened files := by
  have empty : files.nodeOf files.next = none := by rw [Files.nodeOf, counted.next_free.1]; rfl
  funext node
  exact (congrArg (references · files.nodeOf node) Finset.range_add_one).trans (references_insert empty node)

end

def Kernel.discarded (ops : NodeOps Node World) (kernel : Kernel Node World) (node : Node) : Kernel Node World where
  files := { kernel.files with next := kernel.files.next + 1 }
  world := ops.close (ops.ref kernel.world node) node

def Kernel.attached (ops : NodeOps Node World) (kernel : Kernel Node World) (node : Node) (task fd : Nat) :
    Kernel Node World where
  files := { kernel.files with
    fds := update kernel.files.fds (task, fd) (some kernel.files.next)
    descriptions := update kernel.files.descriptions kernel.files.next (some { node := node, refCount := 1 })
    next := kernel.files.next + 1 }
  world := ops.ref kernel.world node

omit [DecidableEq Node] in
theorem taskAllocFd_cases (counted : Counted kernel.files) (task : Nat) (node : Node) :
    (∃ fd, freeFd kernel.files task 3 = some fd ∧
      taskAllocFd ops kernel task node true = (kernel.attached ops node task fd, some fd)) ∨
    (freeFd kernel.files task 3 = none ∧
      taskAllocFd ops kernel task node true = (kernel.discarded ops node, none)) := by
  unfold taskAllocFd
  simp only [Bool.not_true, Bool.false_eq_true, if_false]
  split
  next fd found => exact Or.inl ⟨fd, found, rfl⟩
  next full =>
    refine Or.inr ⟨full, ?_⟩
    unfold fileDescriptionUnref Kernel.discarded
    simp only [update_self, Nat.sub_self, if_true, update_idem]
    rw [← counted.next_free.1, update_eq_self]

omit [DecidableEq Node] in
theorem sysClose_attached (counted : Counted kernel.files)
    (found : freeFd kernel.files task 3 = some fd) (taskBound : task < maxTasks) :
    sysClose ops (kernel.attached ops node task fd) task fd = kernel.discarded ops node := by
  obtain ⟨inside, free⟩ := freeFd_spec found taskBound
  have bound : fd < taskMaxFds := Finset.mem_range.mp (Finset.mem_product.mp inside).2
  unfold sysClose fileDescriptionUnref Kernel.discarded
  simp only [fdAt, if_pos bound, Kernel.attached, update_self, Nat.sub_self, if_true, update_idem]
  rw [← free, update_eq_self, ← counted.next_free.1, update_eq_self]

variable (lifetime : Lifetime ops Ready Inv) (consistent : Consistent Inv kernel)
include lifetime consistent

theorem Consistent.attached (node : Node) (ready : Ready kernel.world node) (inside : (task, fd) ∈ domain)
    (free : kernel.files.fds (task, fd) = none) : Consistent Inv (kernel.attached ops node task fd) := by
  refine ⟨consistent.counted.attach node inside free, ?_⟩
  unfold Kernel.attached
  rw [opened_attach consistent.counted]
  exact lifetime.ref _ _ node consistent.world ready

theorem Consistent.discarded
    (node : Node) (ready : Ready kernel.world node) : Consistent Inv (kernel.discarded ops node) := by
  refine ⟨consistent.counted.skip, ?_⟩
  have more := lifetime.ref _ _ node consistent.world ready
  have back := lifetime.close _ _ node more (by simp)
  rw [update_self, Nat.add_sub_cancel, update_idem, update_eq_self] at back
  unfold Kernel.discarded
  rw [opened_skip consistent.counted]
  exact back

theorem Consistent.alloc
    (taskBound : task < maxTasks) (node : Node) (ready : Ready kernel.world node) (allocated : Bool) :
    Consistent Inv (taskAllocFd ops kernel task node allocated).1 := by
  cases allocated with
  | false => exact consistent
  | true =>
    rcases taskAllocFd_cases consistent.counted task node with ⟨fd, found, outcome⟩ | ⟨_, outcome⟩
    · obtain ⟨inside, free⟩ := freeFd_spec found taskBound
      rw [outcome]
      exact consistent.attached lifetime node ready inside free
    · rw [outcome]
      exact consistent.discarded lifetime node ready

end PhotonOS.Files
