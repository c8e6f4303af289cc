import PhotonOS.Files.TaskFiles

/-!
Reference counts over runs of all tasks.
-/

namespace PhotonOS.Files

open SharedRefs Transition Sched
open Function

variable {task id : Nat}

/-! Rows of descriptors. -/

section

variable {Node World : Type} {ops : NodeOps Node World}

def OthersKept (task : Nat) (before after : Files Node) : Prop :=
  ∀ other fd, other ≠ task → after.fds (other, fd) = before.fds (other, fd)

theorem OthersKept.trans {first second third : Files Node} (left : OthersKept task first second)
    (right : OthersKept task second third) : OthersKept task first third :=
  fun other fd different => (right other fd different).trans (left other fd different)

theorem OthersKept.refl (task : Nat) (files : Files Node) : OthersKept task files files := fun _ _ _ => rfl

theorem OthersKept.set (task fd : Nat) (files : Files Node) (value : Option Nat) :
    OthersKept task files { files with fds := update files.fds (task, fd) value } := by
  intro other otherFd different
  refine update_of_ne ?_ _ _
  intro same
  exact different (congrArg Prod.fst same)

variable {kernel : Kernel Node World} {node : Node} {allocated : Bool} {oldFd : Nat}

theorem fileDescriptionUnref_fds : (fileDescriptionUnref ops kernel id).files.fds = kernel.files.fds := by
  unfold fileDescriptionUnref
  split
  · rfl
  · split
    · rfl
    · rfl

theorem sysClose_others {fd : Nat} : OthersKept task kernel.files (sysClose ops kernel task fd).files := by
  intro other otherFd different
  refine sysClose_fds_other ?_
  intro same
  exact different (congrArg Prod.fst same)

theorem taskAllocFd_others :
    OthersKept task kernel.files (taskAllocFd ops kernel task node allocated).1.files := by
  unfold taskAllocFd
  split
  · exact .refl task _
  simp only
  split
  · exact .set task _ kernel.files _
  · intro other fd _
    rw [fileDescriptionUnref_fds]

theorem sysOpen_others {opens : Bool} :
    OthersKept task kernel.files (sysOpen ops kernel task node allocated opens).files := by
  unfold sysOpen
  split
  · exact .refl task _
  simp only
  split
  · intro other fd _
    rw [fileDescriptionUnref_fds]
    rfl
  split
  · intro other fd _
    rw [fileDescriptionUnref_fds]
    rfl
  · exact .set task _ kernel.files _

theorem closeObtained_others {obtained : Option Nat} :
    OthersKept task kernel.files (obtained.elim kernel (sysClose ops kernel task)).files := by
  cases obtained with
  | none => exact .refl task _
  | some fd => exact sysClose_others

theorem sysPipe_others {readNode writeNode : Node} {readAllocated writeAllocated : Bool} :
    OthersKept task kernel.files (sysPipe ops kernel task readNode writeNode readAllocated writeAllocated).files := by
  have first : OthersKept task kernel.files (taskAllocFd ops kernel task readNode readAllocated).1.files :=
    taskAllocFd_others
  have both : OthersKept task kernel.files (taskAllocFd ops (taskAllocFd ops kernel task readNode readAllocated).1 task
      writeNode writeAllocated).1.files := first.trans taskAllocFd_others
  unfold sysPipe
  simp only
  split
  · exact (both.trans closeObtained_others).trans closeObtained_others
  · exact both

theorem dupFrom_others {start : Nat} :
    OthersKept task kernel.files (dupFrom kernel task oldFd start).1.files := by
  unfold dupFrom
  split
  · exact .refl task _
  · split
    · exact .refl task _
    · exact .set task _ kernel.files _

theorem sysDup2_others {newFd : Nat} :
    OthersKept task kernel.files (sysDup2 ops kernel task oldFd newFd).1.files := by
  unfold sysDup2
  split
  · exact .refl task _
  split
  · exact .refl task _
  · split
    · exact .refl task _
    · exact sysClose_others.trans (.set task newFd (sysClose ops kernel task newFd).files _)

theorem taskCloseAllFds_rows (kernel : Kernel Node World) (task : Nat) :
    OthersKept task kernel.files (taskCloseAllFds ops kernel task).files ∧
      ∀ fd < taskMaxFds, (taskCloseAllFds ops kernel task).files.fds (task, fd) = none := by
  have loop := foldl_range'_invariant (fun kernel fd => sysClose ops kernel task fd)
    (fun fd after => OthersKept task kernel.files after.files ∧
      ∀ earlier < fd, earlier < taskMaxFds → after.files.fds (task, earlier) = none) taskMaxFds 0 kernel
    ⟨.refl task _, fun earlier none => absurd none (by omega)⟩ ?_
  · unfold taskCloseAllFds
    exact ⟨loop.1, fun fd small => loop.2 fd (by omega) small⟩
  intro fd after _ small ⟨kept, empty⟩
  refine ⟨kept.trans sysClose_others, ?_⟩
  intro earlier below bound
  by_cases same : earlier = fd
  · rw [same]
    exact sysClose_fds_same (by omega)
  · rw [sysClose_fds_other (by simpa using same)]
    exact empty earlier (by omega) bound

theorem inheritFds_others {files : Files Node} {parent child : Nat} : OthersKept child files (inheritFds files parent child) := by
  refine run_invariant _ (OthersKept child files) ?_ files (.refl child files) (List.range taskMaxFds)
  intro before fd kept
  split
  · exact kept
  · exact kept.trans (.set child fd before _)

end

/-! The invariant. -/

section

variable {Node World : Type} [DecidableEq Node] {nodes : Nodes Node World}

def TaskFiles.inFlight (state : TaskFiles Node World) (node : Node) : Nat :=
  references (Finset.range maxTasks) (fun task => (state.closing task).map Closing.node) node +
    (state.abandoned.map Prod.snd).count node

/-- Every `vfs_node_ref` has its description, a description in flight, or its `node->close`. -/
def Balance (extra : Node → Nat) (log : NodeLog Node World) (counts : Node → Nat) : Prop :=
  ∀ node, log.refs node = counts node + extra node + log.closes node

theorem balance_lifetime {extra : Node → Nat} : Lifetime nodes.logged (fun _ _ => True) (Balance extra) := by
  constructor
  all_goals
    intro log counts node balance positive other
    have before := balance other
    simp only [Nodes.logged]
    by_cases same : other = node
    · subst same
      simp only [update_self]
      omega
    · simp only [update_of_ne same]
      exact before

def DupReady (files : Files Node) (task : Nat) (closing : Closing Node) : Prop :=
  ∀ oldFd newFd, closing.dup2 = some (oldFd, newFd) →
    (fdAt files task oldFd).isSome ∧ newFd < taskMaxFds ∧ files.fds (task, newFd) = none

structure Sound (state : TaskFiles Node World) : Prop where
  bounded : state.table.tasks.length ≤ Sched.maxTasks
  consistent : Consistent (Balance state.inFlight) state.kernel
  alive : ∀ task fd id, state.kernel.files.fds (task, fd) = some id → liveTask state.table task = true
  inside : ∀ task closing, state.closing task = some closing → liveTask state.table task = true ∧
    DupReady state.kernel.files task closing

variable {table : Table} {task fd slot : Nat} {closing : Closing Node} {state : TaskFiles Node World}

theorem live_bound (bounded : table.tasks.length ≤ Sched.maxTasks) (live : liveTask table task = true) :
    task < maxTasks := by
  obtain ⟨found, present, _⟩ := (Option.any_eq_true _ _).mp live
  have inside := (List.getElem?_eq_some_iff.mp present).1
  exact Nat.lt_of_lt_of_le inside bounded

omit [DecidableEq Node] in
theorem DupReady.congr {other : Nat} {before after : Files Node} (kept : OthersKept task before after)
    (different : other ≠ task) (ready : DupReady before other closing) : DupReady after other closing := by
  intro oldFd newFd next
  obtain ⟨held, small, free⟩ := ready oldFd newFd next
  refine ⟨?_, small, (kept other newFd different).trans free⟩
  unfold fdAt at held ⊢
  rwa [kept other oldFd different]

/-- What one task does to its own descriptors and its own call. -/
theorem Sound.change (sound : Sound state) (live : liveTask state.table task = true) {after : TaskFiles Node World}
    {value : Option (Closing Node)} (table : after.table = state.table)
    (closing : after.closing = update state.closing task value)
    (consistent : Consistent (Balance after.inFlight) after.kernel)
    (kept : OthersKept task state.kernel.files after.kernel.files)
    (ready : ∀ closing ∈ value, DupReady after.kernel.files task closing) : Sound after := by
  refine ⟨table ▸ sound.bounded, consistent, ?_, ?_⟩
  · intro other fd id held
    rw [table]
    by_cases same : other = task
    · rw [same]
      exact live
    · exact sound.alive other fd id ((kept other fd same).symm.trans held)
  · intro other found inside
    rw [table]
    rw [closing, update_apply] at inside
    split at inside
    next same => exact ⟨same ▸ live, same ▸ ready found inside⟩
    next different =>
      obtain ⟨otherLive, otherReady⟩ := sound.inside other found inside
      exact ⟨otherLive, otherReady.congr kept different⟩

theorem Sound.act (sound : Sound state) (live : liveTask state.table task = true)
    (outside : state.closing task = none) {kernel : Kernel Node (NodeLog Node World)}
    (consistent : Consistent (Balance state.inFlight) kernel)
    (kept : OthersKept task state.kernel.files kernel.files) : Sound (state.withKernel kernel) :=
  sound.change live rfl (update_eq_self task state.closing).symm consistent kept fun closing found => by
    rw [outside] at found
    cases found

/-! Calls that run without an interrupt. -/

section

variable {ops : NodeOps Node World} {Ready : World → Node → Prop} {Inv : World → (Node → Nat) → Prop}
  {kernel : Kernel Node World}

theorem Consistent.open (lifetime : Lifetime ops Ready Inv) (consistent : Consistent Inv kernel)
    (taskBound : task < maxTasks) (node : Node) (ready : Ready kernel.world node) (allocated opens : Bool) :
    Consistent Inv (sysOpen ops kernel task node allocated opens) := by
  have discarded := consistent.discarded lifetime node ready
  have unref : fileDescriptionUnref ops (fileDescriptionAlloc ops kernel node).1 kernel.files.next =
      kernel.discarded ops node := by
    unfold fileDescriptionUnref fileDescriptionAlloc Kernel.discarded
    simp only [update_self, Nat.sub_self, if_true, update_idem]
    rw [← consistent.counted.next_free.1, update_eq_self]
  unfold sysOpen
  cases allocated with
  | false => exact consistent
  | true =>
    simp only [Bool.not_true, Bool.false_eq_true, if_false]
    split
    · exact unref ▸ discarded
    rename_i fd found
    split
    · exact unref ▸ discarded
    · obtain ⟨inside, free⟩ := freeFd_spec found taskBound
      exact consistent.attached lifetime node ready inside free

theorem Consistent.closeObtained (lifetime : Lifetime ops Ready Inv) (consistent : Consistent Inv kernel) (task : Nat)
    (obtained : Option Nat) : Consistent Inv (obtained.elim kernel (sysClose ops kernel task)) := by
  cases obtained with
  | none => exact consistent
  | some fd => exact consistent.close lifetime task fd

variable (lifetime : Lifetime ops (fun _ _ => True) Inv) (consistent : Consistent Inv kernel)
    (taskBound : task < maxTasks)
include lifetime consistent taskBound

theorem Consistent.pipe (readNode writeNode : Node) (readAllocated writeAllocated : Bool) :
    Consistent Inv (sysPipe ops kernel task readNode writeNode readAllocated writeAllocated) := by
  have first := consistent.alloc lifetime taskBound readNode trivial readAllocated
  have both := first.alloc lifetime taskBound writeNode trivial writeAllocated
  unfold sysPipe
  simp only
  split
  · exact (both.closeObtained lifetime task _).closeObtained lifetime task _
  · exact both

theorem Consistent.standard (empty : ∀ fd, kernel.files.fds (task, fd) = none) {console : Nat → Node}
    {allocated : Nat → Bool} : Consistent Inv (initStandardFds ops kernel task console allocated) ∧
      OthersKept task kernel.files (initStandardFds ops kernel task console allocated).files := by
  have loop := foldl_range'_invariant (standardFd ops task console allocated)
    (fun fd after => Consistent Inv after ∧ OthersKept task kernel.files after.files ∧
      ∀ later, fd ≤ later → after.files.fds (task, later) = none)
    3 0 kernel ⟨consistent, .refl task _, fun later _ => empty later⟩ ?_
  · unfold initStandardFds
    exact ⟨loop.1, loop.2.1⟩
  intro fd before _ small ⟨here, kept, rest⟩
  unfold standardFd
  split
  · have inside : (task, fd) ∈ domain := by
      rw [domain, Finset.mem_product]
      refine ⟨Finset.mem_range.mpr taskBound, Finset.mem_range.mpr ?_⟩
      simp only [taskMaxFds]
      omega
    refine ⟨here.attached lifetime (console fd) trivial inside (rest fd (Nat.le_refl fd)),
      kept.trans (.set task fd before.files _), ?_⟩
    intro later above
    have other : (task, later) ≠ (task, fd) := by
      intro same
      have equal := congrArg Prod.snd same
      omega
    refine (update_of_ne other _ _).trans ?_
    exact rest later (by omega)
  · exact ⟨here, kept, fun later above => rest later (by omega)⟩

end

/-! A call inside `node->close`. -/

theorem inFlight_enter (bound : task < maxTasks) (outside : state.closing task = none) (closing : Closing Node)
    (kernel : Kernel Node (NodeLog Node World)) (node : Node) :
    TaskFiles.inFlight { state with kernel := kernel, closing := update state.closing task (some closing) } node =
      state.inFlight node + if closing.node = node then 1 else 0 := by
  have updated : (fun other => (update state.closing task (some closing) other).map Closing.node) =
      update (fun other => (state.closing other).map Closing.node) task (some closing.node) :=
    comp_update (Option.map Closing.node) state.closing task (some closing)
  simp only [TaskFiles.inFlight, updated]
  rw [references_set (Finset.mem_range.mpr bound) (by simp [outside])]
  omega

theorem inFlight_leave (bound : task < maxTasks) (inside : state.closing task = some closing)
    (kernel : Kernel Node (NodeLog Node World)) (node : Node) : state.inFlight node =
      TaskFiles.inFlight { state with kernel := kernel, closing := update state.closing task none } node +
        if closing.node = node then 1 else 0 := by
  have updated : (fun other => (update state.closing task none other).map Closing.node) =
      update (fun other => (state.closing other).map Closing.node) task none :=
    comp_update (Option.map Closing.node) state.closing task none
  simp only [TaskFiles.inFlight, updated]
  rw [references_clear (Finset.mem_range.mpr bound) (by rw [inside]; rfl) node]
  omega

theorem Sound.enter (sound : Sound state) (live : liveTask state.table task = true)
    (outside : state.closing task = none) (closes : closesNode state.kernel.files task fd = some closing.node)
    (ready : DupReady (sysClose nodes.logged state.kernel task fd).files task closing) :
    Sound (state.enter task (sysClose nodes.logged state.kernel task fd).files closing) := by
  have bound := live_bound sound.bounded live
  have kept : OthersKept task state.kernel.files (sysClose nodes.logged state.kernel task fd).files := sysClose_others
  rcases sysClose_cases sound.consistent.counted with ⟨none, _⟩ | ⟨node, files, same, positive, counted, fewer, result⟩
  · rw [closes] at none
    cases none
  rw [closes, Option.some.injEq] at same
  rw [result] at kept ready ⊢
  refine sound.change live rfl rfl ⟨counted, ?_⟩ kept (fun _ same => Option.some.inj same ▸ ready)
  intro other
  have before := sound.consistent.world other
  simp only [TaskFiles.enter]
  rw [inFlight_enter bound outside, fewer, ← same]
  by_cases here : closing.node = other
  · subst here
    rw [if_pos rfl, update_self]
    rw [← same] at positive
    omega
  · rw [if_neg here, update_of_ne (Ne.symm here)]
    exact before

omit [DecidableEq Node] in
theorem interruptedAt_spec {files : Files Node} {interrupted : Bool} {node : Node}
    (found : interruptedAt nodes files task fd interrupted = some (id, node)) :
    fdAt files task fd = some id ∧ closesNode files task fd = some node := by
  obtain ⟨held, heldAt, rest⟩ := Option.bind_eq_some_iff.mp found
  obtain ⟨closed, closes, chosen⟩ := Option.bind_eq_some_iff.mp rest
  split at chosen
  · cases chosen
    exact ⟨heldAt, closes⟩
  · cases chosen

section

variable {state : TaskFiles Node World} (sound : Sound state) {task : Nat} (live : liveTask state.table task = true)
  (outside : state.closing task = none)
include sound live outside

theorem Sound.close (fd : Nat) (interrupted : Bool) : Sound (state.close nodes task fd interrupted) := by
  unfold TaskFiles.close
  split
  next id node found => exact sound.enter live outside (interruptedAt_spec found).2 (fun _ _ next => by cases next)
  · exact sound.act live outside (sound.consistent.close balance_lifetime task fd) sysClose_others

theorem Sound.dup2 (oldFd newFd : Nat) (interrupted : Bool) : Sound (state.dup2 nodes task oldFd newFd interrupted) := by
  have bound := live_bound sound.bounded live
  unfold TaskFiles.dup2
  split
  next valid =>
    simp only [Bool.and_eq_true, decide_eq_true_eq] at valid
    split
    next id node found =>
      have small : newFd < taskMaxFds := by
        have held := (interruptedAt_spec found).1
        unfold fdAt at held
        split at held
        · assumption
        · cases held
      refine sound.enter live outside (interruptedAt_spec found).2 ?_
      rintro old new ⟨⟩
      refine ⟨?_, small, sysClose_fds_same small⟩
      have other : (task, oldFd) ≠ (task, newFd) := by simpa using valid.2
      have held := valid.1
      unfold fdAt at held ⊢
      rwa [sysClose_fds_other other]
    · exact sound.act live outside (sound.consistent.dup2 balance_lifetime bound oldFd newFd)
        sysDup2_others
  · exact sound

theorem Sound.socket (node : Node) (allocated interrupted : Bool) :
    Sound (state.socket nodes task node allocated interrupted) := by
  have bound := live_bound sound.bounded live
  unfold TaskFiles.socket
  split
  · refine sound.change live rfl rfl ⟨sound.consistent.counted.skip, ?_⟩ (.refl task _) (by rintro _ ⟨⟩ _ _ ⟨⟩)
    intro other
    have before := sound.consistent.world other
    rw [inFlight_enter bound outside]
    simp only [opened_skip sound.consistent.counted, Nodes.logged]
    by_cases same : node = other
    · subst same
      rw [if_pos rfl, update_self]
      omega
    · rw [if_neg same, update_of_ne (Ne.symm same)]
      exact before
  · exact sound.act live outside (sound.consistent.alloc balance_lifetime bound node trivial allocated)
      taskAllocFd_others

theorem Sound.fileCall (call : FileCall Node) : Sound (fileCall nodes state task call) := by
  have bound := live_bound sound.bounded live
  have lifetime : Lifetime nodes.logged (fun _ _ => True) (Balance state.inFlight) := balance_lifetime
  cases call with
  | openNode node allocated opens =>
    exact sound.act live outside (sound.consistent.open lifetime bound node trivial allocated opens)
      sysOpen_others
  | pipe readNode writeNode readAllocated writeAllocated =>
    exact sound.act live outside
      (sound.consistent.pipe lifetime bound readNode writeNode readAllocated writeAllocated)
      sysPipe_others
  | socket node allocated interrupted => exact sound.socket live outside node allocated interrupted
  | dup oldFd => exact sound.act live outside (sound.consistent.dupFrom bound oldFd 0) dupFrom_others
  | fcntlDupFd fd minFd =>
    exact sound.act live outside (sound.consistent.dupFrom bound fd minFd)
      dupFrom_others
  | dup2 oldFd newFd interrupted => exact sound.dup2 live outside oldFd newFd interrupted
  | close fd interrupted => exact sound.close live outside fd interrupted

end

theorem afterClose_consistent {Inv : World → (Node → Nat) → Prop} {kernel : Kernel Node World}
    (consistent : Consistent Inv kernel) (bound : task < maxTasks) (ready : DupReady kernel.files task closing) :
    Consistent Inv { kernel with files := afterClose kernel.files task closing.dup2 } ∧
      OthersKept task kernel.files (afterClose kernel.files task closing.dup2) := by
  cases next : closing.dup2 with
  | none => exact ⟨consistent, .refl task _⟩
  | some pair =>
    obtain ⟨oldFd, newFd⟩ := pair
    obtain ⟨held, small, free⟩ := ready oldFd newFd next
    obtain ⟨id, found⟩ := Option.isSome_iff_exists.mp held
    have inside : (task, newFd) ∈ domain :=
      Finset.mem_product.mpr ⟨Finset.mem_range.mpr bound, Finset.mem_range.mpr small⟩
    simp only [afterClose, found, Option.elim_some]
    exact ⟨consistent.share inside free (fdAt_spec found), .set task newFd kernel.files _⟩

theorem Sound.resume (sound : Sound state) (live : liveTask state.table task = true) :
    Sound (state.resume nodes task) := by
  have bound := live_bound sound.bounded live
  unfold TaskFiles.resume
  cases inside : state.closing task with
  | none => exact sound
  | some closing =>
    obtain ⟨_, ready⟩ := sound.inside task closing inside
    have closed : Consistent
        (Balance (TaskFiles.inFlight { state with closing := update state.closing task none }))
        { files := state.kernel.files, world := nodes.logged.close state.kernel.world closing.node } := by
      refine ⟨sound.consistent.counted, ?_⟩
      intro node
      have before := sound.consistent.world node
      rw [inFlight_leave bound inside state.kernel node] at before
      simp only [Nodes.logged]
      by_cases same : closing.node = node
      · subst same
        rw [if_pos rfl] at before
        rw [update_self]
        omega
      · rw [if_neg same] at before
        rw [update_of_ne (Ne.symm same)]
        exact before
    obtain ⟨consistent, kept⟩ := afterClose_consistent closed bound ready
    exact sound.change live rfl rfl consistent kept (by simp)

/-! Births and ends of tasks. -/

theorem liveTask_iff (table : Table) (task : Nat) :
    liveTask table task = true ↔ ∃ kin, table.family task = some kin ∧ kin.exited = none := by
  unfold liveTask
  rw [Option.any_eq_true]
  constructor
  · rintro ⟨found, present, live⟩
    obtain ⟨kin, kinEq, alive⟩ := found.live_iff.mp live
    exact ⟨kin, (Table.family_at present).trans kinEq, alive⟩
  · rintro ⟨kin, member, alive⟩
    obtain ⟨found, present, kinEq⟩ := table.family_eq_some_iff.mp member
    exact ⟨found, present, found.live_iff.mpr ⟨kin, kinEq, alive⟩⟩

theorem liveTask_kept {call : Sched.Call} (live : liveTask table task = true)
    (spared : ∀ status, kinEvent table call ≠ .ended task status) : liveTask (schedStep table call) task = true := by
  obtain ⟨kin, present, alive⟩ := (liveTask_iff table task).mp live
  rw [liveTask_iff, schedStep_family]
  have legal := kinEvent_legal table call
  generalize kinEvent table call = event at legal spared ⊢
  cases legal with
  | quiet => exact ⟨kin, present, alive⟩
  | born slot creator baby free =>
    have different : task ≠ slot := by
      rintro rfl
      rw [free] at present
      cases present
    exact ⟨kin, (update_of_ne different _ _).trans present, alive⟩
  | ended slot status victim victimAt =>
    have different : task ≠ slot := by
      rintro rfl
      exact spared status rfl
    refine ⟨kin.adopted victim.pid, ?_, ?_⟩
    · simp only [Sched.Family.apply, victimAt, update_of_ne different, present, Option.map_some]
    · unfold Sched.Kin.adopted
      split
      · exact alive
      · exact alive
  | reaped slot caller child parent status childAt exited =>
    have different : task ≠ slot := by
      rintro rfl
      rw [childAt, Option.some.injEq] at present
      rw [present, alive] at exited
      cases exited
    exact ⟨kin, (update_of_ne different _ _).trans present, alive⟩

theorem Sound.retable (sound : Sound state) (bounded : table.tasks.length ≤ Sched.maxTasks)
    (kept : ∀ task, liveTask state.table task = true → liveTask table task = true ∨
      state.closing task = none ∧ ∀ fd, state.kernel.files.fds (task, fd) = none) :
    Sound { state with table := table } := by
  refine ⟨bounded, sound.consistent, ?_, ?_⟩
  · intro task fd id held
    rcases kept task (sound.alive task fd id held) with live | ⟨_, empty⟩
    · exact live
    · have none : state.kernel.files.fds (task, fd) = some id := held
      rw [empty fd] at none
      cases none
  · intro task closing found
    obtain ⟨live, ready⟩ := sound.inside task closing found
    rcases kept task live with stays | ⟨outside, _⟩
    · exact ⟨stays, ready⟩
    · have none : state.closing task = some closing := found
      rw [outside] at none
      cases none

theorem inFlight_abandon (bound : slot < maxTasks) (kernel : Kernel Node (NodeLog Node World)) (node : Node) :
    TaskFiles.inFlight { state with
      kernel := kernel
      closing := update state.closing slot none
      abandoned := ((state.closing slot).map fun closing => (closing.id, closing.node)).toList ++ state.abandoned } node =
      state.inFlight node := by
  cases inside : state.closing slot with
  | none =>
    have same : update state.closing slot none = state.closing := by rw [← inside, update_eq_self]
    simp only [Option.map_none, Option.toList_none, List.nil_append, same]
    rfl
  | some closing =>
    have left := inFlight_leave bound inside kernel node
    simp only [TaskFiles.inFlight] at left ⊢
    simp only [Option.map_some, Option.toList_some, List.map_append, List.map_cons, List.map_nil, List.count_append,
      List.count_singleton, beq_iff_eq]
    omega

section

variable (sound : Sound state)
include sound

theorem Sound.ended (live : liveTask state.table slot = true) (allocated : Nat → Bool)
    (status : BitVec 32) : Sound (state.followKin nodes allocated (.ended slot status)) ∧
      (state.followKin nodes allocated (.ended slot status)).closing slot = none ∧
      ∀ fd, (state.followKin nodes allocated (.ended slot status)).kernel.files.fds (slot, fd) = none := by
  have bound := live_bound sound.bounded live
  have closed : Consistent (Balance state.inFlight) (taskCloseAllFds nodes.logged state.kernel slot) :=
    sound.consistent.closeAll balance_lifetime
  obtain ⟨others, empty⟩ := @taskCloseAllFds_rows _ _ nodes.logged state.kernel slot
  have row := closed.counted.row_empty (List.all_eq_true.mpr fun fd member =>
    Option.isNone_iff_eq_none.mpr (empty fd (List.mem_range.mp member)))
  refine ⟨sound.change live rfl rfl ⟨closed.counted, ?_⟩ others (by simp), update_self .., row⟩
  intro node
  have balance := closed.world node
  simp only [TaskFiles.followKin]
  rw [inFlight_abandon bound]
  exact balance

theorem Sound.born (bound : slot < maxTasks) (free : liveTask state.table slot = false)
    (bounded : table.tasks.length ≤ Sched.maxTasks)
    (kept : ∀ task, liveTask state.table task = true → liveTask table task = true)
    (live : liveTask table slot = true) (allocated : Nat → Bool) (creator : Option Nat) (kin : Sched.Kin) :
    Sound { state.followKin nodes allocated (.born slot creator kin) with table := table } := by
  have dead : liveTask state.table slot ≠ true := by
    rw [free]
    decide
  have empty : ∀ fd, state.kernel.files.fds (slot, fd) = none := fun fd =>
    Option.eq_none_iff_forall_ne_some.mpr fun id held => dead (sound.alive slot fd id held)
  have outside : state.closing slot = none :=
    Option.eq_none_iff_forall_ne_some.mpr fun closing inside => dead (sound.inside slot closing inside).1
  have retabled : Sound { state with table := table } := sound.retable bounded fun task alive => Or.inl (kept task alive)
  cases creator with
  | none =>
    obtain ⟨consistent, others⟩ := sound.consistent.standard balance_lifetime bound empty
    exact retabled.act live outside consistent others
  | some parent =>
    exact retabled.act live outside (sound.consistent.inherit parent slot bound empty)
      inheritFds_others

theorem Sound.schedule {call : Sched.Call} {allocated : Nat → Bool} :
    Sound { state.followKin nodes allocated (kinEvent state.table call) with
      table := schedStep state.table call } := by
  have bounded := (schedStep_shaped state.table call).length sound.bounded
  have legal := kinEvent_legal state.table call
  have spared : (∀ task status, kinEvent state.table call ≠ .ended task status) →
      ∀ task, liveTask state.table task = true → liveTask (schedStep state.table call) task = true :=
    fun none task live => liveTask_kept live (none task)
  cases event : kinEvent state.table call with
  | quiet => exact sound.retable bounded fun task live => Or.inl (spared (by simp [event]) task live)
  | reaped slot caller => exact sound.retable bounded fun task live => Or.inl (spared (by simp [event]) task live)
  | ended slot status =>
    have live : liveTask state.table slot = true := by
      rw [event] at legal
      cases legal with
      | ended _ _ kin present alive => exact (liveTask_iff _ _).mpr ⟨kin, present, alive⟩
    obtain ⟨after, outside, empty⟩ := sound.ended live allocated status
    refine after.retable bounded ?_
    intro task live
    by_cases same : task = slot
    · rw [same]
      exact Or.inr ⟨outside, empty⟩
    refine Or.inl (liveTask_kept live ?_)
    intro other ended
    rw [event] at ended
    cases ended
    exact same rfl
  | born slot creator kin =>
    have free : liveTask state.table slot = false := by
      rw [event] at legal
      cases legal with
      | born _ _ _ free =>
        rw [Bool.eq_false_iff, ne_eq, liveTask_iff]
        rintro ⟨found, present, _⟩
        rw [free] at present
        cases present
    have live : liveTask (schedStep state.table call) slot = true := by
      rw [event] at legal
      cases legal with
      | born _ _ _ _ _ _ alive =>
        rw [liveTask_iff, schedStep_family, event]
        exact ⟨kin, update_self .., alive⟩
    exact sound.born (birth_slot sound.bounded event) free bounded (spared (by simp [event])) live allocated creator kin

theorem Sound.step (event : FilesEvent Node) : Sound (filesStep nodes state event) := by
  cases event with
  | call task call =>
    simp only [filesStep, Bool.and_eq_true, Option.isNone_iff_eq_none]
    split
    next able => exact sound.fileCall able.1 able.2 call
    · exact sound
  | resume task =>
    simp only [filesStep]
    split
    next live => exact sound.resume live
    · exact sound
  | scheduler call allocated =>
    simp only [filesStep]
    split
    · exact sound.schedule
    · exact sound

end

theorem sound_filesInit {world : World} {allocated : Nat → Bool} : Sound (filesInit nodes world allocated) := by
  have start : Consistent (Balance fun _ : Node => 0)
      ({ files := { fds := fun _ => none, descriptions := fun _ => none, next := 0 }
         world := { world := world, refs := fun _ => 0, closes := fun _ => 0 } } :
        Kernel Node (NodeLog Node World)) := by
    refine ⟨⟨?_, ?_, ?_, ?_⟩, fun _ => rfl⟩
    · rintro slot id ⟨⟩
    · rintro slot id ⟨⟩
    · rintro id description ⟨⟩
    · rintro id description ⟨⟩
  obtain ⟨consistent, others⟩ := start.standard balance_lifetime maxTasks_pos (fun _ => rfl)
  have quiet : (filesInit nodes world allocated).inFlight = fun _ => 0 := by
    funext node
    rfl
  have bounded : schedulerInit.tasks.length ≤ Sched.maxTasks := by decide
  have idleLive : liveTask schedulerInit 0 = true := by decide
  refine ⟨bounded, ?_, ?_, ?_⟩
  · exact consistent
  · intro task fd id held
    by_cases idle : task = 0
    · rw [idle]
      exact idleLive
    · have none : _ = some id := (others task fd idle).symm.trans held
      cases none
  · rintro task closing ⟨⟩

theorem sound_run {world : World} {allocated : Nat → Bool} {events : List (FilesEvent Node)} :
    Sound (run (filesStep nodes) (filesInit nodes world allocated) events) :=
  run_invariant (filesStep nodes) Sound (fun _ event sound => sound.step event) _
    sound_filesInit events

/-! Quiescent states. -/

def Quiescent (state : TaskFiles Node World) : Prop := ∀ task < maxTasks, state.closing task = none

def TaskFiles.slotsOf (state : TaskFiles Node World) (id : Nat) : Nat :=
  (domain.filter fun slot => liveTask state.table slot.1 = true ∧ state.kernel.files.fds slot = some id).card

def TaskFiles.leaked (state : TaskFiles Node World) (id : Nat) : Bool := state.abandoned.any fun entry => entry.1 == id

structure Exact (state : TaskFiles Node World) : Prop where
  counts : ∀ id description, state.kernel.files.descriptions id = some description →
    description.refCount = state.slotsOf id
  released : ∀ id, ((state.kernel.files.descriptions id).isSome = true ∨ state.leaked id = true) ↔ 0 < state.slotsOf id
  closed : ∀ node, state.kernel.world.refs node = opened state.kernel.files node + state.kernel.world.closes node

/-- A task is not terminated inside a call. -/
def Spares (state : TaskFiles Node World) : FilesEvent Node → Prop
  | .scheduler (.terminate slot _) _ => state.closing slot = none
  | .scheduler (.sendSignal pid signum) _ =>
    signum.toNat = sigkill → ∀ slot, findTask state.table.tasks pid = some slot → state.closing slot = none
  | _ => True

theorem Sound.slotsOf (sound : Sound state) (id : Nat) :
    state.slotsOf id = references domain state.kernel.files.fds id := by
  unfold TaskFiles.slotsOf references
  congr 1
  ext slot
  simp only [Finset.mem_filter, and_congr_right_iff, and_iff_right_iff_imp]
  intro _ held
  exact sound.alive slot.1 slot.2 id held

theorem Sound.exact_iff (sound : Sound state) (quiescent : Quiescent state) : Exact state ↔ state.abandoned = [] := by
  have none : ∀ node, references (Finset.range maxTasks) (fun task => (state.closing task).map Closing.node) node = 0 := by
    intro node
    rw [references, Finset.card_eq_zero, Finset.filter_eq_empty_iff]
    intro task member
    rw [quiescent task (Finset.mem_range.mp member)]
    exact Option.some_ne_none node ∘ Eq.symm
  have balance : ∀ node, state.kernel.world.refs node =
      opened state.kernel.files node + (state.abandoned.map Prod.snd).count node + state.kernel.world.closes node := by
    intro node
    have all := sound.consistent.world node
    simp only [TaskFiles.inFlight, none, Nat.zero_add] at all
    exact all
  constructor
  · intro exact
    -- an abandoned description is a node that was never closed
    by_contra some
    obtain ⟨entry, rest, split⟩ := List.exists_cons_of_ne_nil some
    have total := balance entry.2
    have closed := exact.closed entry.2
    rw [split, List.map_cons, List.count_cons_self] at total
    omega
  · intro empty
    have counts := sound.consistent.counted.counted
    refine ⟨?_, ?_, ?_⟩
    · intro id description present
      rw [sound.slotsOf]
      exact (counts id description present).1
    · intro id
      rw [sound.slotsOf]
      simp only [TaskFiles.leaked, empty, List.any_nil, Bool.false_eq_true, or_false]
      constructor
      · intro present
        obtain ⟨description, found⟩ := Option.isSome_iff_exists.mp present
        obtain ⟨same, positive⟩ := counts id description found
        omega
      · intro positive
        obtain ⟨slot, _, held⟩ := references_pos_iff.mp positive
        obtain ⟨description, found⟩ := sound.consistent.counted.live slot id held
        rw [found]
        rfl
    · intro node
      rw [balance node, empty]
      rfl

theorem fileCall_abandoned (state : TaskFiles Node World) (task : Nat) (call : FileCall Node) :
    (fileCall nodes state task call).abandoned = state.abandoned := by
  cases call with
  | socket node allocated interrupted =>
    simp only [fileCall, TaskFiles.socket]
    split
    · rfl
    · rfl
  | dup2 oldFd newFd interrupted =>
    simp only [fileCall, TaskFiles.dup2]
    split
    · split
      · rfl
      · rfl
    · rfl
  | close fd interrupted =>
    simp only [fileCall, TaskFiles.close]
    split
    · rfl
    · rfl
  | openNode | pipe | dup | fcntlDupFd => rfl

theorem Sound.spares_iff (sound : Sound state) (call : Sched.Call) (allocated : Nat → Bool) :
    Spares state (.scheduler call allocated) ↔
      ∀ slot status, kinEvent state.table call = .ended slot status → state.closing slot = none := by
  have dies : ∀ slot status closing, state.closing slot = some closing →
      death state.table slot status = .ended slot status :=
    fun slot status closing found => if_pos (sound.inside slot closing found).1
  constructor
  · intro spares slot status ended
    rcases kinEvent_ended ended with rfl | ⟨pid, signum, rfl, kill, found⟩
    · exact spares
    · exact spares kill slot found
  · intro outside
    cases call with
    | terminate slot status =>
      by_contra inside
      obtain ⟨closing, found⟩ := Option.ne_none_iff_exists'.mp inside
      exact inside (outside slot status (dies slot status closing found))
    | sendSignal pid signum =>
      intro kill slot found
      by_contra inside
      obtain ⟨closing, closes⟩ := Option.ne_none_iff_exists'.mp inside
      refine inside (outside slot (BitVec.ofNat 32 (128 + sigkill)) (Eq.trans ?_ (dies slot _ closing closes)))
      simp only [kinEvent, callable, Sched.Call.caller, Option.all_none, if_true, callKin, found, if_pos kill]
    | createTask | addUserProcess | fork | sigaction | sigprocmask | sleep | wake | waitpid => trivial

theorem Sound.abandoned_step (sound : Sound state) {event : FilesEvent Node} :
    (filesStep nodes state event).abandoned = [] ↔ state.abandoned = [] ∧ Spares state event := by
  cases event with
  | call task call =>
    simp only [filesStep, Spares, and_true]
    split
    · rw [fileCall_abandoned]
    · rfl
  | resume task =>
    simp only [filesStep, Spares, and_true, TaskFiles.resume]
    split
    · split
      · rfl
      · rfl
    · rfl
  | scheduler call allocated =>
    rw [sound.spares_iff]
    simp only [filesStep]
    cases event : kinEvent state.table call with
    | ended slot status =>
      have free : call.caller = none := by
        rcases kinEvent_ended event with rfl | ⟨pid, signum, rfl, _⟩
        · rfl
        · rfl
      simp only [free, Option.all_none, if_true, TaskFiles.followKin, List.append_eq_nil_iff, Option.toList_eq_nil_iff,
        Option.map_eq_none_iff]
      constructor
      · rintro ⟨outside, empty⟩
        refine ⟨empty, ?_⟩
        rintro _ _ ⟨⟩
        exact outside
      · rintro ⟨empty, outside⟩
        exact ⟨outside slot status rfl, empty⟩
    | born slot creator kin =>
      have rest : ∀ other status, KinEvent.born slot creator kin = .ended other status → state.closing other = none := by
        rintro _ _ ⟨⟩
      rw [and_iff_left rest]
      split
      · cases creator with
        | none => rfl
        | some parent => rfl
      · rfl
    | reaped slot caller =>
      have rest : ∀ other status, KinEvent.reaped slot caller = .ended other status → state.closing other = none := by
        rintro _ _ ⟨⟩
      rw [and_iff_left rest]
      split
      · rfl
      · rfl
    | quiet =>
      have rest : ∀ other status, KinEvent.quiet = .ended other status → state.closing other = none := by
        rintro _ _ ⟨⟩
      rw [and_iff_left rest]
      split
      · rfl
      · rfl

theorem Sound.abandoned_run {events : List (FilesEvent Node)} : ∀ {state : TaskFiles Node World}, Sound state →
    ((run (filesStep nodes) state events).abandoned = [] ↔
      state.abandoned = [] ∧ Transition.Admissible (filesStep nodes) Spares state events) := by
  induction events with
  | nil =>
    intro state _
    exact (and_iff_left trivial).symm
  | cons event events ih =>
    intro state sound
    rw [run_cons, ih (sound.step event), sound.abandoned_step, and_assoc]
    rfl

/-- In a state in which no task is inside a call, the counts of all descriptions are exact and the others are closed
and released, exactly when no task has been terminated inside a call. -/
theorem exact_iff_spared (world : World) (allocated : Nat → Bool) (events : List (FilesEvent Node))
    (quiescent : Quiescent (run (filesStep nodes) (filesInit nodes world allocated) events)) :
    Exact (run (filesStep nodes) (filesInit nodes world allocated) events) ↔
      Transition.Admissible (filesStep nodes) Spares (filesInit nodes world allocated) events := by
  rw [sound_run.exact_iff quiescent, Sound.abandoned_run sound_filesInit]
  exact and_iff_right rfl

/-- Whoever is killed where, a description counts its descriptors, and none outlives it or its task. -/
theorem descriptors_counted (world : World) (allocated : Nat → Bool) (events : List (FilesEvent Node)) :
    let state := run (filesStep nodes) (filesInit nodes world allocated) events
    Counted state.kernel.files ∧ ∀ task fd id, state.kernel.files.fds (task, fd) = some id →
      liveTask state.table task = true :=
  ⟨sound_run.consistent.counted, sound_run.alive⟩

end

/-! Consoles and sockets. -/

inductive SampleNode where
  | console
  | socket
deriving DecidableEq

def sampleNodes : Nodes SampleNode Unit where
  ops := { ref := fun _ _ => (), close := fun _ _ => () }
  interruptible := fun node => node == .socket
  console := fun _ => .console

def closingSocket : List (FilesEvent SampleNode) :=
  [.scheduler (.addUserProcess none) (fun _ => true), .call 1 (.socket .socket true false), .call 1 (.close 3 true)]

theorem exact_iff_closed : Exact (run (filesStep sampleNodes) (filesInit sampleNodes () fun _ => true)
    (closingSocket ++ [.resume 1])) ↔
      Transition.Admissible (filesStep sampleNodes) Spares (filesInit sampleNodes () fun _ => true)
        (closingSocket ++ [.resume 1]) :=
  exact_iff_spared () (fun _ => true) (closingSocket ++ [.resume 1]) (by unfold Quiescent; decide)

theorem killed_closing_leaks : Quiescent (run (filesStep sampleNodes) (filesInit sampleNodes () fun _ => true)
      (closingSocket ++ [.scheduler (.sendSignal 2 sigkill) fun _ => true])) ∧
    ¬ Exact (run (filesStep sampleNodes) (filesInit sampleNodes () fun _ => true)
      (closingSocket ++ [.scheduler (.sendSignal 2 sigkill) fun _ => true])) := by
  constructor
  · unfold Quiescent
    decide
  · intro exact
    exact absurd (exact.closed .socket) (by decide)

end PhotonOS.Files
