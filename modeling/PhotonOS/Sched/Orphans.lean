import PhotonOS.Sched.Family

/-!
The pid 1 that children are handed to belongs to the idle task in every reachable
state, so no child that loses its parent gets one that could wait for it.
-/

namespace PhotonOS.Sched

open Function Transition

/-! The idle task keeps slot 0 and pid 1. -/

structure Founded (family : Family) : Prop where
  root : ∃ idle, family 0 = some idle ∧ idle.pid = 1 ∧ idle.parentPid = 0 ∧ idle.userMode = false
  nonzero : ∀ slot kin, family slot = some kin → kin.pid ≠ 0
  distinct : ∀ first second left right, family first = some left → family second = some right →
    left.pid = right.pid → first = second

variable {exitedPid : BitVec 32}

@[simp] theorem Kin.adopted_pid (kin : Kin) : (kin.adopted exitedPid).pid = kin.pid := by
  unfold Kin.adopted
  split <;> rfl

@[simp] theorem Kin.adopted_exited (kin : Kin) : (kin.adopted exitedPid).exited = kin.exited := by
  unfold Kin.adopted
  split <;> rfl

variable {family : Family} {slot other child : Nat} {kin after : Kin} {table : Table} {task : Task}
    {status : BitVec 32} {caller : Nat}

theorem ended_cases (present : family slot = some kin)
    (afterAt : family.apply (.ended slot status) other = some after) : ∃ before, family other = some before ∧
      after = Kin.adopted kin.pid (if other = slot then { before with exited := some status } else before) := by
  simp only [Family.apply, present] at afterAt
  by_cases here : other = slot
  · subst here
    rw [update_self] at afterAt
    cases afterAt
    exact ⟨kin, present, by rw [if_pos rfl]⟩
  · rw [update_of_ne here] at afterAt
    obtain ⟨before, beforeAt, rfl⟩ := Option.map_eq_some_iff.mp afterAt
    exact ⟨before, beforeAt, by rw [if_neg here]⟩

theorem born_cases (afterAt : update family slot (some kin) other = some after) :
    (other = slot ∧ after = kin) ∨ (other ≠ slot ∧ family other = some after) := by
  rw [update_apply] at afterAt
  split at afterAt
  next here => exact Or.inl ⟨here, (Option.some.inj afterAt).symm⟩
  next elsewhere => exact Or.inr ⟨elsewhere, afterAt⟩

theorem reaped_cases (afterAt : update family slot none other = some after) :
    other ≠ slot ∧ family other = some after := by
  rw [update_apply] at afterAt
  split at afterAt
  · cases afterAt
  next elsewhere => exact ⟨elsewhere, afterAt⟩

theorem ended_at (present : family slot = some kin) (status : BitVec 32) {before : Kin}
    (beforeAt : family other = some before) : family.apply (.ended slot status) other =
      some (Kin.adopted kin.pid (if other = slot then { before with exited := some status } else before)) := by
  simp only [Family.apply, present]
  by_cases here : other = slot
  · subst here
    rw [present] at beforeAt
    cases beforeAt
    simp
  · rw [update_of_ne here, beforeAt, if_neg here]
    rfl

section

variable (founded : Founded family)
include founded

theorem Founded.ended (present : family slot = some kin) (status : BitVec 32) :
    Founded (family.apply (.ended slot status)) := by
  have source : ∀ other after, family.apply (.ended slot status) other = some after →
      ∃ before, family other = some before ∧ after.pid = before.pid := by
    intro other after afterAt
    obtain ⟨before, beforeAt, rfl⟩ := ended_cases present afterAt
    refine ⟨before, beforeAt, ?_⟩
    rw [Kin.adopted_pid]
    split <;> rfl
  refine ⟨?_, ?_, ?_⟩
  · obtain ⟨idle, idleAt, idlePid, idleParent, idleMode⟩ := founded.root
    have parentless : kin.pid ≠ 0 := founded.nonzero slot kin present
    have still := ended_at present status idleAt
    have orphan : (if (0 : Nat) = slot then { idle with exited := some status } else idle).parentPid ≠ kin.pid := by
      rw [apply_ite Kin.parentPid, ite_self, idleParent]
      exact parentless.symm
    rw [Kin.adopted, if_neg orphan] at still
    refine ⟨_, still, ?_⟩
    split <;> exact ⟨idlePid, idleParent, idleMode⟩
  · intro other after afterAt
    obtain ⟨before, beforeAt, same⟩ := source other after afterAt
    rw [same]
    exact founded.nonzero other before beforeAt
  · intro first second left right leftAt rightAt same
    obtain ⟨oldLeft, oldLeftAt, leftPid⟩ := source first left leftAt
    obtain ⟨oldRight, oldRightAt, rightPid⟩ := source second right rightAt
    exact founded.distinct first second oldLeft oldRight oldLeftAt oldRightAt (by rw [← leftPid, ← rightPid, same])

theorem Founded.born (free : family slot = none) (nonzero : kin.pid ≠ 0)
    (fresh : ∀ other found, family other = some found → found.pid ≠ kin.pid) :
    Founded (update family slot (some kin)) := by
  refine ⟨?_, ?_, ?_⟩
  · obtain ⟨idle, idleAt, rest⟩ := founded.root
    have elsewhere : (0 : Nat) ≠ slot := by
      rintro rfl
      rw [free] at idleAt
      cases idleAt
    exact ⟨idle, by rw [update_of_ne elsewhere]; exact idleAt, rest⟩
  · intro other after afterAt
    rcases born_cases afterAt with ⟨_, rfl⟩ | ⟨_, beforeAt⟩
    · exact nonzero
    · exact founded.nonzero other after beforeAt
  · intro first second left right leftAt rightAt same
    rcases born_cases leftAt with ⟨rfl, rfl⟩ | ⟨_, leftBefore⟩
    · rcases born_cases rightAt with ⟨rfl, _⟩ | ⟨_, rightBefore⟩
      · rfl
      · exact absurd same.symm (fresh second right rightBefore)
    · rcases born_cases rightAt with ⟨_, rfl⟩ | ⟨_, rightBefore⟩
      · exact absurd same (fresh first left leftBefore)
      · exact founded.distinct first second left right leftBefore rightBefore same

theorem Founded.reaped {child parent : Kin} (present : family slot = some child)
    (waiting : family caller = some parent) (childOf : child.parentPid = parent.pid) :
    Founded (update family slot none) := by
  refine ⟨?_, ?_, ?_⟩
  · obtain ⟨idle, idleAt, idlePid, idleParent, idleMode⟩ := founded.root
    have elsewhere : (0 : Nat) ≠ slot := by
      rintro rfl
      rw [present] at idleAt
      cases idleAt
      exact founded.nonzero caller parent waiting (childOf.symm.trans idleParent)
    exact ⟨idle, by rw [update_of_ne elsewhere]; exact idleAt, idlePid, idleParent, idleMode⟩
  · exact fun other after afterAt => founded.nonzero other after (reaped_cases afterAt).2
  · exact fun first second left right leftAt rightAt =>
      founded.distinct first second left right (reaped_cases leftAt).2 (reaped_cases rightAt).2

theorem Founded.apply {event : KinEvent} (legal : Legal family event) : Founded (family.apply event) := by
  cases legal with
  | quiet => exact founded
  | born slot creator kin free nonzero fresh _ _ => exact founded.born free nonzero fresh
  | ended slot status kin present _ => exact founded.ended present status
  | reaped slot caller child parent status present _ waiting _ childOf => exact founded.reaped present waiting childOf

end

theorem family_init (present : schedulerInit.family slot = some kin) : slot = 0 ∧ kin = ⟨1, 0, none, false⟩ := by
  cases slot with
  | zero => exact ⟨rfl, (Option.some.inj present).symm⟩
  | succ slot => cases present

theorem founded_init : Founded schedulerInit.family := by
  refine ⟨⟨_, rfl, rfl, rfl, rfl⟩, ?_, ?_⟩
  · intro slot kin present
    obtain ⟨_, rfl⟩ := family_init present
    decide
  · intro first second left right leftAt rightAt _
    exact (family_init leftAt).1.trans (family_init rightAt).1.symm

theorem founded_reachable (calls : List Call) : Founded (run schedStep schedulerInit calls).family := by
  apply run_invariant schedStep (fun table => Founded table.family)
  · intro table call founded
    rw [schedStep_family]
    exact founded.apply (kinEvent_legal table call)
  · exact founded_init

theorem idle_reachable (calls : List Call) : (run schedStep schedulerInit calls).idle = 0 := by
  apply run_invariant schedStep (fun table => table.idle = 0)
  · intro table call idle
    rw [(schedStep_shaped table call).idle]
    exact idle
  · rfl

/-! What the end of a task does to its children. -/

def LiveChild (table : Table) (slot child : Nat) : Prop :=
  child ≠ slot ∧ ∃ parent task, table.tasks[slot]? = some parent ∧ table.tasks[child]? = some task ∧
    task.live = true ∧ task.parentPid = parent.pid

/-- The parent of the task in `child` is live, is not the idle task and runs user code. -/
def HasReaper (table : Table) (child : Nat) : Prop :=
  ∃ task reaper guardian, table.tasks[child]? = some task ∧ table.tasks[reaper]? = some guardian ∧
    guardian.live = true ∧ reaper ≠ table.idle ∧ guardian.userMode = true ∧ task.parentPid = guardian.pid

def OrphansHaveReaper (table : Table) (slot : Nat) (status : BitVec 32) : Prop :=
  ∀ child, LiveChild table slot child → HasReaper (schedulerTerminateTask table slot status) child

theorem terminate_parentPid {parent adopted : Task} (parentAt : table.tasks[slot]? = some parent)
    (parentLive : parent.live = true) (childAt : table.tasks[child]? = some task) (different : child ≠ slot)
    (live : task.live = true) (childOf : task.parentPid = parent.pid)
    (adoptedAt : (schedulerTerminateTask table slot status).tasks[child]? = some adopted) :
    adopted.parentPid = 1 := by
  obtain ⟨parentKin, parentKinEq, _⟩ := parent.live_iff.mp parentLive
  obtain ⟨_, parentPid, _⟩ := (parent.kin_eq_some_iff parentKin).mp parentKinEq
  obtain ⟨kin, kinEq, _⟩ := task.live_iff.mp live
  obtain ⟨_, _, kinParent, _⟩ := (task.kin_eq_some_iff kin).mp kinEq
  have after := congrFun (terminate_family table slot status) child
  have ends : death table slot status = .ended slot status := by simp [death, parentAt, parentLive]
  rw [ends, ended_at ((Table.family_at parentAt).trans parentKinEq) status ((Table.family_at childAt).trans kinEq),
    if_neg different, Table.family_at adoptedAt] at after
  obtain ⟨_, _, adoptedParent, _⟩ := (adopted.kin_eq_some_iff _).mp after
  rw [← adoptedParent, Kin.adopted, if_pos (by rw [kinParent, parentPid, childOf])]

theorem no_reaper_of_pid_one (founded : Founded table.family) (idle : table.idle = 0)
    (childAt : table.tasks[child]? = some task) (parentless : task.parentPid = 1) : ¬HasReaper table child := by
  rintro ⟨found, reaper, guardian, foundAt, guardianAt, guardianLive, notIdle, _, childOf⟩
  rw [childAt] at foundAt
  cases foundAt
  obtain ⟨root, rootAt, rootPid, _⟩ := founded.root
  obtain ⟨kin, kinEq, _⟩ := guardian.live_iff.mp guardianLive
  obtain ⟨_, kinPid, _⟩ := (guardian.kin_eq_some_iff kin).mp kinEq
  have first : reaper = 0 := by
    apply founded.distinct reaper 0 kin root ((Table.family_at guardianAt).trans kinEq) rootAt
    rw [kinPid, rootPid, ← childOf, parentless]
  exact notIdle (first.trans idle.symm)

/-- In every reachable state the end of a live task leaves its live children to a task able to reap
them exactly when it has none. -/
theorem orphans_have_reaper_iff (calls : List Call) (slot : Nat) (status : BitVec 32) (parent : Task)
    (present : (run schedStep schedulerInit calls).tasks[slot]? = some parent)
    (live : parent.live = true) : OrphansHaveReaper (run schedStep schedulerInit calls) slot status ↔
      ∀ child, ¬LiveChild (run schedStep schedulerInit calls) slot child := by
  generalize tableEq : run schedStep schedulerInit calls = table at present ⊢
  constructor
  · intro orphans child childOf
    have reaper := orphans child childOf
    obtain ⟨different, found, task, foundAt, taskAt, taskLive, parentPid⟩ := childOf
    rw [present] at foundAt
    cases foundAt
    have next : run schedStep schedulerInit (calls ++ [.terminate slot status]) =
        schedulerTerminateTask table slot status := by
      rw [run_append, tableEq]
      rfl
    have founded := founded_reachable (calls ++ [.terminate slot status])
    have idle := idle_reachable (calls ++ [.terminate slot status])
    rw [next] at founded idle
    obtain ⟨adopted, adoptedAt⟩ : ∃ adopted, (schedulerTerminateTask table slot status).tasks[child]? = some adopted := by
      obtain ⟨adopted, _, _, adoptedAt, _⟩ := reaper
      exact ⟨adopted, adoptedAt⟩
    exact no_reaper_of_pid_one founded idle adoptedAt
      (terminate_parentPid present live taskAt different taskLive parentPid adoptedAt) reaper
  · intro childless child childOf
    exact absurd childOf (childless child)

def grandchildCalls : List Call := [.addUserProcess none, .fork 1 true, .fork 2 true]

theorem orphans_have_reaper_iff_grandchild : OrphansHaveReaper (run schedStep schedulerInit grandchildCalls) 2 0 ↔
      ∀ child, ¬LiveChild (run schedStep schedulerInit grandchildCalls) 2 child :=
  orphans_have_reaper_iff grandchildCalls 2 0 _ rfl rfl

theorem grandchild_left_to_idle : ¬OrphansHaveReaper (run schedStep schedulerInit grandchildCalls) 2 0 := by
  intro orphans
  obtain ⟨task, reaper, guardian, taskAt, guardianAt, _, notIdle, user, childOf⟩ :=
    orphans 3 ⟨by decide, _, _, rfl, rfl, rfl, rfl⟩
  cases taskAt
  match reaper with
  | 0 => exact notIdle rfl
  | 1 | 2 | 3 =>
    cases guardianAt
    revert childOf
    decide
  | reaper + 4 => cases guardianAt

end PhotonOS.Sched
