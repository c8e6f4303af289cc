import PhotonOS.Sched.Orphans

/-!
As long as the first task runs, every pid in the table is given once and every
parent named in it is a running task.
-/

namespace PhotonOS.Sched

open Function Transition

/-- The parent is none, or a running task of the family. -/
def Parented (family : Family) (parentPid : BitVec 32) : Prop :=
  parentPid = 0 ∨ ∃ other parent, family other = some parent ∧ parent.exited = none ∧ parent.pid = parentPid

structure ConsistentFamily (family : Family) : Prop where
  nonzero : ∀ slot kin, family slot = some kin → kin.pid ≠ 0
  distinct : ∀ first second left right, family first = some left → family second = some right →
    left.pid = right.pid → first = second
  parents : ∀ slot kin, family slot = some kin → Parented family kin.parentPid

def FirstRuns (table : Table) : Prop := ∀ task ∈ table.tasks, task.pid = 1 → task.state ≠ .zombie

variable {family : Family} {table : Table} {slot : Nat} {kin : Kin} {parentPid : BitVec 32}

theorem Parented.ended (parented : Parented family parentPid) (present : family slot = some kin) (other : parentPid ≠ kin.pid)
    (status : BitVec 32) : Parented (family.apply (.ended slot status)) parentPid := by
  refine parented.imp_right ?_
  rintro ⟨holder, parent, parentAt, alive, pid⟩
  have elsewhere : holder ≠ slot := by
    rintro rfl
    rw [present] at parentAt
    cases parentAt
    exact other pid.symm
  have still := ended_at present status parentAt
  rw [if_neg elsewhere] at still
  exact ⟨holder, _, still, (Kin.adopted_exited parent).trans alive, (Kin.adopted_pid parent).trans pid⟩

def AllParented (family : Family) : Prop := ∀ slot kin, family slot = some kin → Parented family kin.parentPid

theorem AllParented.update (all : AllParented family) {value : Option Kin}
    (unneeded : ∀ kin, family slot = some kin → kin.exited ≠ none)
    (fresh : ∀ kin, value = some kin → Parented family kin.parentPid) : AllParented (update family slot value) := by
  intro other after afterAt
  have parented : Parented family after.parentPid := by
    by_cases here : other = slot
    · rw [here, update_self] at afterAt
      exact fresh after afterAt
    · rw [update_of_ne here] at afterAt
      exact all other after afterAt
  refine parented.imp_right ?_
  rintro ⟨holder, parent, parentAt, alive, pid⟩
  have elsewhere : holder ≠ slot := by
    rintro rfl
    exact unneeded parent parentAt alive
  exact ⟨holder, parent, by rw [update_of_ne elsewhere]; exact parentAt, alive, pid⟩

theorem AllParented.apply (all : AllParented family) {event : KinEvent} (legal : Legal family event)
    (first : Parented (family.apply event) 1) : AllParented (family.apply event) := by
  cases legal with
  | quiet => exact all
  | born slot creator kin free _ _ _ created =>
    refine all.update (fun found foundAt => by rw [free] at foundAt; cases foundAt) ?_
    rintro born ⟨⟩
    cases creator with
    | none => exact Or.inl created
    | some creator =>
      obtain ⟨parent, parentAt, alive, pid⟩ := created
      exact Or.inr ⟨creator, parent, parentAt, alive, pid.symm⟩
  | ended slot status kin present _ =>
    intro other after afterAt
    obtain ⟨before, beforeAt, rfl⟩ := ended_cases present afterAt
    have parented := all other before beforeAt
    rw [show before.parentPid = (if other = slot then { before with exited := some status } else before).parentPid by
      split <;> rfl] at parented
    generalize (if other = slot then { before with exited := some status } else before) = ended at parented
    rw [Kin.adopted]
    split
    · exact first
    next stays => exact parented.ended present stays status
  | reaped slot caller child parent status present exited _ _ _ =>
    refine all.update ?_ (fun _ none => by cases none)
    intro found foundAt
    rw [present] at foundAt
    cases foundAt
    rw [exited]
    exact Option.some_ne_none _

theorem Founded.parented (founded : Founded table.family) (runs : FirstRuns table) : Parented table.family 1 := by
  obtain ⟨idle, idleAt, pid, _⟩ := founded.root
  obtain ⟨task, taskAt, kin⟩ := table.family_eq_some_iff.mp idleAt
  obtain ⟨_, samePid, _, exited, _⟩ := (task.kin_eq_some_iff idle).mp kin
  refine Or.inr ⟨0, idle, idleAt, ?_, pid⟩
  rw [exited, if_neg (runs task (List.mem_of_getElem? taskAt) (samePid.symm.trans pid))]

theorem process_table_consistent (calls : List Call)
    (spared : Admissible schedStep (fun table call => FirstRuns (schedStep table call)) schedulerInit calls) :
    ConsistentFamily (run schedStep schedulerInit calls).family := by
  have kept := run_invariant_of_admissible schedStep (fun table call => FirstRuns (schedStep table call))
    (fun table => Founded table.family ∧ AllParented table.family) ?_ calls schedulerInit ⟨founded_init, ?_⟩ spared
  · exact ⟨kept.1.nonzero, kept.1.distinct, kept.2⟩
  · rintro table call runs ⟨founded, all⟩
    have legal := kinEvent_legal table call
    have next : Founded (schedStep table call).family := by
      rw [schedStep_family]
      exact founded.apply legal
    have first := next.parented runs
    rw [schedStep_family] at next first ⊢
    exact ⟨next, all.apply legal first⟩
  · intro slot kin present
    cases slot with
    | zero =>
      cases present
      exact Or.inl rfl
    | succ slot => cases present

instance (table : Table) : Decidable (FirstRuns table) := inferInstanceAs (Decidable (∀ task ∈ table.tasks, _ → _))

theorem process_table_consistent_grandchild : ConsistentFamily (run schedStep schedulerInit grandchildCalls).family :=
  process_table_consistent grandchildCalls ⟨by decide, by decide, by decide, trivial⟩

end PhotonOS.Sched
