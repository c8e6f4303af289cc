import PhotonOS.Sched.Orphans

/-!
`scheduler_waitpid` against a register of births, ends and reapings.
-/

namespace PhotonOS.Sched

open Function Transition

structure Register where
  serial : Nat → Nat
  next : Nat
  parent : Nat → Option Nat
  status : Nat → Option (BitVec 32)
  returned : List Nat

def Register.empty : Register where
  serial := fun _ => 0
  next := 1
  parent := fun _ => none
  status := fun _ => none
  returned := []

def Register.record (register : Register) (table : Table) : KinEvent → Register
  | .quiet => register
  | .born slot creator _ => { register with
      serial := update register.serial slot register.next
      next := register.next + 1
      parent := update register.parent register.next (creator.map register.serial)
      status := update register.status register.next none }
  | .ended slot status => { register with
      parent := fun child =>
        if register.parent child = some (register.serial slot) then (findTask table.tasks 1).map register.serial
        else register.parent child
      status := update register.status (register.serial slot) (some status) }
  | .reaped slot _ => { register with returned := register.serial slot :: register.returned }

structure Recorded where
  table : Table
  register : Register

def recordedStep (state : Recorded) (call : Call) : Recorded where
  table := schedStep state.table call
  register := state.register.record state.table (kinEvent state.table call)

def recordedInit : Recorded where
  table := schedulerInit
  register := Register.empty.record { tasks := [], nextPid := 1, idle := 0 } (.born 0 none ⟨1, 0, none, false⟩)

/-! The register and the table agree. -/

/-- The parent on record of the task in `slot`. A parent that has terminated is the idle task. -/
def ParentOnRecord (family : Family) (register : Register) (slot : Nat) (kin : Kin) : Prop :=
  (kin.parentPid = 0 ∧ register.parent (register.serial slot) = none) ∨
    ∃ parent parentKin, family parent = some parentKin ∧ kin.parentPid = parentKin.pid ∧
      register.parent (register.serial slot) = some (register.serial parent) ∧ (parentKin.exited ≠ none → parent = 0)

structure Linked (family : Family) (register : Register) : Prop where
  founded : Founded family
  serialBound : ∀ slot kin, family slot = some kin → register.serial slot < register.next
  serialDistinct : ∀ first second left right, family first = some left → family second = some right →
    register.serial first = register.serial second → first = second
  parents : ∀ slot kin, family slot = some kin → ParentOnRecord family register slot kin
  statuses : ∀ slot kin, family slot = some kin → register.status (register.serial slot) = kin.exited
  returnedBound : ∀ serial ∈ register.returned, serial < register.next
  returnedGone : ∀ slot kin, family slot = some kin → register.serial slot ∉ register.returned

variable {family : Family} {register : Register} {slot caller : Nat} {kin : Kin} {table : Table}
    {status : BitVec 32} {state : Recorded} {current : Task}

theorem Linked.child_iff (linked : Linked family register) {callerKin : Kin} (present : family slot = some kin)
    (callerAt : family caller = some callerKin) :
    register.parent (register.serial slot) = some (register.serial caller) ↔ kin.parentPid = callerKin.pid := by
  have callerNonzero := linked.founded.nonzero caller callerKin callerAt
  rcases linked.parents slot kin present with ⟨orphan, nobody⟩ | ⟨parent, parentKin, parentAt, pidEq, onRecord, _⟩
  · rw [nobody, orphan]
    constructor
    · intro same
      cases same
    · intro same
      exact absurd same.symm callerNonzero
  · rw [onRecord, pidEq]
    constructor
    · intro same
      have parentIs := linked.serialDistinct parent caller parentKin callerKin parentAt callerAt (Option.some.inj same)
      subst parentIs
      rw [parentAt] at callerAt
      cases callerAt
      rfl
    · intro same
      rw [linked.founded.distinct parent caller parentKin callerKin parentAt callerAt same]

theorem Linked.born (linked : Linked family register) (table : Table) {creator : Option Nat}
    (legal : Legal family (.born slot creator kin)) :
    Linked (family.apply (.born slot creator kin)) (register.record table (.born slot creator kin)) := by
  have founded := linked.founded.apply legal
  obtain ⟨free, nonzero, fresh, alive, created⟩ : family slot = none ∧ kin.pid ≠ 0 ∧
      (∀ other found, family other = some found → found.pid ≠ kin.pid) ∧ kin.exited = none ∧
      CreatedBy family creator kin.parentPid := by
    cases legal with
    | born _ _ _ free nonzero fresh alive created => exact ⟨free, nonzero, fresh, alive, created⟩
  -- everyone but the new task is where it was, under the same number
  have old : ∀ other found, family other = some found → other ≠ slot := by
    rintro other found present rfl
    rw [free] at present
    cases present
  have serialOld : ∀ other found, family other = some found →
      update register.serial slot register.next other = register.serial other :=
    fun other found present => update_of_ne (old other found present) _ _
  have notNext : ∀ other found, family other = some found → register.serial other ≠ register.next :=
    fun other found present => Nat.ne_of_lt (linked.serialBound other found present)
  have stays : ∀ other found, family other = some found → update family slot (some kin) other = some found :=
    fun other found present => (update_of_ne (old other found present) _ _).trans present
  simp only [Family.apply, Register.record]
  refine ⟨founded, ?_, ?_, ?_, ?_, ?_, ?_⟩
  · intro other after afterAt
    rcases born_cases afterAt with ⟨rfl, rfl⟩ | ⟨_, present⟩
    · simp
    · dsimp only
      rw [serialOld other after present]
      exact Nat.lt_succ_of_lt (linked.serialBound other after present)
  · intro first second left right leftAt rightAt same
    dsimp only at same
    rcases born_cases leftAt with ⟨rfl, rfl⟩ | ⟨_, leftBefore⟩
    · rcases born_cases rightAt with ⟨rfl, _⟩ | ⟨_, rightBefore⟩
      · rfl
      · rw [update_self, serialOld second right rightBefore] at same
        exact absurd same.symm (notNext second right rightBefore)
    · rcases born_cases rightAt with ⟨rfl, rfl⟩ | ⟨_, rightBefore⟩
      · rw [update_self, serialOld first left leftBefore] at same
        exact absurd same (notNext first left leftBefore)
      · rw [serialOld first left leftBefore, serialOld second right rightBefore] at same
        exact linked.serialDistinct first second left right leftBefore rightBefore same
  · intro other after afterAt
    rcases born_cases afterAt with ⟨rfl, rfl⟩ | ⟨_, present⟩
    · unfold ParentOnRecord
      simp only [update_self]
      cases creator with
      | none => exact Or.inl ⟨created, rfl⟩
      | some maker =>
        obtain ⟨parent, parentAt, parentAlive, pidEq⟩ := created
        refine Or.inr ⟨maker, parent, stays maker parent parentAt, pidEq, ?_, fun exited => absurd parentAlive exited⟩
        rw [serialOld maker parent parentAt]
        rfl
    · unfold ParentOnRecord
      simp only [serialOld other after present, update_of_ne (notNext other after present)]
      rcases linked.parents other after present with orphan | ⟨parent, parentKin, parentAt, pidEq, onRecord, idle⟩
      · exact Or.inl orphan
      · refine Or.inr ⟨parent, parentKin, stays parent parentKin parentAt, pidEq, ?_, idle⟩
        rw [serialOld parent parentKin parentAt]
        exact onRecord
  · intro other after afterAt
    rcases born_cases afterAt with ⟨rfl, rfl⟩ | ⟨_, present⟩
    · simp only [update_self]
      exact alive.symm
    · simp only [serialOld other after present, update_of_ne (notNext other after present)]
      exact linked.statuses other after present
  · intro serial member
    exact Nat.lt_succ_of_lt (linked.returnedBound serial member)
  intro other after afterAt
  rcases born_cases afterAt with ⟨rfl, rfl⟩ | ⟨_, present⟩
  · simp only [update_self]
    intro member
    exact Nat.lt_irrefl _ (linked.returnedBound _ member)
  · simp only [serialOld other after present]
    exact linked.returnedGone other after present

theorem findTask_one (founded : Founded table.family) : findTask table.tasks 1 = some 0 := by
  obtain ⟨idle, idleAt, idlePid, _⟩ := founded.root
  obtain ⟨task, taskAt, taskKin⟩ := table.family_eq_some_iff.mp idleAt
  obtain ⟨occupied, pidEq, _⟩ := (task.kin_eq_some_iff idle).mp taskKin
  obtain ⟨bound, here⟩ := List.getElem?_eq_some_iff.mp taskAt
  apply List.findIdx?_eq_some_iff_getElem.mpr
  refine ⟨bound, ?_, fun earlier below => absurd below (Nat.not_lt_zero earlier)⟩
  rw [here]
  simp [occupied, ← pidEq, idlePid]

theorem Linked.ended (linked : Linked table.family register) (legal : Legal table.family (.ended slot status)) :
    Linked (table.family.apply (.ended slot status)) (register.record table (.ended slot status)) := by
  have founded := linked.founded.apply legal
  obtain ⟨kin, present, alive⟩ : ∃ kin, table.family slot = some kin ∧ kin.exited = none := by
    cases legal with
    | ended _ _ kin present alive => exact ⟨kin, present, alive⟩
  have source := fun other after (afterAt : table.family.apply (.ended slot status) other = some after) =>
    ended_cases present afterAt
  simp only [Register.record]
  refine ⟨founded, ?_, ?_, ?_, ?_, linked.returnedBound, ?_⟩
  · intro other after afterAt
    obtain ⟨before, beforeAt, _⟩ := source other after afterAt
    exact linked.serialBound other before beforeAt
  · intro first second left right leftAt rightAt same
    obtain ⟨oldLeft, oldLeftAt, _⟩ := source first left leftAt
    obtain ⟨oldRight, oldRightAt, _⟩ := source second right rightAt
    exact linked.serialDistinct first second oldLeft oldRight oldLeftAt oldRightAt same
  · intro other after afterAt
    obtain ⟨before, beforeAt, rfl⟩ := source other after afterAt
    have parentPid : (if other = slot then { before with exited := some status } else before).parentPid =
        before.parentPid := by rw [apply_ite Kin.parentPid, ite_self]
    unfold ParentOnRecord
    by_cases child : before.parentPid = kin.pid
    · -- a child of the task that ends: both sides hand it to the idle task
      obtain ⟨idle, idleAt, idlePid, _⟩ := linked.founded.root
      have handed : (Kin.adopted kin.pid
          (if other = slot then { before with exited := some status } else before)).parentPid = 1 := by
        rw [Kin.adopted, if_pos (parentPid.trans child)]
      refine Or.inr ⟨0, _, ended_at present status idleAt, ?_, ?_, fun _ => rfl⟩
      · rw [handed, Kin.adopted_pid, apply_ite Kin.pid, ite_self, idlePid]
      · simp only [(linked.child_iff beforeAt present).mpr child, if_true, findTask_one linked.founded, Option.map_some]
    · have notChild : register.parent (register.serial other) ≠ some (register.serial slot) :=
        fun same => child ((linked.child_iff beforeAt present).mp same)
      have kept : (Kin.adopted kin.pid (if other = slot then { before with exited := some status } else before)).parentPid =
          before.parentPid := by
        rw [Kin.adopted, if_neg (by rw [parentPid]; exact child), parentPid]
      simp only [if_neg notChild, kept]
      rcases linked.parents other before beforeAt with orphan | ⟨parent, parentKin, parentAt, pidEq, onRecord, idle⟩
      · exact Or.inl orphan
      refine Or.inr ⟨parent, _, ended_at present status parentAt, ?_, onRecord, ?_⟩
      · rw [Kin.adopted_pid, apply_ite Kin.pid, ite_self]
        exact pidEq
      intro exited
      by_cases here : parent = slot
      · subst here
        rw [present] at parentAt
        cases parentAt
        exact absurd pidEq child
      · rw [if_neg here, Kin.adopted_exited] at exited
        exact idle exited
  · intro other after afterAt
    obtain ⟨before, beforeAt, rfl⟩ := source other after afterAt
    rw [Kin.adopted_exited]
    by_cases here : other = slot
    · subst here
      simp
    · have different : register.serial other ≠ register.serial slot :=
        fun same => here (linked.serialDistinct other slot before kin beforeAt present same)
      simp only [update_of_ne different, if_neg here]
      exact linked.statuses other before beforeAt
  · intro other after afterAt
    obtain ⟨before, beforeAt, _⟩ := source other after afterAt
    exact linked.returnedGone other before beforeAt

theorem Linked.reaped (linked : Linked family register) (table : Table) (legal : Legal family (.reaped slot caller)) :
    Linked (family.apply (.reaped slot caller)) (register.record table (.reaped slot caller)) := by
  have founded := linked.founded.apply legal
  obtain ⟨child, parent, status, present, exited, waiting, childOf⟩ : ∃ child parent status,
      family slot = some child ∧ child.exited = some status ∧ family caller = some parent ∧
      child.parentPid = parent.pid := by
    cases legal with
    | reaped _ _ child parent status present exited waiting _ childOf =>
      exact ⟨child, parent, status, present, exited, waiting, childOf⟩
  have notIdle : slot ≠ 0 := by
    rintro rfl
    obtain ⟨idle, idleAt, _, idleParent, _⟩ := linked.founded.root
    rw [present] at idleAt
    cases idleAt
    exact linked.founded.nonzero caller parent waiting (childOf.symm.trans idleParent)
  refine ⟨founded, ?_, ?_, ?_, ?_, ?_, ?_⟩
  · intro other after afterAt
    exact linked.serialBound other after (reaped_cases afterAt).2
  · intro first second left right leftAt rightAt
    exact linked.serialDistinct first second left right (reaped_cases leftAt).2 (reaped_cases rightAt).2
  · intro other after afterAt
    rcases linked.parents other after (reaped_cases afterAt).2 with
      orphan | ⟨holder, holderKin, holderAt, pidEq, onRecord, idle⟩
    · exact Or.inl orphan
    have elsewhere : holder ≠ slot := by
      rintro rfl
      rw [present] at holderAt
      cases holderAt
      exact notIdle (idle (by rw [exited]; exact Option.some_ne_none _))
    exact Or.inr ⟨holder, holderKin, (update_of_ne elsewhere _ _).trans holderAt, pidEq, onRecord, idle⟩
  · intro other after afterAt
    exact linked.statuses other after (reaped_cases afterAt).2
  · intro serial member
    rcases List.mem_cons.mp member with rfl | member
    · exact linked.serialBound slot child present
    · exact linked.returnedBound serial member
  · intro other after afterAt member
    obtain ⟨elsewhere, beforeAt⟩ := reaped_cases afterAt
    rcases List.mem_cons.mp member with same | member
    · exact elsewhere (linked.serialDistinct other slot after child beforeAt present same)
    · exact linked.returnedGone other after beforeAt member

theorem linked_init : Linked recordedInit.table.family recordedInit.register := by
  refine ⟨founded_init, ?_, ?_, ?_, ?_, ?_, ?_⟩
  · intro slot kin present
    obtain ⟨rfl, _⟩ := family_init present
    decide
  · intro first second left right leftAt rightAt _
    exact (family_init leftAt).1.trans (family_init rightAt).1.symm
  · intro slot kin present
    obtain ⟨rfl, rfl⟩ := family_init present
    exact Or.inl ⟨rfl, rfl⟩
  · intro slot kin present
    obtain ⟨rfl, rfl⟩ := family_init present
    rfl
  · intro serial member
    cases member
  · intro slot kin _ member
    cases member

theorem linked_step (state : Recorded) (call : Call) (linked : Linked state.table.family state.register) :
    Linked (recordedStep state call).table.family (recordedStep state call).register := by
  have legal := kinEvent_legal state.table call
  simp only [recordedStep, schedStep_family]
  cases event : kinEvent state.table call with
  | quiet => exact linked
  | born slot creator kin =>
    rw [event] at legal
    exact linked.born state.table legal
  | ended slot status =>
    rw [event] at legal
    exact linked.ended legal
  | reaped slot caller =>
    rw [event] at legal
    exact linked.reaped state.table legal

variable {calls : List Call} {pid options nextPid : BitVec 32}

theorem linked_reachable : Linked (run recordedStep recordedInit calls).table.family
      (run recordedStep recordedInit calls).register := by
  apply run_invariant recordedStep fun state => Linked state.table.family state.register
  · exact linked_step
  · exact linked_init

/-! One round of `waitpid`. -/

def zombieChild (table : Table) (caller : Nat) (pid : BitVec 32) : Option Task := do
  let current ← table.tasks[caller]?
  table.tasks.find? fun task => waitMatches current.pid pid task && task.state == .zombie

/-- A child of the caller that `pid` asks for and that nobody has waited for yet. -/
def ChildLeft (state : Recorded) (caller : Nat) (pid : BitVec 32) : Prop :=
  ∃ slot task, state.table.tasks[slot]? = some task ∧ task.vacant = false ∧
    state.register.parent (state.register.serial slot) = some (state.register.serial caller) ∧
    (0 < pid.toInt → task.pid = pid)

structure WaitExact (state : Recorded) (caller : Nat) (pid options : BitVec 32) : Prop where
  reaped : ∀ slot found status, (waitpidRound state.table caller pid options).2 = .reaped slot found status →
    state.register.serial slot ∉ state.register.returned ∧
    state.register.parent (state.register.serial slot) = some (state.register.serial caller) ∧
    state.register.status (state.register.serial slot) = some status ∧
    ∃ task, (waitpidRound state.table caller pid options).1.tasks[slot]? = some task ∧ task.pid = 0
  refused : (waitpidRound state.table caller pid options).2.value = some (-1) ↔ ¬ChildLeft state caller pid

theorem waitMatches_iff (callerPid pid : BitVec 32) (task : Task) : waitMatches callerPid pid task = true ↔
      task.vacant = false ∧ task.parentPid = callerPid ∧ (0 < pid.toInt → task.pid = pid) := by
  unfold waitMatches
  simp only [Bool.and_eq_true, Bool.not_eq_true', beq_iff_eq, Bool.and_eq_false_iff, decide_eq_false_iff_not, bne_eq_false_iff_eq]
  constructor
  · rintro ⟨⟨occupied, parent⟩, named⟩
    exact ⟨occupied, parent, fun positive => named.resolve_left (not_not_intro positive)⟩
  rintro ⟨occupied, parent, named⟩
  refine ⟨⟨occupied, parent⟩, ?_⟩
  by_cases positive : 0 < pid.toInt
  · exact Or.inr (named positive)
  · exact Or.inl positive

theorem family_of_occupied {task : Task} (present : table.tasks[slot]? = some task) (occupied : task.vacant = false) :
    table.family slot = some ⟨task.pid, task.parentPid, if task.state = .zombie then some task.exitStatus else none,
      task.userMode⟩ := by
  rw [Table.family_at present]
  simp [Task.kin, occupied]

section

variable (linked : Linked state.table.family state.register) (currentAt : state.table.tasks[caller]? = some current)
    (occupied : current.vacant = false)
include linked currentAt occupied

theorem childLeft_iff (pid : BitVec 32) :
    ChildLeft state caller pid ↔ state.table.tasks.any (waitMatches current.pid pid) = true := by
  have currentKin := family_of_occupied currentAt occupied
  rw [List.any_eq_true]
  constructor
  · rintro ⟨slot, task, present, taskOccupied, childOf, named⟩
    refine ⟨task, List.mem_of_getElem? present, (waitMatches_iff _ _ _).mpr ⟨taskOccupied, ?_, named⟩⟩
    exact (linked.child_iff (family_of_occupied present taskOccupied) currentKin).mp childOf
  rintro ⟨task, member, matched⟩
  obtain ⟨taskOccupied, childOf, named⟩ := (waitMatches_iff _ _ _).mp matched
  obtain ⟨slot, present⟩ := List.mem_iff_getElem?.mp member
  refine ⟨slot, task, present, taskOccupied, ?_, named⟩
  exact (linked.child_iff (family_of_occupied present taskOccupied) currentKin).mpr childOf

theorem waitExact_reaped
    {found : BitVec 32} (outcome : (waitpidRound state.table caller pid options).2 = .reaped slot found status) :
    state.register.serial slot ∉ state.register.returned ∧
    state.register.parent (state.register.serial slot) = some (state.register.serial caller) ∧
    state.register.status (state.register.serial slot) = some status ∧
    ∃ task, (waitpidRound state.table caller pid options).1.tasks[slot]? = some task ∧ task.pid = 0 := by
  obtain ⟨same, child, sameAt, childAt, matched, zombie, _, statusEq, after⟩ := waitpidRound_reaped outcome
  rw [currentAt] at sameAt
  cases sameAt
  obtain ⟨childOccupied, childOf, _⟩ := (waitMatches_iff _ _ _).mp matched
  have childKin := family_of_occupied childAt childOccupied
  have currentKin := family_of_occupied currentAt occupied
  refine ⟨linked.returnedGone slot _ childKin, (linked.child_iff childKin currentKin).mpr childOf, ?_, ?_⟩
  · rw [linked.statuses slot _ childKin, if_pos zombie, statusEq]
  · refine ⟨reap child, ?_, rfl⟩
    rw [after, List.getElem?_modify, childAt]
    simp

end

theorem waitpidRound_value (currentAt : table.tasks[caller]? = some current) (pid options : BitVec 32) :
    (∀ child, zombieChild table caller pid = some child →
      (waitpidRound table caller pid options).2.value = some child.pid.toInt ∧
        waitMatches current.pid pid child = true ∧ child ∈ table.tasks) ∧ (zombieChild table caller pid = none →
      ((waitpidRound table caller pid options).2.value = some (-1) ↔
        table.tasks.any (waitMatches current.pid pid) = false)) := by
  unfold waitpidRound zombieChild
  simp only [currentAt, Option.bind_eq_bind, Option.bind_some]
  constructor
  · intro child found
    have matched := List.find?_some found
    simp only [Bool.and_eq_true] at matched
    cases search : table.tasks.findIdx? fun task => waitMatches current.pid pid task && task.state == .zombie with
    | none =>
      rw [List.findIdx?_eq_none_iff] at search
      have none := search child (List.mem_of_find?_eq_some found)
      rw [matched.1, matched.2] at none
      cases none
    | some slot =>
      have same : table.tasks[slot]? = some child := by
        rw [List.find?_eq_bind_findIdx?_getElem?, search] at found
        exact found
      simp only [same]
      exact ⟨rfl, matched.1, List.mem_of_find?_eq_some found⟩
  · intro nobody
    have search : (table.tasks.findIdx? fun task => waitMatches current.pid pid task && task.state == .zombie) = none := by
      rw [List.findIdx?_eq_none_iff]
      rw [List.find?_eq_none] at nobody
      intro task member
      exact Bool.eq_false_iff.mpr (nobody task member)
    simp only [search]
    cases table.tasks.any (waitMatches current.pid pid) with
    | false => simp [WaitOutcome.value]
    | true =>
      simp only [Bool.not_true, Bool.false_eq_true, if_false, Bool.true_eq_false, iff_false]
      split <;> simp [WaitOutcome.value]

theorem waitExact_iff_of_linked (linked : Linked state.table.family state.register)
    (currentAt : state.table.tasks[caller]? = some current) (live : current.live = true) :
    WaitExact state caller pid options ↔
      ∀ child, zombieChild state.table caller pid = some child → child.pid ≠ 0xFFFFFFFF := by
  have occupied : current.vacant = false := by
    simp only [Task.live, Bool.and_eq_true, Bool.not_eq_true'] at live
    exact live.1
  obtain ⟨onReap, onNone⟩ := waitpidRound_value currentAt pid options
  have left := childLeft_iff linked currentAt occupied pid
  have minusOne : ∀ found : BitVec 32, found.toInt = -1 ↔ found = 0xFFFFFFFF := by
    intro found
    rw [← BitVec.toInt_inj]
    rfl
  constructor
  · intro exact_ child found
    obtain ⟨value, matched, member⟩ := onReap child found
    intro lost
    have childLeft := left.mpr (List.any_eq_true.mpr ⟨child, member, matched⟩)
    refine exact_.refused.mp ?_ childLeft
    rw [value, (minusOne child.pid).mpr lost]
  · intro representable
    refine ⟨fun slot found status outcome => waitExact_reaped linked currentAt occupied outcome, ?_⟩
    cases search : zombieChild state.table caller pid with
    | none => rw [onNone search, left, Bool.not_eq_true]
    | some child =>
      obtain ⟨value, matched, member⟩ := onReap child search
      have childLeft := left.mpr (List.any_eq_true.mpr ⟨child, member, matched⟩)
      rw [value]
      constructor
      · intro lost
        exact absurd ((minusOne child.pid).mp (Option.some.inj lost)) (representable child search)
      · intro nobody
        exact absurd childLeft nobody

/-- In every reachable state a round of `waitpid` by a live task is exact, unless the child it finds
has the one pid that reads as -1. -/
theorem waitpid_exact_iff (calls : List Call) (caller : Nat) (pid options : BitVec 32) (current : Task)
    (currentAt : (run recordedStep recordedInit calls).table.tasks[caller]? = some current)
    (live : current.live = true) : WaitExact (run recordedStep recordedInit calls) caller pid options ↔
      ∀ child, zombieChild (run recordedStep recordedInit calls).table caller pid = some child →
        child.pid ≠ 0xFFFFFFFF :=
  waitExact_iff_of_linked linked_reachable currentAt live

theorem waitpid_exact_iff_oneChild :
    WaitExact (run recordedStep recordedInit [.addUserProcess none, .fork 1 true, .terminate 2 7]) 1 0 0 ↔
      ∀ child, zombieChild (run recordedStep recordedInit
        [.addUserProcess none, .fork 1 true, .terminate 2 7]).table 1 0 = some child → child.pid ≠ 0xFFFFFFFF :=
  waitpid_exact_iff _ 1 0 0 _ rfl rfl

/-! A shell that forks and waits often enough gets the child with pid `0xFFFFFFFF`. -/

def idleTask : Task := newTask none false 1
def shellTask : Task := newTask none true 2

def shellTable (child : Task) (nextPid : BitVec 32) : Table where
  tasks := [idleTask, shellTask, child]
  nextPid := nextPid
  idle := 0

def childTask (pid : BitVec 32) : Task := forkedTask shellTask pid
def endedChild (pid : BitVec 32) : Task := { childTask pid with state := .zombie }
def reapedChild : Task := reap (childTask 0)

def forkAndEnd : List Call := [.fork 1 true, .terminate 2 0]

theorem generatePid_next (nonzero : table.nextPid ≠ 0) (unused : pidInUse table.tasks table.nextPid = false) :
    generatePid table = some table.nextPid := by
  simp only [generatePid, generatePidFrom, if_neg nonzero, unused, Bool.false_eq_true, if_false]

theorem shell_forks (notZero : nextPid ≠ 0#32) (notOne : nextPid ≠ 1#32) (notTwo : nextPid ≠ 2#32) :
    schedStep (shellTable reapedChild nextPid) (.fork 1 true) = shellTable (childTask nextPid) (nextPid + 1) := by
  have generated : generatePid (shellTable reapedChild nextPid) = some nextPid := by
    apply generatePid_next
    · exact notZero
    · simp [shellTable, pidInUse, notOne.symm, notTwo.symm, idleTask, shellTask, newTask, reapedChild, reap, Task.vacant]
  have allocated : allocateTaskSlot (shellTable reapedChild nextPid).tasks = some 2 := rfl
  change (addTask (shellTable reapedChild nextPid) (forkedTask shellTask)).1 = _
  simp only [addTask, allocated, generated]
  rfl

theorem child_ends (notZero : pid ≠ 0#32) (notTwo : pid ≠ 2#32) :
    schedStep (shellTable (childTask pid) nextPid) (.terminate 2 0) = shellTable (endedChild pid) nextPid := by
  simp [schedStep, callable, Call.caller, callEffect, schedulerTerminateTask, shellTable, endedChild, childTask,
    forkedTask, shellTask, idleTask, newTask, Task.live, Task.vacant, reparent, wakeParentWaiter, notZero.symm, notTwo.symm]
  rfl

theorem shell_waits (pid nextPid : BitVec 32) :
    schedStep (shellTable (endedChild pid) nextPid) (.waitpid 1 0 0) = shellTable reapedChild nextPid := rfl

theorem shell_rounds : ∀ rounds, rounds + 4 < 2 ^ 32 →
    run schedStep (shellTable reapedChild 4) (List.replicate rounds (forkAndEnd ++ [.waitpid 1 0 0])).flatten =
      shellTable reapedChild (BitVec.ofNat 32 (rounds + 4)) := by
  intro rounds
  induction rounds with
  | zero => intro _; rfl
  | succ rounds ih =>
    intro bound
    have different : ∀ small, small < 3 → BitVec.ofNat 32 (rounds + 4) ≠ BitVec.ofNat 32 small := by
      intro small low same
      have value := congrArg BitVec.toNat same
      simp only [BitVec.toNat_ofNat] at value
      omega
    have next : BitVec.ofNat 32 (rounds + 4) + 1 = BitVec.ofNat 32 (rounds + 1 + 4) := by
      exact (BitVec.ofNat_add (rounds + 4) 1).symm
    rw [List.replicate_succ', List.flatten_append, run_append, ih (by omega)]
    simp only [List.flatten_singleton, forkAndEnd, List.cons_append, List.nil_append, run_cons, run_nil]
    rw [shell_forks (different 0 (by decide)) (different 1 (by decide)) (different 2 (by decide)),
      child_ends (different 0 (by decide)) (different 2 (by decide)), shell_waits, next]

def lastPidCalls : List Call :=
  .addUserProcess none :: (forkAndEnd ++ [.waitpid 1 0 0]) ++
    ((List.replicate (2 ^ 32 - 5) (forkAndEnd ++ [.waitpid 1 0 0])).flatten ++ forkAndEnd)

theorem lastPidCalls_table : run schedStep schedulerInit lastPidCalls = shellTable (endedChild 0xFFFFFFFF) 0 := by
  have first : run schedStep schedulerInit (.addUserProcess none :: (forkAndEnd ++ [.waitpid 1 0 0])) =
      shellTable reapedChild 4 := rfl
  rw [lastPidCalls, run_append, first, run_append, shell_rounds _ (by decide)]
  simp only [forkAndEnd, run_cons, run_nil]
  rfl

theorem recorded_table : ∀ state, (run recordedStep state calls).table = run schedStep state.table calls := by
  induction calls with
  | nil => intro state; rfl
  | cons call calls ih => intro state; exact ih (recordedStep state call)

/-- The shell has a terminated child and is told that it has none. -/
theorem waitpid_loses_last_pid : ¬WaitExact (run recordedStep recordedInit lastPidCalls) 1 0 0 := by
  have tableEq : (run recordedStep recordedInit lastPidCalls).table = shellTable (endedChild 0xFFFFFFFF) 0 :=
    (recorded_table recordedInit).trans lastPidCalls_table
  have shellAt : (run recordedStep recordedInit lastPidCalls).table.tasks[1]? = some shellTask := by
    rw [tableEq]
    rfl
  rw [waitExact_iff_of_linked linked_reachable shellAt rfl]
  intro representable
  refine representable (endedChild 0xFFFFFFFF) ?_ rfl
  rw [tableEq]
  rfl

end PhotonOS.Sched
