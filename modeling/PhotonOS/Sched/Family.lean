import PhotonOS.Sched.Tasks

/-!
Who is whose child. A `Family` keeps, for every occupied slot, the pid, the
parent's pid, the exit status of a terminated task and whether it runs user
code.
-/

namespace PhotonOS.Sched

open Function Table

structure Kin where
  pid : BitVec 32
  parentPid : BitVec 32
  exited : Option (BitVec 32)
  userMode : Bool

abbrev Family := Nat → Option Kin

def Task.kin (task : Task) : Option Kin :=
  if task.vacant then none
  else some {
    pid := task.pid
    parentPid := task.parentPid
    exited := if task.state = .zombie then some task.exitStatus else none
    userMode := task.userMode }

def Table.family (table : Table) : Family := fun slot => table.tasks[slot]?.bind Task.kin

inductive KinEvent where
  | quiet
  | born (slot : Nat) (creator : Option Nat) (kin : Kin)
  | ended (slot : Nat) (status : BitVec 32)
  | reaped (slot caller : Nat)

def Kin.adopted (exitedPid : BitVec 32) (kin : Kin) : Kin :=
  if kin.parentPid = exitedPid then { kin with parentPid := 1 } else kin

def Family.apply (family : Family) : KinEvent → Family
  | .quiet => family
  | .born slot _ kin => update family slot (some kin)
  | .ended slot status =>
    match family slot with
    | none => family
    | some kin => fun other =>
      (update family slot (some { kin with exited := some status }) other).map (Kin.adopted kin.pid)
  | .reaped slot _ => update family slot none

/-! The change that a call makes. -/

def birth (table : Table) (creator : Option Nat) (make : BitVec 32 → Task) : KinEvent :=
  match allocateTaskSlot table.tasks, generatePid table with
  | some slot, some pid => (make pid).kin.elim .quiet (.born slot creator)
  | _, _ => .quiet

def death (table : Table) (slot : Nat) (status : BitVec 32) : KinEvent :=
  if (table.tasks[slot]?).any Task.live then .ended slot status else .quiet

def callKin (table : Table) : Call → KinEvent
  | .createTask creator userMode => birth table creator (newTask (creator.bind (table.tasks[·]?)) userMode)
  | .addUserProcess creator => birth table creator (newTask (creator.bind (table.tasks[·]?)) true)
  | .fork caller cloned =>
    match table.tasks[caller]? with
    | some parent => if cloned then birth table (some caller) (forkedTask parent) else .quiet
    | none => .quiet
  | .terminate slot status => death table slot status
  | .sendSignal pid signum =>
    match findTask table.tasks pid with
    | some slot => if signum.toNat = sigkill then death table slot (BitVec.ofNat 32 (128 + sigkill)) else .quiet
    | none => .quiet
  | .waitpid caller pid options =>
    match (waitpidRound table caller pid options).2 with
    | .reaped slot _ _ => .reaped slot caller
    | _ => .quiet
  | _ => .quiet

def kinEvent (table : Table) (call : Call) : KinEvent := if callable table call then callKin table call else .quiet

/-! Tasks seen as kin. -/

theorem Task.kin_eq_some_iff (task : Task) (kin : Kin) :
    task.kin = some kin ↔ task.vacant = false ∧ kin.pid = task.pid ∧ kin.parentPid = task.parentPid ∧
      kin.exited = (if task.state = .zombie then some task.exitStatus else none) ∧ kin.userMode = task.userMode := by
  cases kin
  unfold Task.kin
  cases task.vacant <;> simp [eq_comm]

theorem Task.live_iff (task : Task) : task.live = true ↔ ∃ kin, task.kin = some kin ∧ kin.exited = none := by
  unfold Task.live Task.kin
  cases task.vacant
  · by_cases zombie : task.state = .zombie <;> simp [zombie]
  · simp

theorem Table.family_eq_some_iff (table : Table) {slot : Nat} {kin : Kin} :
    table.family slot = some kin ↔ ∃ task, table.tasks[slot]? = some task ∧ task.kin = some kin := by
  exact Option.bind_eq_some_iff

variable {table : Table} {slot caller : Nat} {task : Task} {tasks : List Task} {pid options status : BitVec 32}
    {creator : Option Nat} {call : Call}

theorem Table.family_at (present : table.tasks[slot]? = some task) : table.family slot = task.kin := by
  unfold family
  rw [present]
  rfl

theorem kin_of_live {old new : Task} (oldLive : old.live = true) (newLive : new.live = true)
    (pid : new.pid = old.pid) (parentPid : new.parentPid = old.parentPid) (userMode : new.userMode = old.userMode) :
    new.kin = old.kin := by
  simp only [Task.live, Bool.and_eq_true, Bool.not_eq_true', bne_iff_ne] at oldLive newLive
  unfold Task.kin
  rw [oldLive.1, newLive.1, if_neg oldLive.2, if_neg newLive.2, pid, parentPid, userMode]

theorem wake_kin (live : task.live = true) : task.wake.kin = task.kin := kin_of_live live rfl rfl rfl rfl

theorem sleep_kin (live : task.live = true) {reason : WaitReason} {target : BitVec 64} :
    (task.sleep reason target).kin = task.kin := by
  apply kin_of_live live
  · cases reason <;> rfl
  · rfl
  · rfl
  · rfl

theorem stop_kin (live : task.live = true) : task.stop.kin = task.kin := kin_of_live live rfl rfl rfl rfl

theorem live_of_state {state : TaskState} (eq : task.state = state)
    (running : state ≠ .unused ∧ state ≠ .dead ∧ state ≠ .zombie) : task.live = true := by
  subst eq
  simp [Task.live, Task.vacant, running.1, running.2.1, running.2.2]

variable {signum : Nat} {make : BitVec 32 → Task} {parentPid : BitVec 32}

theorem post_kin : (task.post signum).kin = task.kin := by
  unfold Task.post
  split
  next waiting =>
    have live : (task.addPending signum).live = true := by
      rcases waiting.1 with state | state | state <;> exact live_of_state state (by decide)
    exact wake_kin live
  next => rfl

theorem resume_kin : task.resume.kin = task.kin := by
  unfold Task.resume
  split
  next stopped =>
    have live : (task.clearPending sigstop).live = true := live_of_state stopped (by decide)
    exact wake_kin live
  next => rfl

theorem receive_kin : (task.receive signum).kin = task.kin := by
  unfold Task.receive
  split
  · split
    · exact resume_kin
    · exact post_kin.trans resume_kin
  · split
    · rfl
    · exact post_kin

theorem wakeParentWaiter_kin {exitedPid : BitVec 32} : (wakeParentWaiter exitedPid task).kin = task.kin := by
  unfold wakeParentWaiter
  split
  next waiting =>
    have live : task.live = true := by rcases waiting.1 with state | state <;> exact live_of_state state (by decide)
    exact wake_kin live
  next => rfl

theorem wakes_live {call : WakeCall} (wakes : call.wakes task = true) : task.live = true := by
  cases call <;> simp only [WakeCall.wakes, Bool.and_eq_true, Bool.or_eq_true, beq_iff_eq] at wakes
  case socket =>
    rcases wakes.1.1 with state | state <;> exact live_of_state state (by decide)
  case stdinReaders => exact live_of_state wakes.1 (by decide)
  all_goals exact live_of_state wakes.1.1 (by decide)

theorem reparent_kin (exitedPid : BitVec 32) (task : Task) :
    (reparent exitedPid task).kin = task.kin.map (Kin.adopted exitedPid) := by
  unfold reparent Task.kin Kin.adopted
  cases vacant : task.vacant
  · by_cases child : task.parentPid = exitedPid
    · simp [child, Task.vacant] at vacant ⊢
      simp [vacant]
    · simp [child, vacant]
  · simp [vacant]

theorem family_map (tasks : List Task) (nextPid : BitVec 32) (idle : Nat) (change : Task → Task)
    (same : ∀ task ∈ tasks, (change task).kin = task.kin) :
    family ⟨tasks.map change, nextPid, idle⟩ = family ⟨tasks, nextPid, idle⟩ := by
  funext slot
  unfold family
  rw [List.getElem?_map]
  cases present : tasks[slot]? with
  | none => rfl
  | some task => exact same task (List.mem_of_getElem? present)

theorem family_modify (tasks : List Task) (nextPid : BitVec 32) (idle slot : Nat) (change : Task → Task)
    (same : ∀ task, tasks[slot]? = some task → (change task).kin = task.kin) :
    family ⟨tasks.modify slot change, nextPid, idle⟩ = family ⟨tasks, nextPid, idle⟩ := by
  funext other
  unfold family
  rw [List.getElem?_modify]
  by_cases here : slot = other
  · subst here
    cases present : tasks[slot]? with
    | none => rfl
    | some task => simpa using same task present
  · cases tasks[other]? <;> simp [here]

/-! Births. -/

theorem allocateTaskSlot_le (found : allocateTaskSlot tasks = some slot) : slot ≤ tasks.length := by
  unfold allocateTaskSlot at found
  split at found
  next index vacant =>
    obtain ⟨bound, _⟩ := List.findIdx?_eq_some_iff_getElem.mp vacant
    cases found
    omega
  next =>
    split at found
    · cases found
    · cases found
      omega

theorem allocateTaskSlot_free (found : allocateTaskSlot table.tasks = some slot) : table.family slot = none := by
  unfold allocateTaskSlot at found
  split at found
  next index vacant =>
    obtain ⟨bound, free, _⟩ := List.findIdx?_eq_some_iff_getElem.mp vacant
    cases found
    rw [family_at (List.getElem?_eq_getElem bound)]
    simp [Task.kin, free]
  next =>
    split at found
    · cases found
    · cases found
      simp [family]

theorem putTask_getElem? (bound : slot ≤ tasks.length) {other : Nat} :
    (putTask tasks slot task)[other]? = if other = slot then some task else tasks[other]? := by
  unfold putTask
  by_cases inside : slot < tasks.length
  · rw [if_pos inside, List.getElem?_set]
    by_cases here : other = slot
    · subst here
      simp [inside]
    · rw [if_neg (Ne.symm here), if_neg here]
  · have last : slot = tasks.length := by omega
    rw [if_neg inside, last]
    by_cases here : other = tasks.length
    · simp [here]
    · rw [if_neg here]
      by_cases low : other < tasks.length
      · rw [List.getElem?_append_left low]
      · rw [List.getElem?_eq_none (by simp; omega), List.getElem?_eq_none (by omega)]

theorem putTask_family (bound : slot ≤ table.tasks.length) (task : Task) (nextPid : BitVec 32) :
    family { table with tasks := putTask table.tasks slot task, nextPid := nextPid } =
      update table.family slot task.kin := by
  funext other
  unfold family
  rw [putTask_getElem? bound]
  by_cases here : other = slot
  · subst here
    simp
  · rw [if_neg here, update_of_ne here]

theorem addTask_family : (addTask table make).1.family = table.family.apply (birth table creator make) := by
  unfold addTask birth
  cases allocated : allocateTaskSlot table.tasks with
  | none => rfl
  | some slot =>
    cases generated : generatePid table with
    | none => rfl
    | some pid =>
      have put := putTask_family (allocateTaskSlot_le allocated) (make pid) (pid + 1)
      cases made : (make pid).kin with
      | none =>
        have free := allocateTaskSlot_free allocated
        rw [made, ← free, update_eq_self] at put
        simpa [made, Family.apply] using put
      | some kin => simpa [made, Family.apply] using put

/-! Ends. -/

theorem notifyParent_family {nextPid : BitVec 32} {idle : Nat} :
    family ⟨notifyParent tasks parentPid, nextPid, idle⟩ = family ⟨tasks, nextPid, idle⟩ := by
  unfold notifyParent
  split
  · rfl
  split
  · rfl
  · apply family_modify
    intro task _
    split <;> rfl

theorem terminate_family (table : Table) (slot : Nat) (status : BitVec 32) :
    (schedulerTerminateTask table slot status).family = table.family.apply (death table slot status) := by
  unfold schedulerTerminateTask death
  cases present : table.tasks[slot]? with
  | none => rfl
  | some task =>
    by_cases live : task.live = true
    · obtain ⟨kin, kinEq, _⟩ := (Task.live_iff task).mp live
      have kinParts := (Task.kin_eq_some_iff task kin).mp kinEq
      simp only [live, Bool.not_true, Bool.false_eq_true, if_false, Option.any_some, if_true]
      rw [notifyParent_family]
      rw [family_map _ table.nextPid table.idle _ fun other _ => wakeParentWaiter_kin]
      funext other
      simp only [Family.apply, family_at present, kinEq, kinParts.2.1]
      unfold family
      rw [List.getElem?_map, List.getElem?_set]
      by_cases here : other = slot
      · subst here
        have bound := (List.getElem?_eq_some_iff.mp present).1
        simp only [if_true, bound, Option.map_some, Option.bind_some, reparent_kin, update_self]
        cases kin
        simp_all [Task.kin, Task.vacant]
      · rw [if_neg (Ne.symm here), update_of_ne here]
        cases table.tasks[other]? with
        | none => rfl
        | some found => simp only [Option.map_some, Option.bind_some, reparent_kin]
    · simp only [live, Bool.not_false, if_true, Option.any_some, Bool.false_eq_true, if_false]
      rfl

/-! Signals and waiting. -/

theorem sendPlainSignal_family : (sendPlainSignal table pid signum).1.family = table.family := by
  unfold sendPlainSignal
  split
  · rfl
  · split
    · rfl
    · exact family_modify table.tasks table.nextPid table.idle _ _ fun task _ => receive_kin

theorem findTask_spec (found : findTask tasks pid = some slot) :
    ∃ task, tasks[slot]? = some task ∧ task.vacant = false ∧ task.pid = pid := by
  obtain ⟨bound, matched, _⟩ := List.findIdx?_eq_some_iff_getElem.mp found
  simp only [Bool.and_eq_true, Bool.not_eq_true', beq_iff_eq] at matched
  exact ⟨tasks[slot], List.getElem?_eq_getElem bound, matched⟩

theorem signalSlot_family (present : table.tasks[slot]? = some task) (occupied : task.vacant = false) :
    (signalSlot table slot signum).1.family = table.family.apply
      (if signum = sigkill then death table slot (BitVec.ofNat 32 (128 + sigkill)) else .quiet) := by
  unfold signalSlot
  simp only [present]
  by_cases zombie : task.state = .zombie
  · have gone : death table slot (BitVec.ofNat 32 (128 + sigkill)) = .quiet := by
      simp [death, present, Task.live, zombie]
    rw [if_pos zombie, gone, ite_self]
    rfl
  · have live : task.live = true := by simp [Task.live, occupied, zombie]
    have stopped : family { table with tasks := table.tasks.modify slot Task.stop } = table.family := by
      apply family_modify
      intro found foundAt
      rw [present] at foundAt
      cases foundAt
      exact stop_kin live
    rw [if_neg zombie]
    by_cases kill : signum = sigkill
    · rw [if_pos kill, if_pos kill]
      exact terminate_family table slot _
    rw [if_neg kill, if_neg kill]
    split
    · split
      · exact sendPlainSignal_family.trans stopped
      · exact stopped
    · exact family_modify table.tasks table.nextPid table.idle _ _ fun task _ => receive_kin

theorem sendSignal_family {signum : Int} :
    (schedulerSendSignal table pid signum).1.family = table.family.apply (callKin table (.sendSignal pid signum)) := by
  simp only [schedulerSendSignal, callKin]
  cases found : findTask table.tasks pid with
  | none => split <;> rfl
  | some slot =>
    obtain ⟨task, present, occupied, _⟩ := findTask_spec found
    split
    next unsupported =>
      have other : signum.toNat ≠ sigkill := by
        intro kill
        have nine : sigkill = 9 := rfl
        have count : taskSignalCount = 32 := rfl
        omega
      simp only [if_neg other]
      rfl
    next => exact signalSlot_family present occupied

theorem waitpidRound_reaped {found : BitVec 32}
    (reaped : (waitpidRound table caller pid options).2 = .reaped slot found status) :
    ∃ current child, table.tasks[caller]? = some current ∧ table.tasks[slot]? = some child ∧
      waitMatches current.pid pid child = true ∧ child.state = .zombie ∧ found = child.pid ∧
      status = child.exitStatus ∧
      (waitpidRound table caller pid options).1 = { table with tasks := table.tasks.modify slot reap } := by
  unfold waitpidRound at reaped ⊢
  cases present : table.tasks[caller]? with
  | none => simp [present] at reaped
  | some current =>
    simp only [present] at reaped ⊢
    cases search : table.tasks.findIdx? fun task => waitMatches current.pid pid task && task.state == .zombie with
    | none =>
      simp only [search] at reaped
      split at reaped
      · cases reaped
      · split at reaped <;> cases reaped
    | some index =>
      obtain ⟨bound, matched, _⟩ := List.findIdx?_eq_some_iff_getElem.mp search
      simp only [search, List.getElem?_eq_getElem bound, WaitOutcome.reaped.injEq] at reaped
      obtain ⟨rfl, rfl, rfl⟩ := reaped
      simp only [Bool.and_eq_true, beq_iff_eq] at matched
      exact ⟨current, table.tasks[index], rfl, List.getElem?_eq_getElem bound, matched.1, matched.2, rfl, rfl, rfl⟩

theorem waitpidRound_quiet (callerLive : (table.tasks[caller]?).any Task.live = true)
    (none : ∀ slot found status, (waitpidRound table caller pid options).2 ≠ .reaped slot found status) :
    (waitpidRound table caller pid options).1.family = table.family := by
  unfold waitpidRound at none ⊢
  cases present : table.tasks[caller]? with
  | none => rfl
  | some current =>
    simp only [present] at none ⊢
    rw [present, Option.any_some] at callerLive
    cases search : table.tasks.findIdx? fun task => waitMatches current.pid pid task && task.state == .zombie with
    | some index =>
      obtain ⟨bound, _⟩ := List.findIdx?_eq_some_iff_getElem.mp search
      simp only [search, List.getElem?_eq_getElem bound] at none
      exact absurd rfl (none _ _ _)
    | none =>
      simp only
      split
      · rfl
      split
      · rfl
      apply family_modify
      intro task taskAt
      rw [present] at taskAt
      cases taskAt
      exact kin_of_live callerLive rfl rfl rfl rfl

theorem reap_family :
    family { table with tasks := table.tasks.modify slot reap } = update table.family slot none := by
  funext other
  unfold family
  rw [List.getElem?_modify]
  by_cases here : other = slot
  · subst here
    cases table.tasks[other]? <;> simp [reap, Task.kin, Task.vacant]
  · rw [update_of_ne here]
    cases table.tasks[other]? <;> simp [Ne.symm here]

theorem waitpid_family (callerLive : (table.tasks[caller]?).any Task.live = true) :
    (waitpidRound table caller pid options).1.family =
      table.family.apply (callKin table (.waitpid caller pid options)) := by
  simp only [callKin]
  split
  next slot found status outcome =>
    obtain ⟨current, child, _, _, _, _, _, _, after⟩ := waitpidRound_reaped outcome
    rw [after]
    exact reap_family
  next quiet => exact waitpidRound_quiet callerLive quiet

/-! Every call. -/

theorem callEffect_family (allowed : callable table call = true) :
    (callEffect table call).family = table.family.apply (callKin table call) := by
  have callerLive : ∀ caller, call.caller = some caller → (table.tasks[caller]?).any Task.live = true := by
    intro caller named
    simpa [callable, named] using allowed
  have kept : ∀ (caller : Nat) (change : Task → Task), call.caller = some caller →
      (∀ task, task.live = true → (change task).kin = task.kin) →
      family { table with tasks := table.tasks.modify caller change } = table.family := by
    intro caller change named same
    apply family_modify
    intro task present
    have live := callerLive caller named
    rw [present] at live
    exact same task live
  cases call with
  | createTask creator userMode => exact addTask_family
  | addUserProcess creator => exact addTask_family
  | fork caller cloned =>
    simp only [callEffect, callKin, schedulerForkCurrent]
    cases table.tasks[caller]? with
    | none => rfl
    | some parent =>
      cases cloned
      · rfl
      · exact addTask_family
  | terminate slot status => exact terminate_family table slot status
  | sendSignal pid signum => exact sendSignal_family
  | sigaction caller signum handler =>
    simp only [callEffect, schedulerSigaction]
    split
    · rfl
    · exact kept caller _ rfl fun task _ => rfl
  | sigprocmask caller how set => exact kept caller _ rfl fun task _ => rfl
  | sleep caller reason target => exact kept caller _ rfl fun task live => sleep_kin live
  | wake call =>
    apply family_map
    intro task _
    split
    next wakes => exact wake_kin (wakes_live wakes)
    next => rfl
  | waitpid caller pid options => exact waitpid_family (callerLive caller rfl)

theorem schedStep_family : (schedStep table call).family = table.family.apply (kinEvent table call) := by
  unfold schedStep kinEvent
  by_cases allowed : callable table call = true
  · rw [if_pos allowed, if_pos allowed]
    exact callEffect_family allowed
  · rw [if_neg allowed, if_neg allowed]
    rfl

/-! What the scheduler makes sure of before it changes the family. -/

def CreatedBy (family : Family) (creator : Option Nat) (parentPid : BitVec 32) : Prop :=
  match creator with
  | none => parentPid = 0
  | some slot => ∃ parent, family slot = some parent ∧ parent.exited = none ∧ parentPid = parent.pid

inductive Legal (family : Family) : KinEvent → Prop where
  | quiet : Legal family .quiet
  | born (slot : Nat) (creator : Option Nat) (kin : Kin) (free : family slot = none) (nonzero : kin.pid ≠ 0)
      (fresh : ∀ other found, family other = some found → found.pid ≠ kin.pid) (alive : kin.exited = none)
      (created : CreatedBy family creator kin.parentPid) : Legal family (.born slot creator kin)
  | ended (slot : Nat) (status : BitVec 32) (kin : Kin) (present : family slot = some kin)
      (alive : kin.exited = none) : Legal family (.ended slot status)
  | reaped (slot caller : Nat) (child parent : Kin) (status : BitVec 32) (present : family slot = some child)
      (exited : child.exited = some status) (waiting : family caller = some parent) (alive : parent.exited = none)
      (childOf : child.parentPid = parent.pid) : Legal family (.reaped slot caller)

theorem generatePidFrom_spec : ∀ fuel start pid,
    generatePidFrom tasks fuel start = some pid → pid ≠ 0 ∧ pidInUse tasks pid = false := by
  intro fuel
  induction fuel with
  | zero => intro start pid found; cases found
  | succ fuel ih =>
    intro start pid found
    simp only [generatePidFrom] at found
    have nonzero : (if start = 0 then (1 : BitVec 32) else start) ≠ 0 := by
      by_cases zero : start = 0
      · rw [if_pos zero]; decide
      · rw [if_neg zero]; exact zero
    generalize (if start = 0 then (1 : BitVec 32) else start) = tried at found nonzero
    by_cases used : pidInUse tasks tried = true
    · rw [if_pos used] at found
      exact ih (tried + 1) pid found
    · rw [if_neg used] at found
      cases found
      exact ⟨nonzero, Bool.eq_false_iff.mpr used⟩

theorem generatePid_fresh (found : generatePid table = some pid) :
    pid ≠ 0 ∧ ∀ slot kin, table.family slot = some kin → kin.pid ≠ pid := by
  obtain ⟨nonzero, unused⟩ := generatePidFrom_spec _ _ pid found
  refine ⟨nonzero, ?_⟩
  intro slot kin present same
  obtain ⟨task, taskAt, taskKin⟩ := table.family_eq_some_iff.mp present
  obtain ⟨occupied, pidEq, _⟩ := (task.kin_eq_some_iff kin).mp taskKin
  have used := List.any_eq_false.mp unused task (List.mem_of_getElem? taskAt)
  simp [occupied, ← pidEq, same] at used

theorem birth_legal (created : ∀ pid, (make pid).live = true ∧ (make pid).pid = pid ∧
      CreatedBy table.family creator (make pid).parentPid) : Legal table.family (birth table creator make) := by
  unfold birth
  cases allocated : allocateTaskSlot table.tasks with
  | none => exact .quiet
  | some slot =>
    cases generated : generatePid table with
    | none => exact .quiet
    | some pid =>
      obtain ⟨live, pidEq, parent⟩ := created pid
      obtain ⟨nonzero, fresh⟩ := generatePid_fresh generated
      obtain ⟨kin, kinEq, alive⟩ := (Task.live_iff _).mp live
      obtain ⟨_, kinPid, kinParent, _⟩ := (Task.kin_eq_some_iff _ kin).mp kinEq
      simp only [kinEq, Option.elim_some]
      rw [pidEq] at kinPid
      refine .born slot creator kin (allocateTaskSlot_free allocated) ?_ ?_ alive ?_
      · rw [kinPid]; exact nonzero
      · rw [kinPid]; exact fresh
      · rw [kinParent]; exact parent

theorem death_legal : Legal table.family (death table slot status) := by
  unfold death
  split
  next live =>
    obtain ⟨task, present, taskLive⟩ := (Option.any_eq_true _ _).mp live
    obtain ⟨kin, kinEq, alive⟩ := task.live_iff.mp taskLive
    exact .ended slot status kin ((family_at present).trans kinEq) alive
  next => exact .quiet

theorem createdBy_of_live {parent : Task} (present : table.tasks[slot]? = some parent)
    (live : parent.live = true) : CreatedBy table.family (some slot) parent.pid := by
  obtain ⟨kin, kinEq, alive⟩ := parent.live_iff.mp live
  obtain ⟨_, kinPid, _⟩ := (parent.kin_eq_some_iff kin).mp kinEq
  exact ⟨kin, (family_at present).trans kinEq, alive, kinPid.symm⟩

theorem newTask_created (allowed : (creator.all fun slot => (table.tasks[slot]?).any Task.live) = true)
    {userMode : Bool} :
    CreatedBy table.family creator (newTask (creator.bind (table.tasks[·]?)) userMode pid).parentPid := by
  cases creator with
  | none => rfl
  | some slot =>
    obtain ⟨parent, present, live⟩ := (Option.any_eq_true _ _).mp allowed
    simp only [newTask, Option.bind_some, present, Option.elim_some]
    exact createdBy_of_live present live

theorem kinEvent_legal (table : Table) (call : Call) : Legal table.family (kinEvent table call) := by
  unfold kinEvent
  split
  next allowed =>
    cases call with
    | createTask creator userMode => exact birth_legal fun pid => ⟨rfl, rfl, newTask_created allowed⟩
    | addUserProcess creator => exact birth_legal fun pid => ⟨rfl, rfl, newTask_created allowed⟩
    | fork caller cloned =>
      obtain ⟨parent, present, live⟩ := (Option.any_eq_true _ _).mp allowed
      simp only [callKin, present]
      split
      · exact birth_legal fun pid => ⟨rfl, rfl, createdBy_of_live present live⟩
      · exact .quiet
    | terminate slot status => exact death_legal
    | sendSignal pid signum =>
      simp only [callKin]
      split
      · split
        · exact death_legal
        · exact .quiet
      · exact .quiet
    | waitpid caller pid options =>
      simp only [callKin]
      split
      next slot found status outcome =>
        obtain ⟨current, child, currentAt, childAt, matched, zombie, _⟩ := waitpidRound_reaped outcome
        have live : current.live = true := by simpa [callable, Call.caller, currentAt] using allowed
        obtain ⟨parent, parentKin, alive⟩ := current.live_iff.mp live
        obtain ⟨_, parentPid, _⟩ := (current.kin_eq_some_iff parent).mp parentKin
        simp only [waitMatches, Bool.and_eq_true, Bool.not_eq_true', beq_iff_eq] at matched
        have childKin : child.kin = some ⟨child.pid, child.parentPid, some child.exitStatus, child.userMode⟩ := by
          simp [Task.kin, matched.1.1, zombie]
        exact .reaped slot caller _ parent child.exitStatus ((family_at childAt).trans childKin) rfl
          ((family_at currentAt).trans parentKin) alive (matched.1.2.trans parentPid.symm)
      next => exact .quiet
    | sigaction _ _ _ => exact .quiet
    | sigprocmask _ _ _ => exact .quiet
    | sleep _ _ _ => exact .quiet
    | wake _ => exact .quiet
  next => exact .quiet

/-! `idle_task_index` never changes, and the table never has more slots than it may. -/

theorem putTask_length (allocated : allocateTaskSlot tasks = some slot) (bounded : tasks.length ≤ maxTasks)
    (task : Task) : (putTask tasks slot task).length ≤ maxTasks ∧ slot < maxTasks := by
  unfold allocateTaskSlot at allocated
  unfold putTask
  split at allocated
  next first found =>
    cases allocated
    have inside : slot < tasks.length := (List.findIdx?_eq_some_iff_findIdx_eq.mp found).1
    rw [if_pos inside, List.length_set]
    omega
  · split at allocated
    · cases allocated
    · cases allocated
      rw [if_neg (by omega), List.length_append, List.length_singleton]
      omega

theorem notifyParent_length : (notifyParent tasks parentPid).length = tasks.length := by
  unfold notifyParent
  split
  · rfl
  · split
    · rfl
    · exact List.length_modify ..

structure Shaped (before after : Table) : Prop where
  idle : after.idle = before.idle
  length : before.tasks.length ≤ maxTasks → after.tasks.length ≤ maxTasks

theorem Shaped.refl (table : Table) : Shaped table table := ⟨rfl, id⟩

theorem Shaped.trans {middle after : Table} (left : Shaped table middle) (right : Shaped middle after) :
    Shaped table after := ⟨right.idle.trans left.idle, fun bounded => right.length (left.length bounded)⟩

theorem Shaped.of_length {after : Table} (idle : after.idle = table.idle)
    (same : after.tasks.length = table.tasks.length) : Shaped table after := ⟨idle, fun bounded => same ▸ bounded⟩

theorem Shaped.modify (table : Table) (slot : Nat) (change : Task → Task) :
    Shaped table { table with tasks := table.tasks.modify slot change } := .of_length rfl (List.length_modify ..)

theorem addTask_shaped : Shaped table (addTask table make).1 := by
  unfold addTask
  cases allocated : allocateTaskSlot table.tasks with
  | none => exact .refl table
  | some slot =>
    cases generatePid table with
    | none => exact .refl table
    | some pid => exact ⟨rfl, fun bounded => (putTask_length allocated bounded _).1⟩

theorem terminate_shaped : Shaped table (schedulerTerminateTask table slot status) := by
  unfold schedulerTerminateTask
  split
  · exact .refl table
  · split
    · exact .refl table
    · exact .of_length rfl (by simp only [notifyParent_length, List.length_map, List.length_set])

theorem sendPlainSignal_shaped : Shaped table (sendPlainSignal table pid signum).1 := by
  unfold sendPlainSignal
  split
  · exact .refl table
  · split
    · exact .refl table
    · exact .modify table _ _

theorem sendSignal_shaped {signum : Int} : Shaped table (schedulerSendSignal table pid signum).1 := by
  unfold schedulerSendSignal
  split
  · exact .refl table
  split
  · exact .refl table
  unfold signalSlot
  split
  · exact .refl table
  split
  · exact .refl table
  split
  · exact terminate_shaped
  split
  · split
    · exact (Shaped.modify table _ _).trans sendPlainSignal_shaped
    · exact .modify table _ _
  · exact .modify table _ _

theorem waitpidRound_shaped : Shaped table (waitpidRound table caller pid options).1 := by
  unfold waitpidRound
  split
  · exact .refl table
  split
  · exact .modify table _ _
  split
  · exact .refl table
  · split
    · exact .refl table
    · exact .modify table _ _

theorem schedStep_shaped (table : Table) (call : Call) : Shaped table (schedStep table call) := by
  unfold schedStep
  split
  · cases call with
    | createTask creator userMode => exact addTask_shaped
    | addUserProcess creator => exact addTask_shaped
    | fork caller cloned =>
      simp only [callEffect, schedulerForkCurrent]
      split
      · exact .refl table
      · split
        · exact addTask_shaped
        · exact .refl table
    | terminate slot status => exact terminate_shaped
    | sendSignal pid signum => exact sendSignal_shaped
    | sigaction caller signum handler =>
      simp only [callEffect, schedulerSigaction]
      split
      · exact .refl table
      · exact .modify table _ _
    | sigprocmask caller how set => exact .modify table _ _
    | sleep caller reason target => exact .modify table _ _
    | wake call => exact .of_length rfl (List.length_map ..)
    | waitpid caller pid options => exact waitpidRound_shaped
  · exact .refl table

theorem birth_slot (bounded : table.tasks.length ≤ maxTasks) {kin : Kin}
    (born : kinEvent table call = .born slot creator kin) : slot < maxTasks := by
  have birth : ∀ {parent make}, birth table parent make = .born slot creator kin → slot < maxTasks := by
    intro parent make born
    unfold birth at born
    split at born
    next first pid allocated _ =>
      cases made : (make pid).kin with
      | none =>
        rw [made] at born
        cases born
      | some found =>
        rw [made] at born
        cases born
        exact (putTask_length allocated bounded (make pid)).2
    · cases born
  unfold kinEvent at born
  split at born
  · cases call with
    | createTask parent userMode => exact birth born
    | addUserProcess parent => exact birth born
    | fork caller cloned =>
      simp only [callKin] at born
      split at born
      · split at born
        · exact birth born
        · cases born
      · cases born
    | terminate ended status =>
      simp only [callKin, death] at born
      split at born <;> cases born
    | sendSignal pid signum =>
      simp only [callKin, death] at born
      split at born
      · split at born
        · split at born <;> cases born
        · cases born
      · cases born
    | waitpid caller pid options =>
      simp only [callKin] at born
      split at born <;> cases born
    | sigaction | sigprocmask | sleep | wake => cases born
  · cases born

theorem kinEvent_ended (ended : kinEvent table call = .ended slot status) : call = .terminate slot status ∨
      ∃ pid signum, call = .sendSignal pid signum ∧ signum.toNat = sigkill ∧ findTask table.tasks pid = some slot := by
  have notBorn : ∀ {parent make}, birth table parent make ≠ .ended slot status := by
    intro parent make ended
    unfold birth at ended
    split at ended
    · cases made : (make _).kin with
      | none =>
        rw [made] at ended
        cases ended
      | some found =>
        rw [made] at ended
        cases ended
    · cases ended
  unfold kinEvent at ended
  split at ended
  · cases call with
    | createTask parent userMode => exact absurd ended notBorn
    | addUserProcess parent => exact absurd ended notBorn
    | fork caller cloned =>
      simp only [callKin] at ended
      split at ended
      · split at ended
        · exact absurd ended notBorn
        · cases ended
      · cases ended
    | terminate victim exitStatus =>
      simp only [callKin, death] at ended
      split at ended
      · cases ended
        exact Or.inl rfl
      · cases ended
    | sendSignal pid signum =>
      simp only [callKin, death] at ended
      split at ended
      next victim found =>
        split at ended
        next kill =>
          split at ended
          · cases ended
            exact Or.inr ⟨pid, signum, rfl, kill, found⟩
          · cases ended
        · cases ended
      · cases ended
    | waitpid caller pid options =>
      simp only [callKin] at ended
      split at ended <;> cases ended
    | sigaction | sigprocmask | sleep | wake => cases ended
  · cases ended

end PhotonOS.Sched
