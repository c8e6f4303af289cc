import PhotonOS.Sched.Tasks
import PhotonOS.Signal.KernelExit

/-!
Signal dispositions. The reaction that `docs/signals.md` gives for the lowest
pending unblocked signal, and the exact inputs on which both delivery paths show
it.
-/

namespace PhotonOS

open Sched (sigstop sigtstp)

def sigDfl : BitVec 64 := 0#64
def sigIgn : BitVec 64 := 1#64

def sigErr : BitVec 64 := -1#64

inductive DefaultAction where
  | terminate | ignore | resume | stop
  deriving DecidableEq, Repr

def defaultAction (signum : Nat) : Option DefaultAction :=
  if 1 ≤ signum ∧ signum ≤ 15 then some .terminate
  else if signum = sigchld then some .ignore
  else if signum = sigcont then some .resume
  else if signum = sigstop ∨ signum = sigtstp then some .stop
  else none

def uncatchable (signum : Nat) : Bool := signum == sigkill || signum == sigstop

inductive Reaction where
  | nothing
  | discarded (signum : Nat)
  | terminated
  | stopped
  | entered (signum : Nat) (handler : BitVec 64)
  deriving DecidableEq, Repr

def DefaultAction.reaction (signum : Nat) : DefaultAction → Reaction
  | .terminate => .terminated
  | .ignore => .discarded signum
  | .resume => .discarded signum
  | .stop => .stopped

def entryReaction (signum : Nat) (entry : BitVec 64) (exit : KernelExit) : Option Reaction :=
  if uncatchable signum ∨ entry = sigDfl then (defaultAction signum).map (·.reaction signum)
  else if entry = sigIgn then some (.discarded signum)
  else if exit.toUser then some (.entered signum entry)
  else some .nothing

/-- The lowest pending unblocked signal is looked at, but not while a handler runs. -/
def documentedReaction (task : SignalTask) (exit : KernelExit) : Option Reaction :=
  let signum := nextPendingSignal task
  if task.activeSignal ≠ 0#32 ∨ signum = 0 then some .nothing
  else entryReaction signum (task.signalHandlers signum) exit

inductive Reacted (machine : Machine) (task : SignalTask) (exit : KernelExit) : Delivery KernelExit → Reaction → Prop
  | nothing : Reacted machine task exit ⟨machine, task, exit, .returned, []⟩ .nothing
  | discarded (signum : Nat) :
      Reacted machine task exit ⟨machine, task.clearPending signum, exit, .returned, []⟩ (.discarded signum)
  | terminated {delivery : Delivery KernelExit} {status : Nat} (outcome : delivery.outcome = .terminated status) :
      Reacted machine task exit delivery .terminated
  | entered {delivery : Delivery KernelExit} {signum : Nat} {handler : BitVec 64}
      (outcome : delivery.outcome = .delivered)
      (rip : delivery.frame.resume.registers.rip = handler)
      (rdi : delivery.frame.resume.registers.rdi = BitVec.ofNat 64 signum) :
      Reacted machine task exit delivery (.entered signum handler)

variable {machine : Machine} {task : SignalTask} {exit : KernelExit} {delivery : Delivery KernelExit}
    {signum : Nat}

theorem Reacted.delivered {handler : BitVec 64}
    (reacted : Reacted machine task exit delivery (.entered signum handler)) : delivery.outcome = .delivered := by
  cases reacted with
  | entered outcome _ _ => exact outcome

theorem Reacted.returned (reacted : Reacted machine task exit delivery (.discarded signum)) :
    delivery.task = task.clearPending signum ∧ delivery.outcome = .returned := by
  cases reacted
  exact ⟨rfl, rfl⟩

theorem not_reacted_stopped : ¬ Reacted machine task exit delivery .stopped := by
  rintro ⟨⟩

structure DispositionHonoured (machine : Machine) (task : SignalTask) (exit : KernelExit) : Prop where
  shown : ∀ reaction ∈ documentedReaction task exit,
    Reacted machine task exit (deliverSignals machine task exit) reaction
  neverIgnored : (deliverSignals machine task exit).outcome = .delivered →
    (deliverSignals machine task exit).frame.resume.registers.rip ≠ sigIgn

/-- The handler table entries that the code treats as documented. -/
def EntryRespected (signum : Nat) (entry : BitVec 64) : Prop :=
  signum = sigkill ∨ signum ≠ sigstop ∧ entry ≠ sigErr ∧ (entry = sigDfl → signum ≠ sigtstp) ∧
      (entry = sigIgn → signum ∈ [sigint, sigpipe, sigterm, sigchld, sigcont])

/-- The entry is the address of a handler, and nothing keeps it from being entered. -/
def Enterable (machine : Machine) (task : SignalTask) (exit : KernelExit) (signum : Nat) (entry : BitVec 64) : Prop :=
  signum ≠ sigkill → entry ≠ sigDfl → entry ≠ sigIgn → exit.toUser = true →
    stackTakesTrampoline machine task (signalHandlerStack exit.userRsp) = true

section

variable {machine : Machine} {task : SignalTask} {exit : KernelExit} {signum : Nat} {handler : BitVec 64}

theorem deliverSignals_fatal (chosen : chooseSignal task = .fatal signum) :
    (deliverSignals machine task exit).outcome = .terminated (128 + signum) := by
  rw [deliverSignals_eq, withChosenSignal, chosen]

variable (chosen : chooseSignal task = .handled signum handler)
include chosen

theorem deliverSignals_deferred
    (kernel : exit.toUser = false) : deliverSignals machine task exit = ⟨machine, task, exit, .returned, []⟩ := by
  rw [deliverSignals_eq, withChosenSignal, chosen]
  simp only [kernel, Bool.false_eq_true, if_false]

theorem deliverSignals_entered (user : exit.toUser = true)
    (takes : stackTakesTrampoline machine task (signalHandlerStack exit.userRsp) = true) :
    (deliverSignals machine task exit).outcome = .delivered ∧ (deliverSignals machine task exit).frame =
        exit.enter signum handler (signalHandlerStack exit.userRsp) := by
  rw [deliverSignals_eq, withChosenSignal, chosen]
  simp only [user, if_true]
  rcases pushTrampoline_cases _ with
    ⟨_, _, _, _, result⟩ | ⟨refuses, _⟩
  · rw [result]
    exact ⟨rfl, rfl⟩
  · rw [takes] at refuses
    contradiction

theorem deliverSignals_refused (user : exit.toUser = true)
    (refuses : stackTakesTrampoline machine task (signalHandlerStack exit.userRsp) = false) :
    (deliverSignals machine task exit).outcome = .terminated (128 + signum) ∨
      (deliverSignals machine task exit).outcome = .halted := by
  rw [deliverSignals_eq, withChosenSignal, chosen]
  simp only [user, if_true]
  rcases pushTrampoline_cases _ with
    ⟨takes, _⟩ | ⟨_, outcome⟩
  · rw [takes] at refuses
    contradiction
  · exact outcome

end

theorem clearPending_changes (pending : task.pendingSignals &&& signalBit signum ≠ 0#32) :
    task.clearPending signum ≠ task := by
  intro same
  have cleared : task.pendingSignals &&& ~~~signalBit signum = task.pendingSignals :=
    congrArg SignalTask.pendingSignals same
  apply pending
  rw [← cleared, BitVec.and_assoc, BitVec.and_comm (~~~signalBit signum), BitVec.and_not_self]
  exact BitVec.and_zero

section

variable {machine : Machine} {task : SignalTask} {exit : KernelExit} {signum : Nat} {handler : BitVec 64}

theorem honoured_of_nothing (chosen : chooseSignal task = .nothing)
    (documented : documentedReaction task exit = some .nothing) : DispositionHonoured machine task exit := by
  have result : deliverSignals machine task exit = ⟨machine, task, exit, .returned, []⟩ := by
    rw [deliverSignals_eq, withChosenSignal, chosen]
  constructor
  · rw [documented, result]
    rintro _ ⟨⟩
    exact .nothing
  · rw [result]
    rintro ⟨⟩

theorem honoured_of_ignored (chosen : chooseSignal task = .ignored signum)
    (documented : documentedReaction task exit = some (.discarded signum)) :
    DispositionHonoured machine task exit := by
  have result : deliverSignals machine task exit = ⟨machine, task.clearPending signum, exit, .returned, []⟩ := by
    rw [deliverSignals_eq, withChosenSignal, chosen]
  constructor
  · rw [documented, result]
    rintro _ ⟨⟩
    exact .discarded signum
  · rw [result]
    rintro ⟨⟩

theorem honoured_of_fatal (chosen : chooseSignal task = .fatal signum)
    (documented : ∀ reaction ∈ documentedReaction task exit, reaction = .terminated) :
    DispositionHonoured machine task exit := by
  have outcome : (deliverSignals machine task exit).outcome = _ := deliverSignals_fatal chosen
  constructor
  · intro reaction member
    rw [documented reaction member]
    exact .terminated outcome
  · rw [outcome]
    rintro ⟨⟩

theorem not_honoured_of_fatal (chosen : chooseSignal task = .fatal signum) {reaction : Reaction}
    (documented : documentedReaction task exit = some reaction) (other : reaction ≠ .terminated) :
    ¬ DispositionHonoured machine task exit := by
  intro honoured
  have outcome : (deliverSignals machine task exit).outcome = _ := deliverSignals_fatal chosen
  have reacted := honoured.shown reaction documented
  generalize deliverSignals machine task exit = delivery at outcome reacted
  cases reacted with
  | nothing => cases outcome
  | discarded => cases outcome
  | terminated => exact other rfl
  | entered delivered =>
    rw [delivered] at outcome
    cases outcome

variable (chosen : chooseSignal task = .handled signum handler)
include chosen

theorem not_honoured_of_handled (documented : documentedReaction task exit = some (.discarded signum))
    (pending : task.pendingSignals &&& signalBit signum ≠ 0#32) : ¬ DispositionHonoured machine task exit := by
  intro honoured
  obtain ⟨cleared, returned⟩ := (honoured.shown _ documented).returned
  cases user : exit.toUser with
  | false =>
    rw [deliverSignals_deferred chosen user] at cleared
    exact clearPending_changes pending cleared.symm
  | true =>
    cases takes : stackTakesTrampoline machine task (signalHandlerStack exit.userRsp) with
    | true =>
      rw [(deliverSignals_entered chosen user takes).1] at returned
      cases returned
    | false =>
      rcases deliverSignals_refused chosen user takes with outcome | outcome <;>
        · rw [outcome] at returned
          cases returned

theorem handled_honoured
    (documented : documentedReaction task exit = if exit.toUser then some (.entered signum handler) else some .nothing)
    (notIgnored : handler ≠ sigIgn) : DispositionHonoured machine task exit ↔
      (exit.toUser = true → stackTakesTrampoline machine task (signalHandlerStack exit.userRsp) = true) := by
  cases user : exit.toUser with
  | false =>
    have result : deliverSignals machine task exit = _ := deliverSignals_deferred chosen user
    simp only [user, Bool.false_eq_true, if_false] at documented
    simp only [Bool.false_eq_true, false_implies, iff_true]
    constructor
    · rw [documented, result]
      rintro _ ⟨⟩
      exact .nothing
    · rw [result]
      rintro ⟨⟩
  | true =>
    simp only [user, if_true] at documented
    simp only [true_implies]
    constructor
    · intro honoured
      by_contra refuses
      have outcome := deliverSignals_refused chosen user (by simpa using refuses)
      have delivered := (honoured.shown _ documented).delivered
      rw [delivered] at outcome
      simp at outcome
    · intro takes
      obtain ⟨outcome, frame⟩ := deliverSignals_entered chosen user takes
      obtain ⟨rip, rdi⟩ := exit.resume_enter
      rw [← frame] at rip rdi
      constructor
      · rw [documented]
        rintro _ ⟨⟩
        exact .entered outcome rip rdi
      · intro _
        rw [rip]
        exact notIgnored

end

def entryChoice (signum : Nat) (entry : BitVec 64) : SignalChoice :=
  if (signum = sigchld ∨ signum = sigcont) ∧ (entry = sigDfl ∨ entry = sigIgn) then .ignored signum
  else if (signum = sigpipe ∨ signum = sigint ∨ signum = sigterm) ∧ entry = sigIgn then .ignored signum
  else if signum = sigkill ∨ entry = sigDfl ∨ entry = sigErr then .fatal signum
  else .handled signum entry

theorem chooseSignal_eq (idle : task.activeSignal = 0#32) (found : nextPendingSignal task ≠ 0) :
    chooseSignal task = entryChoice (nextPendingSignal task) (task.signalHandlers (nextPendingSignal task)) := by
  by_cases kill : nextPendingSignal task = sigkill
  · simp only [chooseSignal, entryChoice, idle, kill, ne_eq, if_true, true_or]
    rfl
  · simp only [chooseSignal, entryChoice, idle, found, kill, ne_eq, if_false, false_or]
    rfl

theorem entries_distinct : sigDfl ≠ sigIgn ∧ sigDfl ≠ sigErr ∧ sigIgn ≠ sigErr := by decide

section

variable {machine : Machine} {task : SignalTask} {exit : KernelExit} {signum : Nat} {entry : BitVec 64}
  (chosen : chooseSignal task = entryChoice signum entry)
  (documented : documentedReaction task exit = entryReaction signum entry exit)

include chosen documented

theorem kill_honoured (kill : signum = sigkill) : DispositionHonoured machine task exit := by
  have choice : entryChoice signum entry = .fatal signum := by
    simp [entryChoice, kill, sigkill, sigchld, sigcont, sigpipe, sigint, sigterm]
  apply honoured_of_fatal (chosen.trans choice)
  rw [documented, kill]
  simp [entryReaction, uncatchable, defaultAction, DefaultAction.reaction, sigkill]

theorem default_honoured_iff (default : entry = sigDfl) (catchable : uncatchable signum = false) :
    DispositionHonoured machine task exit ↔ signum ≠ sigtstp := by
  have notIgnored : entry ≠ sigIgn := by
    rw [default]
    exact entries_distinct.1
  by_cases spared : signum = sigchld ∨ signum = sigcont
  · have choice : entryChoice signum entry = .ignored signum := by simp [entryChoice, spared, default]
    have honoured : DispositionHonoured machine task exit := by
      apply honoured_of_ignored (chosen.trans choice)
      rw [documented]
      rcases spared with rfl | rfl <;>
        simp [entryReaction, default, defaultAction, DefaultAction.reaction, sigchld, sigcont]
    refine iff_of_true honoured ?_
    rcases spared with rfl | rfl <;> decide
  · have choice : entryChoice signum entry = .fatal signum := by
      simp only [entryChoice, spared, notIgnored, false_and, and_false, if_false]
      simp [default]
    by_cases suspend : signum = sigtstp
    · refine iff_of_false ?_ (not_not_intro suspend)
      have stopped : documentedReaction task exit = some .stopped := by
        rw [documented, suspend]
        simp [entryReaction, default, defaultAction, DefaultAction.reaction, sigtstp, sigstop, sigchld, sigcont]
      exact not_honoured_of_fatal (chosen.trans choice) stopped (by decide)
    · refine iff_of_true (honoured_of_fatal (chosen.trans choice) ?_) suspend
      simp only [uncatchable, Bool.or_eq_false_iff, beq_eq_false_iff_ne] at catchable
      rw [not_or] at spared
      rw [documented]
      simp only [entryReaction, default, or_true, if_true, defaultAction]
      split
      · simp [DefaultAction.reaction]
      · simp [spared, catchable, suspend]

theorem ignored_honoured_iff (ignored : entry = sigIgn) (catchable : uncatchable signum = false)
    (pending : task.pendingSignals &&& signalBit signum ≠ 0#32) :
    DispositionHonoured machine task exit ↔ signum ∈ [sigint, sigpipe, sigterm, sigchld, sigcont] := by
  have reaction : entryReaction signum entry exit = some (.discarded signum) := by
    simp [entryReaction, catchable, ignored, entries_distinct.1.symm]
  simp only [uncatchable, Bool.or_eq_false_iff, beq_eq_false_iff_ne] at catchable
  simp only [List.mem_cons, List.not_mem_nil, or_false]
  by_cases family : signum = sigchld ∨ signum = sigcont
  · have choice : entryChoice signum entry = .ignored signum := by simp [entryChoice, family, ignored]
    exact iff_of_true (honoured_of_ignored (chosen.trans choice) (documented.trans reaction)) (by tauto)
  by_cases listed : signum = sigpipe ∨ signum = sigint ∨ signum = sigterm
  · have choice : entryChoice signum entry = .ignored signum := by simp [entryChoice, family, listed, ignored]
    exact iff_of_true (honoured_of_ignored (chosen.trans choice) (documented.trans reaction)) (by tauto)
  · have choice : entryChoice signum entry = .handled signum entry := by
      simp [entryChoice, family, listed, ignored, catchable, entries_distinct.1.symm, entries_distinct.2.2]
    exact iff_of_false (not_honoured_of_handled (chosen.trans choice) (documented.trans reaction) pending)
      (by tauto)

theorem handler_honoured_iff (notDefault : entry ≠ sigDfl) (notIgnored : entry ≠ sigIgn)
    (catchable : uncatchable signum = false) : DispositionHonoured machine task exit ↔ entry ≠ sigErr ∧
      (exit.toUser = true → stackTakesTrampoline machine task (signalHandlerStack exit.userRsp) = true) := by
  have reaction : entryReaction signum entry exit =
      if exit.toUser then some (.entered signum entry) else some .nothing := by
    simp [entryReaction, catchable, notDefault, notIgnored]
  simp only [uncatchable, Bool.or_eq_false_iff, beq_eq_false_iff_ne] at catchable
  by_cases minus : entry = sigErr
  · have choice : entryChoice signum entry = .fatal signum := by
      simp only [entryChoice, notDefault, notIgnored, or_self, and_false, if_false]
      simp [minus]
    refine iff_of_false ?_ (by simp [minus])
    cases user : exit.toUser with
    | true =>
      rw [user] at reaction
      exact not_honoured_of_fatal (chosen.trans choice) (documented.trans reaction) (by simp)
    | false =>
      rw [user] at reaction
      exact not_honoured_of_fatal (chosen.trans choice) (documented.trans reaction) (by simp)
  · have choice : entryChoice signum entry = .handled signum entry := by
      simp [entryChoice, catchable, notDefault, notIgnored, minus]
    rw [handled_honoured (chosen.trans choice) (documented.trans reaction) notIgnored]
    simp [minus]

theorem entry_honoured_iff (pending : task.pendingSignals &&& signalBit signum ≠ 0#32) :
    DispositionHonoured machine task exit ↔
      EntryRespected signum entry ∧ Enterable machine task exit signum entry := by
  by_cases kill : signum = sigkill
  · exact iff_of_true (kill_honoured chosen documented kill) ⟨Or.inl kill, fun caught => absurd kill caught⟩
  by_cases stop : signum = sigstop
  · refine iff_of_false (fun honoured => not_reacted_stopped (honoured.shown .stopped ?_)) ?_
    · rw [documented, stop]
      simp [entryReaction, uncatchable, defaultAction, DefaultAction.reaction, sigstop, sigchld, sigcont]
    · rintro ⟨killed | ⟨other, _⟩, _⟩
      · exact kill killed
      · exact other stop
  have catchable : uncatchable signum = false := by simp [uncatchable, kill, stop]
  by_cases default : entry = sigDfl
  · rw [default_honoured_iff chosen documented default catchable]
    simp [EntryRespected, Enterable, kill, stop, default, entries_distinct]
  by_cases ignored : entry = sigIgn
  · rw [ignored_honoured_iff chosen documented ignored catchable pending]
    simp [EntryRespected, Enterable, kill, stop, ignored, entries_distinct, entries_distinct.1.symm]
  rw [handler_honoured_iff chosen documented default ignored catchable]
  simp [EntryRespected, Enterable, kill, stop, default, ignored]

end

/-- Both delivery paths treat the lowest pending unblocked signal as documented exactly when its table
entry is one the code respects and, for a handler, the stack can take the trampoline's address. -/
theorem dispositions_honoured_iff (machine : Machine) (task : SignalTask) (exit : KernelExit) :
    DispositionHonoured machine task exit ↔ (task.activeSignal = 0#32 → nextPendingSignal task ≠ 0 →
        EntryRespected (nextPendingSignal task) (task.signalHandlers (nextPendingSignal task)) ∧
          Enterable machine task exit (nextPendingSignal task) (task.signalHandlers (nextPendingSignal task))) := by
  by_cases idle : task.activeSignal = 0#32
  · by_cases quiet : nextPendingSignal task = 0
    · simp only [quiet, ne_eq, not_true_eq_false, false_implies, implies_true, iff_true]
      apply honoured_of_nothing
      · simp [chooseSignal, idle, quiet]
      · simp [documentedReaction, quiet]
    simp only [idle, ne_eq, quiet, not_false_eq_true, true_implies]
    apply entry_honoured_iff (chooseSignal_eq idle quiet) ?_ (nextPendingSignal_spec quiet).2
    simp [documentedReaction, idle, quiet]
  · simp only [idle, false_implies, iff_true]
    apply honoured_of_nothing
    · simp [chooseSignal, idle]
    · simp [documentedReaction, idle]

def ignoringTask : SignalTask where
  cr3 := 0x1000
  userPhysicalPages := fun _ => 0x5000
  userPageCount := 1
  signalHandlers := fun signum => if signum = 10 then sigIgn else sigDfl
  pendingSignals := signalBit 10
  blockedSignals := 0
  activeSignal := 0
  signalContext := ⟨⟨0, 0, 0, 0, 0, 0, 0, 0, 0, 0, 0, 0, 0, 0, 0, 0, 0⟩, 0, 0, 0, 0⟩

theorem sigusr1_ignored_entered : documentedReaction ignoringTask stackExit = some (.discarded 10) ∧
      (deliverSignals stackMachine ignoringTask stackExit).outcome = .delivered ∧
      (deliverSignals stackMachine ignoringTask stackExit).frame.resume.registers.rip = sigIgn ∧
      ¬ DispositionHonoured stackMachine ignoringTask stackExit := by
  have outcome : (deliverSignals stackMachine ignoringTask stackExit).outcome = .delivered := by decide +kernel
  have rip : (deliverSignals stackMachine ignoringTask stackExit).frame.resume.registers.rip = sigIgn := by decide +kernel
  exact ⟨by decide +kernel, outcome, rip, fun honoured => honoured.neverIgnored outcome rip⟩

end PhotonOS
