import PhotonOS.Tcp.UnsentAck

/-!
What threads inside `tcp_shutdown`, `tcp_close` and `tcp_drain_unsent` do to a
connection that was reset while they had dropped its lock.
-/

namespace PhotonOS

open Transition

def Pcb.IsReset (pcb : Pcb) : Prop := pcb.state = .closed ∧ pcb.flags.reset = true

def Pcb.timerView (pcb : Pcb) : TcpTimers × BitVec 64 × Bool × Bool × Bool × Bool :=
  (pcb.timers, pcb.retransmissionTimer, pcb.flags.timerRto, pcb.flags.timerKeep, pcb.flags.timerDack,
    pcb.flags.timerPersist)

/-- A step that sends nothing and, if it keeps the PCB, keeps state, RESET, `snd_nxt` and timers. -/
structure StaysReset (pcb : Pcb) (result : StepResult) : Prop where
  silent : result.output.packets = []
  state : ∀ after ∈ result.conn.pcb, after.state = pcb.state
  reset : ∀ after ∈ result.conn.pcb, after.flags.reset = pcb.flags.reset
  sndNxt : ∀ after ∈ result.conn.pcb, after.sndNxt = pcb.sndNxt
  timers : ∀ after ∈ result.conn.pcb, after.timerView = pcb.timerView

def Frame.ofCloser : Frame → Bool
  | .drainEnter _ | .drainLoop _ | .closeResume _ | .shutdownResume => true
  | .sendCheck _ _ | .sendCopy _ _ _ | .enqueue => false

def closerStep (conn : Conn) : Action → Bool
  | .drain | .shutdown _ | .close => true
  | .resume index _ _ => (conn.frames[index]?).any Frame.ofCloser
  | .send _ | .read _ | .accept | .input _ _ _ | .tick _ _ => false

/-- No step of the three calls touches the reset connection. -/
def StepKeepsReset (conn : Conn) (event : Event) : Prop :=
  closerStep conn event.action = true → ∀ pcb ∈ conn.pcb, StaysReset pcb (stepConn conn event)

def Frame.findsFin (pcb : Pcb) : Frame → Prop
  | .drainEnter _ => pcb.flags.draining = false ∧ pcb.flags.finPending = true
  | .drainLoop _ => pcb.flags.finPending = true
  | .shutdownResume => pcb.flags.finPending = false
  | .closeResume expected => pcb.state = expected
  | .sendCheck _ _ | .sendCopy _ _ _ | .enqueue => False

/-- The resumed thread builds no FIN: the queue is not empty, there is none to build, or the endpoints
are not set. -/
def StepFindsNoFin (conn : Conn) (event : Event) : Prop :=
  match event.action with
  | .resume index _ _ => ∀ pcb ∈ conn.pcb, ∀ frame ∈ conn.frames[index]?,
      frame.findsFin pcb → pcb.Addressed → pcb.txBuf.unsent.entries ≠ []
  | _ => True

structure SectionStays (pcb after : Pcb) (packets : List (List UInt8)) : Prop where
  silent : packets = []
  state : after.state = pcb.state
  reset : after.flags.reset = pcb.flags.reset
  sndNxt : after.sndNxt = pcb.sndNxt
  timers : after.timerView = pcb.timerView

theorem staysReset_some {pcb after : Pcb} {frames : List Frame} {output : Output} :
    StaysReset pcb { conn := { pcb := some after, frames := frames }, output := output } ↔
      SectionStays pcb after output.packets := by
  constructor
  · rintro ⟨silent, state, reset, sndNxt, timers⟩
    exact ⟨silent, state after rfl, reset after rfl, sndNxt after rfl, timers after rfl⟩
  rintro ⟨silent, state, reset, sndNxt, timers⟩
  refine ⟨silent, ?_, ?_, ?_, ?_⟩
  all_goals
    intro other same
    cases same
    assumption

variable (now : BitVec 64) (allocated : Bool) (pcb : Pcb) {frame : Frame}

theorem tcpBuildOutputLocked_addressed (flags : BitVec 16) (payload : List UInt8) (addressed : pcb.Addressed) :
    ∃ built, tcpBuildOutputLocked pcb flags payload = some built := by
  rw [tcpBuildOutputLocked, if_neg]
  · exact ⟨_, rfl⟩
  · rintro (zero | zero | zero)
    · exact addressed.1 zero
    · exact addressed.2.1 zero
    · exact addressed.2.2 zero

theorem sendFin_stays_iff {state : TcpState} :
    SectionStays pcb (sendFin now pcb state).1 (sendFin now pcb state).2 ↔ ¬pcb.Addressed := by
  constructor
  · intro stays addressed
    obtain ⟨built, sent⟩ := tcpBuildOutputLocked_addressed pcb (tcpFlagFin ||| tcpFlagAck) [] addressed
    have silent := stays.silent
    simp only [sendFin, sent] at silent
    cases silent
  · intro refused
    rw [sendFin, tcpBuildOutputLocked_unaddressed _ _ _ refused]
    constructor <;> rfl

theorem drainFin_stays_iff : SectionStays pcb (drainFin now pcb).pcb (drainFin now pcb).packet.toList ↔
      (pcb.flags.finPending = true → ¬pcb.Addressed) := by
  rw [drainFin]
  by_cases pending : pcb.flags.finPending = true
  · rw [if_pos pending]
    constructor
    · intro stays _ addressed
      obtain ⟨⟨built, packet⟩, sent⟩ := tcpBuildOutputLocked_addressed
        { pcb with flags := { pcb.flags with finPending := false } } (tcpFlagFin ||| tcpFlagAck) [] addressed
      have silent := stays.silent
      simp only [sent] at silent
      cases silent
    · intro refused
      have absent := tcpBuildOutputLocked_unaddressed { pcb with flags := { pcb.flags with finPending := false } }
        (tcpFlagFin ||| tcpFlagAck) [] (refused pending)
      simp only [absent]
      constructor <;> rfl
  · rw [if_neg pending]
    refine iff_of_true ?_ fun given => absurd given pending
    constructor <;> rfl

theorem drainIteration_stays_iff (reset : pcb.flags.reset = true) :
    SectionStays pcb (drainIteration now allocated pcb).pcb (drainIteration now allocated pcb).packet.toList ↔
      (pcb.flags.finPending = true → pcb.Addressed → pcb.txBuf.unsent.entries ≠ []) := by
  rw [drainIteration]
  split
  next empty =>
    rw [drainFin_stays_iff, empty]
    simp
  next segment rest queue =>
    rw [if_pos (Or.inr reset), queue]
    refine iff_of_true ?_ (by simp)
    constructor <;> rfl

theorem shutdownAfterDrain_stays_iff :
    SectionStays pcb (shutdownAfterDrain now pcb).1 (shutdownAfterDrain now pcb).2 ↔
      (pcb.flags.finPending = false → pcb.Addressed → pcb.txBuf.unsent.entries ≠ []) := by
  rw [shutdownAfterDrain]
  by_cases queued : pcb.txBuf.unsent.entries ≠ []
  · rw [if_pos queued]
    refine iff_of_true ?_ fun _ _ => queued
    constructor <;> rfl
  rw [if_neg queued]
  by_cases pending : pcb.flags.finPending = true
  · rw [if_pos pending]
    refine iff_of_true ?_ fun absent => by rw [pending] at absent; cases absent
    constructor <;> rfl
  · rw [if_neg pending, sendFin_stays_iff]
    simp [pending, queued]

theorem closeAfterDrain_stays_iff {expected : TcpState} {pcb : Pcb} :
    SectionStays pcb (closeAfterDrain now expected pcb).1 (closeAfterDrain now expected pcb).2 ↔
      (pcb.state = expected → pcb.Addressed → pcb.txBuf.unsent.entries ≠ []) := by
  rw [closeAfterDrain]
  by_cases same : pcb.state = expected
  · rw [if_neg (by simp [same])]
    by_cases queued : pcb.txBuf.unsent.entries ≠ []
    · rw [if_pos queued]
      refine iff_of_true ?_ fun _ _ => queued
      constructor <;> rfl
    · rw [if_neg queued, sendFin_stays_iff]
      simp [same, queued]
  · rw [if_pos same]
    refine iff_of_true ?_ fun given => absurd given same
    constructor <;> rfl

theorem drainEnter_stays_iff (reset : pcb.flags.reset = true) (idle : pcb.flags.draining = false) :
    ∃ result, drainEnter now allocated pcb = some result ∧ (SectionStays pcb result.pcb result.packet.toList ↔
        (pcb.flags.finPending = true → pcb.Addressed → pcb.txBuf.unsent.entries ≠ [])) := by
  have iteration := drainIteration_stays_iff now allocated
    { pcb with flags := { pcb.flags with draining := true } } reset
  refine ⟨_, by rw [drainEnter, if_neg (by rw [idle]; decide)], ?_⟩
  refine Iff.trans ?_ iteration
  exact ⟨fun stays => ⟨stays.silent, stays.state, stays.reset, stays.sndNxt, stays.timers⟩,
    fun stays => ⟨stays.silent, stays.state, stays.reset, stays.sndNxt, stays.timers⟩⟩

theorem runFrame_stays_iff {pcb : Pcb} (listener : Pcb) (frames : List Frame)
    (reset : pcb.flags.reset = true) (closer : frame.ofCloser = true) :
    StaysReset pcb { conn := { pcb := (runFrame now allocated listener pcb frame).pcb, frames := frames }
                     output := (runFrame now allocated listener pcb frame).output } ↔
      (frame.findsFin pcb → pcb.Addressed → pcb.txBuf.unsent.entries ≠ []) := by
  cases frame with
  | sendCheck buffer accepted => cases closer
  | sendCopy buffer accepted requested => cases closer
  | enqueue => cases closer
  | drainEnter next =>
    by_cases draining : pcb.flags.draining = true
    · simp only [runFrame, drainEnter, if_pos draining, staysReset_some]
      refine iff_of_true (by constructor <;> rfl) ?_
      rintro ⟨idle, _⟩
      rw [draining] at idle
      cases idle
    · have idle := Bool.eq_false_iff.mpr draining
      obtain ⟨result, entered, stays⟩ := drainEnter_stays_iff now allocated pcb reset idle
      simp only [runFrame, entered, drainFrame, staysReset_some, stays, Frame.findsFin, idle, true_and]
  | drainLoop next =>
    simp only [runFrame, drainFrame, staysReset_some]
    exact drainIteration_stays_iff now allocated pcb reset
  | closeResume expected =>
    simp only [runFrame, staysReset_some]
    exact closeAfterDrain_stays_iff now
  | shutdownResume =>
    simp only [runFrame, staysReset_some]
    exact shutdownAfterDrain_stays_iff now pcb

theorem stepKeepsReset_iff (conn : Conn) (event : Event) (reset : ∀ pcb ∈ conn.pcb, pcb.IsReset) :
    StepKeepsReset conn event ↔ StepFindsNoFin conn event := by
  obtain ⟨now, action⟩ := event
  obtain ⟨current, frames⟩ := conn
  cases current with
  | none =>
    refine iff_of_true (fun _ pcb absent => by cases absent) ?_
    cases action <;> simp [StepFindsNoFin]
  | some pcb =>
    have isReset := reset pcb rfl
    have quiet : StaysReset pcb { conn := { pcb := some pcb, frames := frames }, output := {} } :=
      staysReset_some.mpr (by constructor <;> rfl)
    cases action with
    | send buffer => exact iff_of_true (fun closer => by cases closer) trivial
    | read length => exact iff_of_true (fun closer => by cases closer) trivial
    | accept => exact iff_of_true (fun closer => by cases closer) trivial
    | input srcIp destIp segment => exact iff_of_true (fun closer => by cases closer) trivial
    | tick deferred dead => exact iff_of_true (fun closer => by cases closer) trivial
    | drain =>
      refine iff_of_true ?_ trivial
      intro _ other same
      cases same
      exact staysReset_some.mpr (by constructor <;> rfl)
    | shutdown how =>
      refine iff_of_true ?_ trivial
      intro _ other same
      cases same
      have refused : tcpShutdownStart now how pcb = .returned pcb [] := by
        rw [tcpShutdownStart]
        split
        · rfl
        · rw [if_pos (Or.inl isReset.1)]
      simp only [stepConn, stepPcb, refused, startClose]
      exact quiet
    | close =>
      refine iff_of_true ?_ trivial
      intro _ other same
      cases same
      have freed : tcpCloseStart now pcb = .freed := by
        rw [tcpCloseStart, if_pos (Or.inr (Or.inr (Or.inr isReset.1)))]
      simp only [stepConn, stepPcb, freed, startClose]
      constructor
      · rfl
      all_goals
        intro after absent
        cases absent
    | resume index allocated listener =>
      cases found : frames[index]? with
      | none =>
        refine iff_of_true ?_ (by simp [StepFindsNoFin, found])
        intro closer
        simp [closerStep, found] at closer
      | some frame =>
        by_cases closer : frame.ofCloser = true
        · have stays := runFrame_stays_iff now allocated listener
            (frames.eraseIdx index ++ (runFrame now allocated listener pcb frame).frame.toList) isReset.2 closer
          simp only [StepKeepsReset, closerStep, found, Option.any_some, closer, forall_const, Option.mem_def,
            Option.some.injEq, forall_eq', stepConn, stepPcb, StepFindsNoFin]
          exact stays
        · refine iff_of_true ?_ ?_
          · intro given
            simp [closerStep, found, closer] at given
          · simp only [StepFindsNoFin, found, Option.mem_def, Option.some.injEq, forall_eq']
            cases frame <;> simp_all [Frame.ofCloser, Frame.findsFin]

theorem tcpReceiveRead_reset {length : Nat} (reset : pcb.IsReset) : (tcpReceiveRead pcb length).pcb.IsReset := by
  rw [tcpReceiveRead]
  split
  · exact reset
  rw [if_neg]
  · exact reset
  · rintro ⟨_, established⟩
    rw [reset.1] at established
    cases established

theorem runFrame_other_reset {listener pcb : Pcb} (reset : pcb.IsReset)
    (other : frame.ofCloser = false) : ∀ after ∈ (runFrame now allocated listener pcb frame).pcb, after.IsReset := by
  intro after kept
  have refused : sendRefused pcb = true := by simp [sendRefused, reset.1]
  cases frame with
  | sendCheck buffer accepted =>
    cases kept
    exact reset
  | sendCopy buffer accepted requested =>
    simp only [runFrame, runSendCopy, refused, if_true] at kept
    split at kept
    · cases kept
      exact reset
    · cases kept
      exact reset
  | enqueue =>
    simp only [runFrame, tcpAcceptEnqueue] at kept
    split at kept
    · cases kept
      exact reset
    · cases kept
  | drainEnter next => cases other
  | drainLoop next => cases other
  | closeResume expected => cases other
  | shutdownResume => cases other

theorem connStep_reset {conn : Conn} {event : Event} (noFin : StepFindsNoFin conn event)
    (reset : ∀ pcb ∈ conn.pcb, pcb.IsReset) : ∀ pcb ∈ (connStep conn event).pcb, pcb.IsReset := by
  have keeps := (stepKeepsReset_iff conn event reset).mpr noFin
  obtain ⟨now, action⟩ := event
  obtain ⟨current, frames⟩ := conn
  cases current with
  | none => exact fun pcb absent => by cases absent
  | some pcb =>
    have isReset := reset pcb rfl
    by_cases closer : closerStep { pcb := some pcb, frames := frames } action = true
    · intro after kept
      have stays := keeps closer pcb rfl
      exact ⟨(stays.state after kept).trans isReset.1, (stays.reset after kept).trans isReset.2⟩
    cases action with
    | send buffer => exact reset
    | read length =>
      intro after kept
      cases kept
      exact tcpReceiveRead_reset pcb isReset
    | accept =>
      intro after kept
      cases kept
      rw [acceptChild]
      split
      · exact isReset
      · exact isReset
    | input srcIp destIp segment =>
      intro after kept
      simp only [connStep, stepConn, stepPcb] at kept
      split at kept
      · cases kept
        exact isReset
      · simp only [tcpInputLocked, isReset.1, true_or, if_true] at kept
        cases kept
        exact isReset
    | tick deferred dead =>
      intro after kept
      simp only [connStep, stepConn, stepPcb, tcpTimerTickPcb, isReset.1] at kept
      cases kept
      exact isReset
    | drain => exact absurd rfl closer
    | shutdown how => exact absurd rfl closer
    | close => exact absurd rfl closer
    | resume index allocated listener =>
      intro after kept
      simp only [connStep, stepConn, stepPcb] at kept
      cases found : frames[index]? with
      | none =>
        rw [found] at kept
        cases kept
        exact isReset
      | some frame =>
        rw [found] at kept
        have other : frame.ofCloser = false := by simpa [closerStep, found] using closer
        exact runFrame_other_reset now allocated isReset other after kept

/-- From a connection that is CLOSED with RESET set, whatever its threads and the network do next: the
three calls never touch it again exactly when none of them is resumed with a FIN to build. -/
theorem reset_stays_iff (conn : Conn) (pcb : Pcb) (found : conn.pcb = some pcb) (reset : pcb.IsReset)
    (events : List Event) :
    Admissible connStep StepKeepsReset conn events ↔ Admissible connStep StepFindsNoFin conn events := by
  refine admissible_iff connStep StepKeepsReset StepFindsNoFin (fun _ => True)
    (fun conn => ∀ pcb ∈ conn.pcb, pcb.IsReset) ?_ ?_ events conn (fun _ _ => trivial) ?_
  · intro state event _ inv
    exact stepKeepsReset_iff state event inv
  · intro state event _ noFin inv
    exact connStep_reset noFin inv
  · intro other same
    rw [found] at same
    cases same
    exact reset

def sampleReset : List Action :=
  let resume := Action.resume 0 true (tcpAlloc false)
  [sampleInput 500 1001 (tcpFlagSyn ||| tcpFlagAck), .send [7], resume, resume, .shutdown 1,
    sampleInput 501 0 tcpFlagRst, .resume 1 true (tcpAlloc false)]

/-- The thread of `tcp_shutdown` resumes on the reset connection, sends a FIN, arms the timer and leaves
it in LAST_ACK. -/
theorem shutdown_revives_reset :
    ∃ conn pcb event, Reachable conn ∧ conn.pcb = some pcb ∧ pcb.IsReset ∧ ¬StepKeepsReset conn event ∧
      (∃ after, (connStep conn event).pcb = some after ∧ after.state = .lastAck) := by
  have reached : (sampleConn sampleReset).pcb.map (fun pcb => (pcb.state, pcb.flags.reset)) = some (.closed, true) := by
    decide +kernel
  obtain ⟨pcb, found, fields⟩ := Option.map_eq_some_iff.mp reached
  simp only [Prod.mk.injEq] at fields
  have revived : (connStep (sampleConn sampleReset) ⟨1, .resume 1 true (tcpAlloc false)⟩).pcb.map Pcb.state =
      some .lastAck := by decide +kernel
  obtain ⟨after, kept, state⟩ := Option.map_eq_some_iff.mp revived
  refine ⟨_, pcb, ⟨1, .resume 1 true (tcpAlloc false)⟩, sampleConn_reachable, found, fields, ?_, after, kept, state⟩
  intro keeps
  have stays := keeps (by decide +kernel) pcb found
  have same := stays.state after kept
  rw [state, fields.1] at same
  cases same

theorem reset_stays_close :
    ∃ conn pcb, conn.pcb = some pcb ∧ pcb.IsReset ∧ conn.frames = [.closeResume .established] ∧
      Admissible connStep StepKeepsReset conn [⟨1, .resume 0 true (tcpAlloc false)⟩] := by
  refine ⟨⟨some { tcpAlloc true with flags := { reset := true } }, [.closeResume .established]⟩, _, rfl,
    ⟨rfl, rfl⟩, rfl, ?_⟩
  refine (reset_stays_iff _ _ rfl ⟨rfl, rfl⟩ _).mpr ⟨?_, trivial⟩
  intro pcb same frame found finds
  cases same
  cases found
  cases finds

end PhotonOS
