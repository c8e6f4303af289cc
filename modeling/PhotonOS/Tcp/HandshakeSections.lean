import PhotonOS.Tcp.InputSections

/-!
What can happen to a PCB in SYN_SENT or SYN_RECEIVED.
-/

namespace PhotonOS

open SendView

structure Waits (pcb : Pcb) (frames : List Frame) : Prop where
  next : pcb.sndNxt = pcb.iss + 1
  unsent : pcb.txBuf.unsent.entries = []
  free : pcb.flags.finPending = false
  calm : ∀ frame ∈ frames, frame.closing = false

/-- A handshake that goes on, with `seq_number` as it was or at the number after the SYN. -/
structure StillWaits (before after : Pcb) : Prop where
  state : after.state = before.state
  iss : after.iss = before.iss
  view : Widens 0 (receiveView before) (receiveView after)
  rcvNxt : after.rcvNxt = before.rcvNxt
  number : after.seqNumber = before.seqNumber ∨ after.seqNumber = before.iss + 1

def handshakeFlags (state : TcpState) : BitVec 16 :=
  if state = .synSent then tcpFlagSyn else tcpFlagSyn ||| tcpFlagAck

def HandshakeSegment (pcb : Pcb) (packet : List UInt8) : Prop :=
  ∃ sender, packet = segmentPacket sender pcb.iss (handshakeFlags pcb.state) [] ∧ receiveView sender = receiveView pcb

def CompletesActive (pcb : Pcb) (header : TcpHeader) : Prop :=
  header.flags &&& (tcpFlagSyn ||| tcpFlagAck) = tcpFlagSyn ||| tcpFlagAck ∧
    (header.ackNum = pcb.iss + 1 ∨ header.ackNum = pcb.seqNumber)

inductive HandshakeOutcome (pcb : Pcb) (action : Action) (conn : Conn) (packets : List (List UInt8)) : Prop where
  | gone (left : conn.pcb = none) (silent : packets = [])
  | closed (after : Pcb) (left : conn.pcb = some after) (state : after.state = .closed)
      (view : receiveView after = receiveView pcb) (silent : packets = [])
  | waiting (after : Pcb) (left : conn.pcb = some after) (still : StillWaits pcb after)
      (waits : Waits after conn.frames) (sent : ∀ packet ∈ packets, HandshakeSegment pcb packet)
  | active (after : Pcb) (srcIp destIp : BitVec 32) (segment payload : List UInt8) (header : TcpHeader)
      (input : action = .input srcIp destIp segment)
      (decoded : tcpDecode srcIp destIp segment = some (header, payload)) (state : pcb.state = .synSent)
      (completes : CompletesActive pcb header) (left : conn.pcb = some after)
      (established : after.state = .established)
      (view : receiveView after = { receiveView pcb with rcvNxt := header.seqNum + 1 })
      (sent : ∀ packet ∈ packets, Announces packet (receiveView after))
  | passive (after : Pcb) (srcIp destIp : BitVec 32) (segment payload : List UInt8) (header : TcpHeader)
      (input : action = .input srcIp destIp segment)
      (decoded : tcpDecode srcIp destIp segment = some (header, payload)) (state : pcb.state = .synReceived)
      (completes : acceptsHandshake header pcb = true) (left : conn.pcb = some after)
      (established : after.state = .established) (view : receiveView after = receiveView pcb)
      (silent : packets = [])

theorem Waits.congr {pcb other : Pcb} {frames more : List Frame} (waits : Waits pcb frames)
    (view : sendView other = sendView pcb) (calm : ∀ frame ∈ more, frame.closing = false) : Waits other more := by
  have next : other.sndNxt = pcb.sndNxt := congrArg sndNxt view
  have iss : other.iss = pcb.iss := congrArg iss view
  have buffer : other.txBuf = pcb.txBuf := congrArg txBuf view
  have free : other.flags.finPending = pcb.flags.finPending := congrArg finPending view
  exact ⟨by rw [next, iss, waits.next], by rw [buffer, waits.unsent], by rw [free, waits.free], calm⟩

theorem tcpOutput_syn {now : BitVec 64} {pcb built : Pcb} {packet : List UInt8}
    (sent : tcpOutput now pcb tcpFlagSyn = some (built, packet)) :
    ∃ inner, tcpBuildOutputLocked pcb tcpFlagSyn [] = some (inner, packet) ∧ built.state = inner.state ∧
      built.iss = inner.iss ∧ built.seqNumber = inner.seqNumber ∧ receiveView built = receiveView inner ∧
      ∀ frames, Waits inner frames → Waits built frames := by
  unfold tcpOutput at sent
  split at sent
  · cases sent
  next inner other output =>
    cases sent
    exact ⟨inner, output, rfl, rfl, rfl, rfl, fun _ waits => ⟨waits.next, waits.unsent, waits.free, waits.calm⟩⟩

section

variable {pcb : Pcb} {frames : List Frame} {action : Action} {more : List Frame} {allocated : Bool} {next : InputNext}

theorem HandshakeOutcome.unchanged {after : Pcb} (waits : Waits pcb frames)
    (view : sendView after = sendView pcb) (number : after.seqNumber = pcb.seqNumber)
    (receive : receiveView after = receiveView pcb) (calm : ∀ frame ∈ more, frame.closing = false) :
    HandshakeOutcome pcb action { pcb := some after, frames := more } [] := by
  refine .waiting after rfl ?_ (waits.congr view calm) (by simp)
  refine ⟨congrArg state view, congrArg iss view, ?_, congrArg ReceiveView.rcvNxt receive, .inl number⟩
  rw [receive]
  exact .refl _

variable {sender built : Pcb} {packet segment payload : List UInt8} {srcIp destIp : BitVec 32}
    {header : TcpHeader}

theorem Waits.of_syn {flags : BitVec 16} (unsent : sender.txBuf.unsent.entries = [])
    (free : sender.flags.finPending = false) (calm : ∀ frame ∈ frames, frame.closing = false)
    (syn : flagSet flags tcpFlagSyn = true) (sent : tcpBuildOutputLocked sender flags [] = some (built, packet)) :
    Waits built frames ∧ built.iss = sender.iss ∧ built.seqNumber = sender.iss + 1 := by
  obtain ⟨view, recorded⟩ := sendView_tcpBuildOutputLocked sent
  have iss : built.iss = sender.iss := congrArg iss view
  have next : built.sndNxt = sender.iss + 1 := by
    have field := congrArg sndNxt view
    simpa [afterBuild, syn, sendView] using field
  have buffer : built.txBuf = sender.txBuf := congrArg txBuf view
  have pending : built.flags.finPending = sender.flags.finPending := congrArg finPending view
  exact ⟨⟨by rw [next, iss], by rw [buffer, unsent], by rw [pending, free], calm⟩, iss, recorded.trans next⟩

theorem handshakeBuilt (waits : Waits pcb frames) (handshaking : pcb.state.handshaking)
    (view : receiveView sender = receiveView pcb) (state : sender.state = pcb.state)
    (iss : sender.iss = pcb.iss) (buffer : sender.txBuf = pcb.txBuf)
    (pending : sender.flags.finPending = pcb.flags.finPending)
    (sent : tcpBuildOutputLocked sender (handshakeFlags pcb.state) [] = some (built, packet)) :
    StillWaits pcb built ∧ Waits built frames ∧ HandshakeSegment pcb packet := by
  have syn : flagSet (handshakeFlags pcb.state) tcpFlagSyn = true := by
    unfold handshakeFlags
    split <;> decide
  obtain ⟨receive, stateKept⟩ := receiveView_tcpBuildOutputLocked sent
  obtain ⟨waitsNext, issKept, number⟩ := Waits.of_syn (by rw [buffer, waits.unsent]) (by rw [pending, waits.free])
    waits.calm syn sent
  refine ⟨⟨stateKept.trans state, issKept.trans iss, ?_, ?_, ?_⟩, waitsNext, sender, ?_, view⟩
  · rw [receive, view]
    exact .refl _
  · exact congrArg ReceiveView.rcvNxt (receive.trans view)
  · rw [number, iss]
    exact .inr rfl
  · have handshakingSender : sender.state = .synSent ∨ sender.state = .synReceived := by
      rw [state]
      exact handshaking
    rw [tcpBuildOutputLocked_packet sent, if_pos ⟨syn, handshakingSender⟩, iss]

theorem handshakeFlags_synSent (state : pcb.state = .synSent) : handshakeFlags pcb.state = tcpFlagSyn := by
  rw [handshakeFlags, if_pos state]

theorem handshakeFlags_synReceived (state : pcb.state = .synReceived) :
    handshakeFlags pcb.state = tcpFlagSyn ||| tcpFlagAck := by
  rw [handshakeFlags, if_neg (by rw [state]; decide)]

variable (now : BitVec 64)

theorem tickHandshake_outcome (deferred : Nat) (waits : Waits pcb frames) (handshaking : pcb.state.handshaking) :
    HandshakeOutcome pcb action
      { pcb := (tickHandshake now deferred (handshakeFlags pcb.state) pcb).pcb, frames := frames }
      (tickHandshake now deferred (handshakeFlags pcb.state) pcb).packets := by
  have expired : HandshakeOutcome pcb action { pcb := some (closeExpired pcb), frames := frames } [] :=
    .closed _ rfl rfl rfl rfl
  have backed : HandshakeOutcome pcb action { pcb := some (backoffRto now pcb), frames := frames } [] := by
    refine .waiting _ rfl ⟨rfl, rfl, .refl _, rfl, .inl rfl⟩ ⟨waits.next, waits.unsent, waits.free, waits.calm⟩ ?_
    simp
  simp only [tickHandshake]
  split
  · exact expired
  split
  · split
    · exact expired
    split
    · split
      · exact backed
      rename_i built packet sent
      obtain ⟨still, next, segment⟩ := handshakeBuilt waits handshaking (receiveView_backoffRto now)
        rfl rfl rfl rfl sent
      refine .waiting built rfl still next ?_
      intro other member
      obtain rfl := List.mem_singleton.mp member
      exact segment
    · exact backed
  · exact .unchanged waits rfl rfl rfl waits.calm

theorem tick_outcome {deferred dead : Nat} (waits : Waits pcb frames) (handshaking : pcb.state.handshaking) :
    HandshakeOutcome pcb action { pcb := (tcpTimerTickPcb now deferred dead pcb).pcb, frames := frames }
      (tcpTimerTickPcb now deferred dead pcb).packets := by
  have tick := @tickHandshake_outcome pcb frames action now deferred waits handshaking
  rcases handshaking with state | state
  · rw [handshakeFlags_synSent state] at tick
    simp only [tcpTimerTickPcb, state]
    exact tick
  · rw [handshakeFlags_synReceived state] at tick
    simp only [tcpTimerTickPcb, state]
    exact tick

theorem read_outcome (length : Nat) (waits : Waits pcb frames) (handshaking : pcb.state.handshaking) :
    HandshakeOutcome pcb action { pcb := some (tcpReceiveRead pcb length).pcb, frames := frames }
        (tcpReceiveRead pcb length).packet.toList ∧ (tcpReceiveRead pcb length).hasUnsent = false := by
  have waiting : pcb.state ≠ .established := by rcases handshaking with state | state <;> rw [state] <;> decide
  unfold tcpReceiveRead
  split
  · exact ⟨.unchanged waits rfl rfl rfl waits.calm, rfl⟩
  simp only
  rw [if_neg (fun both => waiting both.2)]
  obtain ⟨space, capacity⟩ := RingBuffer.read_space pcb.rxBuf
  refine ⟨.waiting _ rfl ⟨rfl, rfl, ?_, rfl, .inl rfl⟩ ⟨waits.next, waits.unsent, waits.free, waits.calm⟩ ?_, ?_⟩
  · exact ⟨rfl, rfl, rfl, (BitVec.add_zero _).symm, space.trans (Nat.le_add_left _ _), capacity,
      fun ring => RingBuffer.read_wellFormed pcb.rxBuf ring⟩
  · simp
  · simp [waiting]

theorem drainIteration_waits (waits : Waits pcb frames) :
    drainIteration now allocated pcb = { pcb := stopDraining pcb, packet := none, again := false } := by
  simp only [drainIteration, waits.unsent, drainFin, waits.free, Bool.false_eq_true, if_false]

theorem sendRefused_waits (handshaking : pcb.state.handshaking) : sendRefused pcb = true := by
  rcases handshaking with state | state <;> simp [sendRefused, state]

theorem resume_outcome {listener : Pcb} {frame : Frame} {index : Nat} (waits : Waits pcb frames)
    (handshaking : pcb.state.handshaking) (found : frames[index]? = some frame) : HandshakeOutcome pcb action
      { pcb := (runFrame now allocated listener pcb frame).pcb
        frames := frames.eraseIdx index ++ (runFrame now allocated listener pcb frame).frame.toList }
      (runFrame now allocated listener pcb frame).output.packets := by
  have calling : frame.closing = false := waits.calm frame (List.mem_of_getElem? found)
  have calm : ∀ next ∈ frames.eraseIdx index ++ (runFrame now allocated listener pcb frame).frame.toList,
      next.closing = false := by
    refine List.forall_mem_append.mpr ⟨fun next member => waits.calm next (List.mem_of_mem_eraseIdx member), ?_⟩
    intro next member
    have left := runFrame_frame now allocated listener pcb frame next (Option.mem_toList.mp member)
    by_contra closing
    have wasClosing := left.2 (Bool.eq_true_of_not_eq_false closing)
    rw [calling] at wasClosing
    cases wasClosing
  generalize frames.eraseIdx index ++ (runFrame now allocated listener pcb frame).frame.toList = more at calm
  cases frame with
  | sendCheck buffer accepted => exact .unchanged waits rfl rfl rfl calm
  | sendCopy buffer accepted requested =>
    simp only [runFrame, runSendCopy, sendRefused_waits handshaking, if_true]
    split
    · exact .unchanged waits rfl rfl rfl calm
    · exact .unchanged waits rfl rfl rfl calm
  | drainEnter next =>
    simp only [runFrame]
    split
    · exact .unchanged waits rfl rfl rfl calm
    rename_i result entered
    unfold drainEnter at entered
    split at entered
    · cases entered
    have entering : Waits { pcb with flags := { pcb.flags with draining := true } } frames :=
      waits.congr rfl waits.calm
    cases entered
    simp only [drainFrame, drainIteration_waits now entering]
    exact .unchanged waits rfl rfl rfl calm
  | drainLoop next =>
    simp only [runFrame, drainFrame, drainIteration_waits now waits]
    exact .unchanged waits rfl rfl rfl calm
  | closeResume expected => cases calling
  | shutdownResume => cases calling
  | enqueue =>
    simp only [runFrame, tcpAcceptEnqueue]
    split
    · exact .unchanged waits rfl rfl rfl calm
    · exact .gone rfl rfl

theorem inputFrames_calm (waits : Waits pcb frames) (next : InputNext) :
    ∀ frame ∈ frames ++ inputFrames next, frame.closing = false := by
  refine List.forall_mem_append.mpr ⟨waits.calm, ?_⟩
  cases next <;> simp [inputFrames, Frame.closing]

theorem inputReset_outcome :
    HandshakeOutcome pcb action { pcb := (inputReset pcb).pcb, frames := more } (inputReset pcb).packets := by
  simp only [inputReset]
  split
  · exact .gone rfl rfl
  · exact .closed _ rfl rfl rfl rfl

theorem idleInput_outcome (waits : Waits pcb frames) (next : InputNext) :
    HandshakeOutcome pcb action { pcb := (finishInput (.start pcb)).pcb, frames := frames ++ inputFrames next }
      (finishInput (.start pcb)).packets :=
  .unchanged waits rfl rfl rfl (inputFrames_calm waits next)

section

variable (input : action = .input srcIp destIp segment)
    (decoded : tcpDecode srcIp destIp segment = some (header, payload)) (waits : Waits pcb frames)
include input decoded waits

theorem inputSynSent_outcome (state : pcb.state = .synSent) : HandshakeOutcome pcb action
      { pcb := (finishInput (inputSynSent now header (.start pcb))).pcb, frames := frames ++ inputFrames next }
      (finishInput (inputSynSent now header (.start pcb))).packets := by
  unfold inputSynSent
  split
  next completes =>
    simp only [reply]
    split
    · exact .active _ srcIp destIp segment payload header input decoded state completes rfl rfl rfl
        (by simp [finishInput, InputWork.update, InputWork.start])
    rename_i built packet sent
    obtain ⟨view, stateKept⟩ := receiveView_tcpBuildOutputLocked sent
    refine .active built srcIp destIp segment payload header input decoded state completes rfl stateKept view ?_
    rw [view]
    exact shows_of_build (.inl rfl) sent
  · exact idleInput_outcome waits next

theorem inputSynReceived_outcome (state : pcb.state = .synReceived) : HandshakeOutcome pcb action
      { pcb := (finishInput (inputSynReceived now header (.start pcb))).pcb, frames := frames ++ inputFrames next }
      (finishInput (inputSynReceived now header (.start pcb))).packets := by
  unfold inputSynReceived
  split
  · simp only [reply]
    split
    · exact idleInput_outcome waits next
    rename_i built packet sent
    have built_ : tcpBuildOutputLocked pcb (handshakeFlags pcb.state) [] = some (built, packet) := by
      rw [handshakeFlags_synReceived state]
      exact sent
    obtain ⟨still, waitsNext, synAck⟩ := handshakeBuilt waits (.inr state) rfl rfl rfl rfl rfl built_
    refine .waiting built rfl still (waitsNext.congr rfl (inputFrames_calm waits next)) ?_
    intro other member
    obtain rfl : other = packet := by simpa [finishInput, InputWork.start] using member
    exact synAck
  · split
    next completes =>
      exact .passive _ srcIp destIp segment payload header input decoded state completes rfl rfl rfl rfl
    · exact idleInput_outcome waits next

theorem input_outcome (handshaking : pcb.state.handshaking) : HandshakeOutcome pcb action
      { pcb := (tcpInputLocked now header payload pcb).pcb
        frames := frames ++ inputFrames (tcpInputLocked now header payload pcb).next }
      (tcpInputLocked now header payload pcb).packets := by
  have connected : ¬(pcb.state = .closed ∨ pcb.state = .listen) := by
    rcases handshaking with state | state <;> rw [state] <;> simp
  simp only [tcpInputLocked, if_neg connected]
  split
  · exact inputReset_outcome
  rcases handshaking with state | state
  · simp only [state]
    exact inputSynSent_outcome now input decoded waits state
  · simp only [state]
    split
    · exact inputSynReceived_outcome now input decoded waits state
    · exact inputSynReceived_outcome now input decoded waits state

end

theorem stepPcb_handshake (action : Action) (waits : Waits pcb frames) (handshaking : pcb.state.handshaking) :
    HandshakeOutcome pcb action (stepPcb now pcb frames action).conn
      (stepPcb now pcb frames action).output.packets := by
  cases action with
  | send buffer =>
    refine .unchanged waits rfl rfl rfl ?_
    split
    · exact waits.calm
    · exact List.forall_mem_append.mpr ⟨waits.calm, by simp [Frame.closing]⟩
  | drain => exact .unchanged waits rfl rfl rfl (List.forall_mem_append.mpr ⟨waits.calm, by simp [Frame.closing]⟩)
  | read length =>
    obtain ⟨outcome, drained⟩ := read_outcome length waits handshaking
    simp only [stepPcb, drained, Bool.false_eq_true, if_false]
    exact outcome
  | shutdown how =>
    have refused : tcpShutdownStart now how pcb = .returned pcb [] := by
      unfold tcpShutdownStart
      split
      · rfl
      · rw [if_pos (by rcases handshaking with state | state <;> simp [state])]
    simp only [stepPcb, refused, startClose]
    exact .unchanged waits rfl rfl rfl waits.calm
  | close =>
    have freed : tcpCloseStart now pcb = .freed := by
      rw [tcpCloseStart, if_pos (by rcases handshaking with state | state <;> simp [state])]
    simp only [stepPcb, freed, startClose]
    exact .gone rfl rfl
  | accept =>
    refine .unchanged waits (sendView_acceptChild pcb) ?_ ?_ waits.calm
    · unfold acceptChild
      split <;> rfl
    · unfold acceptChild
      split <;> rfl
  | input srcIp destIp segment =>
    simp only [stepPcb]
    split
    · exact .unchanged waits rfl rfl rfl waits.calm
    next header payload decoded => exact input_outcome now rfl decoded waits handshaking
  | tick deferred dead => exact tick_outcome now waits handshaking
  | resume index allocated listener =>
    simp only [stepPcb]
    split
    · exact .unchanged waits rfl rfl rfl waits.calm
    next frame found => exact resume_outcome now waits handshaking found

end

end PhotonOS
