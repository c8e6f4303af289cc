import PhotonOS.Tcp.AckProcessing

/-!
A segment of an ESTABLISHED connection that acknowledges data not yet sent.
-/

namespace PhotonOS

variable {flags : BitVec 16} {now : BitVec 64} {packets : List (List UInt8)}

/-- The endpoints without which `tcp_build_output_locked` refuses to build a segment. -/
def Pcb.Addressed (pcb : Pcb) : Prop := pcb.localPort ≠ 0 ∧ pcb.remoteIp ≠ 0 ∧ pcb.remotePort ≠ 0

/-- What dropping a segment with a bare ACK means. -/
structure SegmentDropped (pcb after : Pcb) (packets : List (List UInt8)) : Prop where
  replied : segmentPacket pcb pcb.sndNxt tcpFlagAck [] ∈ packets
  rcvNxt : after.rcvNxt = pcb.rcvNxt
  rxBuf : after.rxBuf = pcb.rxBuf
  sndWnd : after.sndWnd = pcb.sndWnd
  sndUna : after.sndUna = pcb.sndUna
  state : after.state = pcb.state

/-- The payload is in order and part of it is taken, or it is counted after `SHUT_RD`. -/
def TakesPayload (pcb : Pcb) (header : TcpHeader) (payload : List UInt8) : Prop :=
  payload ≠ [] ∧ header.seqNum = pcb.rcvNxt ∧
    if pcb.flags.shutRd then BitVec.ofNat 32 payload.length ≠ 0 else pcb.rxBuf.freeSpace ≠ 0

def TakesFin (pcb : Pcb) (header : TcpHeader) (payload : List UInt8) : Prop :=
  flagSet header.flags tcpFlagFin = true ∧ header.seqNum + BitVec.ofNat 32 payload.length = pcb.rcvNxt

def queueLeaves (allocated : Nat → Bool) : Nat → List Nat → Nat → Bool
  | _, [], _ => true
  | 0, _ :: _, _ => false
  | fuel + 1, length :: rest, window =>
    if window = 0 then false
    else
      let sendLen := min (min length window) tcpDefaultMss
      if sendLen < length then
        allocated fuel && queueLeaves allocated fuel ((length - sendLen) :: rest) (window - sendLen)
      else queueLeaves allocated fuel rest (window - sendLen)

def PendingFinLeaves (allocated : Nat → Bool) (pcb : Pcb) : Prop :=
  pcb.flags.finPending = true ∧ pcb.flags.draining = false ∧
    (pcb.txBuf.unsent.entries = [] ∨ pcb.flags.reset = false) ∧
    queueLeaves allocated (drainFuel pcb) (pcb.txBuf.unsent.entries.map TcpSegment.length)
      (remainingWindow pcb).toNat = true

structure Unmoved (before after : Pcb) : Prop where
  localIp : after.localIp = before.localIp
  remoteIp : after.remoteIp = before.remoteIp
  localPort : after.localPort = before.localPort
  remotePort : after.remotePort = before.remotePort
  rcvNxt : after.rcvNxt = before.rcvNxt
  rxBuf : after.rxBuf = before.rxBuf
  sndUna : after.sndUna = before.sndUna
  sndNxt : after.sndNxt = before.sndNxt
  sndWnd : after.sndWnd = before.sndWnd
  cwnd : after.cwnd = before.cwnd
  txBuf : after.txBuf = before.txBuf
  state : after.state = before.state
  finPending : after.flags.finPending = before.flags.finPending
  draining : after.flags.draining = before.flags.draining
  reset : after.flags.reset = before.flags.reset
  shutRd : after.flags.shutRd = before.flags.shutRd

theorem Unmoved.refl (pcb : Pcb) : Unmoved pcb pcb := by
  constructor <;> rfl

variable {first second third before after pcb : Pcb} {work : InputWork} {header : TcpHeader}
    {payload : List UInt8} {unsent : TcpQueue} {length : Nat}

theorem Unmoved.trans (left : Unmoved first second) (right : Unmoved second third) : Unmoved first third := by
  cases left
  cases right
  constructor <;> simp only [*]

theorem Unmoved.addressed (unmoved : Unmoved before after) : after.Addressed ↔ before.Addressed := by
  rw [Pcb.Addressed, unmoved.localPort, unmoved.remoteIp, unmoved.remotePort, Pcb.Addressed]

theorem Unmoved.packet (unmoved : Unmoved before after) (flags : BitVec 16) :
    segmentPacket after after.sndNxt flags [] = segmentPacket before before.sndNxt flags [] := by
  simp only [segmentPacket, segmentHeader, tcpWindowField, tcpEffectiveLocalIp, unmoved.localIp, unmoved.remoteIp,
    unmoved.localPort, unmoved.remotePort, unmoved.rcvNxt, unmoved.rxBuf, unmoved.sndNxt]

theorem Pcb.Addressed.accepted (addressed : pcb.Addressed) :
    ¬(pcb.localPort = 0 ∨ pcb.remoteIp = 0 ∨ pcb.remotePort = 0) := by
  rintro (zero | zero | zero)
  · exact addressed.1 zero
  · exact addressed.2.1 zero
  · exact addressed.2.2 zero

theorem reply_ack_eq (addressed : work.pcb.Addressed) : reply work tcpFlagAck = { work with
      pcb := { advertiseWindow work.pcb with seqNumber := work.pcb.sndNxt }
      out := some (segmentPacket work.pcb work.pcb.sndNxt tcpFlagAck []) } := by
  have noSyn : flagSet tcpFlagAck tcpFlagSyn = false := by decide
  have noFin : flagSet tcpFlagAck tcpFlagFin = false := by decide
  rw [reply, tcpBuildOutputLocked, if_neg addressed.accepted]
  simp [noSyn, noFin, advertiseWindow]

theorem tcpBuildOutputLocked_unaddressed (pcb : Pcb) (flags : BitVec 16) (payload : List UInt8)
    (refused : ¬pcb.Addressed) : tcpBuildOutputLocked pcb flags payload = none := by
  rw [tcpBuildOutputLocked, if_pos]
  by_contra none
  simp only [not_or] at none
  exact refused none

theorem reply_unaddressed (refused : ¬work.pcb.Addressed) : reply work flags = work := by
  rw [reply, tcpBuildOutputLocked_unaddressed _ _ _ refused]

structure Echoes (pcb : Pcb) (work : InputWork) : Prop where
  unmoved : Unmoved pcb work.pcb
  replied : pcb.Addressed → work.out = some (segmentPacket pcb pcb.sndNxt tcpFlagAck [])
  silent : ¬pcb.Addressed → work.out = none
  rexmit : work.rexmit = none
  needDrain : work.needDrain = false

theorem reply_ack_echoes (unmoved : Unmoved pcb work.pcb) (silent : ¬pcb.Addressed → work.out = none)
    (rexmit : work.rexmit = none) (needDrain : work.needDrain = false) : Echoes pcb (reply work tcpFlagAck) := by
  by_cases addressed : pcb.Addressed
  · rw [reply_ack_eq (unmoved.addressed.mpr addressed)]
    refine ⟨unmoved.trans ?_, ?_, ?_, rexmit, needDrain⟩
    · constructor <;> rfl
    · intro _
      rw [← unmoved.packet]
    · intro refused
      exact absurd addressed refused
  · rw [reply_unaddressed (mt unmoved.addressed.mp addressed)]
    exact ⟨unmoved, fun given => absurd given addressed, silent, rexmit, needDrain⟩

theorem Echoes.reply (echoes : Echoes pcb work) : Echoes pcb (reply work tcpFlagAck) :=
  reply_ack_echoes echoes.unmoved echoes.silent echoes.rexmit echoes.needDrain

theorem Echoes.update (echoes : Echoes pcb work) (other : Pcb) (unmoved : Unmoved work.pcb other) :
    Echoes pcb (work.update other) :=
  ⟨echoes.unmoved.trans unmoved, echoes.replied, echoes.silent, echoes.rexmit, echoes.needDrain⟩

theorem establishedAck_echoes (beyond : Serial.gt header.ackNum pcb.sndNxt = true) :
    Echoes pcb (establishedAck now header payload (.start pcb)) := by
  have here : Serial.gt header.ackNum (InputWork.start pcb).pcb.sndNxt = true := beyond
  rw [establishedAck, if_pos here]
  exact reply_ack_echoes (Unmoved.refl pcb) (fun _ => rfl) rfl rfl

theorem establishedWindow_sndWnd {before : BitVec 16} :
    (establishedWindow before header work).pcb.sndWnd = header.windowSize := by
  simp only [establishedWindow]
  split
  · split
    · rfl
    · rfl
  next kept =>
    simp only [not_or, not_not] at kept
    exact kept.1.symm

theorem establishedWindow_echoes (echoes : Echoes pcb work) (same : header.windowSize = pcb.sndWnd) :
    Echoes pcb (establishedWindow pcb.sndWnd header work) := by
  have sameHere : header.windowSize = work.pcb.sndWnd := same.trans echoes.unmoved.sndWnd.symm
  have closed : decide (header.windowSize > pcb.sndWnd) = false := by
    rw [same]
    exact decide_eq_false (BitVec.lt_irrefl _)
  have step : ∀ after : Pcb, Unmoved { work.pcb with
      sndWnd := header.windowSize, sndWl1 := header.seqNum, sndWl2 := header.ackNum } after → Unmoved pcb after := by
    intro after unmoved
    refine (echoes.unmoved.trans ?_).trans unmoved
    constructor <;> first | rfl | exact sameHere
  simp only [establishedWindow, closed, Bool.false_and, Bool.or_false]
  split
  · refine ⟨?_, echoes.replied, echoes.silent, echoes.rexmit, echoes.needDrain⟩
    split
    · apply step
      constructor <;> rfl
    · exact step _ (Unmoved.refl _)
  · exact echoes

theorem establishedProbe_echoes (echoes : Echoes pcb work) : Echoes pcb (establishedProbe header payload work) := by
  rw [establishedProbe]
  split
  · exact echoes.reply
  · exact echoes

theorem Unmoved.takesFin (unmoved : Unmoved before after) :
    TakesFin after header payload ↔ TakesFin before header payload := by
  simp only [TakesFin, unmoved.rcvNxt]

theorem acceptPayload_unmoved (nonempty : payload ≠ []) (inOrder : header.seqNum = pcb.rcvNxt)
    (refused : ¬TakesPayload pcb header payload) : Unmoved pcb (acceptPayload pcb payload) := by
  rw [acceptPayload]
  by_cases shut : pcb.flags.shutRd = true
  · have zero : BitVec.ofNat 32 payload.length = 0 := by
      by_contra positive
      exact refused ⟨nonempty, inOrder, by rw [if_pos shut]; exact positive⟩
    rw [if_pos shut, zero]
    constructor <;> first | rfl | exact BitVec.add_zero _
  · have full : pcb.rxBuf.freeSpace = 0 := by
      by_contra positive
      exact refused ⟨nonempty, inOrder, by rw [if_neg shut]; exact positive⟩
    have nothing : (pcb.rxBuf.write payload).2 = 0 := by rw [RingBuffer.write_count, full, Nat.min_zero]
    rw [if_neg shut]
    simp only [nothing, if_true]
    exact Unmoved.refl pcb

theorem noteFreeSpace_unmoved : Unmoved pcb (noteFreeSpace pcb) := by
  constructor <;> rfl

theorem establishedData_echoes (echoes : Echoes pcb work) (refused : ¬TakesPayload pcb header payload) :
    Echoes pcb (establishedData header payload work) := by
  rw [establishedData]
  by_cases empty : payload = []
  · rw [if_pos empty]
    exact echoes
  rw [if_neg empty]
  by_cases inOrder : header.seqNum = work.pcb.rcvNxt
  · rw [if_pos inOrder]
    rw [TakesPayload, ← echoes.unmoved.rcvNxt, ← echoes.unmoved.shutRd, ← echoes.unmoved.rxBuf] at refused
    exact (echoes.update _ ((acceptPayload_unmoved empty inOrder refused).trans
      noteFreeSpace_unmoved)).reply
  · rw [if_neg inOrder]
    refine (echoes.update _ ?_).reply
    constructor <;> rfl

theorem establishedFin_echoes (echoes : Echoes pcb work) (refused : ¬TakesFin pcb header payload) :
    Echoes pcb (establishedFin header payload work) := by
  rw [establishedFin, if_neg]
  · exact echoes
  · exact (echoes.unmoved.takesFin).not.mpr refused

/-! The drain that ends the call: it sends what is queued and, behind it, a deferred FIN. -/

structure Carried (before after : Pcb) : Prop where
  rcvNxt : after.rcvNxt = before.rcvNxt
  rxBuf : after.rxBuf = before.rxBuf
  sndWnd : after.sndWnd = before.sndWnd
  sndUna : after.sndUna = before.sndUna

structure Transmits (before after : Pcb) (unsent : TcpQueue) (length : Nat) : Prop extends Carried before after where
  state : after.state = before.state
  localPort : after.localPort = before.localPort
  remoteIp : after.remoteIp = before.remoteIp
  remotePort : after.remotePort = before.remotePort
  cwnd : after.cwnd = before.cwnd
  finPending : after.flags.finPending = before.flags.finPending
  reset : after.flags.reset = before.flags.reset
  unsent : after.txBuf.unsent = unsent
  sndNxt : after.sndNxt = before.sndNxt + BitVec.ofNat 32 length

theorem transmitSegment_transmits (now : BitVec 64) (pcb : Pcb) (unsent : TcpQueue) (segment : TcpSegment) :
    Transmits pcb (transmitSegment now pcb unsent segment).pcb unsent segment.length := by
  simp only [transmitSegment]
  split
  · constructor
    · constructor <;> rfl
    all_goals rfl
  · constructor
    · constructor <;> rfl
    all_goals rfl

theorem Transmits.window (sent : Transmits before after unsent length)
    (fits : length ≤ (remainingWindow before).toNat) (positive : remainingWindow before ≠ 0) :
    (remainingWindow after).toNat = (remainingWindow before).toNat - length := by
  simp only [remainingWindow, sent.cwnd, sent.sndNxt, sent.sndUna, sent.sndWnd] at fits positive ⊢
  generalize limit : (if before.sndWnd.setWidth 32 < before.cwnd then before.sndWnd.setWidth 32 else before.cwnd) =
    effective at fits positive ⊢
  have regroup : before.sndNxt + BitVec.ofNat 32 length - before.sndUna =
      before.sndNxt - before.sndUna + BitVec.ofNat 32 length := by
    rw [sub_eq_add_neg, add_right_comm, ← sub_eq_add_neg]
  rw [regroup]
  generalize before.sndNxt - before.sndUna = flight at fits positive ⊢
  split at positive
  next opened =>
    rw [if_pos opened] at fits ⊢
    rw [BitVec.toNat_sub_of_le (BitVec.le_of_lt opened)] at fits ⊢
    have advanced : (flight + BitVec.ofNat 32 length).toNat = flight.toNat + length := by
      rw [BitVec.toNat_add, BitVec.toNat_ofNat]
      omega
    split
    next still =>
      rw [BitVec.toNat_sub_of_le (BitVec.le_of_lt still), advanced]
      omega
    rename_i full
    have reached : ¬flight.toNat + length < effective.toNat := by
      rw [← advanced]
      exact full
    simp only [BitVec.toNat_zero, BitVec.ofNat_eq_ofNat]
    omega
  · exact absurd rfl positive

theorem tcpBuildOutputLocked_built {built : Pcb} {packet : List UInt8} (plain : flagSet flags tcpFlagSyn = false)
    (sent : tcpBuildOutputLocked pcb flags payload = some (built, packet)) :
    pcb.Addressed ∧ Carried pcb built ∧ built.state = pcb.state ∧
      packet = segmentPacket pcb pcb.sndNxt flags payload := by
  rw [tcpBuildOutputLocked] at sent
  split at sent
  · cases sent
  rename_i accepted
  simp only [not_or] at accepted
  simp only [plain, Option.some.injEq, Prod.mk.injEq, Bool.false_eq_true, false_and, if_false] at sent
  obtain ⟨rfl, rfl⟩ := sent
  refine ⟨accepted, ?_, ?_, rfl⟩
  · split
    · constructor <;> rfl
    · constructor <;> rfl
  · split
    · rfl
    · rfl

def NotBareAck (packet : List UInt8) : Prop :=
  ∃ pcb sequence flags payload, packet = segmentPacket pcb sequence flags payload ∧
    (flags = tcpFlagAck ||| tcpFlagPsh ∨ flags = tcpFlagFin ||| tcpFlagAck)

theorem NotBareAck.ne {packet : List UInt8} (other : NotBareAck packet) {sequence : BitVec 32} :
    segmentPacket pcb sequence tcpFlagAck [] ≠ packet := by
  rintro rfl
  obtain ⟨sender, number, flags, payload, same, kinds⟩ := other
  have parsed := congrArg tcpParseHeader same
  simp only [segmentPacket, tcpFinishPacket, tcpParseHeader_serialize, Option.some.injEq] at parsed
  have word := congrArg TcpHeader.dataOffsetFlags parsed
  simp only [segmentHeader] at word
  rcases kinds with rfl | rfl
  · exact absurd word (by decide)
  · exact absurd word (by decide)

theorem drainFin_packet {packet : List UInt8} (sent : (drainFin now pcb).packet = some packet) :
    packet = segmentPacket pcb pcb.sndNxt (tcpFlagFin ||| tcpFlagAck) [] := by
  unfold drainFin at sent
  split at sent
  · dsimp only at sent
    split at sent
    · cases sent
    next built fin output =>
      rw [← Option.some.inj sent]
      exact (tcpBuildOutputLocked_built (by decide) output).2.2.2
  · cases sent

theorem drainFin_cases (now : BitVec 64) (pcb : Pcb) :
    Carried pcb (drainFin now pcb).pcb ∧ (∀ packet ∈ (drainFin now pcb).packet, NotBareAck packet) ∧
      (drainFin now pcb).again = false ∧ ((pcb.flags.finPending = true ∧ pcb.Addressed ∧
          (drainFin now pcb).pcb.state ≠ .established) ∨
        (¬(pcb.flags.finPending = true ∧ pcb.Addressed) ∧ (drainFin now pcb).pcb.state = pcb.state)) := by
  rw [drainFin]
  split
  next pending =>
    dsimp only
    split
    next refused =>
      refine ⟨by constructor <;> rfl, by simp, rfl, Or.inr ⟨?_, rfl⟩⟩
      rintro ⟨_, addressed⟩
      rw [tcpBuildOutputLocked, if_neg addressed.accepted] at refused
      cases refused
    next built packet sent =>
      obtain ⟨addressed, carried, state, packetIs⟩ := tcpBuildOutputLocked_built (by decide) sent
      refine ⟨?_, ?_, rfl, Or.inl ⟨pending, addressed, ?_⟩⟩
      · exact ⟨carried.rcvNxt, carried.rxBuf, carried.sndWnd, carried.sndUna⟩
      · intro other member
        cases member
        exact ⟨_, _, _, _, packetIs, Or.inr rfl⟩
      · exact (finSent_state rfl).1
  next absent => exact ⟨by constructor <;> rfl, by simp, rfl, Or.inr ⟨fun both => absent both.1, rfl⟩⟩

theorem stopDraining_carried (kinds : after = pcb ∨ after = armPersist now pcb) :
    Carried pcb (stopDraining after) ∧ (stopDraining after).state = pcb.state := by
  rcases kinds with rfl | rfl
  · exact ⟨by constructor <;> rfl, rfl⟩
  · simp only [stopDraining, armPersist]
    split
    · exact ⟨by constructor <;> rfl, rfl⟩
    · exact ⟨by constructor <;> rfl, rfl⟩

theorem Carried.trans (left : Carried first second) (right : Carried second third) : Carried first third :=
  ⟨right.rcvNxt.trans left.rcvNxt, right.rxBuf.trans left.rxBuf, right.sndWnd.trans left.sndWnd,
    right.sndUna.trans left.sndUna⟩

theorem drainPasses_carried {allocated : Nat → Bool} {fuel : Nat} :
    ∀ pcb, Carried pcb (drainPasses now allocated fuel pcb).1 ∧
      (∀ packet ∈ (drainPasses now allocated fuel pcb).2, NotBareAck packet) ∧
      (pcb.state ≠ .established → (drainPasses now allocated fuel pcb).1.state ≠ .established) := by
  induction fuel with
  | zero => intro pcb; exact ⟨by constructor <;> rfl, by simp [drainPasses], id⟩
  | succ fuel ih =>
    intro pcb
    simp only [drainPasses]
    rcases drainIteration_kinds with
      ⟨_, fin⟩ | ⟨after, kinds, stops⟩ | ⟨unsent, segment, _, sends⟩
    · obtain ⟨carried, packets, stops, kinds⟩ := drainFin_cases now pcb
      rw [fin, if_neg (by rw [stops]; decide)]
      refine ⟨carried, ?_, ?_⟩
      · intro packet member
        exact packets packet (Option.mem_toList.mp member)
      intro other
      rcases kinds with ⟨_, _, left⟩ | ⟨_, same⟩
      · exact left
      · rw [same]
        exact other
    · obtain ⟨carried, state⟩ := stopDraining_carried kinds
      rw [stops, if_neg Bool.false_ne_true, state]
      exact ⟨carried, by simp, id⟩
    have sent := transmitSegment_transmits now pcb unsent segment
    obtain ⟨carried, packets, state⟩ := ih (transmitSegment now pcb unsent segment).pcb
    have again : (transmitSegment now pcb unsent segment).again = true := rfl
    rw [sends, if_pos again]
    refine ⟨sent.toCarried.trans carried, ?_, ?_⟩
    · intro packet member
      rcases List.mem_append.mp member with first | later
      · rw [Option.mem_toList] at first
        cases first
        exact ⟨_, _, _, _, rfl, Or.inl rfl⟩
      · exact packets packet later
    · intro other
      apply state
      rw [sent.state]
      exact other

def FinReached (allocated : Nat → Bool) (fuel : Nat) (pcb : Pcb) : Prop :=
  pcb.flags.finPending = true ∧ pcb.Addressed ∧ (pcb.txBuf.unsent.entries = [] ∨ pcb.flags.reset = false) ∧
    queueLeaves allocated fuel (pcb.txBuf.unsent.entries.map TcpSegment.length) (remainingWindow pcb).toNat = true

theorem Transmits.finReached (sent : Transmits before after unsent length) (alive : before.flags.reset = false)
    (fits : length ≤ (remainingWindow before).toNat) (positive : remainingWindow before ≠ 0)
    (allocated : Nat → Bool) (fuel : Nat) :
    FinReached allocated fuel after ↔ before.flags.finPending = true ∧ before.Addressed ∧
      queueLeaves allocated fuel (unsent.entries.map TcpSegment.length)
        ((remainingWindow before).toNat - length) = true := by
  simp only [FinReached, Pcb.Addressed, sent.finPending, sent.localPort, sent.remoteIp, sent.remotePort, sent.unsent,
    sent.reset, alive, sent.window fits positive, or_true, true_and]

theorem drainIteration_follows (now : BitVec 64) (allocated : Nat → Bool) (fuel : Nat)
    (established : pcb.state = .established) {segment : TcpSegment} {rest : List TcpSegment}
    (queue : pcb.txBuf.unsent.entries = segment :: rest) : ((drainIteration now (allocated fuel) pcb).again = false ∧
      (drainIteration now (allocated fuel) pcb).pcb.state = .established ∧
      (pcb.flags.reset = true ∨ queueLeaves allocated (fuel + 1) (segment.length :: rest.map TcpSegment.length)
        (remainingWindow pcb).toNat = false)) ∨
    ∃ unsent sent, drainIteration now (allocated fuel) pcb = transmitSegment now pcb unsent sent ∧
      pcb.flags.reset = false ∧ remainingWindow pcb ≠ 0 ∧ sent.length ≤ (remainingWindow pcb).toNat ∧
      (unsent.entries.map (fun queued => queued.length + 1)).sum + 1 < drainFuel pcb ∧
      queueLeaves allocated (fuel + 1) (segment.length :: rest.map TcpSegment.length) (remainingWindow pcb).toNat =
        queueLeaves allocated fuel (unsent.entries.map TcpSegment.length)
          ((remainingWindow pcb).toNat - sent.length) := by
  have size : drainFuel pcb = segment.length + 1 + (rest.map (fun queued => queued.length + 1)).sum + 1 := by
    rw [drainFuel, queue, List.map_cons, List.sum_cons]
  simp only [drainIteration, queue, queueLeaves]
  by_cases reset : pcb.flags.reset = true
  · rw [if_pos (Or.inr reset)]
    exact Or.inl ⟨rfl, established, Or.inl reset⟩
  have live : ¬((pcb.state ≠ .established ∧ pcb.state ≠ .closeWait) ∨ pcb.flags.reset = true) := by
    simp [established, reset]
  rw [if_neg live]
  by_cases window : remainingWindow pcb = 0
  · have zero : (remainingWindow pcb).toNat = 0 := by rw [window]; rfl
    rw [if_pos window, if_pos zero]
    exact Or.inl ⟨rfl, (stopDraining_carried (Or.inr rfl)).2.trans established, Or.inr rfl⟩
  · have positive : (remainingWindow pcb).toNat ≠ 0 := fun zero => window (BitVec.eq_of_toNat_eq zero)
    rw [if_neg window, if_neg positive]
    generalize sendIs : min (min segment.length (remainingWindow pcb).toNat) tcpDefaultMss = sendLen
    have fits : sendLen ≤ (remainingWindow pcb).toNat := by omega
    have moves : sendLen = 0 → segment.length = 0 := by
      rw [tcpDefaultMss] at sendIs
      omega
    by_cases cut : sendLen < segment.length
    · rw [if_pos cut, if_pos cut]
      by_cases memory : allocated fuel = true
      · rw [if_pos memory, memory, Bool.true_and]
        refine Or.inr ⟨_, _, rfl, Bool.eq_false_iff.mpr reset, window, fits, ?_, rfl⟩
        rw [size, List.map_cons, List.sum_cons]
        change segment.length - sendLen + 1 + _ + 1 < _
        omega
      · rw [if_neg memory, Bool.eq_false_iff.mpr memory, Bool.false_and]
        exact Or.inl ⟨rfl, established, Or.inr rfl⟩
    · have whole : sendLen = segment.length := by omega
      rw [if_neg cut, if_neg cut, whole]
      refine Or.inr ⟨_, _, rfl, Bool.eq_false_iff.mpr reset, window, whole ▸ fits, ?_, rfl⟩
      change (rest.map _).sum + 1 < _
      omega

theorem drainPasses_state {allocated : Nat → Bool} (fuel : Nat) :
    ∀ pcb, pcb.state = .established → drainFuel pcb ≤ fuel →
      ((drainPasses now allocated fuel pcb).1.state = .established ↔ ¬FinReached allocated fuel pcb) := by
  induction fuel with
  | zero => intro pcb _ enough; rw [drainFuel] at enough; omega
  | succ fuel ih =>
    intro pcb established enough
    simp only [drainPasses, FinReached]
    cases queue : pcb.txBuf.unsent.entries with
    | nil =>
      have fin : drainIteration now (allocated fuel) pcb = drainFin now pcb := by rw [drainIteration, queue]
      obtain ⟨_, _, stops, kinds⟩ := drainFin_cases now pcb
      rw [fin, if_neg (by rw [stops]; decide)]
      simp only [List.map_nil, queueLeaves, true_or, and_true]
      rcases kinds with ⟨pending, addressed, left⟩ | ⟨absent, same⟩
      · exact iff_of_false left (fun none => none ⟨pending, addressed⟩)
      · exact iff_of_true (same.trans established) absent
    | cons segment rest =>
      rw [List.map_cons]
      rcases drainIteration_follows now allocated fuel established queue with
        ⟨stops, state, blocked⟩ | ⟨unsent, sent, sends, alive, window, fits, smaller, goesOn⟩
      · rw [if_neg (by rw [stops]; decide)]
        refine iff_of_true state ?_
        rintro ⟨_, _, alive, leaves⟩
        rcases blocked with reset | blocked
        · simp [reset] at alive
        · rw [blocked] at leaves
          cases leaves
      · have transmits := transmitSegment_transmits now pcb unsent sent
        have again : (transmitSegment now pcb unsent sent).again = true := rfl
        rw [sends, if_pos again]
        rw [ih _ (transmits.state.trans established) (by rw [drainFuel, transmits.unsent]; omega),
          transmits.finReached alive fits window, goesOn]
        simp [alive]

theorem tcpDrainUnsent_state (now : BitVec 64) (allocated : Nat → Bool) (established : pcb.state = .established) :
    (tcpDrainUnsent now allocated pcb).1.state = .established ↔
      ¬(pcb.Addressed ∧ PendingFinLeaves allocated pcb) := by
  rw [tcpDrainUnsent]
  by_cases draining : pcb.flags.draining = true
  · rw [if_pos draining]
    refine iff_of_true established ?_
    rintro ⟨_, _, idle, _⟩
    rw [draining] at idle
    cases idle
  · rw [if_neg draining]
    refine (drainPasses_state _ _ ?_ (Nat.le_refl _)).trans ?_
    · exact established
    · simp only [FinReached, PendingFinLeaves, Bool.eq_false_iff.mpr draining, true_and]
      exact not_congr and_left_comm

theorem tcpDrainUnsent_carried (now : BitVec 64) (allocated : Nat → Bool) (pcb : Pcb) :
    Carried pcb (tcpDrainUnsent now allocated pcb).1 ∧
      (∀ packet ∈ (tcpDrainUnsent now allocated pcb).2, NotBareAck packet) ∧
      (pcb.state ≠ .established → (tcpDrainUnsent now allocated pcb).1.state ≠ .established) := by
  rw [tcpDrainUnsent]
  split
  · exact ⟨by constructor <;> rfl, by simp, id⟩
  · obtain ⟨carried, packets, state⟩ := drainPasses_carried
      { pcb with flags := { pcb.flags with draining := true } }
    exact ⟨⟨carried.rcvNxt, carried.rxBuf, carried.sndWnd, carried.sndUna⟩, packets, state⟩

theorem reply_ack_unmoved (work : InputWork) : Unmoved work.pcb (reply work tcpFlagAck).pcb := by
  by_cases addressed : work.pcb.Addressed
  · rw [reply_ack_eq addressed]
    constructor <;> rfl
  · rw [reply_unaddressed addressed]
    exact Unmoved.refl work.pcb

theorem establishedData_takes (unmoved : Unmoved pcb work.pcb) (takes : TakesPayload pcb header payload) :
    ¬((establishedData header payload work).pcb.rcvNxt = pcb.rcvNxt ∧
      (establishedData header payload work).pcb.rxBuf = pcb.rxBuf) := by
  obtain ⟨nonempty, inOrder, room⟩ := takes
  have inOrderHere : header.seqNum = work.pcb.rcvNxt := inOrder.trans unmoved.rcvNxt.symm
  rw [establishedData, if_neg nonempty, if_pos inOrderHere]
  have replied := reply_ack_unmoved (work.update (noteFreeSpace (acceptPayload work.pcb payload)))
  rw [replied.rcvNxt, replied.rxBuf]
  change ¬((acceptPayload work.pcb payload).rcvNxt = _ ∧ (acceptPayload work.pcb payload).rxBuf = _)
  rw [acceptPayload]
  by_cases shut : pcb.flags.shutRd = true
  · rw [if_pos (unmoved.shutRd.trans shut)]
    rw [if_pos shut] at room
    rintro ⟨same, _⟩
    rw [unmoved.rcvNxt] at same
    exact room (add_eq_left.mp same)
  · have shutHere : ¬work.pcb.flags.shutRd = true := by rw [unmoved.shutRd]; exact shut
    rw [if_neg shutHere]
    rw [if_neg shut] at room
    have written : (work.pcb.rxBuf.write payload).2 ≠ 0 := by
      have length : payload.length ≠ 0 := fun zero => nonempty (List.length_eq_zero_iff.mp zero)
      rw [RingBuffer.write_count, unmoved.rxBuf]
      omega
    simp only [if_neg written]
    rintro ⟨_, same⟩
    have used := congrArg RingBuffer.used same
    rw [RingBuffer.write_used, unmoved.rxBuf] at used
    rw [unmoved.rxBuf] at written
    omega

section

variable (header : TcpHeader) (payload : List UInt8) (work : InputWork)

theorem establishedData_frame : (establishedData header payload work).pcb.state = work.pcb.state ∧
      (establishedData header payload work).pcb.sndWnd = work.pcb.sndWnd := by
  rw [establishedData]
  split
  · exact ⟨rfl, rfl⟩
  split
  · have replied := reply_ack_unmoved (work.update (noteFreeSpace (acceptPayload work.pcb payload)))
    rw [replied.state, replied.sndWnd]
    simp only [acceptPayload]
    split
    · exact ⟨rfl, rfl⟩
    · split
      · exact ⟨rfl, rfl⟩
      · exact ⟨rfl, rfl⟩
  · have replied := reply_ack_unmoved
      (work.update { noteFreeSpace work.pcb with ackNumber := work.pcb.rcvNxt })
    exact ⟨replied.state, replied.sndWnd⟩

theorem establishedFin_cases : (¬TakesFin work.pcb header payload ∧ establishedFin header payload work = work) ∨
      ((establishedFin header payload work).pcb.state = .closeWait ∧
        (establishedFin header payload work).pcb.sndWnd = work.pcb.sndWnd) := by
  rw [establishedFin]
  split
  · have replied := reply_ack_unmoved
      (work.update (noteFreeSpace { takeFin work.pcb with state := .closeWait }))
    exact Or.inr ⟨replied.state, replied.sndWnd⟩
  next refused => exact Or.inl ⟨refused, rfl⟩

end

theorem tcpInput_result (allocated : Nat → Bool) (listener : Pcb) {srcIp destIp : BitVec 32} {segment : List UInt8}
    (decoded : tcpDecode srcIp destIp segment = some (header, payload))
    (locked : tcpInputLocked now header payload pcb = finishInput work) :
    (tcpInput now allocated listener srcIp destIp segment pcb =
        (some work.pcb, work.out.toList ++ work.rexmit.toList) ∧
      (work.pcb.state = .established → work.pcb.flags.finPending = false)) ∨
    tcpInput now allocated listener srcIp destIp segment pcb = (some (tcpDrainUnsent now allocated work.pcb).1,
        work.out.toList ++ work.rexmit.toList ++ (tcpDrainUnsent now allocated work.pcb).2) := by
  simp only [tcpInput, decoded, locked, finishInput]
  by_cases drains : (((work.pcb.state == .established || work.pcb.state == .closeWait) &&
      (!work.pcb.txBuf.unsent.entries.isEmpty || work.pcb.flags.finPending)) || work.needDrain) = true
  · rw [if_pos drains]
    exact Or.inr rfl
  rw [if_neg drains]
  refine Or.inl ⟨rfl, ?_⟩
  intro established
  simp only [established, Bool.or_eq_true, Bool.and_eq_true, not_or, not_and] at drains
  simpa using (drains.1 (by simp)).2

/-- The segment carries nothing that the later stages take, and the drain finds no FIN to send. -/
structure NothingToTake (allocated : Nat → Bool) (pcb : Pcb) (header : TcpHeader) (payload : List UInt8) : Prop where
  addressed : pcb.Addressed
  window : header.windowSize = pcb.sndWnd
  noPayload : ¬TakesPayload pcb header payload
  noFin : ¬TakesFin pcb header payload
  noPending : ¬PendingFinLeaves allocated pcb

theorem Unmoved.pendingFin (unmoved : Unmoved before after) (allocated : Nat → Bool) :
    PendingFinLeaves allocated after ↔ PendingFinLeaves allocated before := by
  simp only [PendingFinLeaves, drainFuel, remainingWindow, unmoved.finPending, unmoved.draining, unmoved.reset,
    unmoved.txBuf, unmoved.sndUna, unmoved.sndNxt, unmoved.sndWnd, unmoved.cwnd]

section

variable (now : BitVec 64) (allocated : Nat → Bool) (listener : Pcb) (srcIp destIp : BitVec 32)
  (segment : List UInt8) (header : TcpHeader) (payload : List UInt8) (pcb : Pcb)
  (established : pcb.state = .established)
  (decoded : tcpDecode srcIp destIp segment = some (header, payload))
  (valid : flagSet header.flags tcpFlagRst = false) (acked : flagSet header.flags tcpFlagAck = true)
  (beyond : Serial.gt header.ackNum pcb.sndNxt = true)

def windowStage : InputWork :=
  establishedWindow pcb.sndWnd header (establishedAck now header payload (.start pcb))

def dataStage : InputWork :=
  establishedData header payload (establishedProbe header payload (windowStage now header payload pcb))

include acked in
theorem inputEstablished_stages : inputEstablished now header payload (.start pcb) =
    establishedFin header payload (dataStage now header payload pcb) := by
  simp only [inputEstablished, acked, if_true, dataStage, windowStage]
  rfl

theorem establishedProbe_unmoved (work : InputWork) : Unmoved work.pcb (establishedProbe header payload work).pcb := by
  rw [establishedProbe]
  split
  · exact reply_ack_unmoved work
  · exact Unmoved.refl work.pcb

include established decoded valid acked beyond in
theorem dropped_of_nothingToTake (nothing : NothingToTake allocated pcb header payload) :
    ∃ after packets, tcpInput now allocated listener srcIp destIp segment pcb = (some after, packets) ∧
      SegmentDropped pcb after packets := by
  have echoes : Echoes pcb (establishedFin header payload (dataStage now header payload pcb)) :=
    establishedFin_echoes (establishedData_echoes (establishedProbe_echoes (establishedWindow_echoes
      (establishedAck_echoes beyond) nothing.window)) nothing.noPayload) nothing.noFin
  have locked := (tcpInputLocked_state now header payload pcb valid).1 established
  rw [inputEstablished_stages now header payload pcb acked] at locked
  have state := echoes.unmoved.state.trans established
  have replied := echoes.replied nothing.addressed
  rcases tcpInput_result allocated listener decoded locked with
    ⟨kept, _⟩ | drained
  · refine ⟨_, _, kept, ⟨by simp [replied], echoes.unmoved.rcvNxt, echoes.unmoved.rxBuf, echoes.unmoved.sndWnd,
      echoes.unmoved.sndUna, echoes.unmoved.state⟩⟩
  obtain ⟨carried, _, _⟩ := tcpDrainUnsent_carried now allocated
    (establishedFin header payload (dataStage now header payload pcb)).pcb
  have stays := (tcpDrainUnsent_state now allocated state).mpr
    fun reached => nothing.noPending ((echoes.unmoved.pendingFin allocated).mp reached.2)
  exact ⟨_, _, drained, ⟨by simp [replied], carried.rcvNxt.trans echoes.unmoved.rcvNxt,
    carried.rxBuf.trans echoes.unmoved.rxBuf, carried.sndWnd.trans echoes.unmoved.sndWnd,
    carried.sndUna.trans echoes.unmoved.sndUna, stays.trans established.symm⟩⟩

structure CallLeaves (work : InputWork) (after : Pcb) (packets : List (List UInt8)) : Prop where
  carried : Carried work.pcb after
  left : work.pcb.state ≠ .established → after.state ≠ .established
  stays : work.pcb.state = .established →
    (after.state = .established ↔ ¬(work.pcb.Addressed ∧ PendingFinLeaves allocated work.pcb))
  packets : ∀ packet ∈ packets, packet ∈ work.out ∨ packet ∈ work.rexmit ∨ NotBareAck packet

include decoded in
theorem tcpInput_leaves (locked : tcpInputLocked now header payload pcb = finishInput work)
    (result : tcpInput now allocated listener srcIp destIp segment pcb = (some after, packets)) :
    CallLeaves allocated work after packets := by
  rcases tcpInput_result allocated listener decoded locked with
    ⟨kept, idle⟩ | drained
  · rw [kept, Prod.mk.injEq, Option.some.injEq] at result
    obtain ⟨rfl, rfl⟩ := result
    refine ⟨by constructor <;> rfl, id, ?_, ?_⟩
    · intro state
      refine iff_of_true state ?_
      rintro ⟨_, pending, _⟩
      rw [idle state] at pending
      cases pending
    · intro packet member
      rcases List.mem_append.mp member with first | second
      · exact Or.inl (Option.mem_toList.mp first)
      · exact Or.inr (Or.inl (Option.mem_toList.mp second))
  · rw [drained, Prod.mk.injEq, Option.some.injEq] at result
    obtain ⟨rfl, rfl⟩ := result
    obtain ⟨carried, notBare, left⟩ := tcpDrainUnsent_carried now allocated work.pcb
    refine ⟨carried, left, tcpDrainUnsent_state now allocated, ?_⟩
    intro packet member
    rcases List.mem_append.mp member with queued | later
    · rcases List.mem_append.mp queued with first | second
      · exact Or.inl (Option.mem_toList.mp first)
      · exact Or.inr (Or.inl (Option.mem_toList.mp second))
    · exact Or.inr (Or.inr (notBare packet later))

include established decoded valid acked beyond in
theorem nothingToTake_of_dropped
    (result : tcpInput now allocated listener srcIp destIp segment pcb = (some after, packets))
    (dropped : SegmentDropped pcb after packets) : NothingToTake allocated pcb header payload := by
  have locked := (tcpInputLocked_state now header payload pcb valid).1 established
  rw [inputEstablished_stages now header payload pcb acked] at locked
  have leaves := tcpInput_leaves now allocated listener srcIp destIp segment header payload pcb decoded locked result
  -- a FIN taken at the last stage would have left ESTABLISHED for good
  have finStage : ¬TakesFin (dataStage now header payload pcb).pcb header payload ∧
      establishedFin header payload (dataStage now header payload pcb) = dataStage now header payload pcb := by
    rcases establishedFin_cases header payload (dataStage now header payload pcb) with same | ⟨closing, _⟩
    · exact same
    · exact absurd (dropped.state.trans established) (leaves.left (by rw [closing]; decide))
  rw [finStage.2] at leaves
  have probed := establishedProbe_unmoved header payload (windowStage now header payload pcb)
  obtain ⟨dataState, dataWindow⟩ := establishedData_frame header payload
    (establishedProbe header payload (windowStage now header payload pcb))
  have window : header.windowSize = pcb.sndWnd := by
    have final := leaves.carried.sndWnd.trans (dataWindow.trans (probed.sndWnd.trans
      establishedWindow_sndWnd))
    exact final.symm.trans dropped.sndWnd
  have before : Echoes pcb (establishedProbe header payload (windowStage now header payload pcb)) :=
    establishedProbe_echoes (establishedWindow_echoes (establishedAck_echoes beyond) window)
  have payloadRefused : ¬TakesPayload pcb header payload := by
    intro takes
    refine establishedData_takes before.unmoved takes ⟨?_, ?_⟩
    · exact leaves.carried.rcvNxt.symm.trans dropped.rcvNxt
    · exact leaves.carried.rxBuf.symm.trans dropped.rxBuf
  have echoes : Echoes pcb (dataStage now header payload pcb) := establishedData_echoes before payloadRefused
  have addressed : pcb.Addressed := by
    by_contra refused
    rcases leaves.packets _ dropped.replied with sent | sent | other
    · rw [echoes.silent refused] at sent
      cases sent
    · rw [echoes.rexmit] at sent
      cases sent
    · exact other.ne rfl
  refine ⟨addressed, window, payloadRefused, (echoes.unmoved.takesFin).not.mp finStage.1, ?_⟩
  intro pending
  have stays := (leaves.stays (echoes.unmoved.state.trans established)).mp (dropped.state.trans established)
  exact stays ⟨echoes.unmoved.addressed.mpr addressed, (echoes.unmoved.pendingFin allocated).mpr pending⟩

include established decoded valid acked beyond in
/-- A segment that acknowledges unsent data is dropped with an ACK exactly when it carries nothing
else that a later stage of `tcp_input` takes. -/
theorem tcpInput_unsentAck_dropped_iff :
    (∃ after packets, tcpInput now allocated listener srcIp destIp segment pcb = (some after, packets) ∧
      SegmentDropped pcb after packets) ↔ NothingToTake allocated pcb header payload := by
  constructor
  · rintro ⟨after, packets, result, dropped⟩
    exact nothingToTake_of_dropped now allocated listener srcIp destIp segment header payload pcb established decoded
      valid acked beyond result dropped
  · exact dropped_of_nothingToTake now allocated listener srcIp destIp segment header payload pcb established decoded
      valid acked beyond

end

theorem tcpInput_unsentAck_takes_fin :
    ∃ conn pcb header payload after packets, Reachable conn ∧ conn.pcb = some pcb ∧ pcb.state = .established ∧
      tcpDecode sampleRemote netLocalIpv4 (sampleSegment 501 2000 (tcpFlagFin ||| tcpFlagAck)) =
        some (header, payload) ∧ flagSet header.flags tcpFlagRst = false ∧ flagSet header.flags tcpFlagAck = true ∧
      Serial.gt header.ackNum pcb.sndNxt = true ∧
      tcpInput 1 (fun _ => true) (tcpAlloc false) sampleRemote netLocalIpv4
        (sampleSegment 501 2000 (tcpFlagFin ||| tcpFlagAck)) pcb = (some after, packets) ∧
      ¬SegmentDropped pcb after packets := by
  obtain ⟨pcb, found, state, _, nxt⟩ := samplePcb sampleSend .established 1001 1002 (by decide +kernel)
  have closes : (sampleConn sampleSend).pcb.bind (fun pcb => (tcpInput 1 (fun _ => true) (tcpAlloc false)
      sampleRemote netLocalIpv4 (sampleSegment 501 2000 (tcpFlagFin ||| tcpFlagAck)) pcb).1.map Pcb.state) =
      some .closeWait := by decide +kernel
  rw [found, Option.bind_some] at closes
  obtain ⟨after, left, closed⟩ := Option.map_eq_some_iff.mp closes
  have decodes : (tcpDecode sampleRemote netLocalIpv4 (sampleSegment 501 2000 (tcpFlagFin ||| tcpFlagAck))).map
      (fun decoded => (flagSet decoded.1.flags tcpFlagRst, flagSet decoded.1.flags tcpFlagAck, decoded.1.ackNum)) =
      some (false, true, 2000) := by decide +kernel
  obtain ⟨⟨header, payload⟩, decoded, flags⟩ := Option.map_eq_some_iff.mp decodes
  simp only [Prod.mk.injEq] at flags
  obtain ⟨valid, acked, ack⟩ := flags
  refine ⟨_, pcb, header, payload, after, _, sampleConn_reachable, found, state, decoded, valid, acked,
    by rw [ack, nxt]; decide, Prod.ext left rfl, ?_⟩
  intro dropped
  have same := dropped.state
  rw [closed, state] at same
  cases same

theorem tcpInput_unsentAck_dropped_bareAck :
    ∃ pcb after packets, (sampleConn sampleSend).pcb = some pcb ∧ pcb.state = .established ∧
      tcpInput 1 (fun _ => true) (tcpAlloc false) sampleRemote netLocalIpv4 (sampleSegment 501 2000 tcpFlagAck) pcb =
        (some after, packets) ∧ SegmentDropped pcb after packets := by
  have reached : (sampleConn sampleSend).pcb.map (fun pcb => ((pcb.state, pcb.sndNxt, pcb.sndWnd),
      (pcb.flags.finPending, pcb.localPort, pcb.remoteIp, pcb.remotePort))) =
      some ((.established, 1002, 8192), (false, 1000, sampleRemote, 80)) := by decide +kernel
  obtain ⟨pcb, found, fields⟩ := Option.map_eq_some_iff.mp reached
  simp only [Prod.mk.injEq] at fields
  obtain ⟨⟨state, nxt, window⟩, pending, localPort, remoteIp, remotePort⟩ := fields
  have decodes : (tcpDecode sampleRemote netLocalIpv4 (sampleSegment 501 2000 tcpFlagAck)).map
      (fun decoded => ((flagSet decoded.1.flags tcpFlagRst, flagSet decoded.1.flags tcpFlagAck,
        flagSet decoded.1.flags tcpFlagFin), (decoded.1.ackNum, decoded.1.windowSize, decoded.2))) =
      some ((false, true, false), (2000, 8192, [])) := by decide +kernel
  obtain ⟨⟨header, payload⟩, decoded, parts⟩ := Option.map_eq_some_iff.mp decodes
  simp only [Prod.mk.injEq] at parts
  obtain ⟨⟨valid, acked, noFin⟩, ack, offered, empty⟩ := parts
  have nothing : NothingToTake (fun _ => true) pcb header payload := by
    refine ⟨⟨?_, ?_, ?_⟩, offered.trans window.symm, fun takes => takes.1 empty, ?_, ?_⟩
    · rw [localPort]; decide
    · rw [remoteIp]; decide
    · rw [remotePort]; decide
    · rintro ⟨fin, _⟩
      rw [noFin] at fin
      cases fin
    · rintro ⟨fin, _⟩
      rw [pending] at fin
      cases fin
  obtain ⟨after, packets, result, dropped⟩ := (tcpInput_unsentAck_dropped_iff 1 (fun _ => true) (tcpAlloc false)
    sampleRemote netLocalIpv4 _ header payload pcb state decoded valid acked (by rw [ack, nxt]; decide)).mpr nothing
  exact ⟨pcb, after, packets, found, state, result, dropped⟩

end PhotonOS
