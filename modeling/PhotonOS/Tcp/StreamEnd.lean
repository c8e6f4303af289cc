import PhotonOS.Lib.NumberedStream
import PhotonOS.Tcp.StepMoves

/-!
One end of a data stream.
-/

namespace PhotonOS

variable {pcb : Pcb} {now : BitVec 64} {segment : TcpSegment}

abbrev ByteStream := NumberedStream UInt8 32

structure ReceiveView where
  localPort : BitVec 16
  remoteIp : BitVec 32
  remotePort : BitVec 16
  rcvNxt : BitVec 32
  rxBuf : RingBuffer UInt8
  shutRd : Bool

def receiveView (pcb : Pcb) : ReceiveView where
  localPort := pcb.localPort
  remoteIp := pcb.remoteIp
  remotePort := pcb.remotePort
  rcvNxt := pcb.rcvNxt
  rxBuf := pcb.rxBuf
  shutRd := pcb.flags.shutRd

structure RecvView where
  rcvNxt : BitVec 32
  rxBuf : RingBuffer UInt8
  shutRd : Bool

def recvView (pcb : Pcb) : RecvView where
  rcvNxt := pcb.rcvNxt
  rxBuf := pcb.rxBuf
  shutRd := pcb.flags.shutRd

theorem recvView_congr {before after : Pcb} (same : receiveView after = receiveView before) :
    recvView after = recvView before :=
  congrArg (fun view => RecvView.mk view.rcvNxt view.rxBuf view.shutRd) same

theorem receiveView_growCongestionWindow {bytesAcked : BitVec 32} :
    receiveView (growCongestionWindow bytesAcked pcb) = receiveView pcb := by
  unfold growCongestionWindow
  split
  · simp only [receiveView]
  · split <;> simp only [receiveView]

theorem receiveView_rearmAfterAck : receiveView (rearmAfterAck now pcb) = receiveView pcb := by
  unfold rearmAfterAck
  split <;> rfl

variable {ack sequence : BitVec 32} {packet payload : List UInt8} {flags : BitVec 16} {built : Pcb}

theorem receiveView_tcpTxAck {exit : Bool} :
    receiveView (tcpTxAckReceivedLockedExt now pcb ack exit) = receiveView pcb := by
  unfold tcpTxAckReceivedLockedExt
  split
  · rfl
  split
  · rfl
  split
  · rfl
  · rw [receiveView_rearmAfterAck]
    split
    · rfl
    · exact receiveView_growCongestionWindow

theorem receiveView_tcpBuildOutputLocked (sent : tcpBuildOutputLocked pcb flags payload = some (built, packet)) :
    receiveView built = receiveView pcb ∧ built.state = pcb.state := by
  rw [tcpBuildOutputLocked] at sent
  split at sent
  · cases sent
  simp only [Option.some.injEq, Prod.mk.injEq] at sent
  rw [← sent.1]
  split
  · exact ⟨rfl, rfl⟩
  · split <;> exact ⟨rfl, rfl⟩

def PacketOk (stream : ByteStream) (packet : List UInt8) : Prop :=
  ∀ srcIp destIp header payload, tcpDecode srcIp destIp packet = some (header, payload) →
    flagSet header.flags tcpFlagFin = false ∧
      (flagSet header.flags tcpFlagSyn = true → header.seqNum + 1 = stream.start) ∧
      (payload ≠ [] → stream.At header.seqNum payload)

def Placed (stream : ByteStream) (entries : List TcpSegment) : Prop :=
  ∀ segment ∈ entries, segment.Sound ∧ stream.At segment.sequence segment.payload

structure Sending (stream : ByteStream) (view : SendView) : Prop where
  next : ∃ sent, stream.Cut view.sndNxt sent (queuedBytes view.txBuf.unsent.entries)
  unsent : ∀ segment ∈ view.txBuf.unsent.entries, segment.Sound
  unacked : Placed stream view.txBuf.unacked.entries

structure SenderInv (own : ByteStream) (view : SendView) : Prop where
  iss : view.iss + 1 = own.start
  state : view.state.handshaking ∨ view.state = .established ∨ view.state = .closed
  free : view.finPending = false
  handshake : view.state.handshaking → own.items = []
  sending : view.state = .established → Sending own view

structure ReceiverInv (peer : ByteStream) (returned : List UInt8) (state : TcpState) (recv : RecvView) : Prop where
  readable : recv.shutRd = false
  ring : recv.rxBuf.WellFormed
  received : returned ++ recv.rxBuf.contents <+: peer.items
  next : state = .synReceived ∨ state = .established →
    ∃ rest, peer.Cut recv.rcvNxt (returned ++ recv.rxBuf.contents) rest
  waiting : state = .synSent → returned ++ recv.rxBuf.contents = []

variable {stream own peer : ByteStream} {returned : List UInt8} {state : TcpState} {recv : RecvView} {allocated : Bool}

theorem PacketOk.extend (valid : PacketOk stream packet) (more : List UInt8) :
    PacketOk (stream.extend more) packet := by
  intro srcIp destIp header payload decoded
  obtain ⟨fin, syn, data⟩ := valid srcIp destIp header payload decoded
  exact ⟨fin, syn, fun some => (data some).extend more⟩

theorem finishPacket_ok {srcIp destIp : BitVec 32} {header : TcpHeader}
    (plain : header.dataOffsetFlags >>> 12 = 5#16) (noFin : flagSet header.flags tcpFlagFin = false)
    (syn : flagSet header.flags tcpFlagSyn = true → header.seqNum + 1 = own.start)
    (data : payload ≠ [] → own.At header.seqNum payload) :
    PacketOk own (tcpFinishPacket srcIp destIp header payload) := by
  intro fromIp toIp decodedHeader received decoded
  obtain ⟨⟨sum, headerEq⟩, payloadEq⟩ := tcpDecode_finishPacket header decodedHeader payload received fromIp toIp plain decoded
  rw [headerEq, payloadEq]
  exact ⟨noFin, syn, data⟩

theorem segmentPacket_ok (plain : offsetFlags flags >>> 12 = 5#16)
    (noFin : flagSet (offsetFlags flags &&& 0x01FF#16) tcpFlagFin = false)
    (syn : flagSet (offsetFlags flags &&& 0x01FF#16) tcpFlagSyn = true → sequence + 1 = own.start)
    (data : payload ≠ [] → own.At sequence payload) : PacketOk own (segmentPacket pcb sequence flags payload) :=
  finishPacket_ok plain noFin syn data

theorem ackPacket_ok : PacketOk own (segmentPacket pcb sequence tcpFlagAck []) :=
  segmentPacket_ok (by decide) (by decide) (fun syn => absurd syn (by decide))
    (fun none => absurd rfl none)

theorem dataPacket_ok (placed : own.At sequence payload) :
    PacketOk own (segmentPacket pcb sequence (tcpFlagAck ||| tcpFlagPsh) payload) :=
  segmentPacket_ok (by decide) (by decide) (fun syn => absurd syn (by decide))
    (fun _ => placed)

theorem tcpBuildOutputLocked_packet (sent : tcpBuildOutputLocked pcb flags [] = some (built, packet)) :
    packet = segmentPacket pcb (if flagSet flags tcpFlagSyn ∧ (pcb.state = .synSent ∨ pcb.state = .synReceived)
      then pcb.iss else pcb.sndNxt) flags [] := by
  simp only [tcpBuildOutputLocked] at sent
  split at sent
  · contradiction
  simp only [Option.some.injEq, Prod.mk.injEq] at sent
  exact sent.2.symm

theorem builtAck_ok (sent : tcpBuildOutputLocked pcb tcpFlagAck [] = some (built, packet)) :
    PacketOk own packet := by
  rw [tcpBuildOutputLocked_packet sent]
  exact ackPacket_ok

theorem builtSyn_ok (syn : flags = tcpFlagSyn ∨ flags = tcpFlagSyn ||| tcpFlagAck) (state : pcb.state.handshaking)
    (iss : pcb.iss + 1 = own.start) (sent : tcpBuildOutputLocked pcb flags [] = some (built, packet)) :
    PacketOk own packet := by
  rw [tcpBuildOutputLocked_packet sent]
  rcases syn with rfl | rfl
  · rw [if_pos ⟨by decide, state⟩]
    exact segmentPacket_ok (by decide) (by decide) (fun _ => iss) (fun none => absurd rfl none)
  · rw [if_pos ⟨by decide, state⟩]
    exact segmentPacket_ok (by decide) (by decide) (fun _ => iss) (fun none => absurd rfl none)

namespace SenderInv

variable {own : ByteStream} {view other : SendView}

theorem of_sending (iss : view.iss + 1 = own.start) (state : view.state = .established)
    (free : view.finPending = false) (sending : Sending own view) : SenderInv own view :=
  ⟨iss, Or.inr (Or.inl state), free, fun early => absurd (state ▸ early) (by decide), fun _ => sending⟩

theorem of_closed (iss : view.iss + 1 = own.start) (state : view.state = .closed)
    (free : view.finPending = false) : SenderInv own view :=
  ⟨iss, Or.inr (Or.inr state), free, fun early => absurd (state ▸ early) (by decide),
    fun established => by rw [state] at established; contradiction⟩

theorem congr (inv : SenderInv own view) (iss : other.iss = view.iss) (state : other.state = view.state)
    (free : other.finPending = view.finPending) (next : other.sndNxt = view.sndNxt)
    (buffer : other.txBuf = view.txBuf) : SenderInv own other := by
  refine ⟨by rw [iss]; exact inv.iss, by rw [state]; exact inv.state, by rw [free]; exact inv.free,
    by rw [state]; exact inv.handshake, fun established => ?_⟩
  obtain ⟨cut, unsent, unacked⟩ := inv.sending (state ▸ established)
  exact ⟨by rwa [next, buffer], by rwa [buffer], by rwa [buffer]⟩

end SenderInv

theorem ReceiverInv.close (inv : ReceiverInv peer returned state recv) : ReceiverInv peer returned .closed recv :=
  ⟨inv.readable, inv.ring, inv.received, by simp, by simp⟩

theorem ReceiverInv.extend (inv : ReceiverInv peer returned state recv) (more : List UInt8) :
    ReceiverInv (peer.extend more) returned state recv := by
  refine ⟨inv.readable, inv.ring, inv.received.trans (List.prefix_append _ _), fun open_ => ?_, inv.waiting⟩
  obtain ⟨rest, cut⟩ := inv.next open_
  exact ⟨_, cut.extend more⟩

theorem placed_cut (inside : (ack - segment.sequence).toNat < segment.length) (sound : segment.Sound)
    (placed : stream.At segment.sequence segment.payload) :
    let acked := (ack - segment.sequence).toNat
    let left := { segment with
      sequence := ack, length := segment.length - acked, offset := segment.offset + acked }
    left.Sound ∧ stream.At left.sequence left.payload := by
  intro acked left
  have payload : left.payload = segment.payload.drop acked := by
    simp only [left, TcpSegment.payload, List.drop_take, List.drop_drop]
  have number : segment.sequence + BitVec.ofNat 32 acked = ack := Serial.offset_sub_toNat _ _
  rw [TcpSegment.Sound] at sound
  refine ⟨?_, ?_⟩
  · rw [TcpSegment.Sound, payload, List.length_drop, sound]
  · rw [payload, show left.sequence = segment.sequence + BitVec.ofNat 32 acked from number.symm]
    exact placed.drop acked (by omega)

theorem releaseAcked_placed {entries : List TcpSegment} (bytes segments : Nat) (placed : Placed stream entries) :
    Placed stream (releaseAcked ack entries bytes segments).entries := by
  induction entries generalizing bytes segments with
  | nil => exact placed
  | cons segment rest ih =>
    obtain ⟨head, tail⟩ := List.forall_mem_cons.mp placed
    simp only [releaseAcked]
    split
    · exact ih _ _ tail
    · split
      next inside => exact List.forall_mem_cons.mpr ⟨placed_cut inside.2 head.1 head.2, tail⟩
      · exact placed

theorem SenderInv.afterAck {view : SendView} (inv : SenderInv own view) (now : BitVec 64) (ack : BitVec 32)
    (state : view.state = .established) : SenderInv own (view.afterAck now ack) := by
  obtain ⟨next, unsent, unacked⟩ := inv.sending state
  exact SenderInv.of_sending inv.iss state inv.free ⟨next, unsent, releaseAcked_placed _ _ unacked⟩

structure EndInv (own peer : ByteStream) (returned : List UInt8) (pcb : Pcb) : Prop where
  sender : SenderInv own (sendView pcb)
  receiver : ReceiverInv peer returned pcb.state (recvView pcb)

section

variable {own peer : ByteStream} {returned : List UInt8} {before after pcb : Pcb}

section

variable (inv : EndInv own peer returned before)
include inv

theorem EndInv.of_view (view : sendView after = sendView before)
    (recv : recvView after = recvView before) : EndInv own peer returned after := by
  refine ⟨by rw [view]; exact inv.sender, ?_⟩
  rw [show after.state = before.state from congrArg SendView.state view, recv]
  exact inv.receiver

theorem EndInv.of_sender (sender : SenderInv own (sendView after))
    (state : after.state = before.state) (recv : recvView after = recvView before) :
    EndInv own peer returned after := by
  refine ⟨sender, ?_⟩
  rw [state, recv]
  exact inv.receiver

theorem EndInv.of_closed (state : after.state = .closed)
    (iss : after.iss = before.iss) (free : after.flags.finPending = before.flags.finPending)
    (recv : recvView after = recvView before) : EndInv own peer returned after := by
  refine ⟨SenderInv.of_closed ?_ state (free.trans inv.sender.free), ?_⟩
  · change after.iss + 1 = own.start
    rw [iss]
    exact inv.sender.iss
  · rw [state, recv]
    exact inv.receiver.close

end

variable (now : BitVec 64)

section

variable (inv : EndInv own peer returned pcb)
include inv

theorem backoffRto_end : EndInv own peer returned (backoffRto now pcb) := by
  obtain ⟨ticks, _, view⟩ := sendView_backoffRto now pcb
  refine inv.of_sender ?_ (congrArg SendView.state view) (by simp only [recvView, backoffRto, setRto])
  exact inv.sender.congr rfl rfl rfl rfl rfl

theorem retransmitHead_end (state : pcb.state = .established) : EndInv own peer returned (retransmitHead now pcb).1 ∧
      ∀ packet ∈ (retransmitHead now pcb).2, PacketOk own packet := by
  obtain ⟨next, unsent, unacked⟩ := inv.sender.sending state
  unfold retransmitHead
  split
  · exact ⟨inv, by simp⟩
  rename_i segment rest queue
  have placed : Placed own (segment :: rest) := by
    rw [← queue]
    exact unacked
  obtain ⟨head, tail⟩ := List.forall_mem_cons.mp placed
  refine ⟨inv.of_sender ?_ rfl rfl, ?_⟩
  · exact SenderInv.of_sending inv.sender.iss state inv.sender.free
      ⟨next, unsent, List.forall_mem_cons.mpr ⟨head, tail⟩⟩
  · intro packet sent
    rw [← Option.some.inj sent]
    exact dataPacket_ok (head.2.take tcpDefaultMss)

theorem transmitSegment_end {unsent : TcpQueue} (state : pcb.state = .established)
    (bytes : segment.payload ++ queuedBytes unsent.entries = queuedBytes pcb.txBuf.unsent.entries)
    (sound : segment.Sound) (rest : ∀ queued ∈ unsent.entries, queued.Sound) :
    EndInv own peer returned (transmitSegment now pcb unsent segment).pcb ∧
      ∀ packet ∈ (transmitSegment now pcb unsent segment).packet, PacketOk own packet := by
  obtain ⟨⟨sent, cut⟩, _, unacked⟩ := inv.sender.sending state
  change own.Cut pcb.sndNxt sent (queuedBytes pcb.txBuf.unsent.entries) at cut
  rw [← bytes] at cut
  have placed : own.At pcb.sndNxt segment.payload := ⟨sent, _, cut⟩
  have advanced := cut.advance
  rw [show segment.payload.length = segment.length from sound] at advanced
  have queue : Placed own (tcpQueueAppendLocked pcb.txBuf.unacked
      { segment with sequence := pcb.sndNxt, sentAt := now }).entries := by
    exact List.forall_mem_append.mpr ⟨unacked, List.forall_mem_singleton.mpr ⟨sound, placed⟩⟩
  have sender : ∀ view : SendView, view.iss = pcb.iss → view.state = pcb.state →
      view.finPending = pcb.flags.finPending → view.sndNxt = pcb.sndNxt + BitVec.ofNat 32 segment.length →
      view.txBuf = { pcb.txBuf with
        unsent := unsent
        unacked := tcpQueueAppendLocked pcb.txBuf.unacked
          { segment with sequence := pcb.sndNxt, sentAt := now } } → SenderInv own view := by
    intro view iss stateKept free next buffer
    refine SenderInv.of_sending (by rw [iss]; exact inv.sender.iss) (stateKept.trans state)
      (free.trans inv.sender.free) ⟨⟨_, by rw [next, buffer]; exact advanced⟩, by rw [buffer]; exact rest,
        by rw [buffer]; exact queue⟩
  unfold transmitSegment
  refine ⟨?_, ?_⟩
  · split
    · refine inv.of_sender (sender _ ?_ ?_ ?_ ?_ ?_) ?_ ?_ <;>
        simp only [sendView, recvView, advertiseWindow, armDataRto, setRto]
    · refine inv.of_sender (sender _ ?_ ?_ ?_ ?_ ?_) ?_ ?_ <;>
        simp only [sendView, recvView, advertiseWindow]
  · intro packet out
    rw [← Option.some.inj out]
    exact dataPacket_ok placed

theorem stopDraining_end : EndInv own peer returned (stopDraining pcb) :=
  inv.of_view (sendView_stopDraining pcb) (by simp only [recvView, stopDraining])

theorem armPersist_end : EndInv own peer returned (armPersist now pcb) := by
  refine inv.of_view (sendView_armPersist now) ?_
  unfold armPersist
  split <;> simp only [recvView]

end

variable (inv : EndInv own peer returned pcb)
include inv

theorem drainIteration_end : EndInv own peer returned (drainIteration now allocated pcb).pcb ∧
      ∀ packet ∈ (drainIteration now allocated pcb).packet, PacketOk own packet := by
  rcases drainIteration_cases now allocated pcb with stops | ⟨unsent, segment, sends, result⟩
  · obtain ⟨none, kept⟩ := stops.silent inv.sender.free
    refine ⟨?_, by simp [none]⟩
    rcases kept with kept | kept
    · rw [kept]
      exact stopDraining_end inv
    · rw [kept]
      exact stopDraining_end (armPersist_end now inv)
  · have established : pcb.state = .established := by
      rcases sends.state with state | state
      · exact state
      · rcases inv.sender.state with (early | early) | early | early <;>
          (change pcb.state = _ at early; rw [state] at early; contradiction)
    obtain ⟨sound, rest⟩ := sends.sound (inv.sender.sending established).unsent
    rw [result]
    exact transmitSegment_end now inv established sends.bytes sound rest

theorem drainEnter_end {result : DrainResult} (entered : drainEnter now allocated pcb = some result) :
    EndInv own peer returned result.pcb ∧ ∀ packet ∈ result.packet, PacketOk own packet := by
  unfold drainEnter at entered
  split at entered
  · contradiction
  · rw [← Option.some.inj entered]
    refine drainIteration_end now (inv.of_view ?_ ?_) <;> simp only [sendView, recvView]

theorem sendAppend_end {chunk : List UInt8} (state : pcb.state = .established) :
    EndInv (own.extend chunk) peer returned (sendAppend pcb chunk) := by
  obtain ⟨⟨sent, cut⟩, unsent, unacked⟩ := inv.sender.sending state
  refine ⟨SenderInv.of_sending inv.sender.iss state inv.sender.free ⟨⟨sent, ?_⟩, ?_, ?_⟩, ?_⟩
  · have appended := cut.extend chunk
    simp only [sendView, sendAppend, tcpQueueAppendLocked, queuedBytes, List.flatMap_append,
      List.flatMap_cons, List.flatMap_nil, List.append_nil, TcpSegment.payload, List.drop_zero,
      List.take_length] at appended ⊢
    exact appended
  · intro segment member
    rcases List.mem_append.mp member with old | new
    · exact unsent segment old
    · rw [List.mem_singleton.mp new, TcpSegment.Sound, TcpSegment.payload, List.drop_zero, List.take_length]
  · intro segment member
    exact ⟨(unacked segment member).1, (unacked segment member).2.extend chunk⟩
  · have receiver := inv.receiver
    simpa only [sendAppend, recvView] using receiver

theorem acceptPayload_end (state : pcb.state = .established) (inOrder : peer.At pcb.rcvNxt payload)
    (small : peer.items.length < 2 ^ 32) : EndInv own peer returned (acceptPayload pcb payload) := by
  obtain ⟨readable, ring, received, next, _⟩ := inv.receiver
  obtain ⟨rest, cut⟩ := next (Or.inr state)
  change pcb.flags.shutRd = false at readable
  change peer.Cut pcb.rcvNxt (returned ++ pcb.rxBuf.contents) rest at cut
  have count : (payload.take (pcb.rxBuf.write payload).2).length = (pcb.rxBuf.write payload).2 := by
    rw [List.length_take, RingBuffer.write_count]
    omega
  obtain ⟨left, delivered⟩ := cut.deliver (inOrder.take (pcb.rxBuf.write payload).2) small
  rw [delivered] at cut
  have advanced := cut.advance
  rw [count, List.append_assoc, ← RingBuffer.write_contents pcb.rxBuf ring payload] at advanced
  refine ⟨by rw [sendView_acceptPayload]; exact inv.sender, ?_⟩
  simp only [acceptPayload, readable, Bool.false_eq_true, if_false]
  split
  · exact inv.receiver
  · exact ⟨readable, RingBuffer.write_wellFormed pcb.rxBuf ring,
      ⟨left, advanced.items.symm⟩, fun _ => ⟨left, advanced⟩, fun waiting => by rw [state] at waiting; contradiction⟩

end

end PhotonOS
