import PhotonOS.Tcp.Sections

/-!
Every critical section of an end without `tcp_close` and `tcp_shutdown` keeps
`EndInv` and sends only packets of its own stream, provided its input comes from
the peer's.
-/

namespace PhotonOS

section

variable {own peer : ByteStream} {returned : List UInt8}

structure WorkInv (own peer : ByteStream) (returned : List UInt8) (work : InputWork) : Prop where
  pcb : EndInv own peer returned work.pcb
  out : ∀ packet ∈ work.out, PacketOk own packet
  rexmit : ∀ packet ∈ work.rexmit, PacketOk own packet

variable {pcb : Pcb} {work : InputWork} {packet : List UInt8}

theorem WorkInv.start (inv : EndInv own peer returned pcb) : WorkInv own peer returned (.start pcb) :=
  ⟨inv, by simp [InputWork.start], by simp [InputWork.start]⟩

theorem WorkInv.update (inv : WorkInv own peer returned work) (next : EndInv own peer returned pcb) :
    WorkInv own peer returned (work.update pcb) :=
  ⟨next, inv.out, inv.rexmit⟩

theorem reply_ack_work (inv : WorkInv own peer returned work) :
    WorkInv own peer returned (reply work tcpFlagAck) := by
  unfold reply
  split
  · exact inv
  rename_i built packet sent
  obtain ⟨view, _⟩ := sendView_tcpBuildOutputLocked sent
  refine ⟨inv.pcb.of_view view (recvView_congr (receiveView_tcpBuildOutputLocked sent).1), ?_, inv.rexmit⟩
  intro other out
  rw [← Option.some.inj out]
  exact builtAck_ok sent

variable {flags : BitVec 16} {ack : BitVec 32}

theorem handshakeBuilt_end {built : Pcb} (inv : EndInv own peer returned pcb) (state : pcb.state.handshaking)
    (sent : tcpBuildOutputLocked pcb flags [] = some (built, packet)) : EndInv own peer returned built := by
  obtain ⟨view, _⟩ := sendView_tcpBuildOutputLocked sent
  have kept : built.state = pcb.state := congrArg SendView.state view
  refine inv.of_sender ?_ kept (recvView_congr (receiveView_tcpBuildOutputLocked sent).1)
  refine ⟨?_, Or.inl ?_, ?_, fun _ => inv.sender.handshake state, ?_⟩
  · rw [view]
    exact inv.sender.iss
  · rw [view]
    exact state
  · rw [view]
    exact inv.sender.free
  · intro established
    rw [← kept, show built.state = .established from established] at state
    exact absurd state (by decide)

variable (now : BitVec 64) (header : TcpHeader) (payload : List UInt8) {deferred : Nat}

theorem tcpTxAck_end {exit : Bool} (inv : EndInv own peer returned pcb) (state : pcb.state = .established) :
    EndInv own peer returned (tcpTxAckReceivedLockedExt now pcb ack exit) := by
  rcases tcpTxAck_cases now pcb ack exit with ⟨same, _⟩ | ⟨_, _, _, view, _⟩
  · rw [same]
    exact inv
  · refine inv.of_sender ?_ (congrArg SendView.state view) (recvView_congr receiveView_tcpTxAck)
    rw [view]
    exact inv.sender.afterAck now ack state

section

variable (inv : WorkInv own peer returned work)
include inv

section

variable (state : work.pcb.state = .established)
include state

theorem newAck_work : WorkInv own peer returned (newAck now work ack) := by
  refine ⟨?_, inv.out, inv.rexmit⟩
  simp only [newAck]
  split <;> exact tcpTxAck_end now (inv.pcb.of_view (by simp only [sendView]) (by simp only [recvView])) state

theorem duplicateAck_work : WorkInv own peer returned (duplicateAck now work) := by
  simp only [duplicateAck]
  split
  · exact ⟨inv.pcb.of_view (by simp only [sendView]) (by simp only [recvView]), inv.out, inv.rexmit⟩
  split
  · have entered : EndInv own peer returned
        (enterFastRecovery { work.pcb with dupacks := work.pcb.dupacks + 1 }) :=
      inv.pcb.of_view (by simp only [sendView, enterFastRecovery]) (by simp only [recvView, enterFastRecovery])
    obtain ⟨kept, sent⟩ := retransmitHead_end now entered state
    exact ⟨kept.of_sender (kept.sender.congr rfl rfl rfl rfl rfl) rfl rfl, inv.out, sent⟩
  · exact ⟨inv.pcb.of_view (by simp only [sendView, InputWork.update])
      (by simp only [recvView, InputWork.update]), inv.out, inv.rexmit⟩

theorem establishedAck_work : WorkInv own peer returned (establishedAck now header payload work) := by
  unfold establishedAck
  split
  · exact reply_ack_work inv
  split
  · exact newAck_work now inv state
  · split
    · exact duplicateAck_work now inv state
    · exact inv

end

theorem establishedWindow_work {before : BitVec 16} {header : TcpHeader} :
    WorkInv own peer returned (establishedWindow before header work) := by
  have quiet := establishedWindow_quiet before header work
  refine ⟨inv.pcb.of_view quiet.view ?_, ?_, ?_⟩ <;> simp only [establishedWindow] <;> split
  · split <;> simp only [recvView]
  · rfl
  · exact inv.out
  · exact inv.out
  · exact inv.rexmit
  · exact inv.rexmit

theorem establishedProbe_work : WorkInv own peer returned (establishedProbe header payload work) := by
  unfold establishedProbe
  split
  · exact reply_ack_work inv
  · exact inv

theorem establishedData_work (state : work.pcb.state = .established)
    (data : payload ≠ [] → peer.At header.seqNum payload) (small : peer.items.length < 2 ^ 32) :
    WorkInv own peer returned (establishedData header payload work) := by
  unfold establishedData
  split
  · exact inv
  rename_i some
  split
  next inOrder =>
    have accepted := acceptPayload_end inv.pcb state (inOrder ▸ data some) small
    exact reply_ack_work (inv.update (accepted.of_view (sendView_noteFreeSpace _) rfl))
  · refine reply_ack_work (inv.update (inv.pcb.of_view ?_ ?_)) <;>
      simp only [sendView, recvView, noteFreeSpace]

theorem inputEstablished_work (state : work.pcb.state = .established)
    (noFin : flagSet header.flags tcpFlagFin = false) (data : payload ≠ [] → peer.At header.seqNum payload)
    (small : peer.items.length < 2 ^ 32) : WorkInv own peer returned (inputEstablished now header payload work) := by
  simp only [inputEstablished]
  generalize middleEq : (if flagSet header.flags tcpFlagAck then
    establishedWindow work.pcb.sndWnd header (establishedAck now header payload work) else work) = middle
  have acked : WorkInv own peer returned middle ∧ middle.pcb.state = .established := by
    rw [← middleEq]
    split
    · exact ⟨establishedWindow_work (establishedAck_work now header payload inv state),
        (establishedWindow_quiet _ header _).state.trans
          ((establishedAck_state header payload work).trans state)⟩
    · exact ⟨inv, state⟩
  have probed := establishedProbe_work header payload acked.1
  have stored := establishedData_work header payload probed
    ((establishedProbe_quiet header payload middle).state.trans acked.2) data small
  simpa only [establishedFin, noFin, Bool.false_eq_true, false_and, if_false] using stored

end

theorem established_end {before after : Pcb} (inv : EndInv own peer returned before)
    (handshaking : before.state.handshaking) (fresh : before.txBuf = TcpTxBuffer.fresh)
    (state : after.state = .established) (iss : after.iss = before.iss)
    (free : after.flags.finPending = before.flags.finPending) (buffer : after.txBuf = before.txBuf)
    (next : after.sndNxt = own.start) (ring : after.rxBuf = before.rxBuf)
    (readable : after.flags.shutRd = before.flags.shutRd)
    (expected : ∃ rest, peer.Cut after.rcvNxt (returned ++ before.rxBuf.contents) rest) :
    EndInv own peer returned after := by
  have empty : own.items = [] := inv.sender.handshake handshaking
  obtain ⟨rest, cut⟩ := expected
  refine ⟨SenderInv.of_sending ?_ state (free.trans inv.sender.free) ⟨⟨[], ?_⟩, ?_, ?_⟩, ?_⟩
  · change after.iss + 1 = own.start
    rw [iss]
    exact inv.sender.iss
  · simp only [sendView, buffer, fresh, next]
    have zero := NumberedStream.Cut.zero own
    rwa [empty] at zero
  · simp [sendView, buffer, fresh, TcpTxBuffer.fresh, TcpQueue.empty]
  · simp [sendView, buffer, fresh, TcpTxBuffer.fresh, TcpQueue.empty, Placed]
  · have old := inv.receiver
    simp only [recvView, ring, readable, state]
    exact ⟨old.readable, old.ring, old.received, fun _ => ⟨rest, cut⟩, by simp⟩

theorem flagSet_of_both (both : flags &&& (tcpFlagSyn ||| tcpFlagAck) = tcpFlagSyn ||| tcpFlagAck) :
    flagSet flags tcpFlagSyn = true := by
  have syn : flags &&& tcpFlagSyn = tcpFlagSyn := by
    have masked := congrArg (· &&& tcpFlagSyn) both
    simp only [BitVec.and_assoc] at masked
    exact masked
  rw [flagSet, syn]
  decide

theorem inputSynSent_work (inv : WorkInv own peer returned work) (state : work.pcb.state = .synSent)
    (fresh : work.pcb.txBuf = TcpTxBuffer.fresh)
    (syn : flagSet header.flags tcpFlagSyn = true → header.seqNum + 1 = peer.start) :
    WorkInv own peer returned (inputSynSent now header work) := by
  simp only [inputSynSent]
  split
  next accepted =>
    have number := syn (flagSet_of_both accepted.1)
    have none : returned ++ work.pcb.rxBuf.contents = [] := inv.pcb.receiver.waiting state
    refine reply_ack_work (inv.update (established_end inv.pcb (Or.inl state) fresh rfl rfl rfl rfl
      inv.pcb.sender.iss rfl rfl ⟨peer.items, ?_⟩))
    rw [none, number]
    exact NumberedStream.Cut.zero peer
  · exact inv

theorem inputSynReceived_work (inv : WorkInv own peer returned work) (state : work.pcb.state = .synReceived)
    (fresh : work.pcb.txBuf = TcpTxBuffer.fresh) (recorded : work.pcb.seqNumber = work.pcb.iss + 1) :
    WorkInv own peer returned (inputSynReceived now header work) := by
  have iss : work.pcb.iss + 1 = own.start := inv.pcb.sender.iss
  simp only [inputSynReceived]
  split
  · unfold reply
    split
    · exact inv
    rename_i built packet sent
    refine ⟨handshakeBuilt_end inv.pcb (Or.inr state) sent, ?_, inv.rexmit⟩
    intro other out
    rw [← Option.some.inj out]
    exact builtSyn_ok (Or.inr rfl) (Or.inr state) iss sent
  · split
    next accepted =>
      simp only [acceptsHandshake, Bool.and_eq_true, Bool.or_eq_true, beq_iff_eq] at accepted
      have number : header.ackNum = own.start := by
        rw [← iss]
        exact accepted.2.elim id (fun copied => copied.trans recorded)
      exact inv.update (established_end inv.pcb (Or.inr state) fresh rfl rfl rfl rfl number rfl rfl
        (inv.pcb.receiver.next (Or.inl state)))
    · exact inv

structure SectionOk (own peer : ByteStream) (returned : List UInt8) (pcb : Option Pcb)
    (packets : List (List UInt8)) : Prop where
  pcb : ∀ after, pcb = some after → EndInv own peer returned after
  packets : ∀ packet ∈ packets, PacketOk own packet

theorem SectionOk.silent (inv : EndInv own peer returned pcb) : SectionOk own peer returned (some pcb) [] :=
  ⟨fun _ kept => Option.some.inj kept ▸ inv, by simp⟩

theorem SectionOk.single (inv : EndInv own peer returned pcb) (valid : PacketOk own packet) :
    SectionOk own peer returned (some pcb) [packet] :=
  ⟨fun _ kept => Option.some.inj kept ▸ inv, by simpa using valid⟩

theorem finishInput_section (inv : WorkInv own peer returned work) :
    SectionOk own peer returned (finishInput work).pcb (finishInput work).packets := by
  refine ⟨fun _ kept => Option.some.inj kept ▸ inv.pcb, fun packet sent => ?_⟩
  rcases List.mem_append.mp sent with out | rexmit
  · exact inv.out packet (Option.mem_toList.mp out)
  · exact inv.rexmit packet (Option.mem_toList.mp rexmit)

theorem inputReset_section (inv : EndInv own peer returned pcb) :
    SectionOk own peer returned (inputReset pcb).pcb (inputReset pcb).packets := by
  refine ⟨fun after kept => ?_, by simp [inputReset]⟩
  simp only [inputReset] at kept
  split at kept
  · contradiction
  · rw [← Option.some.inj kept]
    refine inv.of_closed ?_ ?_ ?_ ?_ <;> simp only [recvView, tcpTimersReset, clearTxQueues]

theorem tcpInputLocked_section {closing : Nat} (base : PcbInv pcb closing) (inv : EndInv own peer returned pcb)
    (noFin : flagSet header.flags tcpFlagFin = false)
    (syn : flagSet header.flags tcpFlagSyn = true → header.seqNum + 1 = peer.start)
    (data : payload ≠ [] → peer.At header.seqNum payload) (small : peer.items.length < 2 ^ 32) :
    SectionOk own peer returned (tcpInputLocked now header payload pcb).pcb
      (tcpInputLocked now header payload pcb).packets := by
  have start := WorkInv.start inv
  simp only [tcpInputLocked]
  split
  · exact SectionOk.silent inv
  rename_i live
  split
  · exact inputReset_section inv
  rcases inv.sender.state with (state | state) | state | state
  · change pcb.state = _ at state
    obtain ⟨_, _, fresh, _⟩ := base.state.handshaking (Or.inl state)
    simp only [state]
    exact finishInput_section (inputSynSent_work now header start state fresh syn)
  · change pcb.state = _ at state
    obtain ⟨_, next, fresh, _⟩ := base.state.handshaking (Or.inr state)
    have done := finishInput_section (inputSynReceived_work now header start state fresh
      (base.recorded.trans next))
    simp only [state]
    split <;> exact done
  · change pcb.state = _ at state
    simp only [state]
    exact finishInput_section (inputEstablished_work now header payload start state noFin data small)
  · exact absurd (Or.inl state) live

section

variable (inv : EndInv own peer returned pcb)
include inv

theorem closeExpired_end : EndInv own peer returned (closeExpired pcb) := by
  refine inv.of_closed ?_ ?_ ?_ ?_ <;> simp only [recvView, closeExpired, tcpTimersReset]

theorem tickHandshake_section (state : pcb.state.handshaking)
    (syn : flags = tcpFlagSyn ∨ flags = tcpFlagSyn ||| tcpFlagAck) :
    SectionOk own peer returned (tickHandshake now deferred flags pcb).pcb
      (tickHandshake now deferred flags pcb).packets := by
  have backed := backoffRto_end now inv
  have backedState : (backoffRto now pcb).state.handshaking := by simpa only [backoffRto, setRto] using state
  simp only [tickHandshake]
  split
  · exact SectionOk.silent (closeExpired_end inv)
  split
  · split
    · exact SectionOk.silent (closeExpired_end inv)
    split
    · split
      · exact SectionOk.silent backed
      next built packet sent =>
        exact SectionOk.single (handshakeBuilt_end backed backedState sent)
          (builtSyn_ok syn backedState backed.sender.iss sent)
    · exact SectionOk.silent backed
  · exact SectionOk.silent inv

theorem tickDataRto_end (state : pcb.state = .established) :
    EndInv own peer returned (tickDataRto now deferred pcb).1 ∧
      ∀ packet ∈ (tickDataRto now deferred pcb).2, PacketOk own packet := by
  have backed := backoffRto_end now
    (inv.of_view (sendView_congestionTimeout pcb) (recvView_congr (congestionTimeout_frame pcb).1))
  have backedState : (backoffRto now (congestionTimeout pcb)).state = .established := by
    exact congestionTimeout_quiet.state.trans state
  unfold tickDataRto
  split
  · refine ⟨inv.of_sender ?_ ?_ ?_, by simp⟩
    · exact inv.sender.congr rfl rfl rfl rfl rfl
    · simp only [clearRto]
    · simp only [recvView, clearRto]
  · split
    · obtain ⟨kept, sent⟩ := retransmitHead_end now backed backedState
      exact ⟨kept, fun packet member => sent packet (Option.mem_toList.mp member)⟩
    · exact ⟨backed, by simp⟩

theorem tickPersist_end : EndInv own peer returned (tickPersist now deferred pcb).1 ∧
      ∀ packet ∈ (tickPersist now deferred pcb).2, PacketOk own packet := by
  have quiet := @tickPersist_quiet now pcb deferred
  have probe : ∀ probing : Pcb, ∀ packet ∈
      (if deferred < 4 then [segmentPacket probing (probing.sndNxt - 1) tcpFlagAck []] else []),
      PacketOk own packet := by
    intro probing packet member
    split at member
    · rw [List.mem_singleton.mp member]
      exact ackPacket_ok
    · contradiction
  refine ⟨inv.of_view quiet.view (recvView_congr (tickPersist_shows now deferred pcb).1), ?_⟩
  unfold tickPersist
  split
  · split
    · split
      · exact probe _
      · simp
    · simp
  · simp

theorem tickData_section (state : pcb.state = .established) :
    SectionOk own peer returned (tickData now deferred pcb).pcb (tickData now deferred pcb).packets := by
  simp only [tickData]
  split
  · refine SectionOk.silent (inv.of_closed ?_ ?_ ?_ ?_) <;>
      simp only [recvView, clearTxQueues, closeExpired, tcpTimersReset]
  generalize retriedEq : (if rtoExpired now pcb = true then tickDataRto now deferred pcb else (pcb, [])) = retried
  have first : EndInv own peer returned retried.1 ∧ ∀ packet ∈ retried.2, PacketOk own packet := by
    rw [← retriedEq]
    split
    · exact tickDataRto_end now inv state
    · exact ⟨inv, by simp⟩
  obtain ⟨kept, probes⟩ := tickPersist_end now first.1
  refine ⟨fun _ found => Option.some.inj found ▸ kept, fun packet member => ?_⟩
  exact (List.mem_append.mp member).elim (first.2 packet) (probes packet)

theorem tcpTimerTickPcb_section {dead : Nat} :
    SectionOk own peer returned (tcpTimerTickPcb now deferred dead pcb).pcb
      (tcpTimerTickPcb now deferred dead pcb).packets := by
  rcases inv.sender.state with (state | state) | state | state <;> change pcb.state = _ at state <;>
    simp only [tcpTimerTickPcb, state]
  · exact tickHandshake_section now inv (Or.inl state) (Or.inl rfl)
  · exact tickHandshake_section now inv (Or.inr state) (Or.inr rfl)
  · exact tickData_section now inv state
  · exact SectionOk.silent inv

theorem tcpReceiveRead_section {length : Nat} :
    SectionOk own peer (returned ++ (tcpReceiveRead pcb length).bytes) (some (tcpReceiveRead pcb length).pcb)
      (tcpReceiveRead pcb length).packet.toList := by
  obtain ⟨readable, ring, received, next, waiting⟩ := inv.receiver
  have contents := RingBuffer.read_contents pcb.rxBuf ring length
  have taken : ∀ after : Pcb, sendView after = sendView pcb → after.rcvNxt = pcb.rcvNxt →
      after.flags.shutRd = pcb.flags.shutRd → after.rxBuf = (pcb.rxBuf.read length).1 →
      EndInv own peer (returned ++ (pcb.rxBuf.read length).2) after := by
    intro after view rcvNxt shutRd rxBuf
    have state : after.state = pcb.state := congrArg SendView.state view
    have joined : returned ++ (pcb.rxBuf.read length).2 ++ after.rxBuf.contents = returned ++ pcb.rxBuf.contents := by
      rw [rxBuf, List.append_assoc, contents]
    refine ⟨by rw [view]; exact inv.sender, ?_⟩
    rw [state]
    refine ⟨shutRd.trans readable, ?_, ?_, ?_, ?_⟩ <;> simp only [recvView, joined, rcvNxt]
    · rw [rxBuf]
      exact RingBuffer.read_wellFormed pcb.rxBuf ring
    · exact received
    · exact next
    · exact waiting
  unfold tcpReceiveRead
  split
  · rw [List.append_nil]
    exact SectionOk.silent inv
  simp only
  split
  · split
    · refine SectionOk.silent (taken _ ?_ ?_ ?_ ?_) <;> simp only [sendView]
    rename_i built packet sent
    obtain ⟨view, _⟩ := sendView_tcpBuildOutputLocked sent
    have recv := recvView_congr (receiveView_tcpBuildOutputLocked sent).1
    refine SectionOk.single (taken built ?_ ?_ ?_ ?_) (builtAck_ok sent)
    · rw [view]
      rfl
    · exact congrArg RecvView.rcvNxt recv
    · exact congrArg RecvView.shutRd recv
    · exact congrArg RecvView.rxBuf recv
  · refine SectionOk.silent (taken _ ?_ ?_ ?_ ?_) <;> simp only [sendView]

end

end

end PhotonOS
