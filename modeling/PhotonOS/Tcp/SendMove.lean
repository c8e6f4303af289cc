import PhotonOS.Tcp.SendQueue

/-!
Everything the code can do to the send side of a connection, as one relation.
-/

namespace PhotonOS

open Serial

def SendView.afterAck (view : SendView) (now : BitVec 64) (ack : BitVec 32) : SendView :=
  let queue := releaseAcked ack view.txBuf.unacked.entries view.txBuf.unacked.bytes
    view.txBuf.unacked.segments
  { view with
    sndUna := ack
    txBuf := { view.txBuf with unacked := queue }
    timerRto := !queue.entries.isEmpty
    retransmission := if queue.entries.isEmpty then 0 else ticksAfter now tcpDataRtoTicksDefault
    rtoTicks := tcpDataRtoTicksDefault }

variable {now : BitVec 64} {pcb : Pcb}

theorem sendView_rearmAfterAck : sendView (rearmAfterAck now pcb) = { sendView pcb with
        timerRto := !pcb.txBuf.unacked.entries.isEmpty
        retransmission := if pcb.txBuf.unacked.entries.isEmpty then 0 else ticksAfter now tcpDataRtoTicksDefault
        rtoTicks := tcpDataRtoTicksDefault } := by
  simp only [rearmAfterAck]
  split
  next empty => simp [empty, sendView, clearRto]
  next pending => simp [List.isEmpty_eq_false_iff.mpr pending, sendView, armDataRto, setRto]

theorem rearmAfterAck_seqNumber : (rearmAfterAck now pcb).seqNumber = pcb.seqNumber := by
  simp only [rearmAfterAck]
  split <;> rfl

theorem growCongestionWindow_seqNumber {bytesAcked : BitVec 32} :
    (growCongestionWindow bytesAcked pcb).seqNumber = pcb.seqNumber := by
  unfold growCongestionWindow
  split
  · rfl
  · split <;> rfl

theorem tcpTxAck_cases (now : BitVec 64) (pcb : Pcb) (ack : BitVec 32) (exit : Bool) :
    (tcpTxAckReceivedLockedExt now pcb ack exit = pcb ∧
      ¬(gt ack pcb.sndNxt = false ∧ ack ≠ pcb.sndUna ∧ lt ack pcb.sndUna = false)) ∨
    (gt ack pcb.sndNxt = false ∧ ack ≠ pcb.sndUna ∧ lt ack pcb.sndUna = false ∧
      sendView (tcpTxAckReceivedLockedExt now pcb ack exit) = (sendView pcb).afterAck now ack ∧
      (tcpTxAckReceivedLockedExt now pcb ack exit).seqNumber = pcb.seqNumber) := by
  unfold tcpTxAckReceivedLockedExt
  split
  next beyond => exact Or.inl ⟨rfl, fun ⟨fine, _⟩ => by simp [beyond] at fine⟩
  split
  next same => exact Or.inl ⟨rfl, fun ⟨_, moved, _⟩ => moved same⟩
  split
  next stale => exact Or.inl ⟨rfl, fun ⟨_, _, fresh⟩ => by simp [stale] at fresh⟩
  rename_i beyond moved stale
  refine Or.inr ⟨by simpa using beyond, moved, by simpa using stale, ?_, ?_⟩
  · cases exit with
    | true => exact sendView_rearmAfterAck
    | false =>
      simp only [Bool.false_eq_true, if_false]
      rw [sendView_rearmAfterAck]
      have grown := sendView_growCongestionWindow (ack - pcb.sndUna) pcb
      simp only [sendView, SendView.mk.injEq] at grown
      simp only [SendView.afterAck, sendView, grown]
      rfl
  · simp only [rearmAfterAck_seqNumber]
    cases exit with
    | true => rfl
    | false => exact growCongestionWindow_seqNumber

def SameSlot (before after : TcpSegment) : Prop :=
  after.sequence = before.sequence ∧ after.length = before.length

def TcpState.handshaking (state : TcpState) : Prop := state = .synSent ∨ state = .synReceived

instance (state : TcpState) : Decidable state.handshaking := inferInstanceAs (Decidable (_ ∨ _))

def TcpState.sending (state : TcpState) : Prop := state = .established ∨ state = .closeWait

def TcpState.finished (state : TcpState) : Prop :=
  state = .closed ∨ state = .finWait2 ∨ state = .timeWait

def TcpState.afterFin (state : TcpState) : TcpState :=
  if state = .established then .finWait1 else .lastAck

/-- One move of the send side at time `now`. Under `strict` no acknowledgement in FIN_WAIT1 may
empty the queue while the FIN is still outstanding; only a `closer` shuts down writing or leaves a FIN
pending. -/
inductive SendMove (strict closer : Prop) (now : BitVec 64) : SendView → SendView → Prop where
  | handshake (view : SendView) (state : view.state.handshaking) :
      SendMove strict closer now view { view with sndUna := view.iss, sndNxt := view.iss + 1 }
  | establish (view : SendView) (una nxt : BitVec 32) (state : view.state.handshaking)
      (unaEq : una = view.iss + 1 ∨ una = view.sndNxt) (nxtEq : nxt = view.iss + 1 ∨ nxt = view.sndNxt) :
      SendMove strict closer now view { view.reset with state := .established, sndUna := una, sndNxt := nxt }
  | ack (view : SendView) (ack : BitVec 32) (state : view.state = .established)
      (beyond : gt ack view.sndNxt = false) (moved : ack ≠ view.sndUna)
      (stale : lt ack view.sndUna = false) : SendMove strict closer now view (view.afterAck now ack)
  | finWaitAck (view : SendView) (ack : BitVec 32) (state : view.state = .finWait1)
      (below : ge ack view.sndNxt = false) (moved : ack ≠ view.sndUna)
      (stale : lt ack view.sndUna = false) (beyond : gt ack view.sndNxt = false)
      (pending : strict → (view.afterAck now ack).timerRto = true) :
      SendMove strict closer now view (view.afterAck now ack)
  | peerFin (view : SendView) (state : view.state = .established) :
      SendMove strict closer now view { view with state := .closeWait }
  | finish (view after : SendView) (state : after.state.finished)
      (ticks : after.rtoTicks = view.rtoTicks ∨ after.rtoTicks = tcpRtoTicksDefault)
      (pending : after.finPending = view.finPending) (shut : after.shutWr = view.shutWr) :
      SendMove strict closer now view after
  | backoff (view : SendView) (ticks : BitVec 32)
      (bounded : ticks = tcpMaxRtoTicks ∨ ticks = view.rtoTicks * 2 ∧ ¬view.rtoTicks * 2 > tcpMaxRtoTicks) :
      SendMove strict closer now view { view with retransmission := ticksAfter now ticks, rtoTicks := ticks }
  | rearm (view : SendView) : SendMove strict closer now view (view.armed now tcpDataRtoTicksDefault)
  | retransmit (view : SendView) (head sent : TcpSegment) (rest : List TcpSegment)
      (queue : view.txBuf.unacked.entries = head :: rest) (same : SameSlot head sent) :
      SendMove strict closer now view { view with
        txBuf := { view.txBuf with unacked := { view.txBuf.unacked with entries := sent :: rest } } }
  | disarm (view : SendView) (state : view.state.sending) (empty : view.txBuf.unacked.entries = []) :
      SendMove strict closer now view { view with timerRto := false, retransmission := 0 }
  | append (view : SendView) (segment : TcpSegment) (state : view.state.sending)
      (positive : 0 < segment.length)
      (fits : view.txBuf.unsent.bytes + view.txBuf.unacked.bytes + segment.length ≤ view.txBuf.capacity) :
      SendMove strict closer now view { view with
        txBuf := { view.txBuf with unsent := tcpQueueAppendLocked view.txBuf.unsent segment } }
  | transmit (view : SendView) (unsent : TcpQueue) (segment : TcpSegment) (state : view.state.sending)
      (sequence : segment.sequence = view.sndNxt) (positive : 0 < segment.length)
      (unsentBytes : unsent.bytes = view.txBuf.unsent.bytes - segment.length)
      (unsentTotal : totalLength unsent.entries + segment.length = totalLength view.txBuf.unsent.entries)
      (unsentPositive : (∀ queued ∈ view.txBuf.unsent.entries, 0 < queued.length) →
        ∀ queued ∈ unsent.entries, 0 < queued.length) : SendMove strict closer now view { view with
        sndNxt := view.sndNxt + BitVec.ofNat 32 segment.length
        txBuf := { view.txBuf with
          unsent := unsent, unacked := tcpQueueAppendLocked view.txBuf.unacked segment }
        timerRto := if view.txBuf.unacked.entries = [] then true else view.timerRto
        retransmission :=
          if view.txBuf.unacked.entries = [] then ticksAfter now tcpDataRtoTicksDefault
          else view.retransmission
        rtoTicks := if view.txBuf.unacked.entries = [] then tcpDataRtoTicksDefault else view.rtoTicks }
  | fin (view : SendView) (drained : view.txBuf.unsent.entries = []) (free : view.finPending = false) :
      SendMove strict closer now view ({ view with
        sndNxt := view.sndNxt + 1, state := view.state.afterFin }.armed now tcpDataRtoTicksDefault)
  | pendingFin (view : SendView) (state : TcpState) (drained : view.txBuf.unsent.entries = [])
      (pending : view.finPending = true)
      (next : view.state.sending ∧ state = view.state.afterFin ∨ ¬view.state.sending ∧ state = view.state) :
      SendMove strict closer now view ({ view with
        sndNxt := view.sndNxt + 1, state := state, finPending := false }.armed now tcpDataRtoTicksDefault)
  | setFinPending (view : SendView) (closing : closer) (queued : view.txBuf.unsent.entries ≠ []) :
      SendMove strict closer now view { view with finPending := true }
  | clearFinPending (view : SendView) : SendMove strict closer now view { view with finPending := false }
  | setShutWr (view : SendView) (closing : closer) : SendMove strict closer now view { view with shutWr := true }

end PhotonOS
