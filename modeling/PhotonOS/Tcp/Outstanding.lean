import PhotonOS.Tcp.SendMove

/-!
The send-side invariant of a connection.
-/

namespace PhotonOS

open Serial

/-- `extra` is the sequence number of a FIN that was sent and is not in the queue. -/
structure Outstanding (view : SendView) (extra : Nat) : Prop where
  contiguous : Contiguous view.sndUna view.txBuf.unacked.entries
  next : view.sndNxt = view.sndUna + BitVec.ofNat 32 (totalLength view.txBuf.unacked.entries + extra)
  unackedBytes : view.txBuf.unacked.bytes = totalLength view.txBuf.unacked.entries
  unsentBytes : view.txBuf.unsent.bytes = totalLength view.txBuf.unsent.entries
  unsentPositive : ∀ segment ∈ view.txBuf.unsent.entries, 0 < segment.length
  capacity : view.txBuf.capacity = tcpTxBufferCapacity
  fits : view.txBuf.unsent.bytes + view.txBuf.unacked.bytes ≤ tcpTxBufferCapacity

def TcpTxBuffer.fresh : TcpTxBuffer :=
  { unsent := TcpQueue.empty, unacked := TcpQueue.empty, capacity := tcpTxBufferCapacity }

def StateInv (view : SendView) : Prop :=
  match view.state with
  | .synSent | .synReceived =>
    view.sndUna = view.iss ∧ view.sndNxt = view.iss + 1 ∧ view.txBuf = TcpTxBuffer.fresh ∧ view.finPending = false
  | .established | .closeWait => Outstanding view 0
  | .finWait1 => Outstanding view 1 ∧ view.txBuf.unsent.entries = [] ∧ view.finPending = false
  | .closed | .listen | .finWait2 | .lastAck | .timeWait => True

variable {view other after : SendView} {extra : Nat}

theorem Outstanding.congr (outstanding : Outstanding view extra) (una : other.sndUna = view.sndUna)
    (nxt : other.sndNxt = view.sndNxt) (buffer : other.txBuf = view.txBuf) : Outstanding other extra := by
  obtain ⟨contiguous, next, unackedBytes, unsentBytes, unsentPositive, capacity, fits⟩ := outstanding
  exact ⟨by rwa [una, buffer], by rwa [una, nxt, buffer], by rwa [buffer], by rwa [buffer],
    by rwa [buffer], by rwa [buffer], by rwa [buffer]⟩

theorem Outstanding.small (outstanding : Outstanding view extra) : totalLength view.txBuf.unacked.entries ≤ 8192 := by
  have fits := outstanding.fits
  rw [outstanding.unackedBytes, tcpTxBufferCapacity] at fits
  omega

theorem Outstanding.fresh (view : SendView) (buffer : view.txBuf = TcpTxBuffer.fresh)
    (next : view.sndNxt = view.sndUna) : Outstanding view 0 := by
  refine ⟨?_, ?_, ?_, ?_, ?_, ?_, ?_⟩ <;>
    simp [buffer, next, TcpTxBuffer.fresh, TcpQueue.empty, Contiguous, tcpTxBufferCapacity]

section

variable (inv : StateInv view)
include inv

theorem StateInv.congr (state : other.state = view.state) (iss : other.iss = view.iss)
    (una : other.sndUna = view.sndUna) (nxt : other.sndNxt = view.sndNxt) (buffer : other.txBuf = view.txBuf)
    (pending : other.finPending = view.finPending) : StateInv other := by
  unfold StateInv at inv ⊢
  rw [state]
  cases stateEq : view.state <;> simp only [stateEq] at inv ⊢
  case synSent | synReceived => rwa [una, nxt, iss, buffer, pending]
  case established | closeWait => exact inv.congr una nxt buffer
  case finWait1 => exact ⟨inv.1.congr una nxt buffer, by rw [buffer]; exact inv.2.1, by rw [pending]; exact inv.2.2⟩

theorem StateInv.sending (state : view.state.sending) : Outstanding view 0 := by
  unfold StateInv at inv
  rcases state with state | state <;> simpa only [state] using inv

theorem StateInv.finWait1 (state : view.state = .finWait1) :
    Outstanding view 1 ∧ view.txBuf.unsent.entries = [] ∧ view.finPending = false := by
  unfold StateInv at inv
  simpa only [state] using inv

theorem StateInv.handshaking (state : view.state.handshaking) :
    view.sndUna = view.iss ∧ view.sndNxt = view.iss + 1 ∧ view.txBuf = TcpTxBuffer.fresh ∧
      view.finPending = false := by
  unfold StateInv at inv
  rcases state with state | state <;> simpa only [state] using inv

end

theorem StateInv.of_sending (state : view.state.sending) (outstanding : Outstanding view 0) : StateInv view := by
  unfold StateInv
  rcases state with state | state <;> simpa only [state] using outstanding

def TcpState.idle (state : TcpState) : Prop :=
  state = .closed ∨ state = .listen ∨ state = .finWait2 ∨ state = .lastAck ∨ state = .timeWait

theorem TcpState.classify (state : TcpState) :
    state.handshaking ∨ state.sending ∨ state = .finWait1 ∨ state.idle := by
  cases state <;> simp [TcpState.handshaking, TcpState.sending, TcpState.idle]

theorem StateInv.of_idle (state : view.state.idle) : StateInv view := by
  unfold StateInv
  rcases state with state | state | state | state | state <;> simp only [state]

theorem StateInv.of_handshaking (state : view.state.handshaking) (una : view.sndUna = view.iss)
    (nxt : view.sndNxt = view.iss + 1) (fresh : view.txBuf = TcpTxBuffer.fresh) (free : view.finPending = false) :
    StateInv view := by
  unfold StateInv
  rcases state with state | state <;> simp only [state] <;> exact ⟨una, nxt, fresh, free⟩

theorem StateInv.of_finWait1 (state : view.state = .finWait1) (outstanding : Outstanding view 1)
    (drained : view.txBuf.unsent.entries = []) (free : view.finPending = false) : StateInv view := by
  unfold StateInv
  simp only [state]
  exact ⟨outstanding, drained, free⟩

theorem newAck_distance {una nxt ack : BitVec 32} {length : Nat} (small : length < 2 ^ 31)
    (next : nxt = una + BitVec.ofNat 32 length) (beyond : gt ack nxt = false)
    (moved : ack ≠ una) (stale : lt ack una = false) : 0 < (ack - una).toNat ∧ (ack - una).toNat ≤ length := by
  have half : (ack - una).toNat < 2 ^ 31 := by
    by_contra large
    have behind := (lt_iff ack una).mpr (by omega)
    rw [behind] at stale
    contradiction
  have position := offset_sub_toNat una ack
  constructor
  · by_contra zero
    have none : (ack - una).toNat = 0 := by omega
    rw [none] at position
    exact moved (by simpa using position.symm)
  · rw [gt_iff_not_le, Bool.not_eq_false', next, ← position, le_offset una _ length (by omega) (by omega)] at beyond
    simpa using beyond

section

variable (outstanding : Outstanding view extra)
include outstanding

theorem Outstanding.afterAck (now : BitVec 64) (ack : BitVec 32)
    (within : (ack - view.sndUna).toNat ≤ totalLength view.txBuf.unacked.entries) :
    Outstanding (view.afterAck now ack) extra ∧
      totalLength (view.afterAck now ack).txBuf.unacked.entries + (ack - view.sndUna).toNat =
        totalLength view.txBuf.unacked.entries := by
  have small := outstanding.small
  have position := offset_sub_toNat view.sndUna ack
  have released := releaseAcked_queue view.txBuf.unacked.entries view.sndUna (ack - view.sndUna).toNat
    view.txBuf.unacked.bytes view.txBuf.unacked.segments outstanding.contiguous (by omega) within
    (by rw [outstanding.unackedBytes])
  rw [position] at released
  obtain ⟨contiguous, total, bytes⟩ := released
  obtain ⟨_, next, unackedBytes, unsentBytes, unsentPositive, capacity, fits⟩ := outstanding
  refine ⟨⟨contiguous, ?_, ?_, unsentBytes, unsentPositive, capacity, ?_⟩, total⟩
  · change view.sndNxt = ack + BitVec.ofNat 32 (totalLength (releaseAcked ack _ _ _).entries + extra)
    nth_rewrite 1 [← position]
    rw [next, offset_add]
    congr 2
    omega
  · change (releaseAcked ack _ _ _).bytes = totalLength (releaseAcked ack _ _ _).entries
    omega
  · change view.txBuf.unsent.bytes + (releaseAcked ack _ _ _).bytes ≤ tcpTxBufferCapacity
    omega

theorem Outstanding.retransmit (head sent : TcpSegment)
    (rest : List TcpSegment) (queue : view.txBuf.unacked.entries = head :: rest) (same : SameSlot head sent) :
    Outstanding { view with
      txBuf := { view.txBuf with unacked := { view.txBuf.unacked with entries := sent :: rest } } } extra := by
  obtain ⟨contiguous, next, unackedBytes, unsentBytes, unsentPositive, capacity, fits⟩ := outstanding
  obtain ⟨sequence, length⟩ := same
  rw [queue] at contiguous next unackedBytes
  refine ⟨?_, ?_, ?_, unsentBytes, unsentPositive, capacity, fits⟩
  · simp only [Contiguous] at contiguous ⊢
    rwa [sequence, length]
  · simpa only [totalLength_cons, length] using next
  · simpa only [totalLength_cons, length] using unackedBytes

theorem Outstanding.append (segment : TcpSegment) (positive : 0 < segment.length)
    (room : view.txBuf.unsent.bytes + view.txBuf.unacked.bytes + segment.length ≤ view.txBuf.capacity) :
    Outstanding { view with
      txBuf := { view.txBuf with unsent := tcpQueueAppendLocked view.txBuf.unsent segment } } extra := by
  obtain ⟨contiguous, next, unackedBytes, unsentBytes, unsentPositive, capacity, fits⟩ := outstanding
  refine ⟨contiguous, next, unackedBytes, ?_, ?_, capacity, ?_⟩
  · simp only [tcpQueueAppendLocked, totalLength_append, totalLength_cons, totalLength_nil, unsentBytes]
    omega
  · exact List.forall_mem_append.mpr ⟨unsentPositive, List.forall_mem_singleton.mpr positive⟩
  · simp only [tcpQueueAppendLocked]
    omega

end

theorem Outstanding.transmit (outstanding : Outstanding view 0) (unsent : TcpQueue) (segment : TcpSegment)
    (sequence : segment.sequence = view.sndNxt) (positive : 0 < segment.length)
    (unsentBytes : unsent.bytes = view.txBuf.unsent.bytes - segment.length)
    (unsentTotal : totalLength unsent.entries + segment.length = totalLength view.txBuf.unsent.entries)
    (unsentPositive : ∀ queued ∈ unsent.entries, 0 < queued.length) (una : after.sndUna = view.sndUna)
    (nxt : after.sndNxt = view.sndNxt + BitVec.ofNat 32 segment.length) (buffer : after.txBuf = { view.txBuf with
      unsent := unsent, unacked := tcpQueueAppendLocked view.txBuf.unacked segment }) : Outstanding after 0 := by
  obtain ⟨contiguous, next, unackedBytes, oldBytes, _, capacity, fits⟩ := outstanding
  have total : totalLength (tcpQueueAppendLocked view.txBuf.unacked segment).entries =
      totalLength view.txBuf.unacked.entries + segment.length := by
    simp [tcpQueueAppendLocked, totalLength_append]
  refine ⟨?_, ?_, ?_, ?_, ?_, ?_, ?_⟩
  · rw [una, buffer]
    refine (contiguous_append _).mpr ⟨contiguous, ?_, positive, trivial⟩
    rw [sequence, next]
    rfl
  · rw [una, nxt, buffer, total, next, offset_add]
    rfl
  · rw [buffer, total, ← unackedBytes]
    rfl
  · rw [buffer]
    change unsent.bytes = totalLength unsent.entries
    omega
  · rw [buffer]
    exact unsentPositive
  · rw [buffer]
    exact capacity
  · rw [buffer]
    change unsent.bytes + (view.txBuf.unacked.bytes + segment.length) ≤ _
    omega

theorem Outstanding.fin (outstanding : Outstanding view 0) (una : after.sndUna = view.sndUna)
    (nxt : after.sndNxt = view.sndNxt + 1) (buffer : after.txBuf = view.txBuf) : Outstanding after 1 := by
  obtain ⟨contiguous, next, unackedBytes, unsentBytes, unsentPositive, capacity, fits⟩ := outstanding
  refine ⟨by rwa [una, buffer], ?_, by rwa [buffer], by rwa [buffer], by rwa [buffer], by rwa [buffer],
    by rwa [buffer]⟩
  rw [una, nxt, buffer, next, Nat.add_zero, ← offset_add]
  rfl

theorem StateInv.fin (inv : StateInv view) (drained : view.txBuf.unsent.entries = [])
    (state : after.state = view.state.afterFin) (una : after.sndUna = view.sndUna)
    (nxt : after.sndNxt = view.sndNxt + 1) (buffer : after.txBuf = view.txBuf) (free : after.finPending = false) :
    StateInv after := by
  by_cases established : view.state = .established
  · refine StateInv.of_finWait1 (by rw [state, TcpState.afterFin, if_pos established]) ?_
      (by rw [buffer]; exact drained) free
    exact (inv.sending (Or.inl established)).fin una nxt buffer
  · exact StateInv.of_idle (by simp [TcpState.idle, state, TcpState.afterFin, established])

theorem stateInv_of_move {strict closer : Prop} {now : BitVec 64} (move : SendMove strict closer now view after)
    (inv : StateInv view) : StateInv after := by
  cases move with
  | handshake state =>
    obtain ⟨una, nxt, _, _⟩ := inv.handshaking state
    exact inv.congr rfl rfl una.symm nxt.symm rfl rfl
  | establish una nxt state unaEq nxtEq =>
    obtain ⟨_, oldNext, fresh, _⟩ := inv.handshaking state
    refine StateInv.of_sending (Or.inl rfl) (Outstanding.fresh _ fresh ?_)
    rw [oldNext, or_self] at unaEq nxtEq
    rw [unaEq, nxtEq]
  | ack ack state beyond moved stale =>
    have outstanding := inv.sending (Or.inl state)
    have small := outstanding.small
    have distance := newAck_distance (by omega) outstanding.next beyond
      moved stale
    exact StateInv.of_sending (Or.inl state) (outstanding.afterAck now ack (by omega)).1
  | finWaitAck ack state below moved stale beyond pending =>
    obtain ⟨outstanding, drained, free⟩ := inv.finWait1 state
    have small := outstanding.small
    have distance := newAck_distance (by omega) outstanding.next beyond
      moved stale
    have notFin : (ack - view.sndUna).toNat ≠ totalLength view.txBuf.unacked.entries + 1 := by
      intro whole
      have position := offset_sub_toNat view.sndUna ack
      rw [whole, ← outstanding.next] at position
      simp [← position, ge_iff_not_lt] at below
    exact StateInv.of_finWait1 state (outstanding.afterAck now ack (by omega)).1 drained free
  | peerFin state => exact StateInv.of_sending (Or.inr rfl) ((inv.sending (Or.inl state)).congr rfl rfl rfl)
  | finish after state ticks pending shut =>
    exact StateInv.of_idle (by rcases state with state | state | state <;> simp [TcpState.idle, state])
  | backoff ticks bounded => exact inv.congr rfl rfl rfl rfl rfl rfl
  | rearm => exact inv.congr rfl rfl rfl rfl rfl rfl
  | retransmit head sent rest queue same =>
    rcases view.state.classify with state | state | state | state
    · rw [(inv.handshaking state).2.2.1] at queue
      simp [TcpTxBuffer.fresh, TcpQueue.empty] at queue
    · exact StateInv.of_sending state ((inv.sending state).retransmit head sent rest queue same)
    · obtain ⟨outstanding, drained, free⟩ := inv.finWait1 state
      exact StateInv.of_finWait1 state (outstanding.retransmit head sent rest queue same) drained free
    · exact StateInv.of_idle state
  | disarm state empty => exact inv.congr rfl rfl rfl rfl rfl rfl
  | append segment state positive fits =>
    exact StateInv.of_sending state ((inv.sending state).append segment positive fits)
  | transmit unsent segment state sequence positive unsentBytes unsentTotal unsentPositive =>
    have outstanding := inv.sending state
    exact StateInv.of_sending state (outstanding.transmit unsent segment sequence positive unsentBytes
      unsentTotal (unsentPositive outstanding.unsentPositive) rfl rfl rfl)
  | fin drained free => exact inv.fin drained rfl rfl rfl rfl free
  | pendingFin state drained pending next =>
    rcases next with ⟨sending, stateEq⟩ | ⟨other, stateEq⟩
    · exact inv.fin drained stateEq rfl rfl rfl rfl
    rcases view.state.classify with kind | kind | kind | kind
    · rw [(inv.handshaking kind).2.2.2] at pending
      contradiction
    · exact absurd kind other
    · rw [(inv.finWait1 kind).2.2] at pending
      contradiction
    · exact StateInv.of_idle (by rw [stateEq]; exact kind)
  | setFinPending closing queued =>
    rcases view.state.classify with state | state | state | state
    · rw [(inv.handshaking state).2.2.1] at queued
      simp [TcpTxBuffer.fresh, TcpQueue.empty] at queued
    · exact StateInv.of_sending state ((inv.sending state).congr rfl rfl rfl)
    · exact absurd (inv.finWait1 state).2.1 queued
    · exact StateInv.of_idle state
  | clearFinPending =>
    rcases view.state.classify with state | state | state | state
    · obtain ⟨una, nxt, fresh, _⟩ := inv.handshaking state
      exact StateInv.of_handshaking state una nxt fresh rfl
    · exact StateInv.of_sending state ((inv.sending state).congr rfl rfl rfl)
    · obtain ⟨outstanding, drained, _⟩ := inv.finWait1 state
      exact StateInv.of_finWait1 state (outstanding.congr rfl rfl rfl) drained rfl
    · exact StateInv.of_idle state
  | setShutWr closing => exact inv.congr rfl rfl rfl rfl rfl rfl

end PhotonOS
