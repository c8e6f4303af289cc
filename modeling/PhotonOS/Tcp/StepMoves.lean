import PhotonOS.Tcp.InputMoves

/-! The timer tick, the drain loop, `tcp_send`, `tcp_close` and `tcp_shutdown` as moves. -/

namespace PhotonOS

open Moves Quiet

def CloseStart.pcb : CloseStart → Option Pcb
  | .freed => none
  | .returned pcb _ => some pcb
  | .draining pcb => some pcb

variable {strict closer : Prop} {now : BitVec 64} {pcb after : Pcb}

theorem backoffRto_moves : Moves strict closer now pcb (backoffRto now pcb) := by
  obtain ⟨ticks, bounded, view⟩ := sendView_backoffRto now pcb
  refine single ?_ id
  rw [view]
  exact SendMove.backoff (sendView pcb) ticks bounded

theorem closeExpired_moves : Moves strict closer now pcb (closeExpired pcb) :=
  finish_moves (Or.inl rfl) (Or.inr rfl) rfl rfl id

variable {deferred dead : Nat}

theorem tickHandshake_moves {flags : BitVec 16} (syn : flagSet flags tcpFlagSyn = true)
    (state : pcb.state.handshaking) (kept : (tickHandshake now deferred flags pcb).pcb = some after) :
    Moves strict closer now pcb after := by
  simp only [tickHandshake] at kept
  split at kept
  · cases kept
    exact closeExpired_moves
  split at kept
  · split at kept
    · cases kept
      exact closeExpired_moves
    split at kept
    · split at kept
      · cases kept
        exact backoffRto_moves
      rename_i built packet sent
      obtain ⟨view, recorded⟩ := sendView_tcpBuildOutputLocked sent
      cases kept
      refine backoffRto_moves.trans (single ?_ (fun _ => recorded))
      simp only [SendView.afterBuild, syn, if_true] at view
      rw [view]
      exact SendMove.handshake (sendView (backoffRto now pcb)) state
    · cases kept
      exact backoffRto_moves
  · cases kept
    exact refl pcb

theorem congestionTimeout_quiet : Quiet pcb (congestionTimeout pcb) := by
  refine of_view (sendView_congestionTimeout pcb) ?_
  simp only [congestionTimeout]
  split <;> split <;> rfl

theorem tickDataRto_moves (state : pcb.state.sending) :
    Moves strict closer now pcb (tickDataRto now deferred pcb).1 := by
  unfold tickDataRto
  split
  next empty => exact single (SendMove.disarm (sendView pcb) state empty) id
  have backed : Moves strict closer now pcb (backoffRto now (congestionTimeout pcb)) :=
    quiet_trans congestionTimeout_quiet backoffRto_moves
  split
  · exact backed.trans (retransmitHead_moves _)
  · exact backed

theorem tickPersist_quiet : Quiet pcb (tickPersist now deferred pcb).1 := by
  unfold tickPersist
  split
  · split
    · split <;> exact of_view rfl rfl
    · exact of_view rfl rfl
  · exact refl pcb

theorem tickData_moves (state : pcb.state.sending)
    (kept : (tickData now deferred pcb).pcb = some after) : Moves strict closer now pcb after := by
  simp only [tickData] at kept
  split at kept
  · cases kept
    exact finish_moves (Or.inl rfl) (Or.inr rfl) rfl rfl id
  cases kept
  refine trans_quiet ?_ tickPersist_quiet
  split
  · exact tickDataRto_moves state
  · exact refl pcb

theorem freeIfOrphan_some (kept : freeIfOrphan dead pcb = some after) :
    after = pcb := by
  unfold freeIfOrphan at kept
  split at kept
  · contradiction
  · exact (Option.some.inj kept).symm

theorem tickFin_moves
    (kept : (tickFin now deferred dead pcb).pcb = some after) : Moves strict closer now pcb after := by
  simp only [tickFin] at kept
  split at kept
  · split at kept
    · rw [freeIfOrphan_some kept]
      exact closeExpired_moves
    split at kept
    · split at kept
      · cases kept
        exact backoffRto_moves
      next head rest queue =>
        cases kept
        refine backoffRto_moves.trans (single ?_ id)
        exact SendMove.retransmit (sendView (backoffRto now pcb)) head _ rest queue ⟨rfl, rfl⟩
    · cases kept
      exact backoffRto_moves
  · cases kept
    exact refl pcb

theorem tcpTimerTickPcb_moves
    (kept : (tcpTimerTickPcb now deferred dead pcb).pcb = some after) : Moves strict closer now pcb after := by
  unfold tcpTimerTickPcb at kept
  split at kept
  next state => exact tickHandshake_moves (by decide) (Or.inl state) kept
  next state => exact tickHandshake_moves (by decide) (Or.inr state) kept
  next state => exact tickData_moves (Or.inl state) kept
  next state => exact tickData_moves (Or.inr state) kept
  · exact tickFin_moves kept
  · exact tickFin_moves kept
  · split at kept
    · rw [freeIfOrphan_some kept]
      exact closeExpired_moves
    · cases kept
      exact refl pcb
  all_goals
    cases kept
    exact refl pcb

theorem drainFin_moves (drained : pcb.txBuf.unsent.entries = []) :
    Moves strict closer now pcb (drainFin now pcb).pcb := by
  simp only [drainFin]
  split
  next pending =>
    split
    · exact single (SendMove.clearFinPending (sendView pcb)) id
    rename_i built packet sent
    obtain ⟨view, recorded⟩ := sendView_tcpBuildOutputLocked sent
    have state : built.state = pcb.state := congrArg SendView.state view
    refine single ?_ (fun _ => recorded)
    have result : ∀ next, sendView (stopDraining (armDataRto now { built with state := next })) = { sendView pcb with
          sndNxt := (sendView pcb).sndNxt + 1, state := next, finPending := false }.armed now
          tcpDataRtoTicksDefault := by
      intro next
      have base : sendView { built with state := next } = { sendView built with state := next } := rfl
      rw [sendView_stopDraining, sendView_armDataRto, base, view]
      rfl
    rw [result]
    refine SendMove.pendingFin (sendView pcb) _ drained pending ?_
    rw [state]
    have same : (sendView pcb).state = pcb.state := rfl
    rw [same]
    cases pcb.state <;> simp [TcpState.sending, TcpState.afterFin]
  · exact of_quiet (of_view rfl rfl)

theorem transmitSegment_moves {unsent : TcpQueue} {segment : TcpSegment}
    (state : pcb.state.sending) (positive : 0 < segment.length)
    (unsentBytes : unsent.bytes = pcb.txBuf.unsent.bytes - segment.length)
    (unsentTotal : totalLength unsent.entries + segment.length = totalLength pcb.txBuf.unsent.entries)
    (unsentPositive : (∀ queued ∈ pcb.txBuf.unsent.entries, 0 < queued.length) →
      ∀ queued ∈ unsent.entries, 0 < queued.length) :
    Moves strict closer now pcb (transmitSegment now pcb unsent segment).pcb := by
  refine single ?_ ?_
  · have move := @SendMove.transmit strict closer now (sendView pcb) unsent
      { segment with sequence := pcb.sndNxt, sentAt := now } state rfl positive unsentBytes unsentTotal
      unsentPositive
    simp only [transmitSegment, sendView_advertiseWindow]
    split
    next empty =>
      have queue : (sendView pcb).txBuf.unacked.entries = [] := empty
      rw [if_pos queue, if_pos queue, if_pos queue] at move
      exact move
    next pending =>
      have queue : (sendView pcb).txBuf.unacked.entries ≠ [] := pending
      rw [if_neg queue, if_neg queue, if_neg queue] at move
      exact move
  · intro _
    simp only [transmitSegment]
    split <;> rfl

theorem drainIteration_moves {allocated : Bool}
    (positive : pcb.state.sending → ∀ segment ∈ pcb.txBuf.unsent.entries, 0 < segment.length) :
    Moves strict closer now pcb (drainIteration now allocated pcb).pcb := by
  rcases drainIteration_kinds with
    ⟨drained, fin⟩ | ⟨after, kinds, stops⟩ | ⟨unsent, segment, cuts, sends⟩
  · rw [fin]
    exact drainFin_moves drained
  · rw [stops]
    rcases kinds with rfl | rfl
    · exact of_quiet (of_view rfl rfl)
    · refine of_quiet (of_view (sendView_armPersist now) ?_)
      unfold armPersist
      split <;> rfl
  · rw [sends]
    exact transmitSegment_moves cuts.state (cuts.positive (positive cuts.state)).1
      cuts.unsentBytes cuts.total fun all => (cuts.positive all).2

theorem sendRefused_sending (admitted : sendRefused pcb = false) : pcb.state.sending := by
  simp only [sendRefused, Bool.or_eq_false_iff, Bool.and_eq_false_iff, bne_eq_false_iff_eq] at admitted
  exact admitted.1.1

theorem sendAppend_moves {chunk : List UInt8} (admitted : sendRefused pcb = false)
    (positive : 0 < chunk.length) (room : ¬tcpTxBufferAvailableLocked pcb < chunk.length) :
    Moves strict closer now pcb (sendAppend pcb chunk) := by
  refine single ?_ id
  refine SendMove.append (sendView pcb) _ (sendRefused_sending admitted) positive ?_
  change pcb.txBuf.unsent.bytes + pcb.txBuf.unacked.bytes + chunk.length ≤ pcb.txBuf.capacity
  rw [tcpTxBufferAvailableLocked, tcpTxBufferUsedLocked] at room
  by_cases full : pcb.txBuf.unsent.bytes + pcb.txBuf.unacked.bytes ≥ pcb.txBuf.capacity
  · rw [if_pos full] at room
    omega
  · rw [if_neg full] at room
    omega

theorem sendFin_moves (drained : pcb.txBuf.unsent.entries = [])
    (free : pcb.flags.finPending = false) : Moves strict closer now pcb (sendFin now pcb pcb.state.afterFin).1 := by
  unfold sendFin
  split
  · exact refl pcb
  rename_i built packet sent
  obtain ⟨view, recorded⟩ := sendView_tcpBuildOutputLocked sent
  refine single ?_ (fun _ => recorded)
  have base : sendView { built with state := pcb.state.afterFin } =
      { sendView built with state := pcb.state.afterFin } := rfl
  rw [sendView_armDataRto, base, view]
  exact SendMove.fin (sendView pcb) drained free

theorem setFinPending_moves (closing : closer) (queued : pcb.txBuf.unsent.entries ≠ []) :
    Moves strict closer now pcb { pcb with flags := { pcb.flags with finPending := true } } :=
  single (SendMove.setFinPending (sendView pcb) closing queued) id

theorem closeAfterDrain_moves (closing : closer) {expected : TcpState} (free : pcb.flags.finPending = false) :
    Moves strict closer now pcb (closeAfterDrain now expected pcb).1 := by
  unfold closeAfterDrain
  split
  · exact refl pcb
  split
  next queued => exact setFinPending_moves closing queued
  · have state : expected = pcb.state := by tauto
    rw [state]
    exact sendFin_moves (by tauto) free

theorem shutdownAfterDrain_moves (closing : closer) : Moves strict closer now pcb (shutdownAfterDrain now pcb).1 := by
  unfold shutdownAfterDrain
  split
  next queued => exact setFinPending_moves closing queued
  · split
    · exact refl pcb
    next free => exact sendFin_moves (by tauto) (by simpa using free)

theorem setShutWr_moves (closing : closer) : Moves strict closer now pcb (setShutWr pcb) :=
  single (SendMove.setShutWr (sendView pcb) closing) id

theorem shutdownRead_quiet : Quiet pcb (shutdownRead pcb) := by
  refine of_view (sendView_shutdownRead pcb) ?_
  unfold shutdownRead
  split <;> rfl

theorem closeWriting_moves (closing : closer)
    (free : pcb.flags.shutWr = false → pcb.flags.finPending = false)
    (kept : (closeWriting now pcb).pcb = some after) : Moves strict closer now pcb after := by
  unfold closeWriting at kept
  split at kept
  · cases kept
    exact refl pcb
  rename_i writable
  split at kept
  · cases kept
    exact setShutWr_moves closing
  · cases kept
    exact (setShutWr_moves closing).trans
      (closeAfterDrain_moves closing (free (by simpa using writable)))

theorem detachSocket_quiet : Quiet pcb (detachSocket pcb) := of_view rfl rfl

theorem tcpCloseStart_moves (closing : closer)
    (free : pcb.flags.shutWr = false → pcb.flags.finPending = false)
    (kept : (tcpCloseStart now pcb).pcb = some after) : Moves strict closer now pcb after := by
  unfold tcpCloseStart at kept
  split at kept
  · contradiction
  · split at kept
    · exact quiet_trans detachSocket_quiet (closeWriting_moves closing free kept)
    · cases kept
      exact of_quiet detachSocket_quiet

theorem shutdownWrite_moves (closing : closer) (kept : (shutdownWrite now pcb).pcb = some after) :
    Moves strict closer now pcb after := by
  unfold shutdownWrite at kept
  split at kept
  · cases kept
    exact refl pcb
  split at kept
  · cases kept
    exact setShutWr_moves closing
  split at kept
  · cases kept
    exact setShutWr_moves closing
  · cases kept
    exact (setShutWr_moves closing).trans (shutdownAfterDrain_moves closing)

theorem tcpShutdownStart_moves (closing : closer) {how : Int}
    (kept : (tcpShutdownStart now how pcb).pcb = some after) : Moves strict closer now pcb after := by
  have reading : Quiet pcb (if how = 0 ∨ how = 2 then shutdownRead pcb else pcb) := by
    split
    · exact shutdownRead_quiet
    · exact refl pcb
  unfold tcpShutdownStart at kept
  split at kept
  · cases kept
    exact refl pcb
  split at kept
  · cases kept
    exact refl pcb
  simp only at kept
  split at kept
  · exact quiet_trans reading (shutdownWrite_moves closing kept)
  · cases kept
    exact of_quiet reading

theorem tcpReceiveRead_quiet (pcb : Pcb) (length : Nat) : Quiet pcb (tcpReceiveRead pcb length).pcb := by
  unfold tcpReceiveRead
  split
  · exact refl pcb
  simp only
  split
  · split
    · exact of_view rfl rfl
    next built packet sent =>
      obtain ⟨view, recorded⟩ := sendView_tcpBuildOutputLocked sent
      exact ⟨view, fun _ => recorded⟩
  · exact of_view rfl rfl

theorem acceptChild_quiet : Quiet pcb (acceptChild pcb) := by
  refine of_view (sendView_acceptChild pcb) ?_
  unfold acceptChild
  split <;> rfl

theorem tcpAcceptEnqueue_quiet {listener : Pcb}
    (kept : tcpAcceptEnqueue listener pcb = some after) : Quiet pcb after := by
  unfold tcpAcceptEnqueue at kept
  split at kept
  · cases kept
    exact of_view rfl rfl
  · contradiction

end PhotonOS
