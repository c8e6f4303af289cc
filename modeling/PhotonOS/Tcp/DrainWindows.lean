import PhotonOS.Tcp.UnsentAck

/-!
What `tcp_drain_unsent` sends, pass by pass. Between two passes any other step of
the connection may come, so the windows are those of the PCB that a pass meets.
-/

namespace PhotonOS

/-- The packet of a pass: a new data segment inside both windows, or the FIN behind all data. -/
inductive SendsWithin (before after : Pcb) (packet : List UInt8) : Prop where
  | data (segment : TcpSegment) (positive : 1 ≤ segment.length) (bounded : segment.length ≤ tcpDefaultMss)
      (starts : segment.sequence = before.sndNxt)
      (queued : after.txBuf.unacked.entries = before.txBuf.unacked.entries ++ [segment])
      (next : after.sndNxt = before.sndNxt + BitVec.ofNat 32 segment.length)
      (within : (after.sndNxt - after.sndUna).toNat ≤ min after.sndWnd.toNat after.cwnd.toNat)
      (bytes : packet = segmentPacket before before.sndNxt (tcpFlagAck ||| tcpFlagPsh) segment.payload)
  | fin (drained : before.txBuf.unsent.entries = [])
      (bytes : packet = segmentPacket before before.sndNxt (tcpFlagFin ||| tcpFlagAck) [])

def Frame.Drains : Frame → Prop
  | .drainEnter _ | .drainLoop _ => True
  | _ => False

section

variable {now : BitVec 64} {allocated : Bool} {pcb : Pcb}

theorem remainingWindow_within {length : Nat} (opened : remainingWindow pcb ≠ 0)
    (fits : length ≤ (remainingWindow pcb).toNat) :
    (pcb.sndNxt + BitVec.ofNat 32 length - pcb.sndUna).toNat ≤ min pcb.sndWnd.toNat pcb.cwnd.toNat := by
  have regroup : pcb.sndNxt + BitVec.ofNat 32 length - pcb.sndUna =
      pcb.sndNxt - pcb.sndUna + BitVec.ofNat 32 length := by
    rw [sub_eq_add_neg, add_right_comm, ← sub_eq_add_neg]
  have wide : (pcb.sndWnd.setWidth 32).toNat = pcb.sndWnd.toNat := by
    rw [BitVec.toNat_setWidth]
    omega
  have smaller : (if pcb.sndWnd.setWidth 32 < pcb.cwnd then pcb.sndWnd.setWidth 32 else pcb.cwnd).toNat =
      min pcb.sndWnd.toNat pcb.cwnd.toNat := by
    split
    next below =>
      rw [BitVec.lt_def, wide] at below
      omega
    next above =>
      rw [BitVec.lt_def, wide] at above
      omega
  simp only [remainingWindow] at opened fits
  generalize (if pcb.sndWnd.setWidth 32 < pcb.cwnd then pcb.sndWnd.setWidth 32 else pcb.cwnd) = effective
    at opened fits smaller
  rw [regroup, ← smaller]
  split at opened
  next free =>
    rw [if_pos free, BitVec.toNat_sub_of_le (BitVec.le_of_lt free)] at fits
    rw [gt_iff_lt, BitVec.lt_def] at free
    rw [BitVec.toNat_add, BitVec.toNat_ofNat]
    omega
  · exact absurd rfl opened

variable {packet : List UInt8}

theorem transmitSegment_sends {unsent : TcpQueue} {segment : TcpSegment} (positive : 1 ≤ segment.length)
    (bounded : segment.length ≤ tcpDefaultMss) (opened : remainingWindow pcb ≠ 0)
    (fits : segment.length ≤ (remainingWindow pcb).toNat)
    (sent : (transmitSegment now pcb unsent segment).packet = some packet) :
    SendsWithin pcb (transmitSegment now pcb unsent segment).pcb packet := by
  have within := remainingWindow_within opened fits
  simp only [transmitSegment] at sent ⊢
  rw [← Option.some.inj sent]
  split
  · exact .data { segment with sequence := pcb.sndNxt, sentAt := now } positive bounded rfl rfl rfl within rfl
  · exact .data { segment with sequence := pcb.sndNxt, sentAt := now } positive bounded rfl rfl rfl within rfl

variable (nonempty : pcb.state.sending → ∀ segment ∈ pcb.txBuf.unsent.entries, 0 < segment.length)
include nonempty

theorem drainIteration_sends (sent : (drainIteration now allocated pcb).packet = some packet) :
    SendsWithin pcb (drainIteration now allocated pcb).pcb packet := by
  rcases drainIteration_kinds with
    ⟨drained, fin⟩ | ⟨_, _, stops⟩ | ⟨unsent, segment, cuts, sends⟩
  · rw [fin] at sent ⊢
    exact .fin drained (drainFin_packet sent)
  · rw [stops] at sent
    cases sent
  · rw [sends] at sent ⊢
    exact transmitSegment_sends (cuts.positive (nonempty cuts.state)).1 cuts.bounded cuts.opened cuts.fits sent

theorem runFrame_sends {listener : Pcb} {frame : Frame} (drains : frame.Drains)
    (sent : packet ∈ (runFrame now allocated listener pcb frame).output.packets) :
    ∃ after, (runFrame now allocated listener pcb frame).pcb = some after ∧ SendsWithin pcb after packet := by
  cases frame with
  | drainEnter next =>
    simp only [runFrame, drainEnter] at sent ⊢
    by_cases busy : pcb.flags.draining = true
    · rw [if_pos busy] at sent
      cases sent
    rw [if_neg busy] at sent ⊢
    refine ⟨_, rfl, ?_⟩
    -- the entry differs from the PCB in its DRAINING flag only
    have entered := @drainIteration_sends now allocated { pcb with flags := { pcb.flags with draining := true } }
      packet nonempty (Option.mem_toList.mp sent)
    cases entered with
    | data segment positive bounded starts queued next within bytes =>
      exact .data segment positive bounded starts queued next within bytes
    | fin drained bytes => exact .fin drained bytes
  | drainLoop next => exact ⟨_, rfl, drainIteration_sends nonempty (Option.mem_toList.mp sent)⟩
  | _ => cases drains

end

/-! The other places that send a FIN: `tcp_close` and `tcp_shutdown_locked`, before and after their drain. -/

section

variable {now : BitVec 64} {pcb : Pcb} {frames : List Frame}

theorem closeAfterDrain_drained {expected : TcpState} (sent : (closeAfterDrain now expected pcb).2 ≠ []) :
    pcb.txBuf.unsent.entries = [] := by
  by_contra unsent
  rw [closeAfterDrain, if_pos unsent] at sent
  split at sent <;> exact sent rfl

theorem shutdownAfterDrain_drained (sent : (shutdownAfterDrain now pcb).2 ≠ []) : pcb.txBuf.unsent.entries = [] := by
  by_contra unsent
  rw [shutdownAfterDrain, if_pos unsent] at sent
  exact sent rfl

/-- A first critical section that sends something has found nothing unsent. -/
def CloseStart.Drained (pcb : Pcb) : CloseStart → Prop
  | .returned _ packets => packets ≠ [] → pcb.txBuf.unsent.entries = []
  | .freed | .draining _ => True

theorem tcpCloseStart_drained : (tcpCloseStart now pcb).Drained pcb := by
  unfold tcpCloseStart
  split
  · trivial
  split
  · unfold closeWriting
    split
    · exact fun sent => absurd rfl sent
    · split
      · trivial
      · exact @closeAfterDrain_drained now (setShutWr (detachSocket pcb)) _
  · exact fun sent => absurd rfl sent

theorem shutdownWrite_drained : (shutdownWrite now pcb).Drained pcb := by
  unfold shutdownWrite
  split
  · exact fun sent => absurd rfl sent
  split
  · exact fun sent => absurd rfl sent
  · split
    · trivial
    · exact @shutdownAfterDrain_drained now (setShutWr pcb)

theorem tcpShutdownStart_drained {how : Int} : (tcpShutdownStart now how pcb).Drained pcb := by
  have read : (if how = 0 ∨ how = 2 then shutdownRead pcb else pcb).txBuf = pcb.txBuf := by
    split
    · unfold shutdownRead
      split <;> rfl
    · rfl
  unfold tcpShutdownStart
  split
  · exact fun sent => absurd rfl sent
  split
  · exact fun sent => absurd rfl sent
  dsimp only
  split
  · have written := @shutdownWrite_drained now (if how = 0 ∨ how = 2 then shutdownRead pcb else pcb)
    unfold CloseStart.Drained at written ⊢
    rwa [read] at written
  · exact fun sent => absurd rfl sent

theorem startClose_drained {next : DrainReturn} {start : CloseStart}
    (drained : start.Drained pcb) (sent : (startClose frames next start).output.packets ≠ []) :
    pcb.txBuf.unsent.entries = [] := by
  cases start with
  | returned after packets => exact drained sent
  | _ => exact absurd rfl sent

def Action.Closes (frames : List Frame) : Action → Prop
  | .close | .shutdown _ => True
  | .resume index _ _ => ∃ frame, frames[index]? = some frame ∧ frame.finishing = true
  | _ => False

theorem stepPcb_drained {action : Action} (closes : action.Closes frames)
    (sent : (stepPcb now pcb frames action).output.packets ≠ []) : pcb.txBuf.unsent.entries = [] := by
  cases action with
  | close => exact startClose_drained tcpCloseStart_drained sent
  | shutdown how => exact startClose_drained tcpShutdownStart_drained sent
  | resume index allocated listener =>
    obtain ⟨frame, found, finishing⟩ := closes
    simp only [stepPcb, found] at sent
    cases frame with
    | closeResume expected => exact closeAfterDrain_drained sent
    | shutdownResume => exact shutdownAfterDrain_drained sent
    | _ => cases finishing
  | _ => cases closes

end

/-- In every run, whatever a thread inside `tcp_drain_unsent` sends in its next critical section is a data
segment of 1 to 1460 bytes that starts at `snd_nxt` and stays inside both windows, or a FIN sent with
nothing unsent; and `tcp_close` and `tcp_shutdown` send their FIN only then. -/
theorem drain_respects_windows (conn : Conn) (pcb : Pcb) (reachable : Reachable conn) (left : conn.pcb = some pcb)
    (now : BitVec 64) : (∀ index allocated listener frame, conn.frames[index]? = some frame → frame.Drains →
      let step := stepConn conn { now := now, action := .resume index allocated listener }
      ∀ packet ∈ step.output.packets, ∃ after, step.conn.pcb = some after ∧ SendsWithin pcb after packet) ∧
    ∀ action : Action, action.Closes conn.frames →
      (stepConn conn { now := now, action := action }).output.packets ≠ [] → pcb.txBuf.unsent.entries = [] := by
  have inv := ((reachable_inv conn reachable).pcb pcb left).state
  simp only [stepConn, left]
  constructor
  · intro index allocated listener frame resumed drains packet sent
    simp only [stepPcb, resumed] at sent ⊢
    exact runFrame_sends (fun sending => (inv.sending sending).unsentPositive) drains sent
  · intro action closes sent
    exact stepPcb_drained closes sent

def sampleDrain : Conn := sampleConn (sampleSend.take 5)

theorem drain_respects_windows_byte :
    let step := stepConn sampleDrain { now := 1, action := .resume 0 true (tcpAlloc false) }
    step.output.packets.length = 1 ∧ ∃ pcb, sampleDrain.pcb = some pcb ∧
      ∀ packet ∈ step.output.packets, ∃ after, step.conn.pcb = some after ∧ SendsWithin pcb after packet := by
  have present : sampleDrain.pcb.isSome = true := by decide +kernel
  obtain ⟨pcb, left⟩ := Option.isSome_iff_exists.mp present
  exact ⟨by decide +kernel, pcb, left, (drain_respects_windows sampleDrain pcb sampleConn_reachable left 1).1
    0 true (tcpAlloc false) (.drainEnter .caller) (by decide +kernel) trivial⟩

end PhotonOS
