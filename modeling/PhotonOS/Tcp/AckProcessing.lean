import PhotonOS.Tcp.ConnInv

/-!
Acknowledgement processing by a whole call of `tcp_input`, its closing drain
included.
-/

namespace PhotonOS

open Serial

/-- The acknowledgement `ack` taken: everything below it is released and nothing else. -/
structure AckApplied (before after : Pcb) (ack : BitVec 32) : Prop where
  advanced : after.sndUna = ack
  released : ∀ item ∈ numberedBytes after.txBuf.unacked.entries, le ack item.1 = true
  kept : ∀ item ∈ numberedBytes before.txBuf.unacked.entries, le ack item.1 = true →
    item ∈ numberedBytes after.txBuf.unacked.entries

theorem contiguous_above {start : BitVec 32} {entries : List TcpSegment}
    (contiguous : Contiguous start entries) (small : totalLength entries ≤ 8192)
    (item : BitVec 32 × UInt8) (queued : item ∈ numberedBytes entries) : le start item.1 = true := by
  obtain ⟨position, bound, equal⟩ := numberedBytes_position start entries contiguous item queued
  have base := le_offset start 0 position (by omega) (by omega)
  rw [show BitVec.ofNat 32 0 = 0#32 from rfl, BitVec.add_zero] at base
  rw [equal]
  exact base.mpr (Nat.zero_le _)

structure AckHeld (before : Pcb) (ack : BitVec 32) (pcb : Pcb) : Prop where
  advanced : pcb.sndUna = ack
  contiguous : Contiguous ack pcb.txBuf.unacked.entries
  small : totalLength pcb.txBuf.unacked.entries ≤ 8192
  kept : ∀ item ∈ numberedBytes before.txBuf.unacked.entries, le ack item.1 = true →
    item ∈ numberedBytes pcb.txBuf.unacked.entries

variable {before pcb other : Pcb} {ack : BitVec 32}

theorem AckHeld.applied (held : AckHeld before ack pcb) : AckApplied before pcb ack :=
  ⟨held.advanced, contiguous_above held.contiguous held.small, held.kept⟩

theorem AckHeld.congr (held : AckHeld before ack pcb) (una : other.sndUna = pcb.sndUna)
    (buffer : other.txBuf = pcb.txBuf) : AckHeld before ack other := by
  obtain ⟨advanced, contiguous, small, kept⟩ := held
  exact ⟨una.trans advanced, by rwa [buffer], by rwa [buffer], by rwa [buffer]⟩

variable (now : BitVec 64) (header : TcpHeader) (payload : List UInt8)

theorem transmitSegment_frame (pcb : Pcb) (unsent : TcpQueue) (segment : TcpSegment) :
    (transmitSegment now pcb unsent segment).pcb.sndUna = pcb.sndUna ∧
      (transmitSegment now pcb unsent segment).pcb.state = pcb.state ∧
      (transmitSegment now pcb unsent segment).pcb.txBuf = { pcb.txBuf with
        unsent := unsent
        unacked := tcpQueueAppendLocked pcb.txBuf.unacked
          { segment with sequence := pcb.sndNxt, sentAt := now } } ∧
      (transmitSegment now pcb unsent segment).again = true := by
  simp only [transmitSegment]
  split <;> exact ⟨rfl, rfl, rfl, trivial⟩

theorem drainIteration_stateInv (allocated : Bool) (inv : StateInv (sendView pcb)) :
    StateInv (sendView (drainIteration now allocated pcb).pcb) :=
  stateInv_of_moves (@drainIteration_moves False True now pcb allocated
    (fun state => (inv.sending state).unsentPositive)) inv

theorem drainIteration_held (allocated : Bool) (inv : StateInv (sendView pcb)) (held : AckHeld before ack pcb) :
    AckHeld before ack (drainIteration now allocated pcb).pcb := by
  have next := drainIteration_stateInv now allocated inv
  rcases drainIteration_cases now allocated pcb with stops | ⟨unsent, segment, sends, result⟩
  · exact held.congr stops.una stops.buffer
  rw [result] at next ⊢
  obtain ⟨una, state, buffer, _⟩ := transmitSegment_frame now pcb unsent segment
  have outstanding := next.sending (show (transmitSegment now pcb unsent segment).pcb.state.sending by
    rw [state]; exact sends.state)
  refine ⟨una.trans held.advanced, ?_, outstanding.small, ?_⟩
  · rw [← una.trans held.advanced]
    exact outstanding.contiguous
  · intro item queued above
    rw [buffer]
    rw [tcpQueueAppendLocked, numberedBytes, List.flatMap_append, List.mem_append]
    exact Or.inl (held.kept item queued above)

variable {allocated : Nat → Bool} {fuel : Nat}

theorem drainPasses_held (pcb : Pcb) (inv : StateInv (sendView pcb)) (held : AckHeld before ack pcb) :
    AckHeld before ack (drainPasses now allocated fuel pcb).1 := by
  induction fuel generalizing pcb with
  | zero => exact held
  | succ fuel ih =>
    have step := drainIteration_held now (allocated fuel) inv held
    simp only [drainPasses]
    split
    · exact ih _ (drainIteration_stateInv now (allocated fuel) inv) step
    · exact step

theorem tcpDrainUnsent_held (pcb : Pcb)
    (inv : StateInv (sendView pcb)) (held : AckHeld before ack pcb) :
    AckHeld before ack (tcpDrainUnsent now allocated pcb).1 := by
  unfold tcpDrainUnsent
  split
  · exact held
  · exact drainPasses_held now _ inv (held.congr rfl rfl)

theorem drainPasses_una (pcb : Pcb) : (drainPasses now allocated fuel pcb).1.sndUna = pcb.sndUna := by
  induction fuel generalizing pcb with
  | zero => rfl
  | succ fuel ih =>
    have step : (drainIteration now (allocated fuel) pcb).pcb.sndUna = pcb.sndUna := by
      rcases drainIteration_cases now (allocated fuel) pcb with stops | ⟨unsent, segment, _, result⟩
      · exact stops.una
      · rw [result]
        exact (transmitSegment_frame now pcb unsent segment).1
    simp only [drainPasses]
    split
    · exact (ih _).trans step
    · exact step

theorem tcpDrainUnsent_una : (tcpDrainUnsent now allocated pcb).1.sndUna = pcb.sndUna := by
  unfold tcpDrainUnsent
  split
  · rfl
  · exact drainPasses_una now _

theorem windowAck (una nxt ack : BitVec 32) (length : Nat) (small : length < 2 ^ 31)
    (next : nxt = una + BitVec.ofNat 32 length) (above : 0 < (ack - una).toNat)
    (within : (ack - una).toNat ≤ (nxt - una).toNat) :
    gt ack nxt = false ∧ ack ≠ una ∧ lt ack una = false ∧ gt ack una = true ∧ (ack - una).toNat ≤ length := by
  have window : (nxt - una).toNat = length := by
    rw [next, add_sub_cancel_left, BitVec.toNat_ofNat]
    omega
  rw [window] at within
  have position := offset_sub_toNat una ack
  have moved : ack ≠ una := by
    rintro rfl
    simp at above
  have stale : lt ack una = false := by
    rw [← Bool.not_eq_true, lt_iff]
    omega
  refine ⟨?_, moved, stale, ?_, within⟩
  · rw [gt_iff_not_le, Bool.not_eq_false', next, ← position, le_offset una _ length (by omega) (by omega)]
    simpa using within
  · rw [gt_iff_not_le, Bool.not_eq_true', ← Bool.not_eq_true, le_iff]
    rintro (same | far)
    · exact moved same
    · omega

theorem tcpTxAck_held (pcb : Pcb) (ack : BitVec 32) (exit : Bool) (extra : Nat)
    (outstanding : Outstanding (sendView pcb) extra) (fin : extra ≤ 1) (above : 0 < (ack - pcb.sndUna).toNat)
    (within : (ack - pcb.sndUna).toNat ≤ (pcb.sndNxt - pcb.sndUna).toNat) :
    AckHeld pcb ack (tcpTxAckReceivedLockedExt now pcb ack exit) := by
  have small : totalLength pcb.txBuf.unacked.entries ≤ 8192 := outstanding.small
  have contiguous : Contiguous pcb.sndUna pcb.txBuf.unacked.entries := outstanding.contiguous
  obtain ⟨beyond, moved, stale, _, bound⟩ := windowAck pcb.sndUna pcb.sndNxt ack
    (totalLength pcb.txBuf.unacked.entries + extra) (by omega) outstanding.next above within
  rcases tcpTxAck_cases now pcb ack exit with ⟨_, refused⟩ | ⟨_, _, _, view, _⟩
  · exact absurd ⟨beyond, moved, stale⟩ refused
  have una : (tcpTxAckReceivedLockedExt now pcb ack exit).sndUna = ack := congrArg SendView.sndUna view
  have queue : (tcpTxAckReceivedLockedExt now pcb ack exit).txBuf.unacked.entries =
      (releaseAcked ack pcb.txBuf.unacked.entries pcb.txBuf.unacked.bytes
        pcb.txBuf.unacked.segments).entries := congrArg (fun next => next.txBuf.unacked.entries) view
  have position := offset_sub_toNat pcb.sndUna ack
  by_cases data : (ack - pcb.sndUna).toNat ≤ totalLength pcb.txBuf.unacked.entries
  · obtain ⟨left, total⟩ := outstanding.afterAck now ack data
    refine ⟨una, by rw [queue]; exact left.contiguous, by rw [queue]; exact left.small, ?_⟩
    intro item queued above
    rw [queue]
    have kept := releaseAcked_keeps pcb.txBuf.unacked.entries pcb.sndUna (ack - pcb.sndUna).toNat
      pcb.txBuf.unacked.bytes pcb.txBuf.unacked.segments contiguous (by omega) data item queued
    rw [position] at kept
    exact kept above
  · have none := releaseAcked_all pcb.txBuf.unacked.entries pcb.sndUna (ack - pcb.sndUna).toNat
      pcb.txBuf.unacked.bytes pcb.txBuf.unacked.segments contiguous (by omega) (by omega)
    rw [position, ← queue] at none
    refine ⟨una, by rw [none]; trivial, by rw [none]; exact Nat.zero_le _, ?_⟩
    intro item queued above
    obtain ⟨place, inside, equal⟩ := numberedBytes_position _ _ contiguous item queued
    rw [equal, ← position, le_offset pcb.sndUna _ place (by omega) (by omega)] at above
    omega

theorem AckHeld.of_quiet (held : AckHeld before ack pcb) (quiet : Quiet pcb other) : AckHeld before ack other :=
  held.congr (congrArg SendView.sndUna quiet.view) (congrArg SendView.txBuf quiet.view)

theorem AckHeld.of_before (held : AckHeld other ack pcb) (buffer : other.txBuf = before.txBuf) :
    AckHeld before ack pcb := by
  obtain ⟨advanced, contiguous, small, kept⟩ := held
  exact ⟨advanced, contiguous, small, by rwa [buffer] at kept⟩

theorem newAck_held (work : InputWork) (ack : BitVec 32) (outstanding : Outstanding (sendView work.pcb) 0)
    (above : 0 < (ack - work.pcb.sndUna).toNat)
    (within : (ack - work.pcb.sndUna).toNat ≤ (work.pcb.sndNxt - work.pcb.sndUna).toNat) :
    AckHeld work.pcb ack (newAck now work ack).pcb := by
  simp only [newAck]
  split
  · refine AckHeld.of_before (tcpTxAck_held now _ ack true 0 ?_ (by omega) above within) rfl
    exact outstanding.congr rfl rfl rfl
  · refine AckHeld.of_before (tcpTxAck_held now _ ack false 0 ?_ (by omega) above within) rfl
    exact outstanding.congr rfl rfl rfl

theorem inputEstablished_held (pcb : Pcb) (outstanding : Outstanding (sendView pcb) 0)
    (acked : flagSet header.flags tcpFlagAck = true) (above : 0 < (header.ackNum - pcb.sndUna).toNat)
    (within : (header.ackNum - pcb.sndUna).toNat ≤ (pcb.sndNxt - pcb.sndUna).toNat) :
    AckHeld pcb header.ackNum (inputEstablished now header payload (.start pcb)).pcb := by
  have small : totalLength pcb.txBuf.unacked.entries ≤ 8192 := outstanding.small
  obtain ⟨beyond, _, _, newer, _⟩ := windowAck pcb.sndUna pcb.sndNxt header.ackNum
    (totalLength pcb.txBuf.unacked.entries + 0) (by omega) outstanding.next above within
  have first : AckHeld pcb header.ackNum (establishedAck now header payload (.start pcb)).pcb := by
    unfold establishedAck
    rw [if_neg (by simp [InputWork.start, beyond]), if_pos (by simpa [InputWork.start] using newer)]
    exact newAck_held now (.start pcb) header.ackNum outstanding above within
  simp only [inputEstablished, if_pos acked]
  generalize windowed : establishedWindow _ header (establishedAck now header payload (.start pcb)) = middle
  have second : AckHeld pcb header.ackNum middle.pcb := by
    rw [← windowed]
    exact first.of_quiet (establishedWindow_quiet _ header _)
  have third := second.of_quiet ((establishedProbe_quiet header payload middle).trans
    (establishedData_quiet header payload _))
  rcases establishedFin_view header payload (establishedData header payload
    (establishedProbe header payload middle)) with same | closing
  · exact third.of_quiet same
  · refine AckHeld.of_quiet ?_ closing
    exact third.congr rfl rfl

theorem inputFinWait1_held (pcb : Pcb) (outstanding : Outstanding (sendView pcb) 1)
    (acked : flagSet header.flags tcpFlagAck = true) (above : 0 < (header.ackNum - pcb.sndUna).toNat)
    (within : (header.ackNum - pcb.sndUna).toNat ≤ (pcb.sndNxt - pcb.sndUna).toNat) :
    AckHeld pcb header.ackNum (inputFinWait1 now header payload (.start pcb)).pcb := by
  have first := tcpTxAck_held now pcb header.ackNum false 1 outstanding (by omega) above within
  have second : AckHeld pcb header.ackNum (finWait1Ack now header pcb).1 := by
    simp only [finWait1Ack, if_pos acked]
    split
    · exact first.congr rfl rfl
    · exact first
  simp only [inputFinWait1]
  have third := second.of_quiet ((finWaitData_quiet header payload
    (InputWork.update (.start pcb) (finWait1Ack now header pcb).1)).trans
    (finWait1Fin_quiet header payload _))
  split
  · split <;> exact third.congr rfl rfl
  · exact third

theorem tcpInputLocked_state (pcb : Pcb) (valid : flagSet header.flags tcpFlagRst = false) :
    (pcb.state = .established → tcpInputLocked now header payload pcb =
      finishInput (inputEstablished now header payload (.start pcb))) ∧
    (pcb.state = .finWait1 → tcpInputLocked now header payload pcb =
      finishInput (inputFinWait1 now header payload (.start pcb))) ∧
    (pcb.state = .closeWait → tcpInputLocked now header payload pcb =
      finishInput (repeatedFin header payload (.start pcb))) ∧
    (pcb.state = .lastAck → tcpInputLocked now header payload pcb = inputLastAck header payload (.start pcb)) := by
  refine ⟨?_, ?_, ?_, ?_⟩ <;> intro state <;> simp [tcpInputLocked, state, valid]

theorem tcpInput_finish (allocated : Nat → Bool) (listener : Pcb) (srcIp destIp : BitVec 32)
    (segment : List UInt8) (header : TcpHeader) (payload : List UInt8) (pcb : Pcb) (work : InputWork)
    (decoded : tcpDecode srcIp destIp segment = some (header, payload))
    (locked : tcpInputLocked now header payload pcb = finishInput work) :
    (tcpInput now allocated listener srcIp destIp segment pcb).1 = some work.pcb ∨
      (tcpInput now allocated listener srcIp destIp segment pcb).1 =
        some (tcpDrainUnsent now allocated work.pcb).1 := by
  simp only [tcpInput, decoded, locked, finishInput]
  split
  next left next kept =>
    cases kept
    exact Or.inr rfl
  next left next kept => split at next <;> contradiction
  · exact Or.inl rfl

theorem tcpInput_una_kept {listener : Pcb} {srcIp destIp : BitVec 32}
    {segment : List UInt8} {header : TcpHeader} {payload : List UInt8} {after : Pcb}
    (decoded : tcpDecode srcIp destIp segment = some (header, payload))
    (valid : flagSet header.flags tcpFlagRst = false) (state : pcb.state = .closeWait ∨ pcb.state = .lastAck)
    (result : (tcpInput now allocated listener srcIp destIp segment pcb).1 = some after) :
    after.sndUna = pcb.sndUna := by
  have quiet := repeatedFin_quiet header payload (.start pcb)
  have una : (repeatedFin header payload (.start pcb)).pcb.sndUna = pcb.sndUna := congrArg SendView.sndUna quiet.view
  obtain ⟨_, _, closeWait, lastAck⟩ := tcpInputLocked_state now header payload pcb valid
  have finished : tcpInputLocked now header payload pcb =
      finishInput (repeatedFin header payload (.start pcb)) → after.sndUna = pcb.sndUna := by
    intro locked
    rcases tcpInput_finish now allocated listener srcIp destIp segment header payload pcb _ decoded
      locked with done | drained
    · rw [done] at result
      cases result
      exact una
    · rw [drained] at result
      rw [← Option.some.inj result, tcpDrainUnsent_una]
      exact una
  rcases state with state | state
  · exact finished (closeWait state)
  have locked := lastAck state
  simp only [inputLastAck] at locked
  split at locked
  · simp only [tcpInput, decoded, locked] at result
    split at result
    · cases result
      exact una
    · contradiction
  · exact finished locked

/-- Acknowledgement processing takes place in ESTABLISHED and FIN_WAIT1 and in no other synchronized
state: CLOSE_WAIT ignores acknowledgements and LAST_ACK only looks for that of its FIN. -/
theorem tcpInput_ackApplied_iff (conn : Conn) (pcb : Pcb) (reachable : Reachable conn) (found : conn.pcb = some pcb)
    (synchronized : pcb.state = .established ∨ pcb.state = .finWait1 ∨ pcb.state = .closeWait ∨ pcb.state = .lastAck)
    (now : BitVec 64) (allocated : Nat → Bool) (listener : Pcb) (srcIp destIp : BitVec 32)
    (segment : List UInt8) (header : TcpHeader) (payload : List UInt8)
    (decoded : tcpDecode srcIp destIp segment = some (header, payload))
    (valid : flagSet header.flags tcpFlagRst = false) (acked : flagSet header.flags tcpFlagAck = true)
    (above : 0 < (header.ackNum - pcb.sndUna).toNat)
    (within : (header.ackNum - pcb.sndUna).toNat ≤ (pcb.sndNxt - pcb.sndUna).toNat) :
    (∃ after, (tcpInput now allocated listener srcIp destIp segment pcb).1 = some after ∧
      AckApplied pcb after header.ackNum) ↔ pcb.state = .established ∨ pcb.state = .finWait1 := by
  have inv := (reachable_inv conn reachable).pcb pcb found
  obtain ⟨established, finWait1, _, _⟩ := tcpInputLocked_state now header payload pcb valid
  constructor
  · rintro ⟨after, result, applied⟩
    by_contra other
    have una := tcpInput_una_kept now decoded
      valid (by tauto) result
    rw [applied.advanced] at una
    simp [una] at above
  · rintro (state | state)
    · have held := inputEstablished_held now header payload pcb (inv.state.sending (Or.inl state)) acked
        above within
      have next : StateInv (sendView (inputEstablished now header payload (.start pcb)).pcb) :=
        stateInv_of_moves (@inputEstablished_moves False True now header payload (.start pcb) state) inv.state
      rcases tcpInput_finish now allocated listener srcIp destIp segment header payload pcb _ decoded
        (established state) with done | drained
      · exact ⟨_, done, held.applied⟩
      · exact ⟨_, drained, (tcpDrainUnsent_held now _ next held).applied⟩
    · have held := inputFinWait1_held now header payload pcb (inv.state.finWait1 state).1 acked above within
      have next : StateInv (sendView (inputFinWait1 now header payload (.start pcb)).pcb) :=
        stateInv_of_moves (@inputFinWait1_moves False True now header payload (.start pcb) state
          False.elim) inv.state
      rcases tcpInput_finish now allocated listener srcIp destIp segment header payload pcb _ decoded
        (finWait1 state) with done | drained
      · exact ⟨_, done, held.applied⟩
      · exact ⟨_, drained, (tcpDrainUnsent_held now _ next held).applied⟩

def sampleCloseWait : List Action := sampleSend ++ [sampleInput 501 1001 (tcpFlagFin ||| tcpFlagAck)]

theorem sampleAck_decoded : ∃ header payload,
    tcpDecode sampleRemote netLocalIpv4 (sampleSegment 502 1002 tcpFlagAck) = some (header, payload) ∧
      flagSet header.flags tcpFlagRst = false ∧ flagSet header.flags tcpFlagAck = true ∧ header.ackNum = 1002 := by
  refine ⟨_, _, rfl, ?_⟩
  decide +kernel

theorem samplePcb (actions : List Action) (state : TcpState) (sndUna sndNxt : BitVec 32)
    (reached : (sampleConn actions).pcb.map (fun pcb => (pcb.state, pcb.sndUna, pcb.sndNxt)) =
      some (state, sndUna, sndNxt)) :
    ∃ pcb, (sampleConn actions).pcb = some pcb ∧ pcb.state = state ∧ pcb.sndUna = sndUna ∧ pcb.sndNxt = sndNxt := by
  obtain ⟨pcb, found, equal⟩ := Option.map_eq_some_iff.mp reached
  simp only [Prod.mk.injEq] at equal
  exact ⟨pcb, found, equal⟩

theorem tcpInput_closeWait_ignores_ack :
    ∃ conn pcb header payload, Reachable conn ∧ conn.pcb = some pcb ∧ pcb.state = .closeWait ∧
      tcpDecode sampleRemote netLocalIpv4 (sampleSegment 502 1002 tcpFlagAck) = some (header, payload) ∧
      flagSet header.flags tcpFlagRst = false ∧ flagSet header.flags tcpFlagAck = true ∧
      0 < (header.ackNum - pcb.sndUna).toNat ∧ (header.ackNum - pcb.sndUna).toNat ≤ (pcb.sndNxt - pcb.sndUna).toNat ∧
      ¬∃ after, (tcpInput 1 (fun _ => true) (tcpAlloc false) sampleRemote netLocalIpv4
        (sampleSegment 502 1002 tcpFlagAck) pcb).1 = some after ∧ AckApplied pcb after header.ackNum := by
  obtain ⟨pcb, found, state, una, nxt⟩ := samplePcb sampleCloseWait .closeWait 1001 1002 (by decide +kernel)
  obtain ⟨header, payload, decoded, valid, acked, ack⟩ := sampleAck_decoded
  refine ⟨_, pcb, header, payload, sampleConn_reachable, found, state, decoded, valid, acked,
    by rw [ack, una]; decide, by rw [ack, una, nxt], ?_⟩
  rintro ⟨after, result, applied⟩
  have kept := tcpInput_una_kept 1 decoded valid (Or.inl state) result
  rw [applied.advanced, ack, una] at kept
  exact absurd kept (by decide)

theorem tcpInput_ackApplied_established :
    ∃ pcb after, (sampleConn sampleSend).pcb = some pcb ∧ pcb.state = .established ∧
      (tcpInput 1 (fun _ => true) (tcpAlloc false) sampleRemote netLocalIpv4
        (sampleSegment 502 1002 tcpFlagAck) pcb).1 = some after ∧ AckApplied pcb after 1002 := by
  obtain ⟨pcb, found, state, una, nxt⟩ := samplePcb sampleSend .established 1001 1002 (by decide +kernel)
  obtain ⟨header, payload, decoded, valid, acked, ack⟩ := sampleAck_decoded
  obtain ⟨after, result, applied⟩ := (tcpInput_ackApplied_iff (sampleConn sampleSend) pcb
    sampleConn_reachable found (Or.inl state) 1 (fun _ => true) (tcpAlloc false) sampleRemote
    netLocalIpv4 _ header payload decoded valid acked (by rw [ack, una]; decide)
    (by rw [ack, una, nxt])).mpr (Or.inl state)
  exact ⟨pcb, after, found, state, result, ack ▸ applied⟩

/-- In every reachable connection the queues hold exactly what is in flight, and one thread at most, or
the pending mark, is on its way to a FIN. -/
theorem inFlight_accounted (conn : Conn) (pcb : Pcb) (reachable : Reachable conn) (found : conn.pcb = some pcb) :
    StateInv (sendView pcb) ∧ closers conn.frames + pcb.flags.finPending.toNat ≤ 1 := by
  have inv := (reachable_inv conn reachable).pcb pcb found
  exact ⟨inv.state, inv.token.trans pcb.flags.shutWr.toNat_le⟩

theorem inFlight_accounted_sampleSend :
    ∃ pcb, (sampleConn sampleSend).pcb = some pcb ∧ Outstanding (sendView pcb) 0 := by
  obtain ⟨pcb, found, state, _⟩ := samplePcb sampleSend .established 1001 1002 (by decide +kernel)
  have inv := inFlight_accounted _ pcb sampleConn_reachable found
  exact ⟨pcb, found, inv.1.sending (Or.inl state)⟩

end PhotonOS
