import PhotonOS.Tcp.AckProcessing

/-!
The moves of an orderly close that an ACK causes: FIN_WAIT1 to FIN_WAIT2 or
TIME_WAIT, and LAST_ACK to CLOSED.
-/

namespace PhotonOS

theorem releaseAcked_nil_iff {ack : BitVec 32} {entries : List TcpSegment} : ∀ bytes segments,
    (releaseAcked ack entries bytes segments).entries = [] ↔
      ∀ segment ∈ entries, Serial.le (segment.sequence + BitVec.ofNat 32 segment.length) ack = true := by
  induction entries with
  | nil => intro bytes segments; simp [releaseAcked]
  | cons segment rest ih =>
    intro bytes segments
    simp only [releaseAcked, List.forall_mem_cons]
    by_cases covered : Serial.le (segment.sequence + BitVec.ofNat 32 segment.length) ack = true
    · rw [if_pos covered, ih]
      exact (and_iff_right covered).symm
    rw [if_neg covered]
    constructor
    · intro empty
      split at empty <;> simp at empty
    · rintro ⟨first, _⟩
      exact absurd first covered

def Pcb.AcksNew (pcb : Pcb) (ack : BitVec 32) : Prop :=
  Serial.gt ack pcb.sndNxt = false ∧ ack ≠ pcb.sndUna ∧ Serial.lt ack pcb.sndUna = false

instance (pcb : Pcb) (ack : BitVec 32) : Decidable (pcb.AcksNew ack) := inferInstanceAs (Decidable (_ ∧ _ ∧ _))

/-- Nothing stays queued for retransmission once `ack` has been processed: it covers every
segment, or it is ignored and there is none. -/
def Pcb.CoveredBy (pcb : Pcb) (ack : BitVec 32) : Prop :=
  if pcb.AcksNew ack then
    ∀ segment ∈ pcb.txBuf.unacked.entries, Serial.le (segment.sequence + BitVec.ofNat 32 segment.length) ack = true
  else pcb.txBuf.unacked.entries = []

theorem tcpTxAck_empties_iff (now : BitVec 64) (pcb : Pcb) (ack : BitVec 32) :
    (tcpTxAckReceivedLocked now pcb ack).txBuf.unacked.entries = [] ↔ pcb.CoveredBy ack := by
  unfold tcpTxAckReceivedLocked Pcb.CoveredBy
  rcases tcpTxAck_cases now pcb ack false with ⟨ignored, refused⟩ | ⟨below, moved, fresh, view, _⟩
  · have ignores : ¬pcb.AcksNew ack := refused
    rw [ignored, if_neg ignores]
  have queue : (tcpTxAckReceivedLockedExt now pcb ack false).txBuf.unacked.entries =
      (releaseAcked ack pcb.txBuf.unacked.entries pcb.txBuf.unacked.bytes
        pcb.txBuf.unacked.segments).entries := congrArg (fun next => next.txBuf.unacked.entries) view
  have takes : pcb.AcksNew ack := ⟨below, moved, fresh⟩
  rw [queue, releaseAcked_nil_iff, if_pos takes]

theorem tcpTxAck_sndNxt (now : BitVec 64) (pcb : Pcb) (ack : BitVec 32) :
    (tcpTxAckReceivedLocked now pcb ack).sndNxt = pcb.sndNxt := by
  unfold tcpTxAckReceivedLocked
  rcases tcpTxAck_cases now pcb ack false with ⟨ignored, _⟩ | ⟨_, _, _, view, _⟩
  · rw [ignored]
  · exact congrArg SendView.sndNxt view

/-- The segment carries an ACK that `tcp_input` takes for the ACK of the PCB's FIN. -/
def TcpHeader.AcksFin (header : TcpHeader) (pcb : Pcb) : Prop :=
  flagSet header.flags tcpFlagAck = true ∧ Serial.ge header.ackNum pcb.sndNxt = true

instance (header : TcpHeader) (pcb : Pcb) : Decidable (header.AcksFin pcb) := inferInstanceAs (Decidable (_ ∧ _))

theorem finWait1Ack_spec (now : BitVec 64) (header : TcpHeader) (pcb : Pcb) :
    ((finWait1Ack now header pcb).2 = true ↔ header.AcksFin pcb) ∧ (finWait1Ack now header pcb).1.state = pcb.state ∧
      (flagSet header.flags tcpFlagAck = true →
        (finWait1Ack now header pcb).1.txBuf = (tcpTxAckReceivedLocked now pcb header.ackNum).txBuf) := by
  have state := @tcpTxAck_state now pcb header.ackNum false
  have next := tcpTxAck_sndNxt now pcb header.ackNum
  unfold finWait1Ack TcpHeader.AcksFin
  by_cases acked : flagSet header.flags tcpFlagAck = true
  · simp only [if_pos acked, next]
    by_cases reached : Serial.ge header.ackNum pcb.sndNxt = true
    · rw [if_pos reached]
      exact ⟨iff_of_true rfl ⟨acked, reached⟩, state, fun _ => rfl⟩
    · rw [if_neg reached]
      exact ⟨iff_of_false Bool.false_ne_true (fun both => reached both.2), state, fun _ => rfl⟩
  · rw [if_neg acked]
    exact ⟨iff_of_false Bool.false_ne_true (fun both => acked both.1), rfl, fun set => absurd set acked⟩

variable {work : InputWork} {header : TcpHeader} {payload : List UInt8}

theorem reply_needDrain {flags : BitVec 16} : (reply work flags).needDrain = work.needDrain := by
  unfold reply
  split <;> rfl

theorem finWaitData_needDrain : (finWaitData header payload work).needDrain = work.needDrain := by
  unfold finWaitData
  split
  · exact reply_needDrain
  · rfl

theorem finWait1Fin_needDrain : (finWait1Fin header payload work).needDrain = work.needDrain := by
  simp only [finWait1Fin]
  split
  · split
    · exact reply_needDrain
    · split
      · exact reply_needDrain
      · rfl
  · rfl

theorem inputFinWait1_closes {now : BitVec 64} {pcb : Pcb}
    (state : pcb.state = .finWait1) : let work := inputFinWait1 now header payload (.start pcb)
    (header.AcksFin pcb → (work.pcb.state = .finWait2 ∨ work.pcb.state = .timeWait) ∧
        (work.pcb.txBuf.unacked.entries = [] ↔ pcb.CoveredBy header.ackNum)) ∧
      (¬header.AcksFin pcb → work.pcb.state = .finWait1) ∧ work.needDrain = false := by
  obtain ⟨acked, kept, buffer⟩ := finWait1Ack_spec now header pcb
  have quiet := (finWaitData_quiet header payload
    (InputWork.update (.start pcb) (finWait1Ack now header pcb).1)).trans
      (finWait1Fin_quiet header payload _)
  have drains : (finWait1Fin header payload (finWaitData header payload
      (InputWork.update (.start pcb) (finWait1Ack now header pcb).1))).needDrain = false := by
    rw [finWait1Fin_needDrain, finWaitData_needDrain]
    rfl
  simp only [inputFinWait1, show (InputWork.start pcb).pcb = pcb from rfl]
  by_cases reached : header.AcksFin pcb
  · have queue := congrArg (fun view => view.txBuf.unacked.entries) quiet.view
    have left := tcpTxAck_empties_iff now pcb header.ackNum
    rw [← buffer reached.1] at left
    refine ⟨fun _ => ?_, fun other => absurd reached other, ?_⟩
    · rw [if_pos (acked.mpr reached)]
      split
      · refine ⟨Or.inr rfl, ?_⟩
        rw [← left]
        exact Iff.of_eq (congrArg (· = []) queue)
      · refine ⟨Or.inl rfl, ?_⟩
        rw [← left]
        exact Iff.of_eq (congrArg (· = []) queue)
    · rw [if_pos (acked.mpr reached)]
      split <;> exact drains
  · have stays : ¬(finWait1Ack now header pcb).2 = true := fun set => reached (acked.mp set)
    refine ⟨fun other => absurd other reached, fun _ => ?_, ?_⟩
    · rw [if_neg stays]
      exact (congrArg SendView.state quiet.view).trans (kept.trans state)
    · rw [if_neg stays]
      exact drains

theorem repeatedFin_needDrain : (repeatedFin header payload work).needDrain = work.needDrain := by
  unfold repeatedFin
  split
  · exact reply_needDrain
  · rfl

/-- The ACK of the segment moved the PCB along the orderly close. A PCB that was freed was CLOSED. -/
def ClosesOnAck (header : TcpHeader) (before : Pcb) (after : Option Pcb) : Prop :=
  (before.state = .finWait1 ∧ ∃ pcb ∈ after, pcb.state = .finWait2 ∨ pcb.state = .timeWait) ∨
    (before.state = .lastAck ∧ flagSet header.flags tcpFlagRst = false ∧ ∀ pcb ∈ after, pcb.state = .closed)

/-- The acknowledgement is exact and nothing is left to retransmit; a freed PCB is judged by the
queue it was freed with, which LAST_ACK has not touched. -/
def FullyAcked (header : TcpHeader) (before : Pcb) (after : Option Pcb) : Prop :=
  header.ackNum = before.sndNxt ∧ (after.getD before).txBuf.unacked.entries = []

/-- An ACK taken for the ACK of the FIN is that of `snd_nxt`, and covers what is queued. In
LAST_ACK nothing may be queued, because nothing would be released. -/
def ExactFinAck (header : TcpHeader) (pcb : Pcb) : Prop :=
  flagSet header.flags tcpFlagRst = false → header.AcksFin pcb →
    (pcb.state = .finWait1 → header.ackNum = pcb.sndNxt ∧ pcb.CoveredBy header.ackNum) ∧
      (pcb.state = .lastAck → header.ackNum = pcb.sndNxt ∧ pcb.txBuf.unacked.entries = [])

section

variable (now : BitVec 64) (allocated : Nat → Bool) (listener : Pcb) {srcIp destIp : BitVec 32}
  {segment payload : List UInt8} {header : TcpHeader} {pcb : Pcb}

section

variable (decoded : tcpDecode srcIp destIp segment = some (header, payload))
include decoded

theorem tcpInput_done (locked : tcpInputLocked now header payload pcb = finishInput work)
    (state : work.pcb.state ≠ .established ∧ work.pcb.state ≠ .closeWait) (drains : work.needDrain = false) :
    (tcpInput now allocated listener srcIp destIp segment pcb).1 = some work.pcb := by
  have next : (finishInput work).next = .done := by simp [finishInput, drains, state.1, state.2]
  simp only [tcpInput, decoded, locked, next]
  rfl

theorem tcpInput_finWait1 (valid : flagSet header.flags tcpFlagRst = false) (state : pcb.state = .finWait1) :
    ∃ after, (tcpInput now allocated listener srcIp destIp segment pcb).1 = some after ∧
      (header.AcksFin pcb → (after.state = .finWait2 ∨ after.state = .timeWait) ∧
        (after.txBuf.unacked.entries = [] ↔ pcb.CoveredBy header.ackNum)) ∧
      (¬header.AcksFin pcb → after.state = .finWait1) := by
  obtain ⟨closes, stays, drains⟩ := inputFinWait1_closes state
  have outside : ∀ outcome, (outcome = .finWait2 ∨ outcome = .timeWait) ∨ outcome = TcpState.finWait1 →
      outcome ≠ .established ∧ outcome ≠ .closeWait := by
    rintro outcome ((rfl | rfl) | rfl) <;> decide
  refine ⟨_, tcpInput_done now allocated listener decoded
    ((tcpInputLocked_state now header payload pcb valid).2.1 state) ?_ drains, closes, stays⟩
  apply outside
  by_cases reached : header.AcksFin pcb
  · exact Or.inl (closes reached).1
  · exact Or.inr (stays reached)

theorem tcpInput_lastAck (valid : flagSet header.flags tcpFlagRst = false) (state : pcb.state = .lastAck) :
    (header.AcksFin pcb → ∀ after ∈ (tcpInput now allocated listener srcIp destIp segment pcb).1,
        after.state = .closed ∧ after.txBuf = pcb.txBuf) ∧ (¬header.AcksFin pcb → ∃ after,
        (tcpInput now allocated listener srcIp destIp segment pcb).1 = some after ∧ after.state = .lastAck) := by
  have locked := (tcpInputLocked_state now header payload pcb valid).2.2.2 state
  have quiet := (repeatedFin_quiet header payload (.start pcb)).view
  have next : (repeatedFin header payload (.start pcb)).pcb.sndNxt = pcb.sndNxt := congrArg SendView.sndNxt quiet
  have buffer : (repeatedFin header payload (.start pcb)).pcb.txBuf = pcb.txBuf := congrArg SendView.txBuf quiet
  have kept : (repeatedFin header payload (.start pcb)).pcb.state = .lastAck :=
    (congrArg SendView.state quiet).trans state
  simp only [inputLastAck, next] at locked
  constructor
  · rintro ⟨acked, past⟩ after member
    rw [if_pos ⟨acked, past⟩] at locked
    simp only [tcpInput, decoded, locked] at member
    split at member
    · obtain rfl := Option.some.inj member
      exact ⟨rfl, buffer⟩
    · cases member
  · intro unreached
    have missed : ¬(flagSet header.flags tcpFlagAck = true ∧ Serial.ge header.ackNum pcb.sndNxt = true) := unreached
    rw [if_neg missed] at locked
    refine ⟨_, tcpInput_done now allocated listener decoded locked ?_ ?_, kept⟩
    · rw [kept]
      decide
    · rw [repeatedFin_needDrain]
      rfl

theorem tcpInput_reset (reset : flagSet header.flags tcpFlagRst = true) (state : pcb.state = .finWait1) :
    ∀ after ∈ (tcpInput now allocated listener srcIp destIp segment pcb).1, after.state = .closed := by
  intro after member
  have locked : tcpInputLocked now header payload pcb = inputReset pcb := by simp [tcpInputLocked, state, reset]
  simp only [tcpInput, decoded, locked, inputReset] at member
  split at member
  · cases member
  · obtain rfl := Option.some.inj member
    rfl

theorem closesOnAck_iff : ClosesOnAck header pcb (tcpInput now allocated listener srcIp destIp segment pcb).1 ↔
      flagSet header.flags tcpFlagRst = false ∧ header.AcksFin pcb ∧
        (pcb.state = .finWait1 ∨ pcb.state = .lastAck) := by
  constructor
  · rintro (⟨state, after, member, outcome⟩ | ⟨state, valid, closed⟩)
    · by_cases valid : flagSet header.flags tcpFlagRst = false
      · obtain ⟨left, result, _, stays⟩ := tcpInput_finWait1 now allocated listener decoded valid state
        obtain rfl : left = after := Option.some.inj (result.symm.trans member)
        refine ⟨valid, ?_, Or.inl state⟩
        by_contra unreached
        rw [stays unreached] at outcome
        simp at outcome
      · have dead := tcpInput_reset now allocated listener decoded (by simpa using valid) state after member
        rw [dead] at outcome
        simp at outcome
    · refine ⟨valid, ?_, Or.inr state⟩
      by_contra unreached
      obtain ⟨after, result, kept⟩ := (tcpInput_lastAck now allocated listener decoded valid state).2 unreached
      rw [closed after result] at kept
      cases kept
  · rintro ⟨valid, reached, state | state⟩
    · obtain ⟨after, result, closes, _⟩ := tcpInput_finWait1 now allocated listener decoded valid state
      exact Or.inl ⟨state, after, result, (closes reached).1⟩
    · refine Or.inr ⟨state, valid, fun after member => ?_⟩
      exact ((tcpInput_lastAck now allocated listener decoded valid state).1 reached after member).1

variable (valid : flagSet header.flags tcpFlagRst = false) (reached : header.AcksFin pcb)
include valid reached

theorem fullyAcked_finWait1 (state : pcb.state = .finWait1) :
    FullyAcked header pcb (tcpInput now allocated listener srcIp destIp segment pcb).1 ↔
      header.ackNum = pcb.sndNxt ∧ pcb.CoveredBy header.ackNum := by
  obtain ⟨after, result, closes, _⟩ := tcpInput_finWait1 now allocated listener decoded valid state
  rw [FullyAcked, result, Option.getD_some, (closes reached).2]

theorem fullyAcked_lastAck (state : pcb.state = .lastAck) :
    FullyAcked header pcb (tcpInput now allocated listener srcIp destIp segment pcb).1 ↔
      header.ackNum = pcb.sndNxt ∧ pcb.txBuf.unacked.entries = [] := by
  have closed := (tcpInput_lastAck now allocated listener decoded valid state).1 reached
  rw [FullyAcked]
  cases result : (tcpInput now allocated listener srcIp destIp segment pcb).1 with
  | none => rfl
  | some after => rw [Option.getD_some, (closed after result).2]

end

end

/-- The moves of an orderly close are right exactly for the ACKs that are exact. -/
theorem orderly_close_iff (now : BitVec 64) (allocated : Nat → Bool) (listener : Pcb)
    (srcIp destIp : BitVec 32) (segment : List UInt8) (pcb : Pcb) :
    (∀ header payload, tcpDecode srcIp destIp segment = some (header, payload) →
      ClosesOnAck header pcb (tcpInput now allocated listener srcIp destIp segment pcb).1 →
      FullyAcked header pcb (tcpInput now allocated listener srcIp destIp segment pcb).1) ↔
    ∀ header payload, tcpDecode srcIp destIp segment = some (header, payload) → ExactFinAck header pcb := by
  refine forall_congr' fun header => forall_congr' fun payload => imp_congr_right fun decoded => ?_
  rw [closesOnAck_iff now allocated listener decoded]
  constructor
  · intro exact valid reached
    refine ⟨fun state => ?_, fun state => ?_⟩
    · exact (fullyAcked_finWait1 now allocated listener decoded valid reached state).mp
        (exact ⟨valid, reached, Or.inl state⟩)
    · exact (fullyAcked_lastAck now allocated listener decoded valid reached state).mp
        (exact ⟨valid, reached, Or.inr state⟩)
  · rintro exact ⟨valid, reached, state | state⟩
    · exact (fullyAcked_finWait1 now allocated listener decoded valid reached state).mpr
        ((exact valid reached).1 state)
    · exact (fullyAcked_lastAck now allocated listener decoded valid reached state).mpr
        ((exact valid reached).2 state)

def sampleFinWait1 : List Action := sampleSend ++ [.shutdown 1]

/-- The ACK of a byte that was never sent ends FIN_WAIT1 while the sent byte is still queued. -/
theorem unsent_ack_ends_finWait1 :
    ∃ conn pcb header payload, Reachable conn ∧ conn.pcb = some pcb ∧ pcb.state = .finWait1 ∧
      tcpDecode sampleRemote netLocalIpv4 (sampleSegment 501 1004 tcpFlagAck) = some (header, payload) ∧
      ClosesOnAck header pcb (tcpInput 1 (fun _ => true) (tcpAlloc false) sampleRemote netLocalIpv4
        (sampleSegment 501 1004 tcpFlagAck) pcb).1 ∧
      ¬FullyAcked header pcb (tcpInput 1 (fun _ => true) (tcpAlloc false) sampleRemote netLocalIpv4
        (sampleSegment 501 1004 tcpFlagAck) pcb).1 := by
  obtain ⟨pcb, found, state, _, nxt⟩ := samplePcb sampleFinWait1 .finWait1 1001 1003 (by decide +kernel)
  obtain ⟨header, payload, decoded, valid, acked, ack⟩ : ∃ header payload,
      tcpDecode sampleRemote netLocalIpv4 (sampleSegment 501 1004 tcpFlagAck) = some (header, payload) ∧
        flagSet header.flags tcpFlagRst = false ∧ flagSet header.flags tcpFlagAck = true ∧ header.ackNum = 1004 := by
    refine ⟨_, _, rfl, ?_⟩
    decide +kernel
  have reached : header.AcksFin pcb := ⟨acked, by rw [ack, nxt]; decide⟩
  refine ⟨_, pcb, header, payload, sampleConn_reachable, found, state, decoded, ?_, ?_⟩
  · exact (closesOnAck_iff 1 (fun _ => true) (tcpAlloc false) decoded).mpr ⟨valid, reached, Or.inl state⟩
  · rw [fullyAcked_finWait1 1 (fun _ => true) (tcpAlloc false) decoded valid reached state, ack, nxt]
    rintro ⟨same, _⟩
    exact absurd same (by decide)

end PhotonOS
