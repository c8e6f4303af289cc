import PhotonOS.Tcp.ReceiveWindow

/-!
What a segment adds to the receive side of a PCB whose peer has already sent its
FIN.
-/

namespace PhotonOS

/-- The segment advances `rcv_nxt` or the receive buffer, whatever the EOF flag says. With the
flag set, SYN_SENT, ESTABLISHED and FIN_WAIT2 are left to a PCB that `sys_connect` uses again. -/
def Delivers (pcb : Pcb) (header : TcpHeader) (payload : List UInt8) : Prop :=
  flagSet header.flags tcpFlagRst = false ∧ match pcb.state with
    | .synSent =>
      header.flags &&& (tcpFlagSyn ||| tcpFlagAck) = tcpFlagSyn ||| tcpFlagAck ∧
        (header.ackNum = pcb.iss + 1 ∨ header.ackNum = pcb.seqNumber)
    | .established | .finWait1 | .finWait2 => TakesPayload pcb header payload ∨ TakesFin pcb header payload
    | _ => False

def DeliversNothing (conn : Conn) (event : Event) : Prop :=
  ∀ pcb ∈ conn.pcb, pcb.flags.eof = true → ∀ srcIp destIp segment header payload,
    event.action = .input srcIp destIp segment → tcpDecode srcIp destIp segment = some (header, payload) →
      ¬Delivers pcb header payload

/-- A segment that meets the EOF flag leaves `rcv_nxt` and the receive buffer as they were. -/
def ReceivesNothing (conn : Conn) (event : Event) : Prop :=
  ∀ pcb ∈ conn.pcb, pcb.flags.eof = true → ∀ srcIp destIp segment, event.action = .input srcIp destIp segment →
      ∀ after ∈ (connStep conn event).pcb, after.rcvNxt = pcb.rcvNxt ∧ after.rxBuf = pcb.rxBuf

variable {pcb before after : Pcb} {work : InputWork} {header : TcpHeader} {payload : List UInt8}

theorem Unmoved.receiveView (unmoved : Unmoved before after) : receiveView after = receiveView before := by
  simp only [PhotonOS.receiveView, unmoved.localPort, unmoved.remoteIp, unmoved.remotePort, unmoved.rcvNxt,
    unmoved.rxBuf, unmoved.shutRd]

theorem takesPayload_congr (same : receiveView after = receiveView before) :
    TakesPayload after header payload ↔ TakesPayload before header payload := by
  simp only [receiveView, ReceiveView.mk.injEq] at same
  simp only [TakesPayload, same]

theorem takesFin_congr (same : receiveView after = receiveView before) :
    TakesFin after header payload ↔ TakesFin before header payload := by
  simp only [receiveView, ReceiveView.mk.injEq] at same
  simp only [TakesFin, same]

theorem establishedData_refused (refused : ¬TakesPayload work.pcb header payload) :
    receiveView (establishedData header payload work).pcb = receiveView work.pcb := by
  unfold establishedData
  split
  · rfl
  rename_i nonempty
  split
  next inOrder =>
    rw [receiveView_reply]
    exact (acceptPayload_unmoved nonempty inOrder refused).receiveView
  · rw [receiveView_reply]
    rfl

theorem finWaitData_refused (refused : ¬TakesPayload work.pcb header payload) :
    receiveView (finWaitData header payload work).pcb = receiveView work.pcb := by
  unfold finWaitData
  split
  next taken =>
    rw [receiveView_reply]
    exact (acceptPayload_unmoved taken.1 taken.2 refused).receiveView
  · rfl

variable (now : BitVec 64)

section

variable (noPayload : ¬TakesPayload work.pcb header payload) (noFin : ¬TakesFin work.pcb header payload)
include noPayload noFin

theorem inputEstablished_refused :
    receiveView (inputEstablished now header payload work).pcb = receiveView work.pcb := by
  simp only [inputEstablished]
  generalize named : (if flagSet header.flags tcpFlagAck = true then _ else work) = acked
  have view : receiveView acked.pcb = receiveView work.pcb := by
    rw [← named]
    split
    · rw [receiveView_establishedWindow, receiveView_establishedAck]
    · rfl
  have probed : receiveView (establishedProbe header payload acked).pcb = receiveView work.pcb := by
    rw [receiveView_establishedProbe, view]
  have stored := (establishedData_refused ((takesPayload_congr probed).not.mpr noPayload)).trans probed
  rw [establishedFin, if_neg]
  · exact stored
  · exact (takesFin_congr stored).not.mpr noFin

theorem inputFinWait1_refused : receiveView (inputFinWait1 now header payload work).pcb = receiveView work.pcb := by
  simp only [inputFinWait1]
  generalize named : work.update (finWait1Ack now header work.pcb).1 = updated
  have acked : receiveView updated.pcb = receiveView work.pcb := by
    rw [← named]
    exact receiveView_finWait1Ack now header
  have stored := (finWaitData_refused ((takesPayload_congr acked).not.mpr noPayload)).trans acked
  have ended : receiveView (finWait1Fin header payload (finWaitData header payload updated)).pcb =
      receiveView work.pcb := by
    simp only [finWait1Fin]
    split
    next fin =>
      split
      · rw [receiveView_reply]
        exact stored
      · rw [if_neg fun atEnd => (takesFin_congr stored).not.mpr noFin ⟨fin, atEnd⟩]
        exact stored
    · exact stored
  split
  · split <;> exact ended
  · exact ended

theorem inputFinWait2_refused : receiveView (inputFinWait2 now header payload work).pcb = receiveView work.pcb := by
  have stored := finWaitData_refused noPayload
  simp only [inputFinWait2]
  rw [if_neg]
  · exact stored
  · exact (takesFin_congr stored).not.mpr noFin

end

theorem receiveView_repeatedFin : receiveView (repeatedFin header payload work).pcb = receiveView work.pcb := by
  unfold repeatedFin
  split
  · exact receiveView_reply _
  · rfl

theorem receiveView_inputSynReceived : receiveView (inputSynReceived now header work).pcb = receiveView work.pcb := by
  unfold inputSynReceived
  split
  · exact receiveView_reply _
  · split <;> rfl

theorem receiveView_inputTimeWait : receiveView (inputTimeWait now header work).pcb = receiveView work.pcb := by
  unfold inputTimeWait
  split
  · exact receiveView_reply _
  · rfl

theorem receiveView_inputLastAck (kept : after ∈ (inputLastAck header payload (.start pcb)).pcb) :
    receiveView after = receiveView pcb := by
  have view : receiveView (repeatedFin header payload (.start pcb)).pcb = receiveView pcb := receiveView_repeatedFin
  simp only [inputLastAck] at kept
  split at kept
  · split at kept
    · cases kept
      exact view
    · cases kept
  · cases kept
    exact view

theorem tcpInputLocked_refused (refused : ¬Delivers pcb header payload)
    (kept : after ∈ (tcpInputLocked now header payload pcb).pcb) : receiveView after = receiveView pcb := by
  have finish : ∀ work, after ∈ (finishInput work).pcb → receiveView work.pcb = receiveView pcb →
      receiveView after = receiveView pcb := by
    intro work found view
    cases found
    exact view
  simp only [tcpInputLocked] at kept
  split at kept
  · cases kept
    rfl
  split at kept
  · simp only [inputReset] at kept
    split at kept
    · cases kept
    · cases kept
      rfl
  next noReset =>
    rw [Bool.not_eq_true] at noReset
    rw [Delivers, noReset] at refused
    split at kept <;> rename_i state <;> simp only [state, true_and, not_or, not_false_eq_true] at refused
    · apply finish _ kept
      rw [inputSynSent, if_neg]
      · rfl
      · exact refused
    · split at kept <;> exact finish _ kept (receiveView_inputSynReceived now)
    · exact finish _ kept (inputEstablished_refused now refused.1 refused.2)
    · exact finish _ kept (inputFinWait1_refused now refused.1 refused.2)
    · exact finish _ kept (inputFinWait2_refused now refused.1 refused.2)
    · exact finish _ kept receiveView_repeatedFin
    · exact receiveView_inputLastAck kept
    · exact finish _ kept (receiveView_inputTimeWait now)
    · exact finish _ kept rfl

theorem receivesNothing_of_deliversNothing (conn : Conn) (event : Event) (nothing : DeliversNothing conn event) :
    ReceivesNothing conn event := by
  intro pcb found ended srcIp destIp segment input after kept
  simp only [Option.mem_def] at found
  simp only [connStep, stepConn, found, input, stepPcb] at kept
  split at kept
  · cases kept
    exact ⟨rfl, rfl⟩
  next header payload decoded =>
    have view := tcpInputLocked_refused event.now (nothing pcb found ended _ _ _ _ _ input decoded) kept
    exact ⟨congrArg ReceiveView.rcvNxt view, congrArg ReceiveView.rxBuf view⟩

/-- Nothing is received behind the peer's FIN in a run whose segments deliver nothing there. -/
theorem nothing_received_after_fin (start : Conn) (events : List Event)
    (nothing : Transition.Admissible connStep DeliversNothing start events) :
    Transition.Admissible connStep ReceivesNothing start events :=
  Transition.Admissible.imp connStep receivesNothing_of_deliversNothing events start nothing

theorem nothing_received_after_fin_twice :
    let closing := [sampleInput 500 1001 (tcpFlagSyn ||| tcpFlagAck), sampleInput 501 1001 (tcpFlagFin ||| tcpFlagAck)]
    (sampleConn closing).pcb.any (fun pcb => pcb.flags.eof) = true ∧
      Transition.Admissible connStep ReceivesNothing (sampleConn closing)
        (sampleEvents [sampleInput 501 1001 (tcpFlagFin ||| tcpFlagAck)]) := by
  refine ⟨by decide +kernel, nothing_received_after_fin _ _ ⟨?_, trivial⟩⟩
  intro pcb found _ srcIp destIp segment header payload _ _ delivers
  have waiting : (sampleConn [sampleInput 500 1001 (tcpFlagSyn ||| tcpFlagAck),
      sampleInput 501 1001 (tcpFlagFin ||| tcpFlagAck)]).pcb.map Pcb.state = some .closeWait := by
    decide +kernel
  rw [found, Option.map_some, Option.some.injEq] at waiting
  simp only [Delivers, waiting, and_false] at delivers

/-- Both sides close at once: the peer's FIN finds FIN_WAIT1. -/
def simultaneousClose : List Action :=
  [sampleInput 500 1001 (tcpFlagSyn ||| tcpFlagAck), .close, sampleInput 501 1001 (tcpFlagFin ||| tcpFlagAck)]

def byteAfterFin : Event where
  now := 1
  action := .input sampleRemote netLocalIpv4 (tcpFinishPacket sampleRemote netLocalIpv4
    { srcPort := 80, destPort := 1000, seqNum := 502, ackNum := 1001, dataOffsetFlags := offsetFlags tcpFlagAck
      windowSize := 8192, checksum := 0, urgentPtr := 0 } [9])

theorem byte_taken_after_fin :
    Reachable (sampleConn simultaneousClose) ∧ ¬ReceivesNothing (sampleConn simultaneousClose) byteAfterFin := by
  refine ⟨sampleConn_reachable, ?_⟩
  intro nothing
  have met : (sampleConn simultaneousClose).pcb.map (fun pcb => (pcb.flags.eof, pcb.rcvNxt)) = some (true, 502) := by
    decide +kernel
  have left : (connStep (sampleConn simultaneousClose) byteAfterFin).pcb.map Pcb.rcvNxt = some 503 := by
    decide +kernel
  obtain ⟨pcb, found, fields⟩ := Option.map_eq_some_iff.mp met
  obtain ⟨after, kept, advanced⟩ := Option.map_eq_some_iff.mp left
  have same := (nothing pcb found (congrArg Prod.fst fields) _ _ _ rfl after kept).1
  rw [advanced] at same
  exact absurd (same.trans (congrArg Prod.snd fields)) (by decide)

end PhotonOS
