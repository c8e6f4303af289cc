import PhotonOS.Tcp.SendMove

/-! `tcp_input` makes only the moves of `SendMove`. -/

namespace PhotonOS

structure Moves (strict closer : Prop) (now : BitVec 64) (before after : Pcb) : Prop where
  path : Relation.ReflTransGen (SendMove strict closer now) (sendView before) (sendView after)
  recorded : before.seqNumber = before.sndNxt → after.seqNumber = after.sndNxt

namespace Moves

variable {strict closer : Prop} {now : BitVec 64} {first second third : Pcb}

theorem of_quiet (quiet : Quiet first second) : Moves strict closer now first second :=
  ⟨quiet.view ▸ Relation.ReflTransGen.refl, quiet.recorded⟩

theorem refl (pcb : Pcb) : Moves strict closer now pcb pcb := of_quiet (Quiet.refl pcb)

theorem trans (left : Moves strict closer now first second) (right : Moves strict closer now second third) :
    Moves strict closer now first third :=
  ⟨left.path.trans right.path, fun recorded => right.recorded (left.recorded recorded)⟩

theorem single (move : SendMove strict closer now (sendView first) (sendView second))
    (recorded : first.seqNumber = first.sndNxt → second.seqNumber = second.sndNxt) :
    Moves strict closer now first second :=
  ⟨Relation.ReflTransGen.single move, recorded⟩

theorem quiet_trans (quiet : Quiet first second) (right : Moves strict closer now second third) :
    Moves strict closer now first third := (of_quiet quiet).trans right

theorem trans_quiet (left : Moves strict closer now first second) (quiet : Quiet second third) :
    Moves strict closer now first third := left.trans (of_quiet quiet)

end Moves

section

variable {strict closer : Prop} {now : BitVec 64} (header : TcpHeader) (payload : List UInt8) (work : InputWork)
    (pcb : Pcb) (ack : BitVec 32)

theorem rearm_moves : Moves strict closer now pcb (armDataRto now pcb) :=
  Moves.single (SendMove.rearm (sendView pcb)) id

theorem finish_moves {before after : Pcb} (state : after.state.finished)
    (ticks : after.timers.rtoTicks = before.timers.rtoTicks ∨ after.timers.rtoTicks = tcpRtoTicksDefault)
    (pending : after.flags.finPending = before.flags.finPending) (shut : after.flags.shutWr = before.flags.shutWr)
    (recorded : before.seqNumber = before.sndNxt → after.seqNumber = after.sndNxt) :
    Moves strict closer now before after :=
  Moves.single (SendMove.finish (sendView before) (sendView after) state ticks pending shut) recorded

theorem tcpTxAck_moves {exit : Bool} (state : pcb.state = .established) :
    Moves strict closer now pcb (tcpTxAckReceivedLockedExt now pcb ack exit) := by
  rcases tcpTxAck_cases now pcb ack exit with ⟨same, _⟩ | ⟨beyond, moved, stale, view, copy⟩
  · rw [same]
    exact Moves.refl pcb
  refine Moves.single ?_ ?_
  · rw [view]
    exact SendMove.ack (sendView pcb) ack state beyond moved stale
  · have next : (tcpTxAckReceivedLockedExt now pcb ack exit).sndNxt = pcb.sndNxt := congrArg SendView.sndNxt view
    rw [copy, next]
    exact id

theorem newAck_moves (state : work.pcb.state = .established) :
    Moves strict closer now work.pcb (newAck now work ack).pcb := by
  simp only [newAck]
  split
  · refine Moves.quiet_trans ?_ (tcpTxAck_moves _ ack state)
    exact Quiet.of_view rfl rfl
  · refine Moves.quiet_trans ?_ (tcpTxAck_moves _ ack state)
    exact Quiet.of_view rfl rfl

theorem retransmitHead_moves : Moves strict closer now pcb (retransmitHead now pcb).1 := by
  unfold retransmitHead
  split
  · exact Moves.refl pcb
  next head rest queue => exact Moves.single (SendMove.retransmit (sendView pcb) head _ rest queue ⟨rfl, rfl⟩) id

theorem enterFastRecovery_quiet : Quiet pcb (enterFastRecovery pcb) := Quiet.of_view rfl rfl

theorem fastRetransmit_moves : Moves strict closer now work.pcb (fastRetransmit now work).pcb :=
  ((Moves.of_quiet (enterFastRecovery_quiet work.pcb)).trans (retransmitHead_moves _)).trans
    (rearm_moves _)

theorem retransmitHead_state : (retransmitHead now pcb).1.state = pcb.state := by
  unfold retransmitHead
  split <;> rfl

theorem dupacksNoted_quiet : Quiet pcb { pcb with dupacks := pcb.dupacks + 1 } := Quiet.of_view rfl rfl

theorem duplicateAck_moves : Moves strict closer now work.pcb (duplicateAck now work).pcb := by
  simp only [duplicateAck]
  split
  · exact Moves.of_quiet (Quiet.of_view (by simp only [sendView]) rfl)
  · split
    · exact Moves.quiet_trans (dupacksNoted_quiet work.pcb)
        (fastRetransmit_moves (work.update { work.pcb with dupacks := work.pcb.dupacks + 1 }))
    · exact Moves.of_quiet (dupacksNoted_quiet work.pcb)

theorem establishedAck_moves (state : work.pcb.state = .established) :
    Moves strict closer now work.pcb (establishedAck now header payload work).pcb := by
  unfold establishedAck
  split
  · exact Moves.of_quiet (reply_ack_quiet work)
  split
  · exact newAck_moves work header.ackNum state
  · split
    · exact duplicateAck_moves work
    · exact Moves.refl _

theorem tcpTxAck_state (exit : Bool) : (tcpTxAckReceivedLockedExt now pcb ack exit).state = pcb.state := by
  rcases tcpTxAck_cases now pcb ack exit with ⟨same, _⟩ | ⟨_, _, _, view, _⟩
  · rw [same]
  · exact congrArg SendView.state view

theorem establishedAck_state : (establishedAck now header payload work).pcb.state = work.pcb.state := by
  unfold establishedAck
  split
  · exact (reply_ack_quiet work).state
  split
  · simp only [newAck]
    split <;> rw [tcpTxAck_state]
  split
  · simp only [duplicateAck]
    split
    · rfl
    · split
      · exact retransmitHead_state _
      · rfl
  · rfl

theorem peerFin_moves (state : pcb.state = .established) :
    Moves strict closer now pcb { pcb with state := .closeWait } :=
  Moves.single (SendMove.peerFin (sendView pcb) state) id

theorem inputEstablished_moves (state : work.pcb.state = .established) :
    Moves strict closer now work.pcb (inputEstablished now header payload work).pcb := by
  simp only [inputEstablished]
  generalize middleEq : (if flagSet header.flags tcpFlagAck then
    establishedWindow work.pcb.sndWnd header (establishedAck now header payload work) else work) = middle
  have moved : Moves strict closer now work.pcb middle.pcb ∧ middle.pcb.state = .established := by
    rw [← middleEq]
    split
    · refine ⟨(establishedAck_moves header payload work state).trans_quiet
        (establishedWindow_quiet _ _ _), ?_⟩
      exact ((establishedWindow_quiet _ header _).state).trans
        ((establishedAck_state header payload work).trans state)
    · exact ⟨Moves.refl _, state⟩
  have quiet := (establishedProbe_quiet header payload middle).trans (establishedData_quiet header payload _)
  have dataState : (establishedData header payload (establishedProbe header payload middle)).pcb.state =
      .established := quiet.state.trans moved.2
  refine (moved.1.trans_quiet quiet).trans ?_
  rcases establishedFin_view header payload (establishedData header payload
    (establishedProbe header payload middle)) with same | closing
  · exact Moves.of_quiet same
  · exact (peerFin_moves _ dataState).trans_quiet closing

theorem finWait1Ack_moves (state : pcb.state = .finWait1) (waiting : (finWait1Ack now header pcb).2 = false)
    (pending : strict → flagSet header.flags tcpFlagAck = true → header.ackNum ≠ pcb.sndUna →
      Serial.ge header.ackNum pcb.sndNxt = false → Serial.lt header.ackNum pcb.sndUna = false →
      ((sendView pcb).afterAck now header.ackNum).timerRto = true) :
    Moves strict closer now pcb (finWait1Ack now header pcb).1 := by
  simp only [finWait1Ack] at waiting ⊢
  split at waiting
  next acked =>
    rw [if_pos acked]
    split at waiting
    · simp at waiting
    rename_i below
    rw [if_neg below]
    unfold tcpTxAckReceivedLocked at below ⊢
    rcases tcpTxAck_cases now pcb header.ackNum false with ⟨same, _⟩ | ⟨beyond, moved, stale, view, copy⟩
    · rw [same]
      exact Moves.refl pcb
    have next : (tcpTxAckReceivedLockedExt now pcb header.ackNum false).sndNxt = pcb.sndNxt :=
      congrArg SendView.sndNxt view
    rw [next, Bool.not_eq_true] at below
    refine Moves.single ?_ ?_
    · rw [view]
      exact SendMove.finWaitAck (sendView pcb) header.ackNum state below moved stale beyond
        (fun strictly => pending strictly acked moved below stale)
    · rw [copy, next]
      exact id
  next silent =>
    rw [if_neg silent]
    exact Moves.refl pcb

theorem finWait1Ack_frame (now : BitVec 64) : ((finWait1Ack now header pcb).1.timers.rtoTicks = pcb.timers.rtoTicks ∨
        (finWait1Ack now header pcb).1.timers.rtoTicks = tcpRtoTicksDefault) ∧
      (finWait1Ack now header pcb).1.flags.finPending = pcb.flags.finPending ∧
      (finWait1Ack now header pcb).1.flags.shutWr = pcb.flags.shutWr ∧ (pcb.seqNumber = pcb.sndNxt →
        (finWait1Ack now header pcb).1.seqNumber = (finWait1Ack now header pcb).1.sndNxt) := by
  have acked : let after := tcpTxAckReceivedLocked now pcb header.ackNum
      (after.timers.rtoTicks = pcb.timers.rtoTicks ∨ after.timers.rtoTicks = tcpRtoTicksDefault) ∧
        after.flags.finPending = pcb.flags.finPending ∧ after.flags.shutWr = pcb.flags.shutWr ∧
        (pcb.seqNumber = pcb.sndNxt → after.seqNumber = after.sndNxt) := by
    unfold tcpTxAckReceivedLocked
    rcases tcpTxAck_cases now pcb header.ackNum false with ⟨same, _⟩ | ⟨_, _, _, view, copy⟩
    · rw [same]
      exact ⟨Or.inl rfl, rfl, rfl, id⟩
    have next : (tcpTxAckReceivedLockedExt now pcb header.ackNum false).sndNxt = pcb.sndNxt :=
      congrArg SendView.sndNxt view
    refine ⟨Or.inr (congrArg SendView.rtoTicks view), congrArg SendView.finPending view,
      congrArg SendView.shutWr view, ?_⟩
    rw [copy, next]
    exact id
  simp only [finWait1Ack]
  split
  · split <;> exact acked
  · exact ⟨Or.inl rfl, rfl, rfl, id⟩

theorem inputFinWait1_moves (state : work.pcb.state = .finWait1)
    (pending : strict → flagSet header.flags tcpFlagAck = true → header.ackNum ≠ work.pcb.sndUna →
      Serial.ge header.ackNum work.pcb.sndNxt = false → Serial.lt header.ackNum work.pcb.sndUna = false →
      ((sendView work.pcb).afterAck now header.ackNum).timerRto = true) :
    Moves strict closer now work.pcb (inputFinWait1 now header payload work).pcb := by
  simp only [inputFinWait1]
  have quiet := (finWaitData_quiet header payload (work.update (finWait1Ack now header work.pcb).1)).trans
    (finWait1Fin_quiet header payload _)
  split
  · obtain ⟨ticks, finPending, shutWr, recorded⟩ := finWait1Ack_frame header work.pcb now
    have ticksKept := congrArg SendView.rtoTicks quiet.view
    have pendingKept := congrArg SendView.finPending quiet.view
    have shutKept := congrArg SendView.shutWr quiet.view
    have ticksNow := ticks.imp ticksKept.trans ticksKept.trans
    split
    · exact finish_moves (Or.inr (Or.inr rfl)) ticksNow (pendingKept.trans finPending)
        (shutKept.trans shutWr) (fun copy => quiet.recorded (recorded copy))
    · exact finish_moves (Or.inr (Or.inl rfl)) ticksNow (pendingKept.trans finPending)
        (shutKept.trans shutWr) (fun copy => quiet.recorded (recorded copy))
  next waiting =>
    exact (finWait1Ack_moves header work.pcb state (by simpa using waiting) pending).trans_quiet quiet

theorem inputFinWait2_moves : Moves strict closer now work.pcb (inputFinWait2 now header payload work).pcb := by
  simp only [inputFinWait2]
  have quiet := finWaitData_quiet header payload work
  split
  · refine Moves.trans_quiet ?_ (update_reply_quiet _)
    refine Moves.quiet_trans quiet ?_
    exact finish_moves (Or.inr (Or.inr rfl)) (Or.inl rfl) rfl rfl id
  · exact Moves.of_quiet quiet

theorem inputSynSent_moves (state : work.pcb.state = .synSent) (recorded : work.pcb.seqNumber = work.pcb.sndNxt) :
    Moves strict closer now work.pcb (inputSynSent now header work).pcb := by
  simp only [inputSynSent]
  split
  next accepted =>
    refine Moves.trans_quiet ?_ (update_reply_quiet _)
    refine Moves.single ?_ (fun _ => rfl)
    exact SendMove.establish (sendView work.pcb) header.ackNum (work.pcb.iss + 1) (Or.inl state)
      (accepted.2.imp id (fun copied => copied.trans recorded)) (Or.inl rfl)
  · exact Moves.refl _

theorem handshakeReply_moves {flags : BitVec 16} (syn : flagSet flags tcpFlagSyn = true)
    (state : work.pcb.state.handshaking) : Moves strict closer now work.pcb (reply work flags).pcb := by
  unfold reply
  split
  · exact Moves.refl _
  rename_i built packet sent
  obtain ⟨view, recorded⟩ := sendView_tcpBuildOutputLocked sent
  refine Moves.single ?_ (fun _ => recorded)
  simp only [SendView.afterBuild, syn, if_true] at view
  rw [view]
  exact SendMove.handshake (sendView work.pcb) state

theorem inputSynReceived_moves (state : work.pcb.state = .synReceived)
    (recorded : work.pcb.seqNumber = work.pcb.sndNxt) :
    Moves strict closer now work.pcb (inputSynReceived now header work).pcb := by
  simp only [inputSynReceived]
  split
  · exact handshakeReply_moves work (by decide) (Or.inr state)
  split
  next accepted =>
    simp only [acceptsHandshake, Bool.and_eq_true, Bool.or_eq_true, beq_iff_eq] at accepted
    have source : header.ackNum = work.pcb.iss + 1 ∨ header.ackNum = work.pcb.sndNxt :=
      accepted.2.imp id (fun copied => copied.trans recorded)
    refine Moves.single ?_ (fun _ => rfl)
    exact SendMove.establish (sendView work.pcb) header.ackNum header.ackNum (Or.inr state) source source
  · exact Moves.refl _

theorem tcpInputLocked_moves {pcb after : Pcb} (recorded : pcb.state.handshaking → pcb.seqNumber = pcb.sndNxt)
    (pending : strict → pcb.state = .finWait1 → flagSet header.flags tcpFlagRst = false →
      flagSet header.flags tcpFlagAck = true → header.ackNum ≠ pcb.sndUna →
      Serial.ge header.ackNum pcb.sndNxt = false → Serial.lt header.ackNum pcb.sndUna = false →
      ((sendView pcb).afterAck now header.ackNum).timerRto = true)
    (kept : (tcpInputLocked now header payload pcb).pcb = some after) : Moves strict closer now pcb after := by
  simp only [tcpInputLocked] at kept
  split at kept
  · cases kept
    exact Moves.refl pcb
  split at kept
  · simp only [inputReset] at kept
    split at kept
    · contradiction
    · cases kept
      exact finish_moves (Or.inl rfl) (Or.inr rfl) rfl rfl id
  next notReset =>
    split at kept
    next state =>
      cases kept
      exact inputSynSent_moves header (.start pcb) state (recorded (Or.inl state))
    next state =>
      have found : some (inputSynReceived now header (.start pcb)).pcb = some after := by split at kept <;> exact kept
      cases found
      exact inputSynReceived_moves header (.start pcb) state (recorded (Or.inr state))
    next state =>
      cases kept
      exact inputEstablished_moves header payload (.start pcb) state
    next state =>
      cases kept
      exact inputFinWait1_moves header payload (.start pcb) state
        (fun strictly => pending strictly state (by simpa using notReset))
    · cases kept
      exact inputFinWait2_moves header payload (.start pcb)
    · cases kept
      exact Moves.of_quiet (repeatedFin_quiet header payload (.start pcb))
    · simp only [inputLastAck] at kept
      have quiet := repeatedFin_quiet header payload (.start pcb)
      split at kept
      · split at kept
        · cases kept
          refine Moves.quiet_trans quiet ?_
          exact finish_moves (Or.inl rfl) (Or.inr rfl) rfl rfl id
        · contradiction
      · cases kept
        exact Moves.of_quiet quiet
    · cases kept
      exact Moves.of_quiet (inputTimeWait_quiet now header (.start pcb))
    · cases kept
      exact Moves.refl pcb

end

end PhotonOS
