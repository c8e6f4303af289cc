import PhotonOS.Tcp.Connection

/-!
The part of a PCB that decides what is outstanding and whether its
retransmission timer runs, and what every function of the model does to it.
-/

namespace PhotonOS

structure SendView where
  state : TcpState
  iss : BitVec 32
  sndUna : BitVec 32
  sndNxt : BitVec 32
  txBuf : TcpTxBuffer
  timerRto : Bool
  retransmission : BitVec 64
  rtoTicks : BitVec 32
  finPending : Bool
  shutWr : Bool

def sendView (pcb : Pcb) : SendView where
  state := pcb.state
  iss := pcb.iss
  sndUna := pcb.sndUna
  sndNxt := pcb.sndNxt
  txBuf := pcb.txBuf
  timerRto := pcb.flags.timerRto
  retransmission := pcb.timers.retransmission
  rtoTicks := pcb.timers.rtoTicks
  finPending := pcb.flags.finPending
  shutWr := pcb.flags.shutWr

def SendView.armed (view : SendView) (now : BitVec 64) (ticks : BitVec 32) : SendView :=
  { view with timerRto := true, retransmission := ticksAfter now ticks, rtoTicks := ticks }

def SendView.reset (view : SendView) : SendView :=
  { view with timerRto := false, retransmission := 0, rtoTicks := tcpRtoTicksDefault }

variable (pcb : Pcb) (header : TcpHeader) (payload : List UInt8) (work : InputWork) (now : BitVec 64)

@[simp] theorem sendView_advertiseWindow : sendView (advertiseWindow pcb) = sendView pcb := rfl

@[simp] theorem sendView_noteFreeSpace : sendView (noteFreeSpace pcb) = sendView pcb := rfl

@[simp] theorem sendView_stopDraining : sendView (stopDraining pcb) = sendView pcb := rfl

@[simp] theorem sendView_armDataRto (pcb : Pcb) :
    sendView (armDataRto now pcb) = (sendView pcb).armed now tcpDataRtoTicksDefault := rfl

@[simp] theorem sendView_growCongestionWindow (bytesAcked : BitVec 32) (pcb : Pcb) :
    sendView (growCongestionWindow bytesAcked pcb) = sendView pcb := by
  unfold growCongestionWindow
  split
  · rfl
  · split <;> simp only [sendView]

@[simp] theorem sendView_armPersist {pcb : Pcb} : sendView (armPersist now pcb) = sendView pcb := by
  unfold armPersist
  split <;> rfl

@[simp] theorem sendView_acceptPayload : sendView (acceptPayload pcb payload) = sendView pcb := by
  simp only [acceptPayload]
  split
  · rfl
  · split <;> rfl

@[simp] theorem sendView_shutdownRead : sendView (shutdownRead pcb) = sendView pcb := by
  unfold shutdownRead
  split <;> rfl

@[simp] theorem sendView_acceptChild : sendView (acceptChild pcb) = sendView pcb := by
  unfold acceptChild
  split <;> rfl

@[simp] theorem sendView_congestionTimeout : sendView (congestionTimeout pcb) = sendView pcb := by
  simp only [congestionTimeout]
  split <;> split <;> rfl

theorem sendView_backoffRto (pcb : Pcb) : ∃ ticks, (ticks = tcpMaxRtoTicks ∨
        ticks = pcb.timers.rtoTicks * 2 ∧ ¬pcb.timers.rtoTicks * 2 > tcpMaxRtoTicks) ∧ sendView (backoffRto now pcb) =
        { sendView pcb with retransmission := ticksAfter now ticks, rtoTicks := ticks } := by
  refine ⟨if pcb.timers.rtoTicks * 2 > tcpMaxRtoTicks then tcpMaxRtoTicks else pcb.timers.rtoTicks * 2, ?_, rfl⟩
  split
  · exact Or.inl rfl
  · exact Or.inr ⟨rfl, ‹_›⟩

def SendView.afterBuild (view : SendView) (flags : BitVec 16) : SendView :=
  { view with
    sndUna := if flagSet flags tcpFlagSyn then view.iss else view.sndUna
    sndNxt :=
      if flagSet flags tcpFlagSyn then view.iss + 1
      else if flagSet flags tcpFlagFin then view.sndNxt + 1
      else view.sndNxt }

theorem sendView_tcpBuildOutputLocked {pcb built : Pcb} {flags : BitVec 16} {packet : List UInt8}
    (sent : tcpBuildOutputLocked pcb flags [] = some (built, packet)) :
    sendView built = (sendView pcb).afterBuild flags ∧ built.seqNumber = built.sndNxt := by
  simp only [tcpBuildOutputLocked] at sent
  split at sent
  · contradiction
  simp only [Option.some.injEq, Prod.mk.injEq] at sent
  rw [← sent.1]
  simp only [SendView.afterBuild, sendView]
  split
  · simp [advertiseWindow]
  · split <;> simp [advertiseWindow]

/-- A step that neither moves the send side nor loses the copy of `snd_nxt` in `seq_number`. -/
structure Quiet (before after : Pcb) : Prop where
  view : sendView after = sendView before
  recorded : before.seqNumber = before.sndNxt → after.seqNumber = after.sndNxt

theorem Quiet.refl : Quiet pcb pcb := ⟨rfl, id⟩

theorem Quiet.trans {first second third : Pcb} (left : Quiet first second) (right : Quiet second third) :
    Quiet first third :=
  ⟨right.view.trans left.view, fun recorded => right.recorded (left.recorded recorded)⟩

theorem Quiet.of_view {before after : Pcb} (view : sendView after = sendView before)
    (copy : after.seqNumber = before.seqNumber) : Quiet before after := by
  refine ⟨view, fun recorded => ?_⟩
  have next : after.sndNxt = before.sndNxt := congrArg SendView.sndNxt view
  rw [copy, next, recorded]

theorem Quiet.state {before after : Pcb} (quiet : Quiet before after) : after.state = before.state :=
  congrArg SendView.state quiet.view

theorem reply_ack_quiet : Quiet work.pcb (reply work tcpFlagAck).pcb := by
  unfold reply
  split
  · exact Quiet.refl _
  next built packet sent =>
    obtain ⟨view, recorded⟩ := sendView_tcpBuildOutputLocked sent
    exact ⟨view, fun _ => recorded⟩

theorem update_reply_quiet {pcb : Pcb} :
    Quiet pcb (reply (work.update pcb) tcpFlagAck).pcb := reply_ack_quiet (work.update pcb)

theorem acceptPayload_quiet : Quiet pcb (acceptPayload pcb payload) := by
  refine Quiet.of_view (sendView_acceptPayload pcb payload) ?_
  simp only [acceptPayload]
  split
  · rfl
  · split <;> rfl

theorem noteFreeSpace_quiet : Quiet pcb (noteFreeSpace pcb) := Quiet.of_view rfl rfl

theorem takeFin_quiet : Quiet pcb (takeFin pcb) := Quiet.of_view rfl rfl

theorem establishedWindow_quiet (before : BitVec 16) (header : TcpHeader) (work : InputWork) :
    Quiet work.pcb (establishedWindow before header work).pcb := by
  simp only [establishedWindow]
  split
  · split <;> exact Quiet.of_view rfl rfl
  · exact Quiet.refl _

theorem establishedProbe_quiet : Quiet work.pcb (establishedProbe header payload work).pcb := by
  unfold establishedProbe
  split
  · exact reply_ack_quiet work
  · exact Quiet.refl _

theorem establishedData_quiet : Quiet work.pcb (establishedData header payload work).pcb := by
  unfold establishedData
  split
  · exact Quiet.refl _
  split
  · exact ((acceptPayload_quiet work.pcb payload).trans (noteFreeSpace_quiet _)).trans
      (update_reply_quiet work)
  · refine Quiet.trans ?_ (update_reply_quiet work)
    exact Quiet.of_view rfl rfl

theorem finWaitData_quiet : Quiet work.pcb (finWaitData header payload work).pcb := by
  unfold finWaitData
  split
  · exact (acceptPayload_quiet work.pcb payload).trans (update_reply_quiet work)
  · exact Quiet.refl _

theorem finWait1Fin_quiet : Quiet work.pcb (finWait1Fin header payload work).pcb := by
  simp only [finWait1Fin]
  split
  · split
    · exact reply_ack_quiet work
    · split
      · exact (takeFin_quiet work.pcb).trans (update_reply_quiet work)
      · exact Quiet.refl _
  · exact Quiet.refl _

theorem repeatedFin_quiet : Quiet work.pcb (repeatedFin header payload work).pcb := by
  unfold repeatedFin
  split
  · exact reply_ack_quiet work
  · exact Quiet.refl _

theorem inputTimeWait_quiet (header : TcpHeader) (work : InputWork) :
    Quiet work.pcb (inputTimeWait now header work).pcb := by
  simp only [inputTimeWait]
  split
  · exact (reply_ack_quiet work).trans (Quiet.of_view rfl rfl)
  · exact Quiet.refl _

theorem establishedFin_view : Quiet work.pcb (establishedFin header payload work).pcb ∨
      Quiet { work.pcb with state := .closeWait } (establishedFin header payload work).pcb := by
  unfold establishedFin
  split
  · refine Or.inr (Quiet.trans ?_ (update_reply_quiet work))
    exact Quiet.of_view rfl rfl
  · exact Or.inl (Quiet.refl _)

end PhotonOS
