import PhotonOS.Tcp.Sections

/-!
`tcp_input` and the threads that resume, as sections.
-/

namespace PhotonOS

variable {payload : List UInt8} {now : BitVec 64} {header : TcpHeader}

/-- The locals of `tcp_input` while it works: whatever it has taken so far is shown by the reply. -/
structure WorkAnnounces (start : ReceiveView) (limit : Nat) (work : InputWork) : Prop where
  reach : ∃ advance ≤ limit, Widens advance start (receiveView work.pcb)
  out : ∀ packet ∈ work.out, start.Addressed ∧ Announces packet (receiveView work.pcb)
  quiet : start.Addressed → work.out = none → receiveView work.pcb = start
  rexmit : ∀ packet ∈ work.rexmit, Announces packet start

section

variable {base : ReceiveView} {limit more : Nat} {work : InputWork} {pcb : Pcb}

theorem WorkAnnounces.start (pcb : Pcb) : WorkAnnounces (receiveView pcb) 0 (.start pcb) :=
  ⟨⟨0, Nat.le_refl _, .refl _⟩, by simp [InputWork.start], fun _ _ => rfl, by simp [InputWork.start]⟩

section

variable (shows : WorkAnnounces base limit work)
include shows

theorem WorkAnnounces.mono (fewer : limit ≤ more) : WorkAnnounces base more work := by
  obtain ⟨advance, bound, widens⟩ := shows.reach
  exact ⟨⟨advance, by omega, widens⟩, shows.out, shows.quiet, shows.rexmit⟩

theorem WorkAnnounces.congr {other : InputWork}
    (view : receiveView other.pcb = receiveView work.pcb) (out : other.out = work.out)
    (rexmit : other.rexmit = work.rexmit) : WorkAnnounces base limit other := by
  obtain ⟨reach, outShows, quiet, rexmitShows⟩ := shows
  exact ⟨by rwa [view], by rwa [view, out], by rwa [view, out], by rwa [rexmit]⟩

theorem WorkAnnounces.take (taken : ∃ advance ≤ more, Widens advance (receiveView work.pcb) (receiveView pcb)) :
    WorkAnnounces base (limit + more) (PhotonOS.reply (work.update pcb) tcpFlagAck) := by
  obtain ⟨first, firstBound, near⟩ := shows.reach
  obtain ⟨second, secondBound, far⟩ := taken
  have reach : ∃ advance ≤ limit + more, Widens advance base (receiveView pcb) :=
    ⟨first + second, Nat.add_le_add firstBound secondBound, near.trans far⟩
  unfold PhotonOS.reply
  split
  next refused =>
    have unaddressed : ¬base.Addressed := by
      intro addressed
      obtain ⟨port, ip, remote⟩ : (receiveView pcb).Addressed := (near.trans far).addressed.mpr addressed
      rw [tcpBuildOutputLocked, if_neg (by rintro (zero | zero | zero) <;> contradiction)] at refused
      cases refused
    exact ⟨reach, fun packet member => absurd (shows.out packet member).1 unaddressed,
      fun addressed => absurd addressed unaddressed, shows.rexmit⟩
  next built packet sent =>
    have view := (receiveView_tcpBuildOutputLocked sent).1
    refine ⟨by rwa [view], ?_, by simp, shows.rexmit⟩
    rintro other ⟨⟩
    rw [view]
    exact ⟨(near.trans far).addressed.mp (addressed_of_build sent), shows_of_build (.inl rfl) sent _ List.mem_cons_self⟩

theorem WorkAnnounces.reply : WorkAnnounces base limit (reply work tcpFlagAck) :=
  @WorkAnnounces.take base limit 0 work work.pcb shows ⟨0, Nat.le_refl _, .refl _⟩

end

theorem acceptPayload_widens :
    ∃ advance ≤ payload.length, Widens advance (receiveView pcb) (receiveView (acceptPayload pcb payload)) := by
  unfold acceptPayload
  split
  · exact ⟨payload.length, Nat.le_refl _, rfl, rfl, rfl, rfl, Nat.le_add_left _ _, rfl, id⟩
  have space := RingBuffer.write_space pcb.rxBuf payload
  have count := RingBuffer.write_count pcb.rxBuf payload
  dsimp only
  split
  · exact ⟨0, Nat.zero_le _, .refl _⟩
  · refine ⟨(pcb.rxBuf.write payload).2, by omega, rfl, rfl, rfl, rfl, ?_,
      (RingBuffer.write_frame pcb.rxBuf payload).2, fun ring => RingBuffer.write_wellFormed pcb.rxBuf ring⟩
    change pcb.rxBuf.freeSpace ≤ (pcb.rxBuf.write payload).2 + (pcb.rxBuf.write payload).1.freeSpace
    omega

theorem takeFin_widens : Widens 1 (receiveView pcb) (receiveView (takeFin pcb)) :=
  ⟨rfl, rfl, rfl, rfl, Nat.le_add_left _ _, rfl, id⟩

variable (now : BitVec 64) (header : TcpHeader) (payload : List UInt8)

section

variable (shows : WorkAnnounces base limit work)
include shows

theorem newAck_shows : WorkAnnounces base limit (newAck now work header.ackNum) := by
  refine shows.congr ?_ rfl rfl
  simp only [newAck]
  split <;> exact receiveView_tcpTxAck

theorem duplicateAck_shows (untouched : receiveView work.pcb = base) :
    WorkAnnounces base limit (duplicateAck now work) := by
  simp only [duplicateAck]
  split
  · exact shows.congr (by simp only [receiveView]) rfl rfl
  split
  · have resent := retransmitHead_shows now (enterFastRecovery { work.pcb with dupacks := work.pcb.dupacks + 1 })
    have view : receiveView (fastRetransmit now (work.update
        { work.pcb with dupacks := work.pcb.dupacks + 1 })).pcb = receiveView work.pcb := resent.1
    refine ⟨by rw [view]; exact shows.reach, by rw [view]; exact shows.out, by rw [view]; exact shows.quiet, ?_⟩
    intro packet member
    have shown := resent.2 packet member
    rw [← untouched]
    exact shown
  · exact shows.congr rfl rfl rfl

theorem establishedAck_shows (untouched : receiveView work.pcb = base) :
    WorkAnnounces base limit (establishedAck now header payload work) := by
  unfold establishedAck
  split
  · exact shows.reply
  split
  · exact newAck_shows now header shows
  · split
    · exact duplicateAck_shows now shows untouched
    · exact shows

theorem establishedWindow_shows {before : BitVec 16} :
    WorkAnnounces base limit (establishedWindow before header work) := by
  simp only [establishedWindow]
  split
  · refine shows.congr ?_ rfl rfl
    split <;> rfl
  · exact shows

theorem establishedProbe_shows : WorkAnnounces base limit (establishedProbe header payload work) := by
  unfold establishedProbe
  split
  · exact shows.reply
  · exact shows

theorem establishedData_shows :
    WorkAnnounces base (limit + payload.length) (establishedData header payload work) := by
  unfold establishedData
  split
  · exact shows.mono (Nat.le_add_right _ _)
  · split
    · exact shows.take acceptPayload_widens
    · exact shows.take ⟨0, Nat.zero_le _, .refl _⟩

theorem establishedFin_shows : WorkAnnounces base (limit + 1) (establishedFin header payload work) := by
  unfold establishedFin
  split
  · exact shows.take ⟨1, Nat.le_refl _, takeFin_widens⟩
  · exact shows.mono (Nat.le_succ _)

end

theorem inputEstablished_shows :
    WorkAnnounces (receiveView pcb) (payload.length + 1) (inputEstablished now header payload (.start pcb)) := by
  have acked : WorkAnnounces (receiveView pcb) 0 (if flagSet header.flags tcpFlagAck then
      establishedWindow (InputWork.start pcb).pcb.sndWnd header (establishedAck now header payload (.start pcb))
      else .start pcb) := by
    split
    · exact establishedWindow_shows header
        (establishedAck_shows now header payload (.start pcb) rfl)
    · exact .start pcb
  have taken := establishedFin_shows header payload
    (establishedData_shows header payload (establishedProbe_shows header payload acked))
  rwa [Nat.zero_add] at taken

theorem finWaitData_shows (shows : WorkAnnounces base limit work) :
    WorkAnnounces base (limit + payload.length) (finWaitData header payload work) := by
  unfold finWaitData
  split
  · exact shows.take acceptPayload_widens
  · exact shows.mono (Nat.le_add_right _ _)

theorem receiveView_finWait1Ack : receiveView (finWait1Ack now header pcb).1 = receiveView pcb := by
  have acked : receiveView (tcpTxAckReceivedLocked now pcb header.ackNum) = receiveView pcb :=
    receiveView_tcpTxAck
  unfold finWait1Ack
  split
  · simp only
    split
    · exact acked
    · exact acked
  · rfl

theorem finWait1Fin_shows (shows : WorkAnnounces base limit work) :
    WorkAnnounces base (limit + 1) (finWait1Fin header payload work) := by
  unfold finWait1Fin
  simp only
  split
  · split
    · exact shows.reply.mono (Nat.le_succ _)
    · split
      · exact shows.take ⟨1, Nat.le_refl _, takeFin_widens⟩
      · exact shows.mono (Nat.le_succ _)
  · exact shows.mono (Nat.le_succ _)

theorem inputFinWait1_shows :
    WorkAnnounces (receiveView pcb) (payload.length + 1) (inputFinWait1 now header payload (.start pcb)) := by
  simp only [inputFinWait1]
  have acked : WorkAnnounces (receiveView pcb) 0
      ((InputWork.start pcb).update (finWait1Ack now header (InputWork.start pcb).pcb).1) :=
    (WorkAnnounces.start pcb).congr (receiveView_finWait1Ack now header) rfl rfl
  have taken := finWait1Fin_shows header payload (finWaitData_shows header payload acked)
  rw [Nat.zero_add] at taken
  split
  · split
    · exact taken.congr rfl rfl rfl
    · exact taken.congr rfl rfl rfl
  · exact taken

theorem inputFinWait2_shows :
    WorkAnnounces (receiveView pcb) (payload.length + 1) (inputFinWait2 now header payload (.start pcb)) := by
  simp only [inputFinWait2]
  have taken := finWaitData_shows header payload (.start pcb)
  rw [Nat.zero_add] at taken
  split
  · exact taken.take ⟨1, Nat.le_refl _, takeFin_widens⟩
  · exact taken.mono (Nat.le_succ _)

theorem repeatedFin_shows (shows : WorkAnnounces base limit work) :
    WorkAnnounces base limit (repeatedFin header payload work) := by
  unfold repeatedFin
  split
  · exact shows.reply
  · exact shows

theorem inputTimeWait_shows (shows : WorkAnnounces base limit work) :
    WorkAnnounces base limit (inputTimeWait now header work) := by
  unfold inputTimeWait
  split
  · exact shows.reply.congr rfl rfl rfl
  · exact shows

end

variable {start : ReceiveView} {work : InputWork} {before pcb : Pcb} {more : Nat} {after : Option Pcb}

theorem WorkAnnounces.advertised {limit : Nat} (shows : WorkAnnounces start limit work)
    (addressed : start.Addressed) :
    Advertised limit start (work.rexmit.toList ++ work.out.toList) (receiveView work.pcb) := by
  have first : Advertised limit start work.rexmit.toList start :=
    .of_forall fun packet member => shows.rexmit packet (Option.mem_toList.mp member)
  refine first.append ?_
  cases built : work.out with
  | none =>
    rw [shows.quiet addressed built]
    exact .refl limit _
  | some packet =>
    obtain ⟨advance, bound, widens⟩ := shows.reach
    exact .segment bound widens (shows.out packet built).2 (.refl limit _)

theorem WorkAnnounces.shown {limit : Nat} (shows : WorkAnnounces start limit work) :
    ∀ packet ∈ work.rexmit.toList ++ work.out.toList, ∃ view, Announces packet view := by
  intro packet member
  rcases List.mem_append.mp member with resent | replied
  · exact ⟨_, shows.rexmit packet (Option.mem_toList.mp resent)⟩
  · exact ⟨_, (shows.out packet (Option.mem_toList.mp replied)).2⟩

theorem later_of_moves {strict closer : Prop} {after : Pcb} (moves : Moves strict closer now before after)
    (later : ¬before.state.handshaking) :
    ¬after.state.handshaking ∧ (after.state = .established → before.state = .established) := by
  have path : ∀ view, Relation.ReflTransGen (SendMove strict closer now) (sendView before) view →
      ¬view.state.handshaking ∧ (view.state = .established → before.state = .established) := by
    intro view steps
    induction steps with
    | refl => exact ⟨later, id⟩
    | tail _ move ih =>
      cases move with
      | handshake state => exact absurd state ih.1
      | establish una nxt state => exact absurd state ih.1
      | peerFin state => exact ⟨by simp [TcpState.handshaking], by simp⟩
      | finish _ state =>
        rcases state with closed | closed | closed
        all_goals
          rw [closed]
          exact ⟨by decide, by simp⟩
      | fin drained free =>
        simp only [SendView.armed, TcpState.afterFin]
        split
        all_goals exact ⟨by decide, by simp⟩
      | pendingFin state drained pending next =>
        simp only [SendView.armed]
        rcases next with ⟨_, rfl⟩ | ⟨_, rfl⟩
        · simp only [TcpState.afterFin]
          split
          all_goals exact ⟨by decide, by simp⟩
        · exact ih
      | _ => exact ih
  exact path _ moves.path

variable {packets : List (List UInt8)}

theorem Advertised.mono {limit : Nat} (fewer : limit ≤ more) {before after : ReceiveView}
    (advertised : Advertised limit before packets after) : Advertised more before packets after := by
  induction advertised with
  | done still => exact .done still
  | segment bound widens shows _ ih => exact .segment (bound.trans fewer) widens shows ih

theorem Section.mono {limit : Nat} (fewer : limit ≤ more) (section_ : Section limit before after packets) :
    Section more before after packets := by
  refine ⟨section_.state, section_.shown, fun addressed => ?_⟩
  obtain ⟨view, advertised, views⟩ := section_.advertised addressed
  exact ⟨view, advertised.mono fewer, views⟩

theorem finishInput_built : (finishInput work).packets.reverse = work.rexmit.toList ++ work.out.toList := by
  simp only [finishInput, List.reverse_append]
  cases work.rexmit <;> cases work.out <;> rfl

theorem reply_rexmit {flags : BitVec 16} : (reply work flags).rexmit = work.rexmit := by
  unfold reply
  split <;> rfl

theorem Section.of_work {limit : Nat} (shows : WorkAnnounces (receiveView pcb) limit work)
    (state : ∀ kept ∈ after, ¬kept.state.handshaking ∧ (kept.state = .established → pcb.state = .established))
    (view : ∀ kept ∈ after, receiveView kept = receiveView work.pcb)
    (built : packets = work.rexmit.toList ++ work.out.toList) : Section limit pcb after packets := by
  subst built
  exact ⟨state, shows.shown, fun addressed => ⟨_, shows.advertised addressed, view⟩⟩

theorem tcpInputLocked_leaves (later : ¬pcb.state.handshaking) :
    Section (payload.length + 1) pcb (tcpInputLocked now header payload pcb).pcb
      (tcpInputLocked now header payload pcb).packets.reverse := by
  have state : ∀ after ∈ (tcpInputLocked now header payload pcb).pcb,
      ¬after.state.handshaking ∧ (after.state = .established → pcb.state = .established) := by
    intro after kept
    have moves : Moves False True now pcb after := tcpInputLocked_moves header payload
      (fun handshaking => absurd handshaking later) False.elim kept
    exact later_of_moves moves later
  have started : WorkAnnounces (receiveView pcb) (payload.length + 1) (.start pcb) :=
    (WorkAnnounces.start pcb).mono (Nat.zero_le _)
  have finish : ∀ work, WorkAnnounces (receiveView pcb) (payload.length + 1) work → (∀ after ∈ (finishInput work).pcb,
        ¬after.state.handshaking ∧ (after.state = .established → pcb.state = .established)) →
      Section (payload.length + 1) pcb (finishInput work).pcb (finishInput work).packets.reverse := by
    intro work shows kept
    exact .of_work shows kept (by rintro after ⟨⟩; rfl) finishInput_built
  revert state
  simp only [tcpInputLocked]
  split
  · intro state
    exact .silent later rfl rfl
  split
  · intro state
    refine .steady state ?_ (by simp [inputReset])
    simp only [inputReset]
    split
    · rintro after ⟨⟩
    · rintro after ⟨⟩
      rfl
  · split
    next state => exact absurd (.inl state) later
    next state => exact absurd (.inr state) later
    · exact finish _ (inputEstablished_shows now header payload)
    · exact finish _ (inputFinWait1_shows now header payload)
    · exact finish _ (inputFinWait2_shows now header payload)
    · exact finish _ (repeatedFin_shows header payload started)
    · have repeated := repeatedFin_shows header payload started
      simp only [inputLastAck]
      split
      · intro state
        have alone : (repeatedFin header payload (.start pcb)).rexmit = none := by
          unfold repeatedFin
          split
          · exact reply_rexmit
          · rfl
        refine .of_work repeated state ?_ ?_
        · split
          · rintro after ⟨⟩
            rfl
          · rintro after ⟨⟩
        · rw [alone, Option.toList_none, List.nil_append]
          cases (repeatedFin header payload (.start pcb)).out <;> rfl
      · exact finish _ repeated
    · exact finish _ (inputTimeWait_shows now header started)
    · exact finish _ started

theorem runFrame_leaves {limit : Nat} {allocated : Bool} {listener : Pcb} {frame : Frame}
    (later : ¬pcb.state.handshaking) : Section limit pcb (runFrame now allocated listener pcb frame).pcb
      (runFrame now allocated listener pcb frame).output.packets := by
  cases frame with
  | sendCheck buffer accepted => exact .silent later rfl rfl
  | sendCopy buffer accepted requested =>
    simp only [runFrame, runSendCopy]
    split
    · exact .silent later rfl rfl
    split
    · exact .silent later rfl rfl
    · split
      · exact .silent later rfl rfl
      · exact .silent later rfl rfl
  | drainEnter next =>
    simp only [runFrame]
    split
    · exact .silent later rfl rfl
    next result entered => exact drainEnter_leaves later entered
  | drainLoop next => exact drainIteration_leaves now allocated later
  | closeResume expected => exact closeAfterDrain_leaves now expected later
  | shutdownResume => exact shutdownAfterDrain_leaves now later
  | enqueue =>
    simp only [runFrame, tcpAcceptEnqueue]
    split
    · exact .silent later rfl rfl
    · exact .freed pcb

def builtPackets : Action → List (List UInt8) → List (List UInt8)
  | .input _ _ _, packets => packets.reverse
  | _, packets => packets

theorem mem_builtPackets {action : Action} {packet : List UInt8} :
    packet ∈ builtPackets action packets ↔ packet ∈ packets := by
  cases action <;> simp [builtPackets]

def Action.limit : Action → Nat
  | .input _ _ segment => segment.length
  | _ => 0

theorem tcpDecode_payload {srcIp destIp : BitVec 32} {segment : List UInt8}
    (decoded : tcpDecode srcIp destIp segment = some (header, payload)) : payload.length + 1 ≤ segment.length := by
  unfold tcpDecode at decoded
  split at decoded
  · cases decoded
  split at decoded
  · cases decoded
  obtain ⟨parsed, _, rest⟩ := Option.bind_eq_some_iff.mp decoded
  simp only at rest
  split at rest
  · cases rest
  rename_i fits
  cases rest
  rw [tcpHeaderMinSize] at fits
  rw [List.length_drop]
  omega

theorem startClose_result {frames : List Frame} {next : DrainReturn} {start : CloseStart} :
    (startClose frames next start).conn.pcb = start.pcb ∧
      (startClose frames next start).output.packets = start.packets := by
  cases start <;> exact ⟨rfl, rfl⟩

theorem stepPcb_leaves (now : BitVec 64) (frames : List Frame) (action : Action) (later : ¬pcb.state.handshaking) :
    Section action.limit pcb (stepPcb now pcb frames action).conn.pcb
      (builtPackets action (stepPcb now pcb frames action).output.packets) := by
  cases action with
  | send buffer => exact .silent later rfl rfl
  | drain => exact .silent later rfl rfl
  | read length => exact tcpReceiveRead_leaves later
  | shutdown how =>
    simp only [stepPcb, builtPackets, startClose_result]
    exact tcpShutdownStart_leaves now later
  | close =>
    simp only [stepPcb, builtPackets, startClose_result]
    exact tcpCloseStart_leaves now later
  | accept =>
    refine .silent later ?_ ?_
    · unfold acceptChild
      split <;> rfl
    · unfold acceptChild
      split <;> rfl
  | input srcIp destIp segment =>
    simp only [stepPcb, builtPackets]
    split
    · exact .silent later rfl rfl
    next header payload decoded => exact (tcpInputLocked_leaves later).mono (tcpDecode_payload decoded)
  | tick deferred dead => exact tcpTimerTickPcb_leaves now later
  | resume index allocated listener =>
    simp only [stepPcb, builtPackets]
    split
    · exact .silent later rfl rfl
    · exact runFrame_leaves later

end PhotonOS
