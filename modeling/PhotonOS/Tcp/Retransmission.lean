import PhotonOS.Tcp.ConnInv

/-!
The retransmission timer over whole runs.
-/

namespace PhotonOS

open Serial

def SendView.ticking (view : SendView) : Prop := view.timerRto = true ∧ view.retransmission ≠ 0

structure TimerInv (view : SendView) : Prop where
  ticks : 0 < view.rtoTicks.toNat ∧ view.rtoTicks.toNat ≤ 1000
  queued : view.state.sending → view.txBuf.unacked.entries ≠ [] → view.ticking
  closing : view.state = .finWait1 ∨ view.state = .lastAck → view.ticking

variable {now : BitVec 64} {ticks : BitVec 32} {view : SendView} {before after pcb : Pcb} {conn : Conn} {closer : Prop}

theorem ticksAfter_ne_zero (clock : now.toNat + 1000 < 2 ^ 64) (positive : 0 < ticks.toNat)
    (bounded : ticks.toNat ≤ 1000) : ticksAfter now ticks ≠ 0 := by
  intro zero
  have value := congrArg BitVec.toNat zero
  rw [ticksAfter, BitVec.toNat_add, BitVec.toNat_setWidth, Nat.mod_eq_of_lt (by omega),
    Nat.mod_eq_of_lt (by omega)] at value
  change now.toNat + ticks.toNat = 0 at value
  omega

theorem dataTicks_bounds : 0 < tcpDataRtoTicksDefault.toNat ∧ tcpDataRtoTicksDefault.toNat ≤ 1000 := by decide

theorem TimerInv.congr {other : SendView} (inv : TimerInv view) (state : other.state = view.state)
    (queue : other.txBuf.unacked.entries = [] ↔ view.txBuf.unacked.entries = [])
    (flag : other.timerRto = view.timerRto) (deadline : other.retransmission = view.retransmission)
    (ticks : other.rtoTicks = view.rtoTicks) : TimerInv other := by
  obtain ⟨bounds, queued, closing⟩ := inv
  refine ⟨by rwa [ticks], fun sending pending => ?_, fun closed => ?_⟩
  · rw [SendView.ticking, flag, deadline]
    exact queued (state ▸ sending) (fun empty => pending (queue.mpr empty))
  · rw [SendView.ticking, flag, deadline]
    exact closing (state ▸ closed)

theorem TimerInv.of_ticking (ticks : view.rtoTicks = tcpDataRtoTicksDefault) (ticking : view.ticking) :
    TimerInv view :=
  ⟨by rw [ticks]; exact dataTicks_bounds, fun _ _ => ticking, fun _ => ticking⟩

theorem TimerInv.of_idle (ticks : 0 < view.rtoTicks.toNat ∧ view.rtoTicks.toNat ≤ 1000)
    (idle : view.state.sending → view.txBuf.unacked.entries = [])
    (open_ : view.state ≠ .finWait1 ∧ view.state ≠ .lastAck) : TimerInv view :=
  ⟨ticks, fun sending pending => absurd (idle sending) pending,
    fun closed => closed.elim (fun state => absurd state open_.1) (fun state => absurd state open_.2)⟩

theorem backoff_bounded (bounds : 0 < view.rtoTicks.toNat ∧ view.rtoTicks.toNat ≤ 1000)
    (bounded : ticks = tcpMaxRtoTicks ∨ ticks = view.rtoTicks * 2 ∧ ¬view.rtoTicks * 2 > tcpMaxRtoTicks) :
    0 < ticks.toNat ∧ ticks.toNat ≤ 1000 := by
  rcases bounded with rfl | ⟨rfl, below⟩
  · decide
  have limit : tcpMaxRtoTicks.toNat = 1000 := rfl
  have doubled : (view.rtoTicks * 2).toNat = view.rtoTicks.toNat * 2 := by
    exact Nat.mod_eq_of_lt (by change view.rtoTicks.toNat * 2 < 2 ^ 32; omega)
  rw [gt_iff_lt, BitVec.lt_def, limit, doubled] at below
  omega

theorem timerInv_of_move {after : SendView} (move : SendMove True closer now view after)
    (clock : now.toNat + 1000 < 2 ^ 64) (state : StateInv view) (inv : TimerInv view) : TimerInv after := by
  have running := ticksAfter_ne_zero clock dataTicks_bounds.1 dataTicks_bounds.2
  cases move with
  | handshake handshaking => exact inv.congr rfl Iff.rfl rfl rfl rfl
  | establish una nxt handshaking unaEq nxtEq =>
    obtain ⟨_, _, fresh, _⟩ := state.handshaking handshaking
    refine TimerInv.of_idle dataTicks_bounds (fun _ => ?_) (by simp)
    change view.txBuf.unacked.entries = []
    rw [fresh]
    rfl
  | ack ack established beyond moved stale =>
    refine ⟨dataTicks_bounds, fun _ pending => ?_, ?_⟩
    · have some := List.isEmpty_eq_false_iff.mpr pending
      change (releaseAcked _ _ _ _).entries.isEmpty = false at some
      exact ⟨by simp [SendView.afterAck, some], by simpa [SendView.afterAck, some] using running⟩
    · intro closed
      change view.state = .finWait1 ∨ view.state = .lastAck at closed
      rw [established] at closed
      simp at closed
  | finWaitAck ack finWait1 below moved stale beyond pending =>
    have flag := pending trivial
    refine TimerInv.of_ticking rfl ⟨flag, ?_⟩
    simp only [SendView.afterAck, Bool.not_eq_true'] at flag ⊢
    simpa [flag] using running
  | peerFin established => refine ⟨inv.ticks, fun _ pending => inv.queued (Or.inl established) pending, by simp⟩
  | finish _ finished ticks pendingKept shutKept =>
    refine TimerInv.of_idle ?_ ?_ ?_
    · rcases ticks with same | fresh
      · rw [same]
        exact inv.ticks
      · rw [fresh]
        exact dataTicks_bounds
    · rcases finished with state | state | state <;> simp [TcpState.sending, state]
    · rcases finished with state | state | state <;> simp [state]
  | backoff ticks bounded =>
    have bounds := backoff_bounded inv.ticks bounded
    have deadline := ticksAfter_ne_zero clock bounds.1 bounds.2
    exact ⟨bounds, fun sending pending => ⟨(inv.queued sending pending).1, deadline⟩,
      fun closed => ⟨(inv.closing closed).1, deadline⟩⟩
  | rearm => exact TimerInv.of_ticking rfl ⟨rfl, running⟩
  | retransmit head sent rest queue same =>
    refine inv.congr rfl ?_ rfl rfl rfl
    rw [queue]
    simp
  | disarm sending empty =>
    refine TimerInv.of_idle inv.ticks (fun _ => empty) ?_
    rcases sending with state | state <;> simp [state]
  | append segment sending positive fits => exact inv.congr rfl Iff.rfl rfl rfl rfl
  | transmit unsent segment sending sequence positive unsentBytes unsentTotal unsentPositive =>
    by_cases empty : view.txBuf.unacked.entries = []
    · simp only [empty, if_true]
      exact TimerInv.of_ticking rfl ⟨rfl, running⟩
    · simp only [empty, if_false]
      refine ⟨inv.ticks, fun _ _ => inv.queued sending empty, ?_⟩
      rcases sending with state | state <;> simp [state]
  | fin drained free => exact TimerInv.of_ticking rfl ⟨rfl, running⟩
  | pendingFin next drained pending followed => exact TimerInv.of_ticking rfl ⟨rfl, running⟩
  | setFinPending closing queued => exact inv.congr rfl Iff.rfl rfl rfl rfl
  | clearFinPending => exact inv.congr rfl Iff.rfl rfl rfl rfl
  | setShutWr closing => exact inv.congr rfl Iff.rfl rfl rfl rfl

theorem timerInv_of_moves (moves : Moves True closer now before after)
    (clock : now.toNat + 1000 < 2 ^ 64) (state : StateInv (sendView before)) (inv : TimerInv (sendView before)) :
    TimerInv (sendView after) := by
  refine moves.path.head_induction_on
    (motive := fun view _ => StateInv view → TimerInv view → TimerInv (sendView after))
    (fun _ timer => timer) ?_ state inv
  intro view next move _ ih stateHere timerHere
  exact ih (stateInv_of_move move stateHere) (timerInv_of_move move clock stateHere timerHere)

/-- The tick counter is not about to wrap, and an acknowledgement in FIN_WAIT1 of everything but the FIN
brings nothing new. -/
def TimerSafe (conn : Conn) (event : Event) : Prop :=
  event.now.toNat + 1000 < 2 ^ 64 ∧
    ∀ pcb srcIp destIp segment header payload, conn.pcb = some pcb → pcb.state = .finWait1 →
      event.action = .input srcIp destIp segment → tcpDecode srcIp destIp segment = some (header, payload) →
      flagSet header.flags tcpFlagRst = false → flagSet header.flags tcpFlagAck = true →
      header.ackNum = pcb.sndNxt - 1 → header.ackNum = pcb.sndUna

theorem finWaitAck_pending {ack : BitVec 32} (outstanding : Outstanding view 1) (moved : ack ≠ view.sndUna)
    (below : ge ack view.sndNxt = false) (stale : lt ack view.sndUna = false)
    (partly : ack ≠ view.sndNxt - 1) : (view.afterAck now ack).timerRto = true := by
  have small := outstanding.small
  have beyond : gt ack view.sndNxt = false := by
    rw [gt_iff_not_le, Bool.not_eq_false']
    rw [ge_iff_not_lt, Bool.not_eq_false', lt_iff] at below
    exact (le_iff _ _).mpr (Or.inr below)
  have distance := newAck_distance (by omega) outstanding.next beyond moved
    stale
  have position := offset_sub_toNat view.sndUna ack
  have notFin : (ack - view.sndUna).toNat ≠ totalLength view.txBuf.unacked.entries + 1 := by
    intro whole
    rw [whole, ← outstanding.next] at position
    simp [← position, ge_iff_not_lt] at below
  have notData : (ack - view.sndUna).toNat ≠ totalLength view.txBuf.unacked.entries := by
    intro data
    rw [data] at position
    apply partly
    rw [outstanding.next, ← offset_add, position]
    simp
  obtain ⟨remaining, total⟩ := outstanding.afterAck now ack (by omega)
  have some : ¬(view.afterAck now ack).txBuf.unacked.entries = [] := by
    rw [← contiguous_entries_nil _ remaining.contiguous]
    omega
  change (!(releaseAcked _ _ _ _).entries.isEmpty) = true
  rw [Bool.not_eq_true', List.isEmpty_eq_false_iff]
  exact some

theorem Frame.closing_of_finishing (frame : Frame) (finishing : frame.finishing = true) : frame.closing = true := by
  cases frame <;> first | rfl | contradiction

theorem connStep_moves {event : Event} (inv : ConnInv conn) (safe : TimerSafe conn event)
    (found : conn.pcb = some before) (kept : (connStep conn event).pcb = some after) :
    Moves True True event.now before after := by
  obtain ⟨now, action⟩ := event
  have start := inv.pcb before found
  simp only [connStep, stepConn, found] at kept
  cases action with
  | send buffer | drain =>
    cases kept
    exact Moves.refl before
  | read length =>
    cases kept
    exact Moves.of_quiet (tcpReceiveRead_quiet before length)
  | shutdown how =>
    rw [stepPcb, startClose_pcb] at kept
    exact tcpShutdownStart_moves trivial kept
  | close =>
    rw [stepPcb, startClose_pcb] at kept
    exact tcpCloseStart_moves trivial (fun unshut => (start.unshut unshut).2) kept
  | accept =>
    cases kept
    exact Moves.of_quiet acceptChild_quiet
  | input srcIp destIp segment =>
    simp only [stepPcb] at kept
    split at kept
    · cases kept
      exact Moves.refl before
    rename_i header payload decoded
    refine tcpInputLocked_moves header payload (fun _ => start.recorded) ?_ kept
    intro _ finWait1 valid acked moved below stale
    refine finWaitAck_pending (start.state.finWait1 finWait1).1 moved
      below stale ?_
    intro last
    exact moved (safe.2 before srcIp destIp segment header payload found finWait1 rfl decoded valid acked last)
  | tick deferred dead => exact tcpTimerTickPcb_moves kept
  | resume index allocated listener =>
    simp only [stepPcb] at kept
    split at kept
    · cases kept
      exact Moves.refl before
    rename_i frame frameFound
    refine runFrame_moves True True
      (inv.valid frame (List.mem_of_getElem? frameFound)) start.state ?_ kept
    intro finishing
    exact ⟨trivial, start.free (List.countP_pos_iff.mpr
      ⟨frame, List.mem_of_getElem? frameFound, frame.closing_of_finishing finishing⟩)⟩

structure TimedInv (conn : Conn) : Prop where
  base : ConnInv conn
  timer : ∀ pcb, conn.pcb = some pcb → TimerInv (sendView pcb)

theorem connStep_timed (conn : Conn) (event : Event) (safe : TimerSafe conn event) (inv : TimedInv conn) :
    TimedInv (connStep conn event) := by
  refine ⟨connStep_inv conn event inv.base, fun after kept => ?_⟩
  cases found : conn.pcb with
  | none =>
    simp only [connStep, stepConn, found] at kept
    contradiction
  | some before =>
    exact timerInv_of_moves (connStep_moves inv.base safe found kept) safe.1
      (inv.base.pcb before found).state (inv.timer before found)

theorem handshaking_timer {built : Pcb} {flags : BitVec 16} {packet : List UInt8}
    (state : pcb.state.handshaking) (ticks : pcb.timers.rtoTicks = tcpRtoTicksDefault)
    (sent : tcpBuildOutputLocked pcb flags [] = some (built, packet)) :
    built.state.handshaking ∧ built.timers.rtoTicks = tcpRtoTicksDefault := by
  obtain ⟨view, _⟩ := sendView_tcpBuildOutputLocked sent
  have kept : built.state = pcb.state := congrArg SendView.state view
  exact ⟨kept ▸ state, (congrArg SendView.rtoTicks view).trans ticks⟩

theorem created_timer (created : Created pcb) : TimerInv (sendView pcb) := by
  have opened : pcb.state.handshaking ∧ pcb.timers.rtoTicks = tcpRtoTicksDefault := by
    cases created with
    | connect now sendNow localPort remotePort remoteIp pcb packet sent =>
      simp only [sysConnect, tcpOutput] at sent
      split at sent
      · contradiction
      split at sent
      · contradiction
      rename_i built syn found
      obtain ⟨state, ticks⟩ := handshaking_timer (Or.inl rfl) rfl found
      rw [if_pos (by decide), ticks] at sent
      simp only [Option.some.injEq, Prod.mk.injEq] at sent
      rw [← sent.1]
      exact ⟨state, rfl⟩
    | child now listener srcIp destIp remotePort sequence pcb packet sent =>
      simp only [tcpHandleListenSyn] at sent
      split at sent
      · contradiction
      · exact handshaking_timer (Or.inr rfl) rfl sent
  obtain ⟨state, ticks⟩ := opened
  refine TimerInv.of_idle ?_ ?_ ?_
  · simp only [sendView, ticks]
    exact dataTicks_bounds
  · rcases state with state | state <;> simp [sendView, TcpState.sending, state]
  · rcases state with state | state <;> simp [sendView, state]

/-- No sequence space is outstanding without a running retransmission timer, in any run whose events are
all `TimerSafe`. -/
theorem outstanding_timer_running (start : Pcb) (created : Created start) (events : List Event)
    (safe : Transition.Admissible connStep TimerSafe { pcb := some start, frames := [] } events)
    (pcb : Pcb)
    (reached : (Transition.run connStep { pcb := some start, frames := [] } events).pcb = some pcb)
    (synchronized : pcb.state = .established ∨ pcb.state = .closeWait ∨ pcb.state = .finWait1 ∨
      pcb.state = .lastAck) (outstanding : pcb.sndUna ≠ pcb.sndNxt) :
    pcb.flags.timerRto = true ∧ pcb.timers.retransmission ≠ 0 := by
  have inv : TimedInv (Transition.run connStep { pcb := some start, frames := [] } events) := by
    refine Transition.run_invariant_of_admissible connStep TimerSafe TimedInv connStep_timed events _
      ⟨reachable_inv _ ⟨start, [], created, rfl⟩, fun pcb found => ?_⟩ safe
    cases found
    exact created_timer created
  have timer := inv.timer pcb reached
  have sending : pcb.state.sending → (sendView pcb).ticking := by
    intro state
    refine timer.queued state (fun empty => outstanding ?_)
    have next := ((inv.base.pcb pcb reached).state.sending state).next
    rw [empty] at next
    simpa [sendView] using next.symm
  rcases synchronized with state | state | state | state
  · exact sending (Or.inl state)
  · exact sending (Or.inr state)
  · exact timer.closing (Or.inl state)
  · exact timer.closing (Or.inr state)

def sampleFin : List Action :=
  let resume := Action.resume 0 true (tcpAlloc false)
  sampleSend ++ [.shutdown 1, resume, resume]

theorem finWait1_dataAck_stops_timer :
    ∃ conn pcb, Reachable conn ∧ conn.pcb = some pcb ∧ pcb.state = .finWait1 ∧ pcb.sndUna ≠ pcb.sndNxt ∧
      ¬(pcb.flags.timerRto = true ∧ pcb.timers.retransmission ≠ 0) := by
  have reached : (sampleConn (sampleFin ++ [sampleInput 501 1002 tcpFlagAck])).pcb.map
      (fun pcb => (pcb.state, pcb.sndUna, pcb.sndNxt, pcb.flags.timerRto)) = some (.finWait1, 1002, 1003, false) := by
    decide +kernel
  obtain ⟨pcb, found, equal⟩ := Option.map_eq_some_iff.mp reached
  simp only [Prod.mk.injEq] at equal
  obtain ⟨state, una, nxt, stopped⟩ := equal
  refine ⟨_, pcb, sampleConn_reachable, found, state, ?_, ?_⟩
  · rw [una, nxt]
    decide
  · rw [stopped]
    simp

theorem timerSafe_of_not_input {action : Action}
    (other : ∀ srcIp destIp segment, action ≠ .input srcIp destIp segment) :
    TimerSafe conn { now := 1, action := action } :=
  ⟨(by decide : (1 : BitVec 64).toNat + 1000 < 2 ^ 64),
    fun _ srcIp destIp segment _ _ _ _ input => absurd input (other srcIp destIp segment)⟩

theorem outstanding_timer_running_finWait1 :
    ∃ pcb, (sampleConn sampleFin).pcb = some pcb ∧ pcb.state = .finWait1 ∧ pcb.sndUna ≠ pcb.sndNxt ∧
      pcb.flags.timerRto = true ∧ pcb.timers.retransmission ≠ 0 := by
  obtain ⟨start, created, opened⟩ := sampleStart_created
  have reached : (sampleConn sampleFin).pcb.map (fun pcb => (pcb.state, pcb.sndUna, pcb.sndNxt)) =
      some (.finWait1, 1001, 1003) := by
    decide +kernel
  obtain ⟨pcb, found, equal⟩ := Option.map_eq_some_iff.mp reached
  simp only [Prod.mk.injEq] at equal
  obtain ⟨state, una, nxt⟩ := equal
  have pending : pcb.sndUna ≠ pcb.sndNxt := by
    rw [una, nxt]
    decide
  rw [sampleConn, opened] at found
  refine ⟨pcb, by rw [sampleConn, opened]; exact found, state, pending,
    outstanding_timer_running start created (sampleEvents sampleFin) ?_ pcb found
      (Or.inr (Or.inr (Or.inl state))) pending⟩
  -- the only input of this run meets the PCB in SYN_SENT
  have fresh : sampleStart.pcb.map (·.state) = some .synSent := by decide +kernel
  refine ⟨⟨by decide, fun pcb _ _ _ _ _ first finWait1 => ?_⟩, ?_⟩
  · rw [opened, first] at fresh
    simp [finWait1] at fresh
  · refine ⟨?_, ?_, ?_, ?_, ?_, ?_, ?_, ?_, ?_, trivial⟩ <;>
      exact timerSafe_of_not_input (by simp)

end PhotonOS
