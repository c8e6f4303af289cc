import PhotonOS.Tcp.StreamEnd
import PhotonOS.Tcp.UnsentAck

/-!
What a critical section advertises. Every segment shows the `rcv_nxt` and the
free receive space of the PCB at the moment it is built.
-/

namespace PhotonOS

variable {pcb : Pcb} {now : BitVec 64}

def ReceiveView.Addressed (view : ReceiveView) : Prop :=
  view.localPort ≠ 0 ∧ view.remoteIp ≠ 0 ∧ view.remotePort ≠ 0

/-- The receive side has taken `advance` sequence numbers and given back no announced space. -/
structure Widens (advance : Nat) (before after : ReceiveView) : Prop where
  localPort : after.localPort = before.localPort
  remoteIp : after.remoteIp = before.remoteIp
  remotePort : after.remotePort = before.remotePort
  rcvNxt : after.rcvNxt = before.rcvNxt + BitVec.ofNat 32 advance
  space : before.rxBuf.freeSpace ≤ advance + after.rxBuf.freeSpace
  capacity : after.rxBuf.capacity = before.rxBuf.capacity
  ring : before.rxBuf.WellFormed → after.rxBuf.WellFormed

theorem Widens.refl (view : ReceiveView) : Widens 0 view view :=
  ⟨rfl, rfl, rfl, (BitVec.add_zero _).symm, by omega, rfl, id⟩

theorem Widens.trans {left right : Nat} {first second third : ReceiveView} (near : Widens left first second)
    (far : Widens right second third) : Widens (left + right) first third := by
  refine ⟨far.localPort.trans near.localPort, far.remoteIp.trans near.remoteIp,
    far.remotePort.trans near.remotePort, ?_, ?_, far.capacity.trans near.capacity,
    fun ring => far.ring (near.ring ring)⟩
  · rw [far.rcvNxt, near.rcvNxt, BitVec.ofNat_add, BitVec.add_assoc]
  · have nearSpace := near.space
    have farSpace := far.space
    omega

variable {before : Pcb} {after middle : ReceiveView} {limit : Nat}

theorem Widens.addressed {advance : Nat} {before : ReceiveView} (widens : Widens advance before after) :
    after.Addressed ↔ before.Addressed := by
  rw [ReceiveView.Addressed, widens.localPort, widens.remoteIp, widens.remotePort, ReceiveView.Addressed]

def PlainFlags (flags : BitVec 16) : Prop :=
  flags = tcpFlagAck ∨ flags = tcpFlagAck ||| tcpFlagPsh ∨ flags = tcpFlagFin ||| tcpFlagAck

def Announces (packet : List UInt8) (view : ReceiveView) : Prop :=
  ∃ pcb sequence flags payload, packet = segmentPacket pcb sequence flags payload ∧ PlainFlags flags ∧
    receiveView pcb = view

/-- Segments in the order they are built: no step between two of them, nor up to the first or after the
last, moves the receive side to the left, and each takes at most `limit` numbers. -/
inductive Advertised (limit : Nat) : ReceiveView → List (List UInt8) → ReceiveView → Prop where
  | done {before after : ReceiveView} (still : Widens 0 before after) : Advertised limit before [] after
  | segment {before view after : ReceiveView} {advance : Nat} {packet : List UInt8}
      {rest : List (List UInt8)} (bound : advance ≤ limit) (widens : Widens advance before view)
      (shows : Announces packet view) (later : Advertised limit view rest after) :
      Advertised limit before (packet :: rest) after

theorem Advertised.refl (limit : Nat) (view : ReceiveView) : Advertised limit view [] view := .done (.refl view)

theorem Advertised.prepend {before : ReceiveView} {packets : List (List UInt8)} (still : Widens 0 before middle)
    (advertised : Advertised limit middle packets after) : Advertised limit before packets after := by
  cases advertised with
  | done rest => exact .done (still.trans rest)
  | segment bound widens shows later =>
    refine .segment bound ?_ shows later
    have both := still.trans widens
    rwa [Nat.zero_add] at both

theorem Advertised.append {before : ReceiveView} {first second : List (List UInt8)}
    (left : Advertised limit before first middle) (right : Advertised limit middle second after) :
    Advertised limit before (first ++ second) after := by
  induction left with
  | done still => exact right.prepend still
  | segment bound widens shows _ ih => exact .segment bound widens shows (ih right)

theorem Advertised.of_forall {view : ReceiveView} {packets : List (List UInt8)}
    (shows : ∀ packet ∈ packets, Announces packet view) : Advertised limit view packets view := by
  induction packets with
  | nil => exact .refl limit view
  | cons packet rest ih =>
    refine .segment (Nat.zero_le _) (.refl view) (shows packet List.mem_cons_self) (ih ?_)
    intro other member
    exact shows other (List.mem_cons_of_mem _ member)

structure Section (limit : Nat) (before : Pcb) (after : Option Pcb) (packets : List (List UInt8)) : Prop where
  state : ∀ pcb ∈ after, ¬pcb.state.handshaking ∧ (pcb.state = .established → before.state = .established)
  shown : ∀ packet ∈ packets, ∃ view, Announces packet view
  advertised : (receiveView before).Addressed → ∃ view, Advertised limit (receiveView before) packets view ∧
    ∀ pcb ∈ after, receiveView pcb = view

theorem Section.steady {after : Option Pcb} {packets : List (List UInt8)}
    (state : ∀ pcb ∈ after, ¬pcb.state.handshaking ∧ (pcb.state = .established → before.state = .established))
    (view : ∀ pcb ∈ after, receiveView pcb = receiveView before)
    (shows : ∀ packet ∈ packets, Announces packet (receiveView before)) : Section limit before after packets :=
  ⟨state, fun packet member => ⟨_, shows packet member⟩, fun _ => ⟨receiveView before, .of_forall shows, view⟩⟩

theorem Section.stay {after : Pcb} {packets : List (List UInt8)} (later : ¬before.state.handshaking)
    (state : after.state = before.state) (view : receiveView after = receiveView before)
    (shows : ∀ packet ∈ packets, Announces packet (receiveView before)) :
    Section limit before (some after) packets := by
  refine .steady ?_ ?_ shows
  · rintro pcb ⟨⟩
    rw [state]
    exact ⟨later, id⟩
  · rintro pcb ⟨⟩
    exact view

theorem Section.silent {after : Pcb} (later : ¬before.state.handshaking) (state : after.state = before.state)
    (view : receiveView after = receiveView before) : Section limit before (some after) [] :=
  .stay later state view (by simp)

theorem Section.freed (before : Pcb) : Section limit before none [] := .steady (by simp) (by simp) (by simp)

theorem Section.leave {after : Pcb} {packets : List (List UInt8)} (later : ¬after.state.handshaking)
    (left : after.state ≠ .established) (view : receiveView after = receiveView before)
    (shows : ∀ packet ∈ packets, Announces packet (receiveView before)) :
    Section limit before (some after) packets := by
  refine .steady ?_ ?_ shows
  · rintro pcb ⟨⟩
    exact ⟨later, fun established => absurd established left⟩
  · rintro pcb ⟨⟩
    exact view

theorem Section.prepend {middle : Pcb} {after : Option Pcb} {packets : List (List UInt8)}
    (state : middle.state = before.state) (still : Widens 0 (receiveView before) (receiveView middle))
    (later : Section limit middle after packets) : Section limit before after packets := by
  refine ⟨?_, later.shown, fun addressed => ?_⟩
  · rw [← state]
    exact later.state
  · obtain ⟨view, advertised, views⟩ := later.advertised (still.addressed.mpr addressed)
    exact ⟨view, advertised.prepend still, views⟩

section

variable {built : Pcb} {flags : BitVec 16} {payload packet : List UInt8}

theorem addressed_of_build (sent : tcpBuildOutputLocked pcb flags payload = some (built, packet)) :
    (receiveView pcb).Addressed := by
  rw [tcpBuildOutputLocked] at sent
  split at sent
  · cases sent
  next addressed =>
    exact ⟨fun zero => addressed (.inl zero), fun zero => addressed (.inr (.inl zero)),
      fun zero => addressed (.inr (.inr zero))⟩

theorem shows_of_build (plain : PlainFlags flags) (sent : tcpBuildOutputLocked pcb flags [] = some (built, packet)) :
    ∀ other ∈ [packet], Announces other (receiveView pcb) :=
  List.forall_mem_singleton.mpr ⟨pcb, _, flags, [], tcpBuildOutputLocked_packet sent, plain, rfl⟩

variable (now : BitVec 64)

@[simp] theorem receiveView_backoffRto : receiveView (backoffRto now pcb) = receiveView pcb := rfl

theorem retransmitHead_shows (pcb : Pcb) : receiveView (retransmitHead now pcb).1 = receiveView pcb ∧
      ∀ packet ∈ (retransmitHead now pcb).2, Announces packet (receiveView pcb) := by
  unfold retransmitHead
  split
  · exact ⟨rfl, by simp⟩
  · refine ⟨rfl, ?_⟩
    rintro packet ⟨⟩
    exact ⟨pcb, _, _, _, rfl, .inr (.inl rfl), rfl⟩

theorem congestionTimeout_frame (pcb : Pcb) :
    receiveView (congestionTimeout pcb) = receiveView pcb ∧ (congestionTimeout pcb).state = pcb.state := by
  simp only [congestionTimeout]
  split <;> split <;> exact ⟨rfl, rfl⟩

end

section

variable {limit : Nat}

theorem transmitSegment_leaves {unsent : TcpQueue} {segment : TcpSegment} (later : ¬pcb.state.handshaking) :
    Section limit pcb (some (transmitSegment now pcb unsent segment).pcb)
      (transmitSegment now pcb unsent segment).packet.toList := by
  have frame : receiveView (transmitSegment now pcb unsent segment).pcb = receiveView pcb ∧
      (transmitSegment now pcb unsent segment).pcb.state = pcb.state ∧
      ∀ packet ∈ (transmitSegment now pcb unsent segment).packet, Announces packet (receiveView pcb) := by
    simp only [transmitSegment]
    split
    · refine ⟨rfl, rfl, ?_⟩
      rintro packet ⟨⟩
      exact ⟨_, _, _, _, rfl, .inr (.inl rfl), rfl⟩
    · refine ⟨rfl, rfl, ?_⟩
      rintro packet ⟨⟩
      exact ⟨_, _, _, _, rfl, .inr (.inl rfl), rfl⟩
  exact .stay later frame.2.1 frame.1 (fun packet member => frame.2.2 packet (Option.mem_toList.mp member))

theorem drainFin_leaves (later : ¬pcb.state.handshaking) :
    Section limit pcb (some (drainFin now pcb).pcb) (drainFin now pcb).packet.toList := by
  simp only [drainFin]
  split
  · split
    · exact .silent later rfl rfl
    rename_i built packet sent
    obtain ⟨view, state⟩ := receiveView_tcpBuildOutputLocked sent
    obtain ⟨left, kinds⟩ := finSent_state rfl
    have quiet : ∀ next : TcpState, (next = .finWait1 ∨ next = .lastAck ∨ next = built.state) →
        ¬next.handshaking := by
      rintro next (rfl | rfl | rfl)
      · decide
      · decide
      · exact state ▸ later
    have shown := shows_of_build (.inr (.inr rfl)) sent
    exact .leave (quiet _ kinds) left view shown
  · exact .silent later rfl rfl

theorem drainIteration_leaves (now : BitVec 64) (allocated : Bool) (later : ¬pcb.state.handshaking) :
    Section limit pcb (some (drainIteration now allocated pcb).pcb)
      (drainIteration now allocated pcb).packet.toList := by
  rcases drainIteration_kinds with ⟨_, fin⟩ | ⟨after, kinds, stops⟩ | ⟨unsent, segment, _, sends⟩
  · rw [fin]
    exact drainFin_leaves later
  · rw [stops]
    refine .silent later (stopDraining_carried kinds).2 ?_
    rcases kinds with rfl | rfl
    · rfl
    · simp only [stopDraining, armPersist]
      split <;> rfl
  · rw [sends]
    exact transmitSegment_leaves later

theorem drainEnter_leaves {allocated : Bool} {result : DrainResult} (later : ¬pcb.state.handshaking)
    (entered : drainEnter now allocated pcb = some result) :
    Section limit pcb (some result.pcb) result.packet.toList := by
  unfold drainEnter at entered
  split at entered
  · cases entered
  · cases entered
    have iteration : Section limit { pcb with flags := { pcb.flags with draining := true } } _ _ :=
      drainIteration_leaves now allocated later
    exact ⟨iteration.state, iteration.shown, iteration.advertised⟩

end

section

variable {pcb : Pcb} (now : BitVec 64) {limit : Nat}

theorem sendFin_leaves {state : TcpState} (later : ¬pcb.state.handshaking) (closing : ¬state.handshaking)
    (left : state ≠ .established) : Section limit pcb (some (sendFin now pcb state).1) (sendFin now pcb state).2 := by
  unfold sendFin
  split
  · exact .silent later rfl rfl
  rename_i built packet sent
  exact .leave closing left (receiveView_tcpBuildOutputLocked sent).1 (shows_of_build (.inr (.inr rfl)) sent)

theorem closeAfterDrain_leaves (expected : TcpState) (later : ¬pcb.state.handshaking) :
    Section limit pcb (some (closeAfterDrain now expected pcb).1) (closeAfterDrain now expected pcb).2 := by
  unfold closeAfterDrain
  split
  · exact .silent later rfl rfl
  · split
    · exact .silent later rfl rfl
    · apply sendFin_leaves now later <;> split <;> decide

theorem shutdownAfterDrain_leaves (later : ¬pcb.state.handshaking) :
    Section limit pcb (some (shutdownAfterDrain now pcb).1) (shutdownAfterDrain now pcb).2 := by
  unfold shutdownAfterDrain
  split
  · exact .silent later rfl rfl
  · split
    · exact .silent later rfl rfl
    · apply sendFin_leaves now later <;> split <;> decide

def CloseStart.packets : CloseStart → List (List UInt8)
  | .returned _ packets => packets
  | .freed | .draining _ => []

section

variable (later : ¬pcb.state.handshaking)
include later

theorem closeWriting_leaves : Section limit pcb (closeWriting now pcb).pcb (closeWriting now pcb).packets := by
  unfold closeWriting
  split
  · exact .silent later rfl rfl
  · split
    · exact .silent later rfl rfl
    · have closed : Section limit (setShutWr pcb) _ _ := closeAfterDrain_leaves now pcb.state later
      exact ⟨closed.state, closed.shown, closed.advertised⟩

theorem tcpCloseStart_leaves : Section limit pcb (tcpCloseStart now pcb).pcb (tcpCloseStart now pcb).packets := by
  unfold tcpCloseStart
  split
  · exact .freed pcb
  · split
    · have closed : Section limit (detachSocket pcb) _ _ := closeWriting_leaves now later
      exact ⟨closed.state, closed.shown, closed.advertised⟩
    · exact .silent later rfl rfl

theorem shutdownWrite_leaves : Section limit pcb (shutdownWrite now pcb).pcb (shutdownWrite now pcb).packets := by
  unfold shutdownWrite
  split
  · exact .silent later rfl rfl
  split
  · exact .silent later rfl rfl
  · split
    · exact .silent later rfl rfl
    · have closed : Section limit (setShutWr pcb) _ _ := shutdownAfterDrain_leaves now later
      exact ⟨closed.state, closed.shown, closed.advertised⟩

end

theorem shutdownRead_widens : Widens 0 (receiveView pcb) (receiveView (shutdownRead pcb)) := by
  unfold shutdownRead
  split
  · exact .refl _
  · refine ⟨rfl, rfl, rfl, (BitVec.add_zero _).symm, ?_, rfl, fun ring => ?_⟩
    · simp only [receiveView, RingBuffer.freeSpace_eq]
      omega
    · exact ⟨ring.size, ring.positive, ring.positive, Nat.zero_le _, (Nat.zero_mod _).symm⟩

theorem tcpShutdownStart_leaves {how : Int} (later : ¬pcb.state.handshaking) :
    Section limit pcb (tcpShutdownStart now how pcb).pcb (tcpShutdownStart now how pcb).packets := by
  have state : (if how = 0 ∨ how = 2 then shutdownRead pcb else pcb).state = pcb.state := by
    split
    · unfold shutdownRead
      split <;> rfl
    · rfl
  have still : Widens 0 (receiveView pcb)
      (receiveView (if how = 0 ∨ how = 2 then shutdownRead pcb else pcb)) := by
    split
    · exact shutdownRead_widens
    · exact .refl _
  unfold tcpShutdownStart
  split
  · exact .silent later rfl rfl
  split
  · exact .silent later rfl rfl
  generalize (if how = 0 ∨ how = 2 then shutdownRead pcb else pcb) = read at state still
  have reading : ¬read.state.handshaking := state ▸ later
  refine .prepend state still ?_
  split
  · exact shutdownWrite_leaves now reading
  · exact .silent reading rfl rfl

end

section

variable (now : BitVec 64) (deferred : Nat)

theorem tickDataRto_shows : receiveView (tickDataRto now deferred pcb).1 = receiveView pcb ∧
      (tickDataRto now deferred pcb).1.state = pcb.state ∧
      ∀ packet ∈ (tickDataRto now deferred pcb).2, Announces packet (receiveView pcb) := by
  unfold tickDataRto
  split
  · exact ⟨rfl, rfl, by simp⟩
  obtain ⟨view, state⟩ := congestionTimeout_frame pcb
  have resent := retransmitHead_shows now (backoffRto now (congestionTimeout pcb))
  have resentState := @retransmitHead_state now (backoffRto now (congestionTimeout pcb))
  rw [receiveView_backoffRto, view] at resent
  split
  · refine ⟨resent.1, resentState.trans state, ?_⟩
    intro packet member
    exact resent.2 packet (Option.mem_toList.mp member)
  · exact ⟨view, state, by simp⟩

theorem tickPersist_shows (pcb : Pcb) : receiveView (tickPersist now deferred pcb).1 = receiveView pcb ∧
      (tickPersist now deferred pcb).1.state = pcb.state ∧
      ∀ packet ∈ (tickPersist now deferred pcb).2, Announces packet (receiveView pcb) := by
  unfold tickPersist
  split
  · split
    · split
      · refine ⟨rfl, rfl, ?_⟩
        intro packet member
        split at member
        · obtain rfl := List.mem_singleton.mp member
          exact ⟨_, _, _, _, rfl, .inl rfl, rfl⟩
        · cases member
      · exact ⟨rfl, rfl, by simp⟩
    · exact ⟨rfl, rfl, by simp⟩
  · exact ⟨rfl, rfl, by simp⟩

variable {limit dead : Nat}

theorem tickData_leaves (later : ¬pcb.state.handshaking) :
    Section limit pcb (tickData now deferred pcb).pcb (tickData now deferred pcb).packets := by
  simp only [tickData]
  split
  · exact .leave (by simp [TcpState.handshaking, clearTxQueues, closeExpired, tcpTimersReset])
      (by simp [clearTxQueues, closeExpired, tcpTimersReset]) rfl (by simp)
  have retried : receiveView (if rtoExpired now pcb then tickDataRto now deferred pcb else (pcb, [])).1 =
        receiveView pcb ∧
      (if rtoExpired now pcb then tickDataRto now deferred pcb else (pcb, [])).1.state = pcb.state ∧
      ∀ packet ∈ (if rtoExpired now pcb then tickDataRto now deferred pcb else (pcb, [])).2,
        Announces packet (receiveView pcb) := by
    split
    · exact tickDataRto_shows now deferred
    · exact ⟨rfl, rfl, by simp⟩
  generalize (if rtoExpired now pcb then tickDataRto now deferred pcb else (pcb, [])) = first at retried
  have probed := tickPersist_shows now (deferred + first.2.length) first.1
  rw [retried.1] at probed
  exact .stay later (probed.2.1.trans retried.2.1) probed.1 (List.forall_mem_append.mpr ⟨retried.2.2, probed.2.2⟩)

theorem freeIfOrphan_leaves : Section limit pcb (freeIfOrphan dead (closeExpired pcb)) [] := by
  unfold freeIfOrphan
  split
  · exact .freed pcb
  · exact .leave (by simp [TcpState.handshaking, closeExpired, tcpTimersReset])
      (by simp [closeExpired, tcpTimersReset]) rfl (by simp)

theorem tickFin_leaves {deferred : Nat} (later : ¬pcb.state.handshaking) :
    Section limit pcb (tickFin now deferred dead pcb).pcb (tickFin now deferred dead pcb).packets := by
  simp only [tickFin]
  split
  · split
    · exact freeIfOrphan_leaves
    split
    · split
      · refine .stay later rfl rfl (List.forall_mem_singleton.mpr ?_)
        exact ⟨_, _, _, _, rfl, .inr (.inr rfl), rfl⟩
      · refine .stay later rfl rfl (List.forall_mem_singleton.mpr ?_)
        exact ⟨_, _, _, _, rfl, .inr (.inl rfl), rfl⟩
    · exact .silent later rfl rfl
  · exact .silent later rfl rfl

theorem tcpTimerTickPcb_leaves {deferred : Nat} (later : ¬pcb.state.handshaking) :
    Section limit pcb (tcpTimerTickPcb now deferred dead pcb).pcb
      (tcpTimerTickPcb now deferred dead pcb).packets := by
  unfold tcpTimerTickPcb
  split
  next state => exact absurd (.inl state) later
  next state => exact absurd (.inr state) later
  · exact tickData_leaves now deferred later
  · exact tickData_leaves now deferred later
  · exact tickFin_leaves now later
  · exact tickFin_leaves now later
  · split
    · exact freeIfOrphan_leaves
    · exact .silent later rfl rfl
  all_goals exact .silent later rfl rfl

end

section

theorem tcpReceiveRead_leaves {length : Nat} (later : ¬pcb.state.handshaking) :
    Section limit pcb (some (tcpReceiveRead pcb length).pcb) (tcpReceiveRead pcb length).packet.toList := by
  unfold tcpReceiveRead
  split
  · exact .silent later rfl rfl
  obtain ⟨space, capacity⟩ := RingBuffer.read_space pcb.rxBuf
  have still : Widens 0 (receiveView pcb) { receiveView pcb with rxBuf := (pcb.rxBuf.read length).1 } :=
    ⟨rfl, rfl, rfl, (BitVec.add_zero _).symm, space.trans (Nat.le_add_left _ _), capacity,
      fun ring => RingBuffer.read_wellFormed pcb.rxBuf ring⟩
  refine @Section.prepend pcb limit { pcb with
    rxBuf := (pcb.rxBuf.read length).1
    window := BitVec.ofNat 32 (pcb.rxBuf.read length).1.freeSpace
    rcvWnd := BitVec.ofNat 16 (pcb.rxBuf.read length).1.freeSpace
    rcvAnnWnd := BitVec.ofNat 16 (pcb.rxBuf.read length).1.freeSpace } _ _ rfl still ?_
  simp only
  split
  · split
    · exact .silent later rfl rfl
    rename_i built packet sent
    obtain ⟨view, state⟩ := receiveView_tcpBuildOutputLocked sent
    exact .stay later state view (shows_of_build (.inl rfl) sent)
  · exact .silent later rfl rfl

end

end PhotonOS
