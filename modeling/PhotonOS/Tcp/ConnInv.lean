import PhotonOS.Tcp.Outstanding
import PhotonOS.Tcp.StepMoves

/-!
The invariant of a connection with its threads. A PCB shuts its sending side
down once: at most one thread is on its way to a FIN, and none once a FIN is
pending.
-/

namespace PhotonOS

def Frame.closing : Frame → Bool
  | .drainEnter next | .drainLoop next => next != .caller
  | .closeResume _ | .shutdownResume => true
  | .sendCheck _ _ | .sendCopy _ _ _ | .enqueue => false

def Frame.finishing : Frame → Bool
  | .closeResume _ | .shutdownResume => true
  | _ => false

def closers (frames : List Frame) : Nat := frames.countP Frame.closing

/-- A chunk of `tcp_send` is a nonempty part of its buffer. -/
def Frame.Valid : Frame → Prop
  | .sendCopy buffer accepted requested => 0 < requested ∧ accepted + requested ≤ buffer.length
  | _ => True

structure PcbInv (pcb : Pcb) (closing : Nat) : Prop where
  recorded : pcb.seqNumber = pcb.sndNxt
  state : StateInv (sendView pcb)
  token : closing + pcb.flags.finPending.toNat ≤ pcb.flags.shutWr.toNat

structure ConnInv (conn : Conn) : Prop where
  valid : ∀ frame ∈ conn.frames, frame.Valid
  pcb : ∀ pcb, conn.pcb = some pcb → PcbInv pcb (closers conn.frames)

@[simp] theorem closers_nil : closers [] = 0 := rfl

variable {first second : List Frame} {frame : Frame} {allocated : Bool} {result : DrainResult} {listener : Pcb}

theorem closers_append : closers (first ++ second) = closers first + closers second := List.countP_append

variable (frames : List Frame) (next : DrainReturn)

theorem closers_eraseIdx (index : Nat) (found : frames[index]? = some frame) :
    closers (frames.eraseIdx index) + frame.closing.toNat = closers frames := by
  induction frames generalizing index with
  | nil => simp at found
  | cons first rest ih =>
    cases index with
    | zero =>
      have same : first = frame := by simpa using found
      subst same
      cases kind : first.closing <;> simp [closers, kind]
    | succ index =>
      have tail := ih index (by simpa using found)
      simp only [List.eraseIdx_cons_succ, closers, List.countP_cons] at tail ⊢
      omega

variable {now : BitVec 64} {before after pcb : Pcb} {closing accepted requested : Nat} {buffer : List UInt8}
    {strict closer : Prop}

theorem stateInv_of_moves (moves : Moves strict closer now before after)
    (inv : StateInv (sendView before)) : StateInv (sendView after) := by
  refine moves.path.head_induction_on (motive := fun view _ => StateInv view → StateInv (sendView after))
    id ?_ inv
  intro view next move _ ih start
  exact ih (stateInv_of_move move start)

theorem flags_of_moves (moves : Moves strict False now before after) :
    after.flags.shutWr = before.flags.shutWr ∧ after.flags.finPending.toNat ≤ before.flags.finPending.toNat := by
  have path : ∀ view, Relation.ReflTransGen (SendMove strict False now) (sendView before) view →
      view.shutWr = before.flags.shutWr ∧ view.finPending.toNat ≤ before.flags.finPending.toNat := by
    intro view steps
    induction steps with
    | refl => exact ⟨rfl, Nat.le_refl _⟩
    | tail _ move ih =>
      obtain ⟨shut, pending⟩ := ih
      cases move with
      | finish _ state ticks pendingKept shutKept => exact ⟨shutKept.trans shut, by rw [pendingKept]; exact pending⟩
      | pendingFin state drained wasPending next => exact ⟨shut, Nat.zero_le _⟩
      | clearFinPending => exact ⟨shut, Nat.zero_le _⟩
      | setFinPending closing => exact closing.elim
      | setShutWr closing => exact closing.elim
      | _ => exact ⟨shut, pending⟩
  exact path _ moves.path

theorem PcbInv.of_moves {next : Nat} (inv : PcbInv before closing)
    (moves : ∀ closer, Moves False closer now before after) (fewer : next ≤ closing) : PcbInv after next := by
  obtain ⟨shut, pending⟩ := flags_of_moves (moves False)
  have token := inv.token
  exact ⟨(moves True).recorded inv.recorded, stateInv_of_moves (moves True) inv.state, by rw [shut]; omega⟩

theorem sendFin_flags {state : TcpState} : (sendFin now pcb state).1.flags.shutWr = pcb.flags.shutWr ∧
      (sendFin now pcb state).1.flags.finPending = pcb.flags.finPending := by
  unfold sendFin
  split
  · exact ⟨rfl, rfl⟩
  next built packet sent =>
    obtain ⟨view, _⟩ := sendView_tcpBuildOutputLocked sent
    exact ⟨congrArg SendView.shutWr view, congrArg SendView.finPending view⟩

theorem closeAfterDrain_flags {expected : TcpState} :
    (closeAfterDrain now expected pcb).1.flags.shutWr = pcb.flags.shutWr := by
  unfold closeAfterDrain
  split
  · rfl
  · split
    · rfl
    · exact sendFin_flags.1

theorem shutdownAfterDrain_flags : (shutdownAfterDrain now pcb).1.flags.shutWr = pcb.flags.shutWr := by
  unfold shutdownAfterDrain
  split
  · rfl
  · split
    · rfl
    · exact sendFin_flags.1

theorem toNat_le_one (flag : Bool) : flag.toNat ≤ 1 := by
  cases flag <;> decide

theorem PcbInv.of_closing (inv : PcbInv before closing) (running : 0 < closing)
    (moves : Moves False True now before after) (shut : after.flags.shutWr = before.flags.shutWr) :
    PcbInv after (closing - 1) := by
  have token := inv.token
  have bound := toNat_le_one after.flags.finPending
  exact ⟨moves.recorded inv.recorded, stateInv_of_moves moves inv.state, by rw [shut]; omega⟩

theorem PcbInv.free (inv : PcbInv pcb closing) (running : 0 < closing) : pcb.flags.finPending = false := by
  have token := inv.token
  have one := toNat_le_one pcb.flags.shutWr
  cases pending : pcb.flags.finPending with
  | false => rfl
  | true =>
    rw [pending] at token
    simp only [Bool.toNat_true] at token
    omega

theorem PcbInv.unshut (inv : PcbInv pcb closing) (writable : pcb.flags.shutWr = false) :
    closing = 0 ∧ pcb.flags.finPending = false := by
  have token := inv.token
  rw [writable, Bool.toNat_false] at token
  cases pending : pcb.flags.finPending with
  | false => exact ⟨by omega, rfl⟩
  | true =>
    rw [pending] at token
    simp only [Bool.toNat_true] at token
    omega

def CloseStart.closers : CloseStart → Nat
  | .draining _ => 1
  | .freed | .returned _ _ => 0

theorem setShutWr_token (inv : PcbInv pcb closing) (writable : pcb.flags.shutWr = false) :
    closing + 1 + (setShutWr pcb).flags.finPending.toNat ≤ (setShutWr pcb).flags.shutWr.toNat := by
  obtain ⟨none, free⟩ := inv.unshut writable
  change closing + 1 + pcb.flags.finPending.toNat ≤ 1
  rw [none, free]
  decide

theorem spent_token (none : closing = 0) (shut : after.flags.shutWr = true) :
    closing + 0 + after.flags.finPending.toNat ≤ after.flags.shutWr.toNat := by
  have bound := toNat_le_one after.flags.finPending
  rw [none, shut, Bool.toNat_true]
  omega

theorem closeWriting_token (inv : PcbInv pcb closing) (kept : (closeWriting now pcb).pcb = some after) :
    closing + (closeWriting now pcb).closers + after.flags.finPending.toNat ≤
      after.flags.shutWr.toNat := by
  revert kept
  unfold closeWriting
  split
  · rintro ⟨⟩
    exact inv.token
  rename_i writable
  split
  · rintro ⟨⟩
    exact setShutWr_token inv (by simpa using writable)
  · rintro ⟨⟩
    exact spent_token (inv.unshut (by simpa using writable)).1 closeAfterDrain_flags

theorem shutdownWrite_token (inv : PcbInv pcb closing) (kept : (shutdownWrite now pcb).pcb = some after) :
    closing + (shutdownWrite now pcb).closers + after.flags.finPending.toNat ≤
      after.flags.shutWr.toNat := by
  revert kept
  unfold shutdownWrite
  split
  · rintro ⟨⟩
    exact inv.token
  rename_i writable
  have none := (inv.unshut (by simpa using writable)).1
  split
  · rintro ⟨⟩
    exact spent_token none rfl
  split
  · rintro ⟨⟩
    exact setShutWr_token inv (by simpa using writable)
  · rintro ⟨⟩
    exact spent_token none shutdownAfterDrain_flags

theorem PcbInv.of_quiet (quiet : Quiet before after) (inv : PcbInv before closing) : PcbInv after closing := by
  have shut : after.flags.shutWr = before.flags.shutWr := congrArg SendView.shutWr quiet.view
  have pending : after.flags.finPending = before.flags.finPending := congrArg SendView.finPending quiet.view
  exact ⟨quiet.recorded inv.recorded, quiet.view ▸ inv.state, by rw [shut, pending]; exact inv.token⟩

theorem tcpCloseStart_inv (inv : PcbInv pcb closing) (kept : (tcpCloseStart now pcb).pcb = some after) :
    PcbInv after (closing + (tcpCloseStart now pcb).closers) := by
  have moves : Moves False True now pcb after := tcpCloseStart_moves trivial (fun writable => (inv.unshut writable).2) kept
  refine ⟨moves.recorded inv.recorded, stateInv_of_moves moves inv.state, ?_⟩
  revert kept
  unfold tcpCloseStart
  split
  · rintro ⟨⟩
  split
  · exact closeWriting_token (PcbInv.of_quiet detachSocket_quiet inv)
  · rintro ⟨⟩
    exact inv.token

theorem tcpShutdownStart_inv {how : Int} (inv : PcbInv pcb closing)
    (kept : (tcpShutdownStart now how pcb).pcb = some after) :
    PcbInv after (closing + (tcpShutdownStart now how pcb).closers) := by
  have moves : Moves False True now pcb after := tcpShutdownStart_moves trivial kept
  refine ⟨moves.recorded inv.recorded, stateInv_of_moves moves inv.state, ?_⟩
  have reading : Quiet pcb (if how = 0 ∨ how = 2 then shutdownRead pcb else pcb) := by
    split
    · exact shutdownRead_quiet
    · exact Quiet.refl pcb
  have read := PcbInv.of_quiet reading inv
  revert kept
  unfold tcpShutdownStart
  split
  · rintro ⟨⟩
    exact inv.token
  split
  · rintro ⟨⟩
    exact inv.token
  dsimp only
  split
  · exact shutdownWrite_token read
  · rintro ⟨⟩
    exact read.token

theorem drainEnter_moves (inv : StateInv (sendView pcb))
    (entered : drainEnter now allocated pcb = some result) : Moves strict closer now pcb result.pcb := by
  unfold drainEnter at entered
  split at entered
  · contradiction
  · cases entered
    refine Moves.quiet_trans ?_ (drainIteration_moves
      (fun state => (inv.sending state).unsentPositive))
    exact Quiet.of_view rfl rfl

theorem sendCopy_chunk
    (valid : (Frame.sendCopy buffer accepted requested).Valid) :
    ((buffer.drop accepted).take requested).length = requested := by
  obtain ⟨_, bound⟩ := valid
  rw [List.length_take, List.length_drop]
  omega

theorem runFrame_moves (strict closer : Prop) (valid : frame.Valid) (inv : StateInv (sendView pcb))
    (finishing : frame.finishing = true → closer ∧ pcb.flags.finPending = false)
    (kept : (runFrame now allocated listener pcb frame).pcb = some after) : Moves strict closer now pcb after := by
  cases frame with
  | sendCheck buffer accepted =>
    cases kept
    exact Moves.refl _
  | sendCopy buffer accepted requested =>
    simp only [runFrame, runSendCopy] at kept
    split at kept
    · cases kept
      exact Moves.refl _
    split at kept
    · cases kept
      exact Moves.refl _
    rename_i admitted
    split at kept
    · cases kept
      exact Moves.refl _
    rename_i room
    have length := sendCopy_chunk valid
    cases kept
    exact sendAppend_moves (by simpa using admitted)
      (by rw [length]; exact valid.1) (by rw [length]; exact room)
  | drainEnter next =>
    simp only [runFrame] at kept
    split at kept
    · cases kept
      exact Moves.refl _
    next result entered =>
      cases kept
      exact drainEnter_moves inv entered
  | drainLoop next =>
    cases kept
    exact drainIteration_moves
      (fun state => (inv.sending state).unsentPositive)
  | closeResume expected =>
    cases kept
    exact closeAfterDrain_moves (finishing rfl).1 (finishing rfl).2
  | shutdownResume =>
    cases kept
    exact shutdownAfterDrain_moves (finishing rfl).1
  | enqueue => exact Moves.of_quiet (tcpAcceptEnqueue_quiet kept)

theorem sendBreak_frame {next : Frame} (left : sendBreak accepted = some next) :
    next = .drainEnter .caller := by
  unfold sendBreak at left
  split at left
  · contradiction
  · exact (Option.some.inj left).symm

theorem runSendCheck_frame {next : Frame}
    (left : (runSendCheck pcb buffer accepted).frame = some next) : next.Valid ∧ next.closing = false := by
  simp only [runSendCheck] at left
  split at left
  · rw [sendBreak_frame left]
    exact ⟨trivial, rfl⟩
  split at left
  · contradiction
  split at left
  · rw [sendBreak_frame left]
    exact ⟨trivial, rfl⟩
  cases left
  refine ⟨⟨?_, ?_⟩, rfl⟩
  · simp only [sendRequest, tcpDefaultMss]
    omega
  · simp only [sendRequest]
    omega

theorem runSendCopy_frame
    {next : Frame} (left : (runSendCopy allocated pcb buffer accepted requested).frame = some next) :
    next.Valid ∧ next.closing = false := by
  simp only [runSendCopy] at left
  split at left
  · rw [sendBreak_frame left]
    exact ⟨trivial, rfl⟩
  split at left
  · contradiction
  split at left
  · rw [sendBreak_frame left]
    exact ⟨trivial, rfl⟩
  · cases left
    exact ⟨trivial, rfl⟩

theorem returnFrame_closing (left : returnFrame next = some frame) :
    frame.Valid ∧ (frame.closing = true → (next != .caller) = true) := by
  cases next with
  | caller => contradiction
  | close expected =>
    cases left
    exact ⟨trivial, fun _ => rfl⟩
  | shutdown =>
    cases left
    exact ⟨trivial, fun _ => rfl⟩

theorem drainFrame_closing (left : (drainFrame next result).frame = some frame) :
    frame.Valid ∧ (frame.closing = true → (next != .caller) = true) := by
  simp only [drainFrame] at left
  split at left
  · cases left
    exact ⟨trivial, id⟩
  · exact returnFrame_closing next left

theorem runFrame_frame (now : BitVec 64) (allocated : Bool) (listener pcb : Pcb) (frame next : Frame)
    (left : (runFrame now allocated listener pcb frame).frame = some next) :
    next.Valid ∧ (next.closing = true → frame.closing = true) := by
  cases frame with
  | sendCheck buffer accepted =>
    obtain ⟨valid, other⟩ := runSendCheck_frame left
    exact ⟨valid, fun closing => by simp [other] at closing⟩
  | sendCopy buffer accepted requested =>
    obtain ⟨valid, other⟩ := runSendCopy_frame left
    exact ⟨valid, fun closing => by simp [other] at closing⟩
  | drainEnter target =>
    simp only [runFrame] at left
    split at left
    · exact returnFrame_closing target left
    · exact drainFrame_closing target left
  | drainLoop target => exact drainFrame_closing target left
  | closeResume expected => contradiction
  | shutdownResume => contradiction
  | enqueue => contradiction

theorem closers_toList (left : Option Frame) (frame : Frame)
    (closing : ∀ next, left = some next → next.closing = true → frame.closing = true) :
    closers left.toList ≤ frame.closing.toNat := by
  cases left with
  | none => exact Nat.zero_le _
  | some next =>
    have same := closing next rfl
    cases kind : next.closing with
    | false => simp [closers, kind]
    | true => simp [closers, kind, same kind]

theorem runFrame_inv {frames : List Frame} {index : Nat} (found : frames[index]? = some frame)
    (valid : frame.Valid) (inv : PcbInv pcb (closers frames))
    (kept : (runFrame now allocated listener pcb frame).pcb = some after) :
    PcbInv after (closers (frames.eraseIdx index ++
      (runFrame now allocated listener pcb frame).frame.toList)) := by
  have erased := closers_eraseIdx frames index found
  have left := closers_toList (runFrame now allocated listener pcb frame).frame frame
    (fun next eq => (runFrame_frame now allocated listener pcb frame next eq).2)
  rw [closers_append]
  by_cases finishing : frame.finishing = true
  · have closing : frame.closing = true ∧ (runFrame now allocated listener pcb frame).frame = none ∧
        after.flags.shutWr = pcb.flags.shutWr := by
      cases frame with
      | closeResume expected =>
        cases kept
        exact ⟨rfl, rfl, closeAfterDrain_flags⟩
      | shutdownResume =>
        cases kept
        exact ⟨rfl, rfl, shutdownAfterDrain_flags⟩
      | _ => contradiction
    obtain ⟨closing, gone, shut⟩ := closing
    rw [closing, Bool.toNat_true] at erased
    have running : 0 < closers frames := by omega
    have moves := runFrame_moves False True valid inv.state
      (fun _ => ⟨trivial, inv.free running⟩) kept
    have count : closers (frames.eraseIdx index) + closers (none : Option Frame).toList = closers frames - 1 := by
      rw [Option.toList_none, closers_nil]
      omega
    rw [gone, count]
    exact inv.of_closing running moves shut
  · exact inv.of_moves (fun closer => runFrame_moves False closer valid
      inv.state (fun still => absurd still finishing) kept) (by omega)

theorem inputFrames_closers {next : InputNext} :
    closers (inputFrames next) = 0 ∧ ∀ frame ∈ inputFrames next, frame.Valid := by
  cases next <;> simp [inputFrames, closers, Frame.closing, Frame.Valid]

theorem startClose_pcb {start : CloseStart} : (startClose frames next start).conn.pcb = start.pcb := by
  cases start <;> rfl

theorem startClose_frames (start : CloseStart) (closing : next ≠ .caller) (valid : ∀ frame ∈ frames, frame.Valid) :
    closers (startClose frames next start).conn.frames = closers frames + start.closers ∧
      ∀ frame ∈ (startClose frames next start).conn.frames, frame.Valid := by
  cases start with
  | freed => exact ⟨rfl, valid⟩
  | returned pcb packets => exact ⟨rfl, valid⟩
  | draining pcb =>
    have one : closers [Frame.drainEnter next] = 1 := by simp [closers, Frame.closing, closing]
    refine ⟨?_, List.forall_mem_append.mpr ⟨valid, by simp [Frame.Valid]⟩⟩
    simp only [startClose, closers_append, one, CloseStart.closers]

theorem connStep_inv (conn : Conn) (event : Event) (inv : ConnInv conn) : ConnInv (connStep conn event) := by
  obtain ⟨now, action⟩ := event
  unfold connStep stepConn
  split
  · exact inv
  rename_i pcb found
  obtain ⟨valid, pcbInv⟩ := inv
  have start := pcbInv pcb found
  have quietFrame : closers [Frame.drainEnter .caller] = 0 := rfl
  have quietValid : ∀ frame ∈ [Frame.drainEnter .caller], frame.Valid := by simp [Frame.Valid]
  cases action with
  | send buffer =>
    simp only [stepPcb]
    split
    · exact ⟨valid, fun after kept => Option.some.inj kept ▸ start⟩
    · refine ⟨List.forall_mem_append.mpr ⟨valid, by simp [Frame.Valid]⟩, fun after kept => ?_⟩
      rw [← Option.some.inj kept, closers_append]
      exact start
  | drain =>
    refine ⟨List.forall_mem_append.mpr ⟨valid, quietValid⟩, fun after kept => ?_⟩
    rw [← Option.some.inj kept, stepPcb, closers_append, quietFrame]
    exact start
  | read length =>
    have quiet := PcbInv.of_quiet (tcpReceiveRead_quiet pcb length) start
    simp only [stepPcb]
    split
    · refine ⟨List.forall_mem_append.mpr ⟨valid, quietValid⟩, fun after kept => ?_⟩
      rw [← Option.some.inj kept, closers_append, quietFrame]
      exact quiet
    · exact ⟨valid, fun after kept => Option.some.inj kept ▸ quiet⟩
  | shutdown how =>
    obtain ⟨count, validNext⟩ := startClose_frames conn.frames .shutdown (tcpShutdownStart now how pcb)
      (by simp) valid
    refine ⟨validNext, fun after kept => ?_⟩
    rw [stepPcb, startClose_pcb] at kept
    rw [stepPcb, count]
    exact tcpShutdownStart_inv start kept
  | close =>
    obtain ⟨count, validNext⟩ := startClose_frames conn.frames (.close pcb.state) (tcpCloseStart now pcb)
      (by simp) valid
    refine ⟨validNext, fun after kept => ?_⟩
    rw [stepPcb, startClose_pcb] at kept
    rw [stepPcb, count]
    exact tcpCloseStart_inv start kept
  | accept =>
    refine ⟨valid, fun after kept => ?_⟩
    cases kept
    exact PcbInv.of_quiet acceptChild_quiet start
  | input srcIp destIp segment =>
    simp only [stepPcb]
    split
    · exact ⟨valid, fun after kept => Option.some.inj kept ▸ start⟩
    rename_i header payload decoded
    obtain ⟨count, validNext⟩ := inputFrames_closers
    refine ⟨List.forall_mem_append.mpr ⟨valid, validNext⟩, fun after kept => ?_⟩
    rw [closers_append, count]
    exact start.of_moves (fun _ => tcpInputLocked_moves header payload
      (fun _ => start.recorded) False.elim kept) (Nat.le_refl _)
  | tick deferred dead =>
    refine ⟨valid, fun after kept => ?_⟩
    exact start.of_moves (fun _ => tcpTimerTickPcb_moves kept)
      (Nat.le_refl _)
  | resume index allocated listener =>
    simp only [stepPcb]
    split
    · exact ⟨valid, fun after kept => Option.some.inj kept ▸ start⟩
    rename_i frame frameFound
    have frameValid := valid frame (List.mem_of_getElem? frameFound)
    refine ⟨List.forall_mem_append.mpr ⟨fun other member => valid other (List.mem_of_mem_eraseIdx member), ?_⟩,
      fun after kept => ?_⟩
    · intro next member
      exact (runFrame_frame now allocated listener pcb frame next (Option.mem_toList.mp member)).1
    · exact runFrame_inv frameFound frameValid
        start kept

theorem handshakeBuild_inv {built : Pcb} {flags : BitVec 16} {packet : List UInt8}
    (syn : flagSet flags tcpFlagSyn = true) (state : pcb.state.handshaking)
    (fresh : pcb.txBuf = TcpTxBuffer.fresh) (free : pcb.flags.finPending = false)
    (sent : tcpBuildOutputLocked pcb flags [] = some (built, packet)) : PcbInv built 0 := by
  obtain ⟨view, recorded⟩ := sendView_tcpBuildOutputLocked sent
  have pending : built.flags.finPending = false := (congrArg SendView.finPending view).trans free
  refine ⟨recorded, ?_, by rw [pending]; exact Nat.zero_le _⟩
  simp only [SendView.afterBuild, syn, if_true] at view
  rw [view]
  exact StateInv.of_handshaking state rfl rfl fresh free

theorem created_inv (created : Created pcb) : PcbInv pcb 0 := by
  cases created with
  | connect now sendNow localPort remotePort remoteIp pcb packet sent =>
    simp only [sysConnect] at sent
    split at sent
    · contradiction
    simp only [tcpOutput] at sent
    split at sent
    · contradiction
    rename_i built syn found
    have base := handshakeBuild_inv (by decide) (Or.inl rfl) rfl rfl found
    rw [if_pos (by decide)] at sent
    simp only [Option.some.injEq, Prod.mk.injEq] at sent
    rw [← sent.1]
    exact ⟨base.recorded, base.state.congr rfl rfl rfl rfl rfl rfl, base.token⟩
  | child now listener srcIp destIp remotePort sequence pcb packet sent =>
    simp only [tcpHandleListenSyn] at sent
    split at sent
    · contradiction
    · exact handshakeBuild_inv (by decide) (Or.inr rfl) rfl rfl sent

theorem reachable_inv (conn : Conn) (reachable : Reachable conn) : ConnInv conn := by
  obtain ⟨pcb, events, created, rfl⟩ := reachable
  refine Transition.run_invariant connStep ConnInv connStep_inv _ ⟨by simp, ?_⟩ events
  intro start found
  cases found
  exact created_inv created

end PhotonOS
