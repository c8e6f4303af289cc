import PhotonOS.Tcp.Handshake
import PhotonOS.Tcp.HandshakeSections

/-!
Agreement of the three-way handshake.
-/

namespace PhotonOS

open Transition Handshake

variable {packet : List UInt8} {pcb : Pcb} {irs srcIp destIp : BitVec 32} {now : BitVec 64} {before after : Opener}

def IsSynAck (header : TcpHeader) : Prop :=
  header.flags &&& (tcpFlagSyn ||| tcpFlagAck) = tcpFlagSyn ||| tcpFlagAck

instance (header : TcpHeader) : Decidable (IsSynAck header) := inferInstanceAs (Decidable (_ = _))

def AnswersWith (iss irs : BitVec 32) (packet : List UInt8) : Prop :=
  ∀ srcIp destIp header payload, tcpDecode srcIp destIp packet = some (header, payload) → IsSynAck header →
    header.seqNum = iss ∧ header.ackNum = irs + 1

/-- No SYN+ACK of an earlier connection acknowledges `iss`, since initial numbers are not reused. -/
def NeverAnswered (packets : List (List UInt8)) (iss : BitVec 32) : Prop :=
  ∀ packet ∈ packets, ∀ srcIp destIp header payload, tcpDecode srcIp destIp packet = some (header, payload) →
    IsSynAck header → header.ackNum ≠ iss + 1

def Opener.Established (opener : Opener) : Prop :=
  ∃ pcb ∈ opener.conn.pcb, pcb.state = .established

/-- When both ends are in ESTABLISHED, each entered it with the number after the other's initial one. -/
def Handshake.Agrees (handshake : Handshake) : Prop :=
  ∀ server ∈ handshake.server, handshake.client.Established → server.Established →
    handshake.client.entered = some (server.iss + 1) ∧ server.entered = some (handshake.client.iss + 1)

/-- Nothing that would complete the handshake on the initial number itself reaches an end that has not
built its SYN yet. -/
def OpensInOrder (handshake : Handshake) : HandshakeEvent → Prop
  | .toClient _ srcIp destIp index =>
    ∀ packet ∈ handshake.toClient[index]?, ∀ pcb ∈ handshake.client.conn.pcb,
      ∀ decoded ∈ tcpDecode srcIp destIp packet,
        handshake.client.opening = true → pcb.state = .synSent → IsSynAck decoded.1 →
          decoded.1.ackNum ≠ handshake.client.iss
  | .toServer _ srcIp destIp index _ _ =>
    ∀ packet ∈ handshake.toServer[index]?, ∀ server ∈ handshake.server, ∀ pcb ∈ server.conn.pcb,
      ∀ decoded ∈ tcpDecode srcIp destIp packet,
        server.opening = true → pcb.state = .synReceived → acceptsHandshake decoded.1 pcb = false
  | _ => True

section

theorem syn_of_isSynAck {header : TcpHeader} (synAck : IsSynAck header) : flagSet header.flags tcpFlagSyn = true := by
  have narrow : (tcpFlagSyn ||| tcpFlagAck) &&& tcpFlagSyn = tcpFlagSyn := by decide
  have bit : header.flags &&& tcpFlagSyn = tcpFlagSyn := by
    have masked := congrArg (· &&& tcpFlagSyn) synAck
    simpa only [BitVec.and_assoc, narrow] using masked
  rw [flagSet, bit]
  decide

theorem Announces.answersWith {view : ReceiveView} (shows : Announces packet view) (iss irs : BitVec 32) :
    AnswersWith iss irs packet := by
  obtain ⟨pcb, sequence, flags, payload, rfl, plain, -⟩ := shows
  intro srcIp destIp header data decoded synAck
  have word : offsetFlags flags >>> 12 = 5#16 ∧ flagSet (offsetFlags flags &&& 0x01FF#16) tcpFlagSyn = false := by
    rcases plain with rfl | rfl | rfl <;> decide
  obtain ⟨⟨sum, headerEq⟩, -⟩ := tcpDecode_finishPacket (segmentHeader pcb sequence flags) header payload data srcIp destIp word.1 decoded
  rw [headerEq] at synAck
  have syn := syn_of_isSynAck synAck
  exact absurd (word.2.symm.trans syn) (by decide)

theorem HandshakeSegment.answersWith (segment : HandshakeSegment pcb packet) (state : pcb.state = .synReceived)
    (next : pcb.rcvNxt = irs + 1) :
    AnswersWith pcb.iss irs packet := by
  obtain ⟨sender, rfl, view⟩ := segment
  intro srcIp destIp header data decoded synAck
  rw [handshakeFlags_synReceived state] at decoded
  obtain ⟨⟨sum, headerEq⟩, -⟩ := tcpDecode_finishPacket (segmentHeader sender pcb.iss (tcpFlagSyn ||| tcpFlagAck))
    header [] data srcIp destIp (show offsetFlags (tcpFlagSyn ||| tcpFlagAck) >>> 12 = 5#16 by decide) decoded
  rw [headerEq]
  have number : sender.rcvNxt = pcb.rcvNxt := congrArg ReceiveView.rcvNxt view
  exact ⟨rfl, number.trans next⟩

end

def Opener.Ended (opener : Opener) : Prop :=
  ∀ pcb ∈ opener.conn.pcb, ¬pcb.state.handshaking ∧ pcb.state ≠ .established

section

variable {opener : Opener} {pcb : Pcb}

theorem Opener.Ended.of_none (left : opener.conn.pcb = none) : opener.Ended := by
  intro pcb kept
  rw [left] at kept
  cases kept

theorem Opener.Ended.of_some (left : opener.conn.pcb = some pcb) (later : ¬pcb.state.handshaking)
    (closed : pcb.state ≠ .established) : opener.Ended := by
  intro other kept
  obtain rfl : pcb = other := Option.some.inj (left.symm.trans kept)
  exact ⟨later, closed⟩

theorem Opener.step_established (left : opener.conn.pcb = some pcb) (state : pcb.state = .established)
    (event : Event) : (opener.step event).Ended ∨ ∃ after, (opener.step event).conn.pcb = some after ∧
      after.state = .established ∧ (opener.step event).entered = opener.entered ∧
      ∀ packet ∈ (opener.step event).sent, packet ∈ opener.sent ∨ ∃ view, Announces packet view := by
  have leaves := stepPcb_leaves event.now opener.conn.frames event.action (show ¬pcb.state.handshaking by rw [state]; decide)
  rw [Opener.step_eq left]
  cases kept : (stepPcb event.now pcb opener.conn.frames event.action).conn.pcb with
  | none => exact .inl (.of_none kept)
  | some after =>
    by_cases established : after.state = .established
    · refine .inr ⟨after, rfl, established, if_neg (fun both => both.1 state), ?_⟩
      intro packet member
      exact (List.mem_append.mp member).imp_right fun new => leaves.shown packet (mem_builtPackets.mpr new)
    · exact .inl (.of_some kept (leaves.state after kept).1 established)

variable (ended : opener.Ended)
include ended

theorem Opener.Ended.step (event : Event) : (opener.step event).Ended := by
  cases left : opener.conn.pcb with
  | none =>
    refine .of_none ?_
    simp only [Opener.step, stepConn, left]
  | some pcb =>
    rw [Opener.step_eq left]
    obtain ⟨later, closed⟩ := ended pcb left
    intro after kept
    have state := (stepPcb_leaves event.now opener.conn.frames event.action later).state after kept
    exact ⟨state.1, fun established => closed (state.2 established)⟩

theorem Opener.Ended.call (event : Event) : (opener.call event).Ended := by
  unfold Opener.call
  split
  · exact ended
  · exact ended.step event

theorem Opener.Ended.receive (now : BitVec 64) (srcIp destIp : BitVec 32)
    (packet : List UInt8) : (opener.receive now srcIp destIp packet).Ended := by
  unfold Opener.receive
  split
  · split
    · exact ended
    · exact ended
  · exact ended.step _

theorem Opener.Ended.sendSynAck : opener.sendSynAck.Ended := by
  unfold Opener.sendSynAck
  split
  next pcb _ left =>
    split
    · exact .of_none rfl
    next built packet sent =>
      rintro after ⟨⟩
      rw [(receiveView_tcpBuildOutputLocked sent).2]
      exact ended pcb left
  · exact ended

end

inductive ServerPhase (server : Opener) : Prop where
  | waiting (pcb : Pcb) (left : server.conn.pcb = some pcb) (state : pcb.state = .synReceived)
      (waits : Waits pcb server.conn.frames) (iss : pcb.iss = server.iss)
      (next : pcb.rcvNxt = server.irs + 1)
      (answers : ∀ packet ∈ server.sent, AnswersWith server.iss server.irs packet)
  | established (pcb : Pcb) (left : server.conn.pcb = some pcb) (state : pcb.state = .established)
      (opened : server.opening = false) (entered : server.entered = some (server.irs + 1))
      (answers : ∀ packet ∈ server.sent, AnswersWith server.iss server.irs packet)
  | ended (ended : server.Ended)

section

variable {server : Opener}

section

variable (phase : ServerPhase server)
include phase

theorem ServerPhase.step (event : Event) (inOrder : ∀ srcIp destIp segment, event.action = .input srcIp destIp segment →
      ∀ pcb ∈ server.conn.pcb, ∀ decoded ∈ tcpDecode srcIp destIp segment,
        server.opening = true → pcb.state = .synReceived → acceptsHandshake decoded.1 pcb = false) :
    ServerPhase (server.step event) := by
  cases phase with
  | waiting pcb left state waits iss next answers =>
    have outcome := stepPcb_handshake event.now event.action waits (.inr state)
    rw [Opener.step_eq left]
    cases outcome with
    | gone freed silent => exact .ended (.of_none freed)
    | closed after kept closed view silent =>
      exact .ended (.of_some kept (by rw [closed]; decide) (by rw [closed]; decide))
    | waiting after kept still waitsNext sent =>
      refine .waiting after kept (still.state.trans state) waitsNext (still.iss.trans iss)
        (still.rcvNxt.trans next) (List.forall_mem_append.mpr ⟨answers, ?_⟩)
      intro packet member
      have answer := (sent packet member).answersWith state next
      rwa [iss] at answer
    | active after srcIp destIp segment payload header input decoded synSent =>
      rw [state] at synSent
      cases synSent
    | passive after srcIp destIp segment payload header input decoded received completes kept established view
        silent =>
        have opened : server.opening = false := by
          by_contra opening
          have refused := inOrder srcIp destIp segment input pcb left (header, payload) decoded
            (Bool.eq_true_of_not_eq_false opening) state
          rw [completes] at refused
          cases refused
        have afterNext : after.rcvNxt = pcb.rcvNxt := congrArg ReceiveView.rcvNxt view
        refine .established after kept established opened ?_ ?_
        · simp only [noteEntered, kept]
          rw [if_pos ⟨by rw [state]; decide, established⟩, afterNext, next]
        · rw [silent, List.append_nil]
          exact answers
  | established pcb left state opened entered answers =>
    rcases Opener.step_established left state event with ended | ⟨after, kept, established, same, sent⟩
    · exact .ended ended
    · refine .established after kept established opened (same.trans entered) ?_
      intro packet member
      rcases sent packet member with old | ⟨view, shows⟩
      · exact answers packet old
      · exact shows.answersWith _ _
  | ended ended => exact .ended (ended.step event)

theorem ServerPhase.call (event : Event) : ServerPhase (server.call event) := by
  unfold Opener.call
  split
  · exact phase
  next calling =>
    refine phase.step event ?_
    intro srcIp destIp segment input
    exact absurd input (calling srcIp destIp segment)

theorem ServerPhase.receive (now : BitVec 64) (srcIp destIp : BitVec 32)
    (packet : List UInt8) (inOrder : ∀ pcb ∈ server.conn.pcb, ∀ decoded ∈ tcpDecode srcIp destIp packet,
      server.opening = true → pcb.state = .synReceived → acceptsHandshake decoded.1 pcb = false) :
    ServerPhase (server.receive now srcIp destIp packet) := by
  cases left : server.conn.pcb with
  | none =>
    have ended : server.Ended := .of_none left
    exact .ended (ended.receive now srcIp destIp packet)
  | some pcb =>
    simp only [Opener.receive, left]
    refine phase.step _ ?_
    intro _ _ _ input
    cases input
    exact inOrder

theorem ServerPhase.sendSynAck : ServerPhase server.sendSynAck := by
  cases phase with
  | waiting pcb left state waits iss next answers =>
    unfold Opener.sendSynAck
    split
    next other _ found =>
      obtain rfl : pcb = other := Option.some.inj (left.symm.trans found)
      split
      · exact .ended (.of_none rfl)
      rename_i built packet sent
      rw [← handshakeFlags_synReceived state] at sent
      obtain ⟨still, waitsNext, segment⟩ := handshakeBuilt waits (.inr state) rfl rfl rfl rfl rfl sent
      refine .waiting built rfl (still.state.trans state) waitsNext (still.iss.trans iss)
        (still.rcvNxt.trans next) (List.forall_mem_append.mpr ⟨answers, ?_⟩)
      intro other member
      obtain rfl := List.mem_singleton.mp member
      have answer := segment.answersWith state next
      rwa [iss] at answer
    · exact .waiting pcb left state waits iss next answers
  | established pcb left state opened entered answers =>
    simp only [Opener.sendSynAck, opened]
    exact .established pcb left state opened entered answers
  | ended ended => exact .ended ended.sendSynAck

end

theorem listenRegister_phase {allocated : Bool} {listener : Pcb}
    (registered : listenRegister now allocated listener srcIp destIp packet = some server) :
    ServerPhase server := by
  obtain ⟨⟨header, payload⟩, _, made⟩ := Option.bind_eq_some_iff.mp registered
  simp only at made
  split at made
  · cases made
    exact .waiting _ rfl rfl ⟨rfl, rfl, rfl, by simp [Opener.created]⟩ rfl rfl (by simp [Opener.created])
  · cases made

end

inductive ClientPhase (client : Opener) (server : Option Opener) : Prop where
  | waiting (pcb : Pcb) (left : client.conn.pcb = some pcb) (state : pcb.state = .synSent)
      (waits : Waits pcb client.conn.frames) (iss : pcb.iss = client.iss)
      (number : pcb.seqNumber = client.iss + 1 ∨ client.opening = true ∧ pcb.seqNumber = client.iss)
  | established (pcb : Pcb) (left : client.conn.pcb = some pcb) (state : pcb.state = .established)
      (peer : Opener) (child : server = some peer)
      (agreed : ¬peer.Ended → client.entered = some (peer.iss + 1) ∧ peer.irs = client.iss)
  | ended (ended : client.Ended)

section

variable {client : Opener} {server : Option Opener}

theorem ClientPhase.created (state : pcb.state = .synSent) (waits : Waits pcb []) (number : pcb.seqNumber = pcb.iss) :
    ClientPhase (Opener.created pcb) none :=
  .waiting pcb rfl state waits rfl (.inr ⟨rfl, number⟩)

theorem ClientPhase.of_server (phase : ClientPhase client (some before)) (iss : after.iss = before.iss)
    (irs : after.irs = before.irs) (stays : before.Ended → after.Ended) :
    ClientPhase client (some after) := by
  cases phase with
  | waiting pcb left state waits issKept number => exact .waiting pcb left state waits issKept number
  | established pcb left state peer child agreed =>
    cases child
    refine .established pcb left state after rfl ?_
    intro alive
    rw [iss, irs]
    exact agreed (fun ended => alive (stays ended))
  | ended ended => exact .ended ended

theorem ClientPhase.of_register (phase : ClientPhase client none) {registered : Option Opener} :
    ClientPhase client registered := by
  cases phase with
  | waiting pcb left state waits iss number => exact .waiting pcb left state waits iss number
  | established pcb left state peer child agreed => cases child
  | ended ended => exact .ended ended

variable (phase : ClientPhase client server)
include phase

theorem ClientPhase.step (event : Event)
    (answered : ∀ srcIp destIp segment, event.action = .input srcIp destIp segment →
      ∀ pcb ∈ client.conn.pcb, ∀ decoded ∈ tcpDecode srcIp destIp segment, pcb.state = .synSent →
        CompletesActive pcb decoded.1 → ∃ peer, server = some peer ∧
            (¬peer.Ended → decoded.1.seqNum = peer.iss ∧ peer.irs = client.iss)) :
    ClientPhase (client.step event) server := by
  cases phase with
  | waiting pcb left state waits iss number =>
    have outcome := stepPcb_handshake event.now event.action waits (.inl state)
    rw [Opener.step_eq left]
    cases outcome with
    | gone freed silent => exact .ended (.of_none freed)
    | closed after kept closed view silent =>
      exact .ended (.of_some kept (by rw [closed]; decide) (by rw [closed]; decide))
    | waiting after kept still waitsNext sent =>
      refine .waiting after kept (still.state.trans state) waitsNext (still.iss.trans iss) ?_
      rcases still.number with same | past
      · rw [same]
        exact number
      · rw [past, iss]
        exact .inl rfl
    | active after srcIp destIp segment payload header input decoded synSent completes kept established view
        sent =>
        obtain ⟨peer, child, agreed⟩ := answered srcIp destIp segment input pcb left (header, payload) decoded
          state completes
        have next : after.rcvNxt = header.seqNum + 1 := congrArg ReceiveView.rcvNxt view
        refine .established after kept established peer child ?_
        intro alive
        obtain ⟨sequence, irs⟩ := agreed alive
        refine ⟨?_, irs⟩
        simp only [noteEntered, kept]
        rw [if_pos ⟨by rw [state]; decide, established⟩, next, sequence]
    | passive after srcIp destIp segment payload header input decoded received =>
      rw [state] at received
      cases received
  | established pcb left state peer child agreed =>
    rcases Opener.step_established left state event with ended | ⟨after, kept, established, same, _⟩
    · exact .ended ended
    · exact .established after kept established peer child (by rwa [same])
  | ended ended => exact .ended (ended.step event)

theorem ClientPhase.call (event : Event) : ClientPhase (client.call event) server := by
  unfold Opener.call
  split
  · exact phase
  next calling =>
    refine phase.step event ?_
    intro srcIp destIp segment input
    exact absurd input (calling srcIp destIp segment)

theorem ClientPhase.answered {oldToClient : List (List UInt8)}
    (fresh : NeverAnswered oldToClient client.iss) (children : ∀ peer ∈ server, ServerPhase peer)
    (carried : packet ∈ oldToClient ++ (server.map Opener.sent).getD [])
    (inOrder : ∀ pcb ∈ client.conn.pcb, ∀ decoded ∈ tcpDecode srcIp destIp packet,
      client.opening = true → pcb.state = .synSent → IsSynAck decoded.1 → decoded.1.ackNum ≠ client.iss) :
    ∀ pcb ∈ client.conn.pcb, ∀ decoded ∈ tcpDecode srcIp destIp packet, pcb.state = .synSent →
      CompletesActive pcb decoded.1 →
        ∃ peer, server = some peer ∧ (¬peer.Ended → decoded.1.seqNum = peer.iss ∧ peer.irs = client.iss) := by
  rintro pcb left ⟨header, payload⟩ decoded state ⟨synAck, acknowledges⟩
  have acked : header.ackNum = client.iss + 1 := by
    cases phase with
    | waiting other found _ _ iss number =>
      obtain rfl : other = pcb := Option.some.inj (found.symm.trans left)
      rcases acknowledges with past | last
      · rw [past, iss]
      · rcases number with sent | ⟨opening, unsent⟩
        · exact last.trans sent
        · exact absurd (last.trans unsent) (inOrder other left (header, payload) decoded opening state synAck)
    | established other found closed =>
      obtain rfl : other = pcb := Option.some.inj (found.symm.trans left)
      rw [state] at closed
      cases closed
    | ended ended => exact absurd (.inl state) (ended pcb left).1
  rcases List.mem_append.mp carried with old | sent
  · exact absurd acked (fresh packet old srcIp destIp header payload decoded synAck)
  cases server with
  | none => cases sent
  | some peer =>
    refine ⟨peer, rfl, fun alive => ?_⟩
    have answers : AnswersWith peer.iss peer.irs packet := by
      cases children peer rfl with
      | waiting _ _ _ _ _ _ answers => exact answers packet sent
      | established _ _ _ _ _ answers => exact answers packet sent
      | ended ended => exact absurd ended alive
    obtain ⟨sequence, number⟩ := answers srcIp destIp header payload decoded synAck
    refine ⟨sequence, ?_⟩
    have same : peer.irs + 1 = client.iss + 1 := number.symm.trans acked
    exact (BitVec.add_left_inj 1).mp same

theorem ClientPhase.sendSyn (now : BitVec 64) : ClientPhase (client.sendSyn now) server := by
  unfold Opener.sendSyn
  split
  next pcb _ left =>
    split
    · refine .ended ?_
      rintro after ⟨⟩
      exact ⟨by simp [TcpState.handshaking], by simp⟩
    rename_i built packet sent
    obtain ⟨inner, output, stateKept, issKept, number, -, waitsKept⟩ := tcpOutput_syn sent
    have innerState := (receiveView_tcpBuildOutputLocked output).2
    cases phase with
    | waiting other found state waits iss _ =>
      obtain rfl : other = pcb := Option.some.inj (found.symm.trans left)
      rw [← handshakeFlags_synSent state] at output
      obtain ⟨still, waitsNext, -⟩ := handshakeBuilt waits (.inl state) rfl rfl rfl rfl rfl output
      refine .waiting built rfl (stateKept.trans (innerState.trans state)) (waitsKept _ waitsNext)
        (issKept.trans (still.iss.trans iss)) ?_
      · obtain ⟨-, recorded⟩ := sendView_tcpBuildOutputLocked output
        refine .inl ?_
        rw [number, recorded, waitsNext.next, still.iss, iss]
        rfl
    | established other found state peer child agreed =>
      obtain rfl : other = pcb := Option.some.inj (found.symm.trans left)
      exact .established built rfl (stateKept.trans (innerState.trans state)) peer child agreed
    | ended ended =>
      refine .ended ?_
      rintro after ⟨⟩
      rw [stateKept, innerState]
      exact ended pcb left
  · exact phase

end

structure HandshakeInv (handshake : Handshake) : Prop where
  fresh : NeverAnswered handshake.oldToClient handshake.client.iss
  client : ClientPhase handshake.client handshake.server
  server : ∀ server ∈ handshake.server, ServerPhase server

section

variable {handshake : Handshake}

section

variable (opener : Opener)

theorem Opener.numbers_call {event : Event} :
    (opener.call event).iss = opener.iss ∧ (opener.call event).irs = opener.irs := by
  unfold Opener.call
  split <;> exact ⟨rfl, rfl⟩

theorem Opener.numbers_receive : (opener.receive now srcIp destIp packet).iss = opener.iss ∧
      (opener.receive now srcIp destIp packet).irs = opener.irs := by
  unfold Opener.receive
  split
  · split <;> exact ⟨rfl, rfl⟩
  · exact ⟨rfl, rfl⟩

theorem Opener.numbers_sendSyn : (opener.sendSyn now).iss = opener.iss := by
  unfold Opener.sendSyn
  split
  · split <;> rfl
  · rfl

theorem Opener.numbers_sendSynAck : opener.sendSynAck.iss = opener.iss ∧ opener.sendSynAck.irs = opener.irs := by
  unfold Opener.sendSynAck
  split
  · split <;> exact ⟨rfl, rfl⟩
  · exact ⟨rfl, rfl⟩

end

variable (inv : HandshakeInv handshake)
include inv

theorem HandshakeInv.of_server (child : handshake.server = some before)
    (numbers : after.iss = before.iss ∧ after.irs = before.irs) (stays : before.Ended → after.Ended)
    (phase : ServerPhase before → ServerPhase after) :
    HandshakeInv { handshake with server := some after } := by
  have client := inv.client
  rw [child] at client
  refine ⟨inv.fresh, client.of_server numbers.1 numbers.2 stays, ?_⟩
  rintro server ⟨⟩
  exact phase (inv.server before child)

theorem HandshakeInv.step (event : HandshakeEvent)
    (inOrder : OpensInOrder handshake event) : HandshakeInv (handshakeStep handshake event) := by
  cases event with
  | client event =>
    refine ⟨?_, inv.client.call event, inv.server⟩
    exact (handshake.client.numbers_call.1) ▸ inv.fresh
  | server event =>
    cases child : handshake.server with
    | none =>
      rw [handshakeStep, child, Option.map_none, ← child]
      exact inv
    | some server =>
      simp only [handshakeStep, child, Option.map_some]
      exact inv.of_server child server.numbers_call (fun ended => ended.call event)
        (fun phase => phase.call event)
  | clientSyn now =>
    refine ⟨?_, inv.client.sendSyn now, inv.server⟩
    exact handshake.client.numbers_sendSyn ▸ inv.fresh
  | serverSynAck =>
    cases child : handshake.server with
    | none =>
      rw [handshakeStep, child, Option.map_none, ← child]
      exact inv
    | some server =>
      simp only [handshakeStep, child, Option.map_some]
      exact inv.of_server child server.numbers_sendSynAck (fun ended => ended.sendSynAck)
        (fun phase => phase.sendSynAck)
  | toClient now srcIp destIp index =>
    simp only [handshakeStep]
    split
    · exact inv
    rename_i packet carried
    have answered := inv.client.answered inv.fresh inv.server (List.mem_of_getElem? carried)
      (inOrder packet carried)
    refine ⟨?_, ?_, inv.server⟩
    · exact (handshake.client.numbers_receive.1) ▸ inv.fresh
    cases left : handshake.client.conn.pcb with
    | none =>
      have ended : handshake.client.Ended := .of_none left
      exact .ended (ended.receive now srcIp destIp packet)
    | some pcb =>
      simp only [Opener.receive, left]
      refine inv.client.step _ ?_
      intro _ _ _ input
      cases input
      exact answered
  | toServer now srcIp destIp index allocated listener =>
    simp only [handshakeStep]
    split
    · exact inv
    next packet carried child =>
      have client := inv.client
      rw [child] at client
      exact ⟨inv.fresh, client.of_register, fun server registered => listenRegister_phase registered⟩
    next packet server carried child =>
      exact inv.of_server child server.numbers_receive
        (fun ended => ended.receive now srcIp destIp packet)
        (fun phase => phase.receive now srcIp destIp packet (inOrder packet carried server child))

theorem HandshakeInv.agrees : handshake.Agrees := by
  rintro server child ⟨clientPcb, clientLeft, clientState⟩ ⟨serverPcb, serverLeft, serverState⟩
  have alive : ¬server.Ended := fun ended => (ended serverPcb serverLeft).2 serverState
  have entered : server.entered = some (server.irs + 1) := by
    cases inv.server server child with
    | waiting pcb left state =>
      obtain rfl : pcb = serverPcb := Option.some.inj (left.symm.trans serverLeft)
      rw [state] at serverState
      cases serverState
    | established pcb left state opened entered => exact entered
    | ended ended => exact absurd ended alive
  cases inv.client with
  | waiting pcb left state =>
    obtain rfl : pcb = clientPcb := Option.some.inj (left.symm.trans clientLeft)
    rw [state] at clientState
    cases clientState
  | established pcb left state peer own agreed =>
    obtain rfl : peer = server := Option.some.inj (own.symm.trans child)
    obtain ⟨clientEntered, irs⟩ := agreed alive
    rw [irs] at entered
    exact ⟨clientEntered, entered⟩
  | ended ended => exact absurd clientState (ended clientPcb clientLeft).2

end

section

def openListener : Pcb :=
  { tcpAlloc true with localPort := 80, state := .listen, backlog := 1 }

def serverIp : BitVec 32 := 0x0202000A

def inOrderEvents : List HandshakeEvent :=
  [.clientSyn 1, .toServer 1 netLocalIpv4 serverIp 0 true openListener, .serverSynAck,
    .toClient 1 serverIp netLocalIpv4 0, .toServer 1 netLocalIpv4 serverIp 1 true openListener]

def earlierSyn : List (List UInt8) :=
  ((sysConnect 0 0 1024 serverIp 80 (tcpAlloc true)).map Prod.snd).toList

/-- The child answers the earlier SYN, and the answer reaches the client before its own SYN is built. -/
def crossedEvents : List HandshakeEvent :=
  [.toServer 1 netLocalIpv4 serverIp 0 true openListener, .serverSynAck, .toClient 1 serverIp netLocalIpv4 0,
    .toServer 1 netLocalIpv4 serverIp 1 true openListener]

end

end PhotonOS
