import PhotonOS.Net.Poll

/-!
What raw sockets get of an IPv4 frame that is neither UDP nor TCP.
-/

namespace PhotonOS.Net

open ByteMemory

/-- A frame of `length` bytes in the buffer that holds an IPv4 packet for this host. -/
structure ValidIpv4 (length : Nat) (frame : Memory) : Prop where
  fits : length ≤ netMtuFrameSize
  long : ethHeaderSize + ipHeaderSize ≤ length
  kind : ethertype frame = ethTypeIpv4
  accepted : ipv4Accepted length frame = true
  checksum : netChecksum (load frame ethHeaderSize (ipHeaderLength frame)) = 0

/-- An ICMP packet that is handed on as it came. -/
def IcmpPasses (frame : Memory) : Prop :=
  icmpPacketSize ≤ (ipPayload frame).length ∧ netChecksum (ipPayload frame) = 0 ∧ isEchoRequest frame = false

instance (frame : Memory) : Decidable (IcmpPasses frame) := inferInstanceAs (Decidable (_ ∧ _ ∧ _))

/-- A raw socket of the protocol with room in its queue. -/
def Awaits (sockets : List Socket) (protocol : UInt8) (index : Nat) (socket : Socket) : Prop :=
  sockets[index]? = some socket ∧ socket.TakesRaw protocol ∧ socket.rxQueue.length < socketRxBufSize

def dispatched (length : Nat) (state : State) (frame : Memory) : Option (List UInt8) :=
  if ipProtocol frame = 1 then
    if (ipPayload frame).length < icmpPacketSize ∨ netChecksum (ipPayload frame) ≠ 0 then none
    else some (load (netHandleIcmp length (state, frame)).2 (payloadStart frame) (payloadLength frame))
  else some (ipPayload frame)

theorem echoReply_first {frame : Memory} : echoReply frame (payloadStart frame) = icmpTypeEchoReply := by
  simp [echoReply, storeChecksum, storeAll, store, Store.stop, icmpTypeEchoReply]

theorem echoReply_protocol {frame : Memory} (header : ipHeaderSize ≤ ipHeaderLength frame) :
    ipProtocol (echoReply frame) = ipProtocol frame := by
  have start : 34 ≤ payloadStart frame := Nat.add_le_add_left header 14
  simp only [ipProtocol, echoReply, storeChecksum, storeAll, store, List.foldl_cons, List.foldl_nil, Store.stop,
    load_length, Bytes.toBytes_length, List.length_cons, List.length_nil]
  rw [if_neg (by omega), if_neg (by omega), if_neg (by omega), if_neg (by omega), if_neg (by omega),
    if_neg (by omega), if_neg (by omega), if_neg (by decide), if_neg (by decide)]

section

variable {length : Nat} {frame : Memory} {state : State}

variable (valid : ValidIpv4 length frame)
include valid

theorem ValidIpv4.header : ipHeaderSize ≤ ipHeaderLength frame := by
  have accepted := valid.accepted
  simp only [ipv4Accepted, Bool.and_eq_true, decide_eq_true_eq] at accepted
  exact accepted.1.1.1.2

section

variable (icmp : ipProtocol frame = 1) (long : icmpPacketSize ≤ (ipPayload frame).length)
include icmp long

theorem netHandleIcmp_eq : (netHandleIcmp length (state, frame)).1.sockets = state.sockets ∧
      (netHandleIcmp length (state, frame)).2 = if isEchoRequest frame then echoReply frame else frame := by
  rw [ipPayload, load_length, payloadLength] at long
  have enough : ¬totalLength frame < ipHeaderLength frame + icmpPacketSize := by
    have accepted := valid.accepted
    simp only [ipv4Accepted, Bool.and_eq_true, decide_eq_true_eq] at accepted
    omega
  simp only [netHandleIcmp, if_neg (Nat.not_lt.mpr valid.long), valid.accepted, enough, icmp]
  cases isEchoRequest frame
  · exact ⟨rfl, rfl⟩
  · exact ⟨rfl, rfl⟩

theorem netHandleIcmp_protocol : ipProtocol (netHandleIcmp length (state, frame)).2 = ipProtocol frame := by
  rw [(netHandleIcmp_eq valid icmp long).2]
  split
  · exact echoReply_protocol valid.header
  · rfl

end

theorem dispatched_eq_payload :
    dispatched length state frame = some (ipPayload frame) ↔ (ipProtocol frame = 1 → IcmpPasses frame) := by
  unfold dispatched IcmpPasses
  by_cases icmp : ipProtocol frame = 1
  · rw [if_pos icmp]
    by_cases dropped : (ipPayload frame).length < icmpPacketSize ∨ netChecksum (ipPayload frame) ≠ 0
    · rw [if_pos dropped]
      refine iff_of_false (Option.some_ne_none _ ∘ Eq.symm) ?_
      intro passes
      obtain ⟨long, sum, _⟩ := passes icmp
      exact dropped.elim (Nat.not_lt.mpr long) fun wrong => wrong sum
    · obtain ⟨long, sum⟩ := not_or.mp dropped
      have whole := Nat.not_lt.mp long
      rw [if_neg dropped, (netHandleIcmp_eq valid icmp whole).2, Option.some_inj]
      cases echo : isEchoRequest frame with
      | false => exact iff_of_true rfl fun _ => ⟨whole, not_not.mp sum, rfl⟩
      | true =>
        refine iff_of_false ?_ fun passes => absurd (passes icmp).2.2 Bool.true_eq_false.mp
        intro same
        -- the first byte was the type of a request and is now that of a reply
        have positive : 0 < payloadLength frame := by
          rw [ipPayload, load_length] at whole
          exact Nat.lt_of_lt_of_le (by decide) whole
        have byte : ∀ memory, (load memory (payloadStart frame) (payloadLength frame)).head? =
            some (memory (payloadStart frame)) := by
          intro memory
          rw [← Nat.succ_pred_eq_of_pos positive, load_succ]
          rfl
        have heads := congrArg List.head? same
        rw [if_pos rfl, byte, echoReply_first, ipPayload, byte, Option.some_inj] at heads
        simp only [isEchoRequest, ← heads] at echo
        exact absurd (Bool.and_eq_true_iff.mp echo).1 (by decide)
  · rw [if_neg icmp]
    exact iff_of_true rfl fun same => absurd same icmp

theorem handleFrame_sockets (udp : ipProtocol frame ≠ 17) (tcp : ipProtocol frame ≠ 6)
    {env : Nat → Env} {poll : Op} : (handleFrame env poll length (state, frame)).1.sockets =
      (dispatched length state frame).elim state.sockets
        (dispatchTo (env state.polls) (ipProtocol frame) state.sockets) := by
  have other : ethTypeIpv4 ≠ ethTypeArp := by decide
  simp only [handleFrame, valid.kind, if_neg other, if_true, if_neg (Nat.not_lt.mpr valid.long), valid.accepted,
    valid.checksum, Bool.not_true, Bool.false_eq_true, if_false, ne_eq, not_true, handlePayload, dispatched,
    if_neg udp, if_neg tcp]
  by_cases icmp : ipProtocol frame = 1
  · rw [if_pos icmp, if_pos icmp]
    by_cases short : (ipPayload frame).length < icmpPacketSize
    · rw [if_pos short, if_pos (Or.inl short), Option.elim_none]
    by_cases sum : netChecksum (ipPayload frame) = 0
    · have long := Nat.not_lt.mp short
      rw [if_neg short, if_neg (not_not.mpr sum), if_neg (not_or.mpr ⟨short, not_not.mpr sum⟩)]
      simp only [rawDispatch, netHandleIcmp_protocol valid icmp long, (netHandleIcmp_eq valid icmp long).1,
        Option.elim_some]
    · rw [if_neg short, if_pos sum, if_pos (Or.inr sum), Option.elim_none]
  · rw [if_neg icmp, if_neg icmp]
    rfl

end

theorem enqueue_eq_append {granted : Bool} {packet payload : List UInt8} {socket : Socket}
    (room : socket.rxQueue.length < socketRxBufSize) :
    (enqueue granted packet socket).rxQueue = socket.rxQueue ++ [payload] ↔
      packet = payload ∧ payload ≠ [] ∧ granted = true := by
  have grows : socket.rxQueue ≠ socket.rxQueue ++ [payload] := fun same =>
    absurd (congrArg List.length same) (by simp)
  rw [enqueue, if_neg (Nat.not_le.mpr room)]
  by_cases refused : packet.length = 0 ∨ (!granted) = true
  · rw [if_pos refused]
    refine iff_of_false grows ?_
    rintro ⟨rfl, nonempty, rfl⟩
    simp only [List.length_eq_zero_iff, Bool.not_true, Bool.false_eq_true, or_false] at refused
    exact nonempty refused
  · rw [if_neg refused]
    simp only [List.length_eq_zero_iff, Bool.not_eq_true', not_or, Bool.not_eq_false] at refused
    rw [List.append_cancel_left_eq]
    constructor
    · rintro ⟨⟩
      exact ⟨rfl, refused⟩
    · exact fun whole => congrArg (fun bytes => [bytes]) whole.1

/-- For a received IPv4 packet of another protocol than UDP and TCP: every raw socket of its protocol
with room gets the payload as it came exactly when there is memory for each copy, the payload is not
empty, and an ICMP packet is whole, has a right checksum and is no echo request. -/
theorem raw_sockets_get_payload_iff (env : Nat → Env) (depth : Nat) (state : State) (stale : Memory)
    (bytes : List UInt8) (rest : List (List UInt8)) (incoming : state.incoming = bytes :: rest)
    (valid : ValidIpv4 bytes.length (receiveFrame bytes stale))
    (udp : ipProtocol (receiveFrame bytes stale) ≠ 17) (tcp : ipProtocol (receiveFrame bytes stale) ≠ 6) :
    let frame := receiveFrame bytes stale
    let after := (netPollPackets env (depth + 1) (state, stale)).1
    (∀ index socket, Awaits state.sockets (ipProtocol frame) index socket →
      (after.sockets[index]?).map Socket.rxQueue = some (socket.rxQueue ++ [ipPayload frame])) ↔
    ∀ index socket, Awaits state.sockets (ipProtocol frame) index socket →
      (env (state.polls + 1)).kmalloc index = true ∧ ipPayload frame ≠ [] ∧
        (ipProtocol frame = 1 → IcmpPasses frame) := by
  intro frame after
  have fits : ¬(bytes.length > netMtuFrameSize ∨ bytes.length < ethHeaderSize) := by
    have long := valid.long
    have short := valid.fits
    omega
  have polled : after.sockets = (dispatched bytes.length (state.taken rest) frame).elim state.sockets
      (dispatchTo (env (state.polls + 1)) (ipProtocol frame) state.sockets) := by
    simp only [after, netPollPackets, incoming, if_neg fits]
    exact handleFrame_sockets valid udp tcp
  refine forall_congr' fun index => forall_congr' fun socket => forall_congr' fun awaits => ?_
  obtain ⟨present, takes, room⟩ := awaits
  rw [polled, ← dispatched_eq_payload valid]
  cases dispatched bytes.length (state.taken rest) frame with
  | none =>
    refine iff_of_false ?_ fun whole => Option.some_ne_none _ whole.2.2.symm
    rw [Option.elim_none, present, Option.map_some, Option.some_inj]
    exact fun same => absurd (congrArg List.length same) (by simp)
  | some packet =>
    simp only [Option.elim_some, dispatchTo, List.getElem?_mapIdx, present, Option.map_some, if_pos takes,
      Option.some_inj]
    rw [enqueue_eq_append room]
    constructor
    · rintro ⟨same, nonempty, granted⟩
      exact ⟨granted, nonempty, same⟩
    · rintro ⟨granted, nonempty, same⟩
      exact ⟨same, nonempty, granted⟩

def peerFrame (protocol : UInt8) (payload : List UInt8) : List UInt8 :=
  let header := fun checksum => [0x45, 0] ++ Bytes.toBytes 2 (ipHeaderSize + payload.length) ++
    [0, 0, 0, 0, 64, protocol] ++ checksum ++ addressBytes sampleHost ++ addressBytes netLocalIpv4
  netLocalMac ++ [2, 0, 0, 0, 0, 1] ++ Bytes.toBytes 2 ethTypeIpv4 ++
    header (Bytes.toBytes 2 (netChecksum (header [0, 0])).toNat) ++ payload

def rawSocketState (protocol : Int) (bytes : List UInt8) : State where
  arpCache := []
  sockets := [⟨true, .raw, protocol, 0, 0, 0, []⟩]
  tcp := { entries := [], nextEphemeral := tcpEphemeralPortFirst, distinct := List.nodup_nil }
  incoming := [bytes]
  sent := []
  ipId := 0
  polls := 0

def plentiful : Env := ⟨0, none, fun _ => true, fun _ => true⟩

theorem peerFrame_valid : ValidIpv4 36 (receiveFrame (peerFrame 253 [1, 2]) fun _ => 0) := by
  constructor <;> decide +kernel

theorem raw_sockets_get_payload_253 : let frame := receiveFrame (peerFrame 253 [1, 2]) fun _ => 0
    let state := rawSocketState 253 (peerFrame 253 [1, 2])
    let after := (netPollPackets (fun _ => plentiful) 1 (state, fun _ => 0)).1
    ∀ index socket, Awaits state.sockets (ipProtocol frame) index socket →
      (after.sockets[index]?).map Socket.rxQueue = some (socket.rxQueue ++ [ipPayload frame]) := by
  have protocol : ipProtocol (receiveFrame (peerFrame 253 [1, 2]) fun _ => 0) = 253 := by decide +kernel
  refine (raw_sockets_get_payload_iff (fun _ => plentiful) 0 (rawSocketState 253 (peerFrame 253 [1, 2]))
    (fun _ => 0) (peerFrame 253 [1, 2]) [] rfl peerFrame_valid (by rw [protocol]; decide)
    (by rw [protocol]; decide)).mpr ?_
  intro index socket _
  refine ⟨rfl, by decide +kernel, ?_⟩
  rw [protocol]
  exact fun same => absurd same (by decide)

def echoRequest : List UInt8 := [8, 0, 0xF7, 0xFD, 0, 1, 0, 1]

theorem echo_request_read_as_reply : let frame := receiveFrame (peerFrame 1 echoRequest) fun _ => 0
    let state := rawSocketState 1 (peerFrame 1 echoRequest)
    let after := (netPollPackets (fun _ => plentiful) 1 (state, fun _ => 0)).1
    ValidIpv4 42 frame ∧ ipPayload frame = echoRequest ∧
      Awaits state.sockets (ipProtocol frame) 0 ⟨true, .raw, 1, 0, 0, 0, []⟩ ∧
      (after.sockets[0]?).map Socket.rxQueue = some [[0, 0, 0xFF, 0xFD, 0, 1, 0, 1]] := by
  refine ⟨?_, by decide +kernel, ⟨rfl, by decide +kernel, by decide⟩, by decide +kernel⟩
  constructor <;> decide +kernel

end PhotonOS.Net
