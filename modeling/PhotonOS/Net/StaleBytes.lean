import PhotonOS.Lib.Noninterference
import PhotonOS.Net.Poll

/-!
What `net_poll_packets` does with a frame does not depend on the bytes behind it
in the receive buffer.
-/

namespace PhotonOS.Net

open ByteMemory Noninterference

def Agree (length : Nat) (first second : Memory) : Prop := ∀ address < length, first address = second address

section

variable {length : Nat} {first second : Memory} {offset count : Nat}

section

variable (agree : Agree length first second)
include agree

theorem Agree.load (inside : offset + count ≤ length) : load first offset count = load second offset count :=
  load_congr fun index bound => agree (offset + index) (by omega)

theorem Agree.fieldAt (inside : offset + 2 ≤ length) :
    fieldAt first offset = fieldAt second offset := congrArg Bytes.ofBytes (agree.load inside)

theorem Agree.addressAt (inside : offset + 4 ≤ length) : addressAt first offset = addressAt second offset := by
  unfold Net.addressAt
  rw [agree.load inside]

theorem Agree.store (item : Store) : Agree length (store first item) (store second item) := by
  intro address inside
  unfold ByteMemory.store
  rw [agree address inside]

end

theorem Agree.storeAll (items : List Store) : ∀ {first second : Memory}, Agree length first second →
    Agree length (storeAll first items) (storeAll second items) := by
  induction items with
  | nil => exact id
  | cons item rest ih => exact fun agree => ih (agree.store item)

structure SameHeader (first second : Memory) : Prop where
  version : ipVersion first = ipVersion second
  headerLength : ipHeaderLength first = ipHeaderLength second
  total : totalLength first = totalLength second
  protocol : ipProtocol first = ipProtocol second
  src : srcIp first = srcIp second
  dest : destIp first = destIp second

theorem Agree.header (agree : Agree length first second) (long : 34 ≤ length) : SameHeader first second where
  version := by unfold ipVersion; rw [agree 14 (by omega)]
  headerLength := by unfold ipHeaderLength; rw [agree 14 (by omega)]
  total := agree.fieldAt (by omega)
  protocol := agree 23 (by omega)
  src := agree.addressAt (by omega)
  dest := agree.addressAt (by omega)

section

variable (same : SameHeader first second)
include same

theorem SameHeader.start : payloadStart first = payloadStart second := by
  rw [payloadStart, payloadStart, same.headerLength]

theorem SameHeader.payloadLength : payloadLength first = payloadLength second := by
  rw [Net.payloadLength, Net.payloadLength, same.total, same.headerLength]

theorem SameHeader.accepted (length : Nat) : ipv4Accepted length first = ipv4Accepted length second := by
  simp only [ipv4Accepted, same.version, same.headerLength, same.total, same.dest]

end

theorem payload_inside (accepted : ipv4Accepted length first = true) :
    ipHeaderSize ≤ ipHeaderLength first ∧ payloadStart first + payloadLength first ≤ length := by
  simp only [ipv4Accepted, Bool.and_eq_true, decide_eq_true_eq] at accepted
  unfold payloadStart payloadLength
  omega

section

variable (agree : Agree length first second)
include agree

theorem Agree.payload (same : SameHeader first second) (accepted : ipv4Accepted length first = true) :
    ipPayload first = ipPayload second := by
  rw [ipPayload, ipPayload, ← same.start, ← same.payloadLength]
  exact agree.load (payload_inside accepted).2

theorem Agree.arp {state : State} : netHandleArp length first state = netHandleArp length second state := by
  unfold netHandleArp
  split
  · rfl
  have long : 42 ≤ length := Nat.le_of_not_lt ‹_›
  simp only [agree.fieldAt (show 14 + 2 ≤ length by omega), agree.fieldAt (show 16 + 2 ≤ length by omega),
    agree.fieldAt (show 20 + 2 ≤ length by omega), agree 18 (by omega), agree 19 (by omega),
    agree.addressAt (show 28 + 4 ≤ length by omega), agree.addressAt (show 38 + 4 ≤ length by omega),
    agree.load (show 22 + 6 ≤ length by omega), agree.load (show 6 + 6 ≤ length by omega),
    agree.load (show 28 + 4 ≤ length by omega)]

theorem Agree.storeChecksum (position : Nat) {start : Nat} (inside : start + count ≤ length) :
    Agree length (storeChecksum position start count first) (storeChecksum position start count second) := by
  rw [Net.storeChecksum, Net.storeChecksum, agree.load inside]
  exact agree.store _

section

variable (same : SameHeader first second) (accepted : ipv4Accepted length first = true)
include same accepted

theorem Agree.echoReply : Agree length (echoReply first) (echoReply second) := by
  obtain ⟨header, inside⟩ := payload_inside accepted
  have start : payloadStart first = ethHeaderSize + ipHeaderLength first := rfl
  have long : 34 ≤ payloadStart first := Nat.add_le_add_left header 14
  simp only [Net.echoReply, ← same.start, ← same.payloadLength, ← same.headerLength,
    agree.load (show 6 + 6 ≤ length by omega), agree.load (show 26 + 4 ≤ length by omega)]
  apply Agree.storeChecksum _ _ inside
  apply Agree.storeAll
  apply Agree.storeChecksum _ _ (by omega)
  exact agree.storeAll _

theorem Agree.icmp (long : icmpPacketSize ≤ payloadLength first) (state : State) :
    (netHandleIcmp length (state, first)).1 = (netHandleIcmp length (state, second)).1 ∧
      Agree length (netHandleIcmp length (state, first)).2 (netHandleIcmp length (state, second)).2 := by
  obtain ⟨header, inside⟩ := payload_inside accepted
  have echo : isEchoRequest first = isEchoRequest second := by
    unfold icmpPacketSize at long
    rw [isEchoRequest, isEchoRequest, ← same.start, agree _ (by omega), agree _ (by omega)]
  have reply := agree.echoReply same accepted
  have total : ethHeaderSize + totalLength first ≤ length := by
    simp only [ipv4Accepted, Bool.and_eq_true, decide_eq_true_eq] at accepted
    omega
  simp only [netHandleIcmp, ← same.accepted, ← same.total, ← same.headerLength, ← same.protocol, ← echo]
  split
  · exact ⟨rfl, agree⟩
  split
  · exact ⟨rfl, agree⟩
  · split
    · exact ⟨rfl, agree⟩
    · refine ⟨?_, reply⟩
      rw [reply.load (show 0 + (ethHeaderSize + totalLength first) ≤ length by omega)]

end

theorem Agree.dispatch (long : 34 ≤ length) (env : Env) (state : State) {start : Nat}
    (inside : start + count ≤ length) :
    (rawDispatch env start count (state, first)).1 = (rawDispatch env start count (state, second)).1 := by
  simp only [rawDispatch, (agree.header long).protocol, agree.load inside]

end

end

/-! The length field of a datagram against the length of its packet. -/

section

variable {length : Nat} {first second : Memory}

theorem Agree.udpMemory (agree : Agree length first second) (same : SameHeader first second)
    (accepted : ipv4Accepted length first = true) {count : Nat} (inside : count ≤ payloadLength first) :
    (udpMemory first).take count = (udpMemory second).take count := by
  have bound := (payload_inside accepted).2
  simp only [Net.udpMemory, ByteMemory.load, ← List.map_take, ← same.start]
  apply List.map_congr_left
  intro index member
  have below := List.mem_range.mp (List.take_range ▸ member)
  exact agree _ (by omega)

theorem udpField_congr {left right : List UInt8} (same : left.take udpHeaderSize = right.take udpHeaderSize)
    {offset : Nat} (inside : offset + 2 ≤ udpHeaderSize) : udpField left offset = udpField right offset := by
  rw [udpField, udpField, ← Bytes.field_take inside, same, Bytes.field_take inside]

theorem netValidateUdpChecksum_congr {ip : IpHeader} {left right : List UInt8}
    (header : left.take udpHeaderSize = right.take udpHeaderSize)
    (data : left.take (udpLength left).toNat = right.take (udpLength left).toNat) :
    netValidateUdpChecksum ip left = netValidateUdpChecksum ip right := by
  have checksum : udpChecksum left = udpChecksum right := udpField_congr header (by decide)
  have size : udpLength left = udpLength right := udpField_congr header (by decide)
  simp only [netValidateUdpChecksum, udpSum, checksum, data, ← size]

theorem Agree.udp (agree : Agree length first second) (same : SameHeader first second)
    (accepted : ipv4Accepted length first = true) (env : Env) (state : State) :
    (handleUdp env (state, first)).1 = (handleUdp env (state, second)).1 := by
  simp only [handleUdp, ← same.payloadLength, ← same.src, ← same.dest]
  by_cases short : payloadLength first < udpHeaderSize
  · rw [if_pos short, if_pos short]
  have header := agree.udpMemory same accepted (Nat.le_of_not_lt short)
  have size : udpLength (Net.udpMemory first) = udpLength (Net.udpMemory second) := udpField_congr header (by decide)
  rw [if_neg short, if_neg short, ← size]
  by_cases long : payloadLength first < (udpLength (Net.udpMemory first)).toNat
  · -- the sum may differ, but the datagram is dropped in any case
    simp only [long, or_true, if_true, ite_self]
  have data := agree.udpMemory same accepted (Nat.le_of_not_lt long)
  have packet : ((Net.udpMemory first).drop udpHeaderSize).take
      ((udpLength (Net.udpMemory first)).toNat - udpHeaderSize) = ((Net.udpMemory second).drop udpHeaderSize).take
        ((udpLength (Net.udpMemory first)).toNat - udpHeaderSize) := by
    rw [← List.drop_take, ← List.drop_take, data]
  rw [netValidateUdpChecksum_congr header data, udpField_congr header (show 0 + 2 ≤ udpHeaderSize by decide),
    udpField_congr header (show 2 + 2 ≤ udpHeaderSize by decide), packet]
  split
  · rfl
  · split
    · rfl
    · cases state.sockets.findIdx? _ <;> rfl

end

/-! The sends of `tcp_input` and the polls they nest. -/

section

variable {poll : Op}

theorem blind_awaitMac (blind : Blind poll) {nextHop : BitVec 32} :
    ∀ left attempts, Blind (awaitMac poll nextHop left attempts) := by
  intro left
  induction left with
  | zero => exact fun _ => blind_id
  | succ left ih =>
    intro attempts visible first second
    have same := blind visible first second
    simp only [awaitMac, same]
    split
    · exact same
    · exact ih _ _ _ _

variable {destIp dest : BitVec 32} {protocol : UInt8} {env : Nat → Env} {address : Nat}

theorem blind_sendResolved {payload : List UInt8} : Blind (sendResolved destIp protocol payload) := by
  intro visible first second
  simp only [sendResolved]
  split <;> rfl

variable (blind : Blind poll)
include blind

theorem blind_netSendIpv4 {payload : List UInt8} : Blind (netSendIpv4 poll destIp protocol payload) := by
  intro visible first second
  simp only [netSendIpv4]
  split
  · rfl
  split
  · rfl
  · split
    · exact blind_sendResolved visible first second
    · exact (blind_awaitMac blind _ _).comp blind_sendResolved visible first second

theorem blind_tcpSend {packets : List (List UInt8)} : Blind (tcpSend poll dest packets) :=
  Blind.foldl (fun packet => blind_netSendIpv4 blind) packets

theorem blind_drainSending : ∀ fuel, Blind (drainSending env poll dest address fuel) := by
  intro fuel
  induction fuel with
  | zero => exact blind_id
  | succ fuel ih =>
    intro visible first second
    simp only [drainSending]
    split
    · rfl
    · split
      · exact (blind_tcpSend blind).comp ih _ _ _
      · exact blind_tcpSend blind _ _ _

theorem blind_drainTcp : Blind (drainTcp env poll dest address) := by
  intro visible first second
  simp only [drainTcp]
  split
  · rfl
  · split
    · rfl
    · exact blind_drainSending blind _ _ _ _

theorem blind_handleTcp {srcIp : BitVec 32} {segment : List UInt8} :
    Blind (handleTcp env poll srcIp destIp segment) := by
  intro visible first second
  simp only [handleTcp]
  split
  · exact blind_tcpSend blind _ _ _
  · exact (blind_tcpSend blind).comp (blind_drainTcp blind) _ _ _

end

section

variable {poll : Op} {length : Nat} {first second : Memory}

theorem Agree.handlePayload (agree : Agree length first second) (long : 34 ≤ length) (env : Nat → Env)
    (blind : Blind poll) (accepted : ipv4Accepted length first = true) (state : State) :
    (handlePayload env poll length (state, first)).1 = (handlePayload env poll length (state, second)).1 := by
  have same := agree.header long
  have inside := (payload_inside accepted).2
  simp only [Net.handlePayload, ← same.protocol, ← agree.payload same accepted, ← same.start, ← same.payloadLength,
    ← same.src, ← same.dest]
  split
  · split
    · rfl
    split
    · rfl
    have enough : icmpPacketSize ≤ (ipPayload first).length := Nat.le_of_not_lt ‹_›
    rw [ipPayload, load_length] at enough
    obtain ⟨states, frames⟩ := agree.icmp same accepted enough state
    have dispatched := frames.dispatch long (env state.polls) (netHandleIcmp length (state, first)).1 inside
    rw [states] at dispatched
    rw [← dispatched, ← states]
  · split
    · exact agree.udp same accepted (env state.polls) state
    · split
      · exact blind_handleTcp blind state first second
      · exact agree.dispatch long (env state.polls) state inside

theorem Agree.handleFrame (agree : Agree length first second) (header : ethHeaderSize ≤ length) (env : Nat → Env)
    (blind : Blind poll) (state : State) :
    (handleFrame env poll length (state, first)).1 = (handleFrame env poll length (state, second)).1 := by
  have kind : ethertype first = ethertype second := agree.fieldAt header
  simp only [Net.handleFrame, kind, agree.arp]
  split
  · rfl
  split
  · by_cases short : length < ethHeaderSize + ipHeaderSize
    · rw [if_pos short, if_pos short]
    have long : 34 ≤ length := Nat.le_of_not_lt short
    have same := agree.header long
    rw [if_neg short, if_neg short, ← same.accepted, ← same.headerLength]
    cases accepted : ipv4Accepted length first with
    | false => rfl
    | true =>
      have inside := (payload_inside accepted).2
      rw [agree.load (show ethHeaderSize + ipHeaderLength first ≤ length by unfold payloadStart at inside; omega)]
      simp only [Bool.not_true, Bool.false_eq_true, if_false]
      split
      · rfl
      · exact agree.handlePayload long env blind accepted state
  · rfl

end

/-- Whatever the receive buffer held before, and however deep polls nest: ARP cache, socket queues, TCP
state and sent frames are the same. -/
theorem netPollPackets_ignores_stale_bytes (env : Nat → Env) (depth : Nat) (state : State) (first second : Memory) :
    (netPollPackets env depth (state, first)).1 = (netPollPackets env depth (state, second)).1 := by
  induction depth generalizing state first second with
  | zero => rfl
  | succ depth ih =>
    simp only [netPollPackets]
    split
    · rfl
    rename_i bytes rest _
    split
    · rfl
    have fits : bytes.length ≤ netMtuFrameSize := by omega
    have agree : Agree bytes.length (receiveFrame bytes first) (receiveFrame bytes second) := by
      intro address inside
      simp only [receiveFrame, if_pos fits, store, Store.stop, Nat.zero_le, Nat.zero_add, true_and, if_pos inside]
    exact agree.handleFrame (by omega) env ih _

end PhotonOS.Net
