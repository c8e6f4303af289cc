import PhotonOS.Lib.ByteMemory
import PhotonOS.Net.ArpCache
import PhotonOS.Tcp.Demux
import PhotonOS.Udp.Checksum

/-!
`net_poll_packets` with the handlers it calls: ARP, ICMP, UDP, TCP and the raw
sockets. The static receive buffer is a memory of its own, with whatever lies
behind it, because a frame only overwrites its first bytes.
-/

namespace PhotonOS.Net

open ByteMemory Bytes

inductive SocketType where
  | stream
  | dgram
  | raw
  deriving DecidableEq, Repr

/-- The fields of `struct socket` that received packets touch. -/
structure Socket where
  active : Bool
  type : SocketType
  protocol : Int
  localPort : BitVec 16
  remoteAddr : BitVec 32
  remotePort : BitVec 16
  rxQueue : List (List UInt8)
  deriving DecidableEq, Repr

/-- The state of the network stack, the frames that the card holds and those given to it. -/
structure State where
  arpCache : List ArpEntry
  sockets : List Socket
  tcp : PcbTable
  incoming : List (List UInt8)
  sent : List (List UInt8)
  ipId : BitVec 16
  polls : Nat

structure Env where
  now : BitVec 64
  memory : Option Nat
  allocated : Nat → Bool
  kmalloc : Nat → Bool

abbrev Op := State × Memory → State × Memory

def ethHeaderSize : Nat := 14
def ipHeaderSize : Nat := 20
def arpPacketSize : Nat := 28
def icmpPacketSize : Nat := 8
def netMtuFrameSize : Nat := 1518
def netIpv4PayloadMax : Nat := 1480
def socketRxBufSize : Nat := 16
def ethTypeArp : Nat := 0x0806
def ethTypeIpv4 : Nat := 0x0800
def icmpTypeEchoReq : UInt8 := 8
def icmpTypeEchoReply : UInt8 := 0
def netLocalMac : MacAddress := [0x52, 0x54, 0x00, 0x12, 0x34, 0x56]

def fieldAt (frame : Memory) (offset : Nat) : Nat := ofBytes (load frame offset 2)

def addressAt (frame : Memory) (offset : Nat) : BitVec 32 :=
  BitVec.ofNat 32 (ofBytes (load frame offset 4).reverse)

def ethertype (frame : Memory) : Nat := fieldAt frame 12
def ipVersion (frame : Memory) : Nat := (frame 14).toNat / 16
def ipHeaderLength (frame : Memory) : Nat := (frame 14).toNat % 16 * 4
def totalLength (frame : Memory) : Nat := fieldAt frame 16
def ipProtocol (frame : Memory) : UInt8 := frame 23
def srcIp (frame : Memory) : BitVec 32 := addressAt frame 26
def destIp (frame : Memory) : BitVec 32 := addressAt frame 30
def payloadStart (frame : Memory) : Nat := ethHeaderSize + ipHeaderLength frame

def payloadLength (frame : Memory) : Nat := totalLength frame - ipHeaderLength frame

def ipPayload (frame : Memory) : List UInt8 := load frame (payloadStart frame) (payloadLength frame)

def netChecksum (bytes : List UInt8) : BitVec 16 := tcpChecksumFinish (tcpChecksumAdd 0 bytes)

def ntohl (address : BitVec 32) : BitVec 32 := BitVec.ofNat 32 (ofBytes (addressBytes address))

def netIsBroadcastIpv4 (ip : BitVec 32) : Bool := ntohl ip == 0xFFFFFFFF || ntohl ip == 0x0A0002FF

def netNextHopIpv4 (ip : BitVec 32) : BitVec 32 :=
  if ntohl ip &&& 0xFFFFFF00 = 0x0A000200 then ip else 0x0202000A

def State.transmit (state : State) (frame : List UInt8) : State := { state with sent := state.sent ++ [frame] }

def arpFrame (ethDest : MacAddress) (opcode : Nat) (destMac : MacAddress) (destIp : List UInt8) : List UInt8 :=
  ethDest ++ netLocalMac ++ toBytes 2 ethTypeArp ++ toBytes 2 1 ++ toBytes 2 ethTypeIpv4 ++
    [6, 4] ++ toBytes 2 opcode ++ netLocalMac ++ addressBytes netLocalIpv4 ++ destMac ++ destIp

def arpSendRequest (ip : BitVec 32) (state : State) : State :=
  state.transmit (arpFrame (List.replicate 6 0xFF) 1 (List.replicate 6 0) (addressBytes ip))

def ipv4Header (id : BitVec 16) (protocol : UInt8) (destIp : BitVec 32) (length : Nat) (checksum : List UInt8) :
    List UInt8 :=
  [0x45, 0] ++ toBytes 2 (ipHeaderSize + length) ++ toBytes 2 id.toNat ++ [0, 0, 64, protocol] ++
    checksum ++ addressBytes netLocalIpv4 ++ addressBytes destIp

def State.transmitIpv4 (state : State) (mac : MacAddress) (destIp : BitVec 32) (protocol : UInt8)
    (payload : List UInt8) : State :=
  let header := ipv4Header state.ipId protocol destIp payload.length
  let checksum := toBytes 2 (netChecksum (header [0, 0])).toNat
  { state.transmit (mac ++ netLocalMac ++ toBytes 2 ethTypeIpv4 ++ header checksum ++ payload) with
    ipId := state.ipId + 1 }

def awaitMac (poll : Op) (nextHop : BitVec 32) : Nat → Nat → Op
  | 0, _, state => state
  | left + 1, attempts, state =>
    let polled := poll state
    if (arpResolve polled.1.arpCache nextHop).isSome then polled
    else
      let asked := if attempts % 100 = 0 then arpSendRequest nextHop polled.1 else polled.1
      awaitMac poll nextHop left (attempts + 1) (asked, polled.2)

def sendResolved (destIp : BitVec 32) (protocol : UInt8) (payload : List UInt8) : Op := fun state =>
  match arpResolve state.1.arpCache (netNextHopIpv4 destIp) with
  | none => state
  | some mac => (state.1.transmitIpv4 mac destIp protocol payload, state.2)

def netSendIpv4 (poll : Op) (destIp : BitVec 32) (protocol : UInt8) (payload : List UInt8) : Op := fun state =>
  if payload.length > netIpv4PayloadMax then state
  else if netIsBroadcastIpv4 destIp then
    (state.1.transmitIpv4 (List.replicate 6 0xFF) destIp protocol payload, state.2)
  else if (arpResolve state.1.arpCache (netNextHopIpv4 destIp)).isSome then
    sendResolved destIp protocol payload state
  else sendResolved destIp protocol payload (awaitMac poll (netNextHopIpv4 destIp) 1000 0 state)

def netHandleArp (length : Nat) (frame : Memory) (state : State) : State :=
  if length < ethHeaderSize + arpPacketSize then state
  else if fieldAt frame 14 ≠ 1 ∨ fieldAt frame 16 ≠ ethTypeIpv4 ∨ frame 18 ≠ 6 ∨ frame 19 ≠ 4 then state
  else
    let state := { state with arpCache := arpCacheUpdate state.arpCache (addressAt frame 28) (load frame 22 6) }
    if fieldAt frame 20 ≠ 1 ∨ addressAt frame 38 ≠ netLocalIpv4 then state
    else state.transmit (arpFrame (load frame 6 6) 2 (load frame 22 6) (load frame 28 4))

/-- The tests that `net_poll_packets` makes on the IPv4 header before its checksum. -/
def ipv4Accepted (length : Nat) (frame : Memory) : Bool :=
  ipVersion frame == 4 && decide (ipHeaderSize ≤ ipHeaderLength frame) &&
    decide (ipHeaderLength frame ≤ totalLength frame) && decide (ethHeaderSize + totalLength frame ≤ length) &&
    destIp frame == netLocalIpv4

def isEchoRequest (frame : Memory) : Bool :=
  frame (payloadStart frame) == icmpTypeEchoReq && frame (payloadStart frame + 1) == 0

def storeChecksum (position start count : Nat) (frame : Memory) : Memory :=
  store frame ⟨position, toBytes 2 (netChecksum (load frame start count)).toNat⟩

/-- The echo reply is written over the request, header by header. -/
def echoReply (frame : Memory) : Memory :=
  let icmp := payloadStart frame
  let headers := storeAll frame [⟨0, load frame 6 6⟩, ⟨6, netLocalMac⟩, ⟨26, addressBytes netLocalIpv4⟩,
    ⟨30, load frame 26 4⟩, ⟨24, [0, 0]⟩]
  let reply := storeAll (storeChecksum 24 ethHeaderSize (ipHeaderLength frame) headers)
    [⟨icmp, [icmpTypeEchoReply]⟩, ⟨icmp + 2, [0, 0]⟩]
  storeChecksum (icmp + 2) icmp (payloadLength frame) reply

def netHandleIcmp (length : Nat) : Op := fun state =>
  let frame := state.2
  if length < ethHeaderSize + ipHeaderSize then state
  else if !ipv4Accepted length frame || decide (totalLength frame < ipHeaderLength frame + icmpPacketSize) ||
      ipProtocol frame != 1 then state
  else if !isEchoRequest frame then state
  else
    let reply := echoReply frame
    (state.1.transmit (load reply 0 (ethHeaderSize + totalLength frame)), reply)

/-- Room in the queue of a socket and a block of memory for the packet; `kmalloc` of no bytes fails. -/
def enqueue (granted : Bool) (packet : List UInt8) (socket : Socket) : Socket :=
  if socket.rxQueue.length ≥ socketRxBufSize then socket
  else if packet.length = 0 ∨ !granted then socket
  else { socket with rxQueue := socket.rxQueue ++ [packet] }

def Socket.TakesRaw (protocol : UInt8) (socket : Socket) : Prop :=
  socket.active = true ∧ socket.type = .raw ∧ socket.protocol = protocol.toNat

instance (protocol : UInt8) (socket : Socket) : Decidable (socket.TakesRaw protocol) :=
  inferInstanceAs (Decidable (_ ∧ _ ∧ _))

/-- The last loop of `net_poll_packets`. Its branch for UDP is never reached. -/
def dispatchTo (env : Env) (protocol : UInt8) (sockets : List Socket) (packet : List UInt8) : List Socket :=
  sockets.mapIdx fun index socket =>
    if socket.TakesRaw protocol then enqueue (env.kmalloc index) packet socket else socket

def rawDispatch (env : Env) (payload payloadLen : Nat) : Op := fun state =>
  ({ state.1 with
    sockets := dispatchTo env (ipProtocol state.2) state.1.sockets (load state.2 payload payloadLen) }, state.2)

def udpDeliver (granted : Bool) (sender : BitVec 32) (srcPort : BitVec 16) (packet : List UInt8) (socket : Socket) :
    Socket :=
  if socket.rxQueue.length ≥ socketRxBufSize then socket
  else if packet.length = 0 ∨ !granted then socket
  else { socket with rxQueue := socket.rxQueue ++ [packet], remoteAddr := sender, remotePort := srcPort }

/-- The memory from the UDP header on, as far as its length field can reach. -/
def udpMemory (frame : Memory) : List UInt8 := load frame (payloadStart frame) 65535

def handleUdp (env : Env) : Op := fun state =>
  let frame := state.2
  let datagram := udpMemory frame
  let payloadLen := payloadLength frame
  if payloadLen < udpHeaderSize then state
  else if !netValidateUdpChecksum ⟨srcIp frame, destIp frame, ipProtoUdp⟩ datagram then state
  else
    let udpLen := (udpLength datagram).toNat
    if udpLen < udpHeaderSize ∨ payloadLen < udpLen then state
    else
      let packet := (datagram.drop udpHeaderSize).take (udpLen - udpHeaderSize)
      match state.1.sockets.findIdx? fun socket => socket.active && socket.type == .dgram &&
          socket.protocol == 17 && socket.localPort == udpField datagram 2 with
      | none => state
      | some index =>
        ({ state.1 with
          sockets := state.1.sockets.modify index
            (udpDeliver (env.kmalloc index) (srcIp frame) (udpField datagram 0) packet) }, frame)

def tcpSend (poll : Op) (dest : BitVec 32) (packets : List (List UInt8)) : Op := fun state =>
  packets.foldl (fun state packet => netSendIpv4 poll dest 6 packet state) state

/-- The loop of `tcp_drain_unsent` with the polls that its sends nest. -/
def drainSending (env : Nat → Env) (poll : Op) (dest : BitVec 32) (address : Nat) : Nat → Op
  | 0, state => state
  | fuel + 1, state =>
    match state.1.tcp.find address with
    | none => state
    | some entry =>
      let result := drainIteration (env state.1.polls).now ((env state.1.polls).allocated fuel) entry.pcb
      let state := tcpSend poll dest result.packet.toList
        ({ state.1 with tcp := state.1.tcp.settle address (some result.pcb) }, state.2)
      if result.again then drainSending env poll dest address fuel state else state

def drainTcp (env : Nat → Env) (poll : Op) (dest : BitVec 32) (address : Nat) : Op := fun state =>
  match state.1.tcp.find address with
  | none => state
  | some entry =>
    if entry.pcb.flags.draining then state
    else drainSending env poll dest address (drainFuel entry.pcb)
      ({ state.1 with
        tcp := state.1.tcp.update address fun pcb => { pcb with flags := { pcb.flags with draining := true } } },
        state.2)

def drainAfter (now : BitVec 64) (srcIp destIp : BitVec 32) (segment : List UInt8) (table : PcbTable) :
    Option (Nat × Pcb × List (List UInt8)) := do
  let (header, payload) ← tcpDecode srcIp destIp segment
  let entry ← tcpLookupLocked table ⟨destIp, srcIp, header.destPort, header.srcPort⟩
  let result := tcpInputLocked now header payload entry.pcb
  match result.next, result.pcb with
  | .drain, some left => some (entry.address, left, result.packets)
  | _, _ => none

/-- `tcp_input` with its packets handed to `net_send_ipv4`. -/
def handleTcp (env : Nat → Env) (poll : Op) (srcIp destIp : BitVec 32) (segment : List UInt8) : Op := fun state =>
  let here := env state.1.polls
  match drainAfter here.now srcIp destIp segment state.1.tcp with
  | none =>
    let result := tableInput here.now here.memory here.allocated srcIp destIp segment state.1.tcp
    tcpSend poll srcIp result.2 ({ state.1 with tcp := result.1 }, state.2)
  | some (address, left, packets) =>
    drainTcp env poll srcIp address
      (tcpSend poll srcIp packets ({ state.1 with tcp := state.1.tcp.settle address (some left) }, state.2))

def handlePayload (env : Nat → Env) (poll : Op) (length : Nat) : Op := fun state =>
  let frame := state.2
  let here := env state.1.polls
  let dispatch := rawDispatch here (payloadStart frame) (payloadLength frame)
  if ipProtocol frame = 1 then
    if (ipPayload frame).length < icmpPacketSize then state
    else if netChecksum (ipPayload frame) ≠ 0 then state
    else dispatch (netHandleIcmp length state)
  else if ipProtocol frame = 17 then handleUdp here state
  else if ipProtocol frame = 6 then handleTcp env poll (srcIp frame) (destIp frame) (ipPayload frame) state
  else dispatch state

def handleFrame (env : Nat → Env) (poll : Op) (length : Nat) : Op := fun state =>
  let frame := state.2
  if ethertype frame = ethTypeArp then (netHandleArp length frame state.1, frame)
  else if ethertype frame = ethTypeIpv4 then
    if length < ethHeaderSize + ipHeaderSize then state
    else if !ipv4Accepted length frame then state
    else if netChecksum (load frame ethHeaderSize (ipHeaderLength frame)) ≠ 0 then state
    else handlePayload env poll length state
  else state

/-- `e1000_receive_packet`: a frame that is too long for the buffer is dropped. -/
def receiveFrame (bytes : List UInt8) (frame : Memory) : Memory :=
  if bytes.length ≤ netMtuFrameSize then store frame ⟨0, bytes⟩ else frame

def State.taken (state : State) (rest : List (List UInt8)) : State :=
  { state with incoming := rest, polls := state.polls + 1 }

/-- `net_poll_packets`; the number bounds how deep polls nest. -/
def netPollPackets (env : Nat → Env) : Nat → Op
  | 0, state => state
  | depth + 1, state =>
    match state.1.incoming with
    | [] => state
    | bytes :: rest =>
      let frame := receiveFrame bytes state.2
      if bytes.length > netMtuFrameSize ∨ bytes.length < ethHeaderSize then (state.1.taken rest, frame)
      else handleFrame env (netPollPackets env depth) bytes.length (state.1.taken rest, frame)

end PhotonOS.Net
