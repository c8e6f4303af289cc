import PhotonOS.Tcp.Connection

/-!
Two hosts running `tcp.c` over a network that loses, duplicates, reorders and
delays segments. Everything a side ever sent stays deliverable: a delivery picks
any of it, any number of times or never.
-/

namespace PhotonOS

/-- The calls of a host whose application neither shuts the connection down nor closes it. -/
inductive Call where
  | send (buffer : List UInt8)
  | drain
  | read (length : Nat)
  | accept
  | tick (deferred dead : Nat)
  | resume (index : Nat) (allocated : Bool) (listener : Pcb)
  deriving DecidableEq, Repr

def Call.action : Call → Action
  | .send buffer => .send buffer
  | .drain => .drain
  | .read length => .read length
  | .accept => .accept
  | .tick deferred dead => .tick deferred dead
  | .resume index allocated listener => .resume index allocated listener

/-- One end of the connection with everything it sent, took from `tcp_send` and gave to a reader. -/
structure Side where
  iss : BitVec 32
  conn : Conn
  sent : List (List UInt8)
  accepted : List UInt8
  returned : List UInt8

structure Net where
  client : Side
  server : Option Side

inductive NetEvent where
  | client (now : BitVec 64) (call : Call)
  | server (now : BitVec 64) (call : Call)
  | toClient (now : BitVec 64) (srcIp destIp : BitVec 32) (index : Nat)
  | toServer (now : BitVec 64) (srcIp destIp : BitVec 32) (index : Nat) (listener : Pcb)

def Side.created (pcb : Pcb) (packet : List UInt8) : Side where
  iss := pcb.iss
  conn := { pcb := some pcb, frames := [] }
  sent := [packet]
  accepted := []
  returned := []

def Side.step (side : Side) (event : Event) : Side :=
  let result := stepConn side.conn event
  { side with
    conn := result.conn
    sent := side.sent ++ result.output.packets
    accepted := side.accepted ++ result.output.accepted
    returned := side.returned ++ result.output.returned }

def Side.refuse (side : Side) (srcIp destIp : BitVec 32) (packet : List UInt8) : Side :=
  match tcpDecode srcIp destIp packet with
  | none => side
  | some (header, payload) => { side with sent := side.sent ++ (tcpResetReply srcIp destIp header payload).toList }

def Side.receive (side : Side) (now : BitVec 64) (srcIp destIp : BitVec 32) (packet : List UInt8) : Side :=
  match side.conn.pcb with
  | none => side.refuse srcIp destIp packet
  | some _ => side.step { now := now, action := .input srcIp destIp packet }

/-- `tcp_input` on a listener: a SYN that is no ACK and no RST makes a child. -/
def listenInput (now : BitVec 64) (listener : Pcb) (srcIp destIp : BitVec 32) (packet : List UInt8) :
    Option Side := do
  let (header, _) ← tcpDecode srcIp destIp packet
  if flagSet header.flags tcpFlagSyn ∧ !flagSet header.flags tcpFlagAck ∧ !flagSet header.flags tcpFlagRst then
    let (pcb, reply) ← tcpHandleListenSyn now true listener srcIp destIp header.srcPort header.seqNum
    return Side.created pcb reply
  else none

def netStep (net : Net) : NetEvent → Net
  | .client now call => { net with client := net.client.step { now := now, action := call.action } }
  | .server now call => { net with server := net.server.map (·.step { now := now, action := call.action }) }
  | .toClient now srcIp destIp index =>
    match net.server.bind (·.sent[index]?) with
    | none => net
    | some packet => { net with client := net.client.receive now srcIp destIp packet }
  | .toServer now srcIp destIp index listener =>
    match net.client.sent[index]?, net.server with
    | none, _ => net
    | some packet, none => { net with server := listenInput now listener srcIp destIp packet }
    | some packet, some server => { net with server := some (server.receive now srcIp destIp packet) }

/-- The network when `sys_connect` has sent its SYN and waits. -/
def Net.start (pcb : Pcb) (packet : List UInt8) : Net where
  client := Side.created pcb packet
  server := none

end PhotonOS
