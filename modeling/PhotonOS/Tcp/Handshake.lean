import PhotonOS.Tcp.Connection

/-!
The opening of a connection between two hosts, in the critical sections of the
source.
-/

namespace PhotonOS

/-- One end: `opening` until its first segment is built. `irs` and `entered` record the number of the
SYN it was made from and `rcv_nxt` at the moment it entered ESTABLISHED. -/
structure Opener where
  iss : BitVec 32
  irs : BitVec 32
  conn : Conn
  opening : Bool
  sent : List (List UInt8)
  entered : Option (BitVec 32)

structure Handshake where
  client : Opener
  server : Option Opener
  oldToServer : List (List UInt8)
  oldToClient : List (List UInt8)

def Opener.created (pcb : Pcb) : Opener where
  iss := pcb.iss
  irs := pcb.irs
  conn := { pcb := some pcb, frames := [] }
  opening := true
  sent := []
  entered := none

def noteEntered (before after : Option Pcb) (entered : Option (BitVec 32)) : Option (BitVec 32) :=
  match before, after with
  | some before, some after =>
    if before.state ≠ .established ∧ after.state = .established then some after.rcvNxt else entered
  | _, _ => entered

def Opener.step (opener : Opener) (event : Event) : Opener :=
  let result := stepConn opener.conn event
  { opener with
    conn := result.conn
    sent := opener.sent ++ result.output.packets
    entered := noteEntered opener.conn.pcb result.conn.pcb opener.entered }

theorem Opener.step_eq {opener : Opener} {pcb : Pcb} (left : opener.conn.pcb = some pcb) (event : Event) :
    opener.step event = { opener with
      conn := (stepPcb event.now pcb opener.conn.frames event.action).conn
      sent := opener.sent ++ (stepPcb event.now pcb opener.conn.frames event.action).output.packets
      entered := noteEntered (some pcb) (stepPcb event.now pcb opener.conn.frames event.action).conn.pcb
        opener.entered } := by
  simp only [Opener.step, stepConn, left]

def Opener.call (opener : Opener) (event : Event) : Opener :=
  match event.action with
  | .input _ _ _ => opener
  | _ => opener.step event

def Opener.receive (opener : Opener) (now : BitVec 64) (srcIp destIp : BitVec 32) (packet : List UInt8) : Opener :=
  match opener.conn.pcb with
  | none =>
    match tcpDecode srcIp destIp packet with
    | none => opener
    | some (header, payload) =>
      { opener with sent := opener.sent ++ (tcpResetReply srcIp destIp header payload).toList }
  | some _ => opener.step { now := now, action := .input srcIp destIp packet }

def Opener.opened (opener : Opener) (pcb : Option Pcb) (packets : List (List UInt8)) : Opener :=
  { opener with
    conn := { opener.conn with pcb := pcb }
    opening := false
    sent := opener.sent ++ packets }

def Opener.sendSyn (opener : Opener) (now : BitVec 64) : Opener :=
  match opener.opening, opener.conn.pcb with
  | true, some pcb =>
    match tcpOutput now pcb tcpFlagSyn with
    | none => opener.opened (some { pcb with state := .closed, retransmissionTimer := 0 }) []
    | some (built, packet) => opener.opened (some built) [packet]
  | _, _ => opener

def Opener.sendSynAck (opener : Opener) : Opener :=
  match opener.opening, opener.conn.pcb with
  | true, some pcb =>
    match tcpBuildOutputLocked pcb (tcpFlagSyn ||| tcpFlagAck) [] with
    | none => opener.opened none []
    | some (built, packet) => opener.opened (some built) [packet]
  | _, _ => opener

/-- `tcp_input` on a listener, up to the registration of the child. -/
def listenRegister (now : BitVec 64) (allocated : Bool) (listener : Pcb) (srcIp destIp : BitVec 32)
    (packet : List UInt8) : Option Opener := do
  let (header, _) ← tcpDecode srcIp destIp packet
  if flagSet header.flags tcpFlagSyn ∧ !flagSet header.flags tcpFlagAck ∧ !flagSet header.flags tcpFlagRst ∧
      ¬(listener.state ≠ .listen ∨ listener.acceptCount ≥ listener.backlog ∨ !allocated) then
    return Opener.created (listenChild now listener srcIp destIp header.srcPort header.seqNum)
  else none

inductive HandshakeEvent where
  | client (event : Event)
  | server (event : Event)
  | clientSyn (now : BitVec 64)
  | serverSynAck
  | toClient (now : BitVec 64) (srcIp destIp : BitVec 32) (index : Nat)
  | toServer (now : BitVec 64) (srcIp destIp : BitVec 32) (index : Nat) (allocated : Bool) (listener : Pcb)

def Handshake.toClient (handshake : Handshake) : List (List UInt8) :=
  handshake.oldToClient ++ (handshake.server.map Opener.sent).getD []

def Handshake.toServer (handshake : Handshake) : List (List UInt8) :=
  handshake.oldToServer ++ handshake.client.sent

def handshakeStep (handshake : Handshake) : HandshakeEvent → Handshake
  | .client event => { handshake with client := handshake.client.call event }
  | .server event => { handshake with server := handshake.server.map (·.call event) }
  | .clientSyn now => { handshake with client := handshake.client.sendSyn now }
  | .serverSynAck => { handshake with server := handshake.server.map (·.sendSynAck) }
  | .toClient now srcIp destIp index =>
    match handshake.toClient[index]? with
    | none => handshake
    | some packet => { handshake with client := handshake.client.receive now srcIp destIp packet }
  | .toServer now srcIp destIp index allocated listener =>
    match handshake.toServer[index]?, handshake.server with
    | none, _ => handshake
    | some packet, none => { handshake with server := listenRegister now allocated listener srcIp destIp packet }
    | some packet, some server => { handshake with server := some (server.receive now srcIp destIp packet) }

/-- `sys_connect` has filled its PCB and dropped the lock; the network holds `oldToServer` and
`oldToClient`. -/
def Handshake.start (now : BitVec 64) (localPort : BitVec 16) (remoteIp : BitVec 32) (remotePort : BitVec 16)
    (oldToServer oldToClient : List (List UInt8)) : Handshake where
  client := Opener.created (connectPcb now localPort remoteIp remotePort (tcpAlloc true))
  server := none
  oldToServer := oldToServer
  oldToClient := oldToClient

end PhotonOS
