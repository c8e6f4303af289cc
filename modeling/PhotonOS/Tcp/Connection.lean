import PhotonOS.Lib.Transition
import PhotonOS.Tcp.Control

/-!
A connection as the kernel runs it: one PCB and the threads that are inside
`tcp.c` on it. Every critical section of the PCB lock is one step, so that any
interleaving of the callers is a list of events.
-/

namespace PhotonOS

inductive DrainReturn where
  | caller
  | close (expected : TcpState)
  | shutdown
  deriving DecidableEq, Repr

inductive Frame where
  | sendCheck (buffer : List UInt8) (accepted : Nat)
  | sendCopy (buffer : List UInt8) (accepted requested : Nat)
  | drainEnter (next : DrainReturn)
  | drainLoop (next : DrainReturn)
  | closeResume (expected : TcpState)
  | shutdownResume
  | enqueue
  deriving DecidableEq, Repr

/-- The PCB is `none` once it has been freed; its threads then make no further steps. -/
structure Conn where
  pcb : Option Pcb
  frames : List Frame
  deriving DecidableEq, Repr

/-- What a step shows to the outside: packets sent, bytes `tcp_send` took, bytes a read returned. -/
structure Output where
  packets : List (List UInt8) := []
  accepted : List UInt8 := []
  returned : List UInt8 := []
  deriving DecidableEq, Repr

inductive Action where
  | send (buffer : List UInt8)
  | drain
  | read (length : Nat)
  | shutdown (how : Int)
  | close
  | accept
  | input (srcIp destIp : BitVec 32) (segment : List UInt8)
  | tick (deferred dead : Nat)
  | resume (index : Nat) (allocated : Bool) (listener : Pcb)
  deriving DecidableEq, Repr

/-- An action and the value of `kernel_ticks` at which it is taken. -/
structure Event where
  now : BitVec 64
  action : Action
  deriving DecidableEq, Repr

structure StepResult where
  conn : Conn
  output : Output

def returnFrame : DrainReturn → Option Frame
  | .caller => none
  | .close expected => some (.closeResume expected)
  | .shutdown => some .shutdownResume

structure FrameResult where
  pcb : Option Pcb
  frame : Option Frame
  output : Output

/-- The end of the acceptance loop of `tcp_send`. -/
def sendBreak (accepted : Nat) : Option Frame :=
  if accepted = 0 then none else some (.drainEnter .caller)

def runSendCheck (pcb : Pcb) (buffer : List UInt8) (accepted : Nat) : FrameResult :=
  let frame :=
    if accepted ≥ buffer.length then sendBreak accepted
    else if sendRefused pcb then none
    else if tcpTxBufferAvailableLocked pcb = 0 then sendBreak accepted
    else some (.sendCopy buffer accepted (sendRequest pcb (buffer.length - accepted)))
  { pcb := some pcb, frame := frame, output := {} }

def runSendCopy (allocated : Bool) (pcb : Pcb) (buffer : List UInt8) (accepted requested : Nat) : FrameResult :=
  if !allocated then { pcb := some pcb, frame := sendBreak accepted, output := {} }
  else if sendRefused pcb then { pcb := some pcb, frame := none, output := {} }
  else if tcpTxBufferAvailableLocked pcb < requested then
    { pcb := some pcb, frame := sendBreak accepted, output := {} }
  else
    let chunk := (buffer.drop accepted).take requested
    { pcb := some (sendAppend pcb chunk)
      frame := some (.sendCheck buffer (accepted + requested))
      output := { accepted := chunk } }

def drainFrame (next : DrainReturn) (result : DrainResult) : FrameResult where
  pcb := some result.pcb
  frame := if result.again then some (.drainLoop next) else returnFrame next
  output := { packets := result.packet.toList }

def runFrame (now : BitVec 64) (allocated : Bool) (listener pcb : Pcb) : Frame → FrameResult
  | .sendCheck buffer accepted => runSendCheck pcb buffer accepted
  | .sendCopy buffer accepted requested => runSendCopy allocated pcb buffer accepted requested
  | .drainEnter next =>
    match drainEnter now allocated pcb with
    | none => { pcb := some pcb, frame := returnFrame next, output := {} }
    | some result => drainFrame next result
  | .drainLoop next => drainFrame next (drainIteration now allocated pcb)
  | .closeResume expected =>
    let closed := closeAfterDrain now expected pcb
    { pcb := some closed.1, frame := none, output := { packets := closed.2 } }
  | .shutdownResume =>
    let closed := shutdownAfterDrain now pcb
    { pcb := some closed.1, frame := none, output := { packets := closed.2 } }
  | .enqueue => { pcb := tcpAcceptEnqueue listener pcb, frame := none, output := {} }

def startClose (frames : List Frame) (next : DrainReturn) : CloseStart → StepResult
  | .freed => { conn := { pcb := none, frames := frames }, output := {} }
  | .returned pcb packets => { conn := { pcb := some pcb, frames := frames }, output := { packets := packets } }
  | .draining pcb => { conn := { pcb := some pcb, frames := frames ++ [.drainEnter next] }, output := {} }

def inputFrames : InputNext → List Frame
  | .done => []
  | .drain => [.drainEnter .caller]
  | .enqueue => [.enqueue]

def acceptChild (pcb : Pcb) : Pcb :=
  if pcb.flags.acceptReady then
    { pcb with parent := false, socket := true, flags := { pcb.flags with acceptReady := false } }
  else pcb

def stepPcb (now : BitVec 64) (pcb : Pcb) (frames : List Frame) : Action → StepResult
  | .send buffer =>
    { conn := {
        pcb := some pcb
        frames := if buffer = [] then frames else frames ++ [.sendCheck buffer 0] }
      output := {} }
  | .drain => { conn := { pcb := some pcb, frames := frames ++ [.drainEnter .caller] }, output := {} }
  | .read length =>
    let result := tcpReceiveRead pcb length
    { conn := {
        pcb := some result.pcb
        frames := if result.hasUnsent then frames ++ [.drainEnter .caller] else frames }
      output := { packets := result.packet.toList, returned := result.bytes } }
  | .shutdown how => startClose frames .shutdown (tcpShutdownStart now how pcb)
  | .close => startClose frames (.close pcb.state) (tcpCloseStart now pcb)
  | .accept => { conn := { pcb := some (acceptChild pcb), frames := frames }, output := {} }
  | .input srcIp destIp segment =>
    match tcpDecode srcIp destIp segment with
    | none => { conn := { pcb := some pcb, frames := frames }, output := {} }
    | some (header, payload) =>
      let result := tcpInputLocked now header payload pcb
      { conn := { pcb := result.pcb, frames := frames ++ inputFrames result.next }
        output := { packets := result.packets } }
  | .tick deferred dead =>
    let result := tcpTimerTickPcb now deferred dead pcb
    { conn := { pcb := result.pcb, frames := frames }, output := { packets := result.packets } }
  | .resume index allocated listener =>
    match frames[index]? with
    | none => { conn := { pcb := some pcb, frames := frames }, output := {} }
    | some frame =>
      let result := runFrame now allocated listener pcb frame
      { conn := { pcb := result.pcb, frames := frames.eraseIdx index ++ result.frame.toList }
        output := result.output }

def stepConn (conn : Conn) (event : Event) : StepResult :=
  match conn.pcb with
  | none => { conn := conn, output := {} }
  | some pcb => stepPcb event.now pcb conn.frames event.action

def connStep (conn : Conn) (event : Event) : Conn := (stepConn conn event).conn

/-- A connection at the end of its creation: `sys_connect` waiting, or a child just registered. -/
inductive Created : Pcb → Prop where
  | connect (now sendNow : BitVec 64) (localPort remotePort : BitVec 16) (remoteIp : BitVec 32)
      (pcb : Pcb) (packet : List UInt8)
      (sent : sysConnect now sendNow localPort remoteIp remotePort (tcpAlloc true) = some (pcb, packet)) : Created pcb
  | child (now : BitVec 64) (listener : Pcb) (srcIp destIp : BitVec 32) (remotePort : BitVec 16)
      (sequence : BitVec 32) (pcb : Pcb) (packet : List UInt8)
      (sent : tcpHandleListenSyn now true listener srcIp destIp remotePort sequence = some (pcb, packet)) :
      Created pcb

/-- A connection that some interleaving of its operations leads to. -/
def Reachable (conn : Conn) : Prop :=
  ∃ pcb events, Created pcb ∧ conn = Transition.run connStep { pcb := some pcb, frames := [] } events

def sampleRemote : BitVec 32 := 0x0100000A

def sampleSegment (seqNum ackNum : BitVec 32) (flags : BitVec 16) : List UInt8 :=
  tcpFinishPacket sampleRemote netLocalIpv4
    { srcPort := 80, destPort := 1000, seqNum := seqNum, ackNum := ackNum
      dataOffsetFlags := offsetFlags flags, windowSize := 8192, checksum := 0, urgentPtr := 0 } []

def sampleInput (seqNum ackNum : BitVec 32) (flags : BitVec 16) : Action :=
  .input sampleRemote netLocalIpv4 (sampleSegment seqNum ackNum flags)

def sampleEvents (actions : List Action) : List Event :=
  actions.map fun action => { now := 1, action := action }

/-- The connection that `sys_connect` opens at tick 0, so with `iss = 1000`. -/
def sampleStart : Conn where
  pcb := (sysConnect 0 0 1000 sampleRemote 80 (tcpAlloc true)).map Prod.fst
  frames := []

def sampleConn (actions : List Action) : Conn :=
  Transition.run connStep sampleStart (sampleEvents actions)

/-- The handshake with a peer at `500`, then one byte taken by `tcp_send` and transmitted. -/
def sampleSend : List Action :=
  let resume := Action.resume 0 true (tcpAlloc false)
  [sampleInput 500 1001 (tcpFlagSyn ||| tcpFlagAck), .send [7], resume, resume, resume, resume, resume]

theorem sampleStart_created : ∃ pcb, Created pcb ∧ sampleStart = { pcb := some pcb, frames := [] } := by
  have opened : (sysConnect 0 0 1000 sampleRemote 80 (tcpAlloc true)).isSome = true := by decide +kernel
  obtain ⟨⟨pcb, packet⟩, sent⟩ := Option.isSome_iff_exists.mp opened
  refine ⟨pcb, .connect 0 0 1000 80 sampleRemote pcb packet sent, ?_⟩
  rw [sampleStart, sent]
  rfl

theorem sampleConn_reachable {actions : List Action} : Reachable (sampleConn actions) := by
  obtain ⟨pcb, created, start⟩ := sampleStart_created
  exact ⟨pcb, sampleEvents actions, created, by rw [sampleConn, start]⟩

end PhotonOS
