import PhotonOS.Lib.RingBuffer
import PhotonOS.Lib.Serial
import PhotonOS.Tcp.Wire

/-!
The TCP protocol control block and the helpers of `tcp.c` that work on it with
its lock held. Sequence numbers, windows and ticks are the fixed-width words of
the source.
-/

namespace PhotonOS

inductive TcpState where
  | closed | listen | synSent | synReceived | established
  | finWait1 | finWait2 | closeWait | lastAck | timeWait
  deriving DecidableEq, Repr

/-- `struct tcp_segment`; its bytes are `length` bytes of `data` from `offset` on. -/
structure TcpSegment where
  sequence : BitVec 32
  length : Nat
  offset : Nat
  data : List UInt8
  sentAt : BitVec 64
  retransmitCount : BitVec 32
  deriving DecidableEq, Repr

structure TcpQueue where
  entries : List TcpSegment
  bytes : Nat
  segments : Nat
  deriving DecidableEq, Repr

structure TcpTxBuffer where
  unsent : TcpQueue
  unacked : TcpQueue
  capacity : Nat
  deriving DecidableEq, Repr

structure TcpTimers where
  retransmission : BitVec 64
  keepalive : BitVec 64
  delayedAck : BitVec 64
  timeout : BitVec 64
  persist : BitVec 64
  rtoTicks : BitVec 32
  persistTicks : BitVec 32
  retransmitCount : BitVec 32
  persistCount : BitVec 32
  deriving DecidableEq, Repr

structure PcbFlags where
  bound : Bool := false
  passive : Bool := false
  active : Bool := false
  acceptReady : Bool := false
  timerRto : Bool := false
  timerKeep : Bool := false
  timerDack : Bool := false
  reset : Bool := false
  eof : Bool := false
  timerPersist : Bool := false
  draining : Bool := false
  shutRd : Bool := false
  shutWr : Bool := false
  finPending : Bool := false
  fastRecovery : Bool := false
  deriving DecidableEq, Repr

structure Pcb where
  localIp : BitVec 32
  remoteIp : BitVec 32
  localPort : BitVec 16
  remotePort : BitVec 16
  iss : BitVec 32
  irs : BitVec 32
  sndUna : BitVec 32
  sndNxt : BitVec 32
  rcvNxt : BitVec 32
  sndWnd : BitVec 16
  rcvWnd : BitVec 16
  rcvAnnWnd : BitVec 16
  sndWl1 : BitVec 32
  sndWl2 : BitVec 32
  state : TcpState
  socket : Bool
  seqNumber : BitVec 32
  ackNumber : BitVec 32
  window : BitVec 32
  retransmissionTimer : BitVec 64
  rxBuf : RingBuffer UInt8
  txBuf : TcpTxBuffer
  flags : PcbFlags
  timers : TcpTimers
  cwnd : BitVec 32
  ssthresh : BitVec 32
  caBytesAcked : BitVec 32
  dupacks : BitVec 32
  recover : BitVec 32
  backlog : Int
  acceptCount : Int
  parent : Bool
  deriving DecidableEq, Repr

def tcpRxBufferCapacity : Nat := 8192
def tcpTxBufferCapacity : Nat := 8192
def tcpRtoTicksDefault : BitVec 32 := 100
def tcpDataRtoTicksDefault : BitVec 32 := 100
def tcpMaxRtoTicks : BitVec 32 := 1000
def tcpKeepaliveTicks : BitVec 64 := 72000
def tcpConnectTimeoutTicks : BitVec 64 := 500
def tcpMaxSynRetries : BitVec 32 := 3
def tcpMaxDataRetries : BitVec 32 := 5
def tcpPersistTicksDefault : BitVec 32 := 100
def tcpMaxPersistTicks : BitVec 32 := 1000
def tcpMaxPersistProbes : BitVec 32 := 10
def tcpTimewaitTicks : BitVec 64 := 200
def netLocalIpv4 : BitVec 32 := 0x0F02000A

def mssWord : BitVec 32 := 1460

def TcpSegment.payload (segment : TcpSegment) : List UInt8 :=
  (segment.data.drop segment.offset).take segment.length

def TcpQueue.empty : TcpQueue := { entries := [], bytes := 0, segments := 0 }

def tcpQueueAppendLocked (queue : TcpQueue) (entry : TcpSegment) : TcpQueue where
  entries := queue.entries ++ [entry]
  bytes := queue.bytes + entry.length
  segments := queue.segments + 1

/-- The queue without its head `entry`; the counters stop at zero. -/
def tcpQueueTakeHeadLocked (queue : TcpQueue) (entry : TcpSegment) (rest : List TcpSegment) : TcpQueue where
  entries := rest
  bytes := queue.bytes - entry.length
  segments := queue.segments - 1

def tcpTxBufferUsedLocked (pcb : Pcb) : Nat := pcb.txBuf.unsent.bytes + pcb.txBuf.unacked.bytes

def tcpTxBufferAvailableLocked (pcb : Pcb) : Nat :=
  if tcpTxBufferUsedLocked pcb ≥ pcb.txBuf.capacity then 0
  else pcb.txBuf.capacity - tcpTxBufferUsedLocked pcb

def tcpEffectiveLocalIp (pcb : Pcb) : BitVec 32 :=
  if pcb.localIp = 0 then netLocalIpv4 else pcb.localIp

def ticksAfter (now : BitVec 64) (ticks : BitVec 32) : BitVec 64 := now + ticks.setWidth 64

def tcpTimersReset (pcb : Pcb) : Pcb :=
  { pcb with
    timers := {
      retransmission := 0, keepalive := 0, delayedAck := 0, timeout := 0, persist := 0
      rtoTicks := tcpRtoTicksDefault, persistTicks := tcpPersistTicksDefault
      retransmitCount := 0, persistCount := 0 }
    retransmissionTimer := 0
    flags := { pcb.flags with
      timerRto := false, timerKeep := false, timerDack := false, timerPersist := false, draining := false } }

def setRto (now : BitVec 64) (ticks count : BitVec 32) (pcb : Pcb) : Pcb :=
  { pcb with
    timers := { pcb.timers with
      rtoTicks := ticks, retransmission := ticksAfter now ticks, retransmitCount := count }
    retransmissionTimer := ticksAfter now ticks }

def armDataRto (now : BitVec 64) (pcb : Pcb) : Pcb :=
  { setRto now tcpDataRtoTicksDefault 0 pcb with flags := { pcb.flags with timerRto := true } }

def clearRto (pcb : Pcb) : Pcb :=
  { pcb with
    timers := { pcb.timers with retransmission := 0 }
    retransmissionTimer := 0
    flags := { pcb.flags with timerRto := false } }

/-- One more retry: the interval doubles up to `tcpMaxRtoTicks`. -/
def backoffRto (now : BitVec 64) (pcb : Pcb) : Pcb :=
  let doubled := pcb.timers.rtoTicks * 2
  setRto now (if doubled > tcpMaxRtoTicks then tcpMaxRtoTicks else doubled)
    (pcb.timers.retransmitCount + 1) pcb

def rtoExpired (now : BitVec 64) (pcb : Pcb) : Bool :=
  pcb.flags.timerRto && pcb.timers.retransmission != 0 && decide (now ≥ pcb.timers.retransmission)

def tcpWindowField (pcb : Pcb) : BitVec 16 :=
  BitVec.ofNat 16 (if pcb.rxBuf.freeSpace > 0xFFFF then 0xFFFF else pcb.rxBuf.freeSpace)

def advertiseWindow (pcb : Pcb) : Pcb :=
  { pcb with
    window := (tcpWindowField pcb).setWidth 32
    rcvWnd := tcpWindowField pcb
    rcvAnnWnd := tcpWindowField pcb }

def segmentHeader (pcb : Pcb) (sequence : BitVec 32) (flags : BitVec 16) : TcpHeader where
  srcPort := pcb.localPort
  destPort := pcb.remotePort
  seqNum := sequence
  ackNum := pcb.rcvNxt
  dataOffsetFlags := offsetFlags flags
  windowSize := tcpWindowField pcb
  checksum := 0
  urgentPtr := 0

def segmentPacket (pcb : Pcb) (sequence : BitVec 32) (flags : BitVec 16) (payload : List UInt8) : List UInt8 :=
  tcpFinishPacket (tcpEffectiveLocalIp pcb) pcb.remoteIp (segmentHeader pcb sequence flags) payload

/-- `tcp_build_output_locked`; `none` is its error return. -/
def tcpBuildOutputLocked (pcb : Pcb) (flags : BitVec 16) (payload : List UInt8) : Option (Pcb × List UInt8) :=
  if pcb.localPort = 0 ∨ pcb.remoteIp = 0 ∨ pcb.remotePort = 0 then none
  else
    let sequence :=
      if flagSet flags tcpFlagSyn ∧ (pcb.state = .synSent ∨ pcb.state = .synReceived) then pcb.iss
      else pcb.sndNxt
    let packet := segmentPacket pcb sequence flags payload
    let pcb := advertiseWindow pcb
    let pcb :=
      if flagSet flags tcpFlagSyn then { pcb with sndNxt := pcb.iss + 1, sndUna := pcb.iss }
      else if flagSet flags tcpFlagFin then { pcb with sndNxt := pcb.sndNxt + 1 }
      else pcb
    let sndNxt := pcb.sndNxt + BitVec.ofNat 32 payload.length
    some ({ pcb with sndNxt := sndNxt, seqNumber := sndNxt }, packet)

/-- `tcp_retransmit_segment_locked`: the packet and the segment with its new send time and count. -/
def tcpRetransmitSegmentLocked (now : BitVec 64) (pcb : Pcb) (segment : TcpSegment) : TcpSegment × List UInt8 :=
  ({ segment with sentAt := now, retransmitCount := segment.retransmitCount + 1 },
    segmentPacket pcb segment.sequence (tcpFlagAck ||| tcpFlagPsh) (segment.payload.take tcpDefaultMss))

def retransmitHead (now : BitVec 64) (pcb : Pcb) : Pcb × Option (List UInt8) :=
  match pcb.txBuf.unacked.entries with
  | [] => (pcb, none)
  | segment :: rest =>
    let sent := tcpRetransmitSegmentLocked now pcb segment
    ({ pcb with
      txBuf := { pcb.txBuf with
        unacked := { pcb.txBuf.unacked with entries := sent.1 :: rest } } }, some sent.2)

def tcpAlloc (socket : Bool) : Pcb where
  localIp := 0
  remoteIp := 0
  localPort := 0
  remotePort := 0
  iss := 0
  irs := 0
  sndUna := 0
  sndNxt := 0
  rcvNxt := 0
  sndWnd := 65535
  rcvWnd := 8192
  rcvAnnWnd := 8192
  sndWl1 := 0
  sndWl2 := 0
  state := .closed
  socket := socket
  seqNumber := 0
  ackNumber := 0
  window := 8192
  retransmissionTimer := 0
  rxBuf := {
    data := List.replicate tcpRxBufferCapacity 0
    capacity := tcpRxBufferCapacity, head := 0, tail := 0, used := 0 }
  txBuf := { unsent := TcpQueue.empty, unacked := TcpQueue.empty, capacity := tcpTxBufferCapacity }
  flags := {}
  timers := {
    retransmission := 0, keepalive := 0, delayedAck := 0, timeout := 0, persist := 0
    rtoTicks := tcpRtoTicksDefault, persistTicks := tcpPersistTicksDefault
    retransmitCount := 0, persistCount := 0 }
  cwnd := 3 * mssWord
  ssthresh := 65535
  caBytesAcked := 0
  dupacks := 0
  recover := 0
  backlog := 0
  acceptCount := 0
  parent := false

def tcpOutput (now : BitVec 64) (pcb : Pcb) (flags : BitVec 16) : Option (Pcb × List UInt8) :=
  match tcpBuildOutputLocked pcb flags [] with
  | none => none
  | some (pcb, packet) =>
    if flagSet flags tcpFlagSyn then
      let ticks := if pcb.timers.rtoTicks = 0 then tcpRtoTicksDefault else pcb.timers.rtoTicks
      some ({ setRto now ticks pcb.timers.retransmitCount pcb with
        flags := { pcb.flags with timerRto := true } }, packet)
    else some (pcb, packet)

def connectPcb (now : BitVec 64) (localPort : BitVec 16) (remoteIp : BitVec 32) (remotePort : BitVec 16)
    (pcb : Pcb) : Pcb :=
  let iss := (now + 1000).setWidth 32
  let iss := if iss = 0 then 1000 else iss
  { setRto now tcpRtoTicksDefault 0 pcb with
    localPort := localPort
    localIp := if pcb.localIp = 0 then netLocalIpv4 else pcb.localIp
    remoteIp := remoteIp
    remotePort := remotePort
    iss := iss
    seqNumber := iss
    sndUna := iss
    sndNxt := iss + 1
    ackNumber := 0
    window := 8192
    rcvWnd := 8192
    rcvAnnWnd := 8192
    state := .synSent
    timers := { (setRto now tcpRtoTicksDefault 0 pcb).timers with timeout := now + tcpConnectTimeoutTicks }
    flags := { pcb.flags with timerRto := true } }

/-- `sys_connect` on a fresh PCB up to the point where it waits for the answer. -/
def sysConnect (now sendNow : BitVec 64) (localPort : BitVec 16) (remoteIp : BitVec 32)
    (remotePort : BitVec 16) (pcb : Pcb) : Option (Pcb × List UInt8) :=
  if pcb.state ≠ .closed then none
  else tcpOutput sendNow (connectPcb now localPort remoteIp remotePort pcb) tcpFlagSyn

def listenChild (now : BitVec 64) (listener : Pcb) (srcIp destIp : BitVec 32) (remotePort : BitVec 16)
    (sequence : BitVec 32) : Pcb :=
  let iss := (now + 1000 + ((remotePort.setWidth 32 : BitVec 32) <<< 8).setWidth 64).setWidth 32
  let iss := if iss = 0 then 1000 else iss
  let child := setRto now tcpRtoTicksDefault 0 (tcpAlloc false)
  { child with
    localIp := if listener.localIp = 0 then destIp else listener.localIp
    remoteIp := srcIp
    localPort := listener.localPort
    remotePort := remotePort
    iss := iss
    irs := sequence
    seqNumber := iss
    sndUna := iss
    sndNxt := iss + 1
    ackNumber := sequence + 1
    rcvNxt := sequence + 1
    state := .synReceived
    parent := true
    timers := { child.timers with timeout := now + tcpConnectTimeoutTicks }
    flags := { bound := true, passive := true, timerRto := true } }

/-- `tcp_handle_listen_syn`: the child and its SYN+ACK, or `none` when no child is left. -/
def tcpHandleListenSyn (now : BitVec 64) (allocated : Bool) (listener : Pcb) (srcIp destIp : BitVec 32)
    (remotePort : BitVec 16) (sequence : BitVec 32) : Option (Pcb × List UInt8) :=
  if listener.state ≠ .listen ∨ listener.acceptCount ≥ listener.backlog ∨ !allocated then none
  else tcpBuildOutputLocked (listenChild now listener srcIp destIp remotePort sequence)
    (tcpFlagSyn ||| tcpFlagAck) []

end PhotonOS
