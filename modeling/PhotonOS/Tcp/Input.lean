import PhotonOS.Tcp.Transmit

/-!
`tcp_input` for a segment whose demultiplexing found a connection. The long
function of the source is cut at its own numbered comments; `InputWork` carries
the locals those parts share.
-/

namespace PhotonOS

/-- The PCB with the locals `out_packet`, `tcp_fast_rexmit_tx` and `need_drain_after_ack`. -/
structure InputWork where
  pcb : Pcb
  out : Option (List UInt8)
  rexmit : Option (List UInt8)
  needDrain : Bool

/-- `send_out = 1` and a build into `out_packet`, which a later build overwrites. -/
def reply (work : InputWork) (flags : BitVec 16) : InputWork :=
  match tcpBuildOutputLocked work.pcb flags [] with
  | none => work
  | some (pcb, packet) => { work with pcb := pcb, out := some packet }

def InputWork.start (pcb : Pcb) : InputWork :=
  { pcb := pcb, out := none, rexmit := none, needDrain := false }

def InputWork.update (work : InputWork) (pcb : Pcb) : InputWork := { work with pcb := pcb }

def TcpHeader.flags (header : TcpHeader) : BitVec 16 := header.dataOffsetFlags &&& 0x01FF#16

def isDuplicateAck (pcb : Pcb) (header : TcpHeader) (payload : List UInt8) : Bool :=
  !pcb.txBuf.unacked.entries.isEmpty && Serial.lt pcb.sndUna pcb.sndNxt && payload.isEmpty &&
    !flagSet header.flags (tcpFlagSyn ||| tcpFlagFin ||| tcpFlagRst) &&
    header.ackNum == pcb.sndUna && header.windowSize == pcb.sndWnd

def newAck (now : BitVec 64) (work : InputWork) (ack : BitVec 32) : InputWork :=
  let pcb := work.pcb
  let pcb :=
    if pcb.flags.fastRecovery then
      tcpTxAckReceivedLockedExt now
        { pcb with
          cwnd := pcb.ssthresh
          flags := { pcb.flags with fastRecovery := false }
          dupacks := 0
          caBytesAcked := 0 } ack true
    else tcpTxAckReceivedLockedExt now { pcb with dupacks := 0 } ack false
  { work with pcb := pcb, needDrain := true }

def enterFastRecovery (pcb : Pcb) : Pcb :=
  let half := (pcb.sndNxt - pcb.sndUna) / 2
  let ssthresh := if half < 2 * mssWord then 2 * mssWord else half
  { pcb with
    ssthresh := ssthresh
    cwnd := capWindow (ssthresh + 3 * mssWord)
    flags := { pcb.flags with fastRecovery := true }
    recover := pcb.sndNxt
    caBytesAcked := 0 }

def fastRetransmit (now : BitVec 64) (work : InputWork) : InputWork :=
  let sent := retransmitHead now (enterFastRecovery work.pcb)
  { work with pcb := armDataRto now sent.1, rexmit := sent.2, needDrain := true }

def duplicateAck (now : BitVec 64) (work : InputWork) : InputWork :=
  let pcb := { work.pcb with dupacks := work.pcb.dupacks + 1 }
  if work.pcb.flags.fastRecovery then
    { work with pcb := { pcb with cwnd := capWindow (pcb.cwnd + mssWord) }, needDrain := true }
  else if pcb.dupacks = 3 then fastRetransmit now (work.update pcb)
  else work.update pcb

def establishedAck (now : BitVec 64) (header : TcpHeader) (payload : List UInt8) (work : InputWork) : InputWork :=
  if Serial.gt header.ackNum work.pcb.sndNxt then reply work tcpFlagAck
  else if Serial.gt header.ackNum work.pcb.sndUna then newAck now work header.ackNum
  else if isDuplicateAck work.pcb header payload then duplicateAck now work
  else work

/-- The window update of the ESTABLISHED branch; `before` is the peer window at the top of it. -/
def establishedWindow (before : BitVec 16) (header : TcpHeader) (work : InputWork) : InputWork :=
  let pcb := work.pcb
  if header.windowSize ≠ pcb.sndWnd ∨ Serial.lt pcb.sndWl1 header.seqNum ∨
      (pcb.sndWl1 = header.seqNum ∧ Serial.le pcb.sndWl2 header.ackNum) then
    let pcb := { pcb with
      sndWnd := header.windowSize, sndWl1 := header.seqNum, sndWl2 := header.ackNum }
    let drains := decide (pcb.sndWnd > before) && !pcb.txBuf.unsent.entries.isEmpty
    let pcb :=
      if pcb.sndWnd > 0 ∧ pcb.flags.timerPersist then
        { pcb with
          flags := { pcb.flags with timerPersist := false }
          timers := { pcb.timers with
            persist := 0, persistTicks := tcpPersistTicksDefault, persistCount := 0 } }
      else pcb
    { work with pcb := pcb, needDrain := work.needDrain || drains }
  else work

def establishedProbe (header : TcpHeader) (payload : List UInt8) (work : InputWork) : InputWork :=
  if payload = [] ∧ header.seqNum = work.pcb.rcvNxt - 1 ∧ flagSet header.flags tcpFlagAck ∧
      !flagSet header.flags (tcpFlagSyn ||| tcpFlagFin ||| tcpFlagRst) then reply work tcpFlagAck
  else work

/-- In-order payload: stored as far as the ring has room, or discarded after `SHUT_RD`. -/
def acceptPayload (pcb : Pcb) (payload : List UInt8) : Pcb :=
  if pcb.flags.shutRd then
    let rcvNxt := pcb.rcvNxt + BitVec.ofNat 32 payload.length
    { pcb with rcvNxt := rcvNxt, ackNumber := rcvNxt }
  else
    let written := pcb.rxBuf.write payload
    if written.2 = 0 then pcb
    else
      let rcvNxt := pcb.rcvNxt + BitVec.ofNat 32 written.2
      { pcb with rxBuf := written.1, rcvNxt := rcvNxt, ackNumber := rcvNxt }

def noteFreeSpace (pcb : Pcb) : Pcb :=
  { pcb with window := BitVec.ofNat 32 pcb.rxBuf.freeSpace, rcvWnd := tcpWindowField pcb }

def establishedData (header : TcpHeader) (payload : List UInt8) (work : InputWork) : InputWork :=
  if payload = [] then work
  else if header.seqNum = work.pcb.rcvNxt then
    reply (work.update (noteFreeSpace (acceptPayload work.pcb payload))) tcpFlagAck
  else
    reply (work.update { noteFreeSpace work.pcb with ackNumber := work.pcb.rcvNxt }) tcpFlagAck

def takeFin (pcb : Pcb) : Pcb :=
  let rcvNxt := pcb.rcvNxt + 1
  { pcb with rcvNxt := rcvNxt, ackNumber := rcvNxt, flags := { pcb.flags with eof := true } }

def establishedFin (header : TcpHeader) (payload : List UInt8) (work : InputWork) : InputWork :=
  if flagSet header.flags tcpFlagFin ∧ header.seqNum + BitVec.ofNat 32 payload.length = work.pcb.rcvNxt then
    reply (work.update (noteFreeSpace { takeFin work.pcb with state := .closeWait })) tcpFlagAck
  else work

def inputEstablished (now : BitVec 64) (header : TcpHeader) (payload : List UInt8) (work : InputWork) : InputWork :=
  let before := work.pcb.sndWnd
  let work :=
    if flagSet header.flags tcpFlagAck then
      establishedWindow before header (establishedAck now header payload work)
    else work
  establishedFin header payload (establishedData header payload (establishedProbe header payload work))

def finWaitData (header : TcpHeader) (payload : List UInt8) (work : InputWork) : InputWork :=
  if payload ≠ [] ∧ header.seqNum = work.pcb.rcvNxt then
    reply (work.update (acceptPayload work.pcb payload)) tcpFlagAck
  else work

def finWait1Ack (now : BitVec 64) (header : TcpHeader) (pcb : Pcb) : Pcb × Bool :=
  if flagSet header.flags tcpFlagAck then
    let pcb := tcpTxAckReceivedLocked now pcb header.ackNum
    if Serial.ge header.ackNum pcb.sndNxt then
      let cleared := clearRto pcb
      ({ cleared with timers := { cleared.timers with retransmitCount := 0 } }, true)
    else (pcb, false)
  else (pcb, false)

def finWait1Fin (header : TcpHeader) (payload : List UInt8) (work : InputWork) : InputWork :=
  let sequenceEnd := header.seqNum + BitVec.ofNat 32 payload.length
  if flagSet header.flags tcpFlagFin then
    if work.pcb.flags.eof ∧ sequenceEnd + 1 = work.pcb.rcvNxt then reply work tcpFlagAck
    else if sequenceEnd = work.pcb.rcvNxt then reply (work.update (takeFin work.pcb)) tcpFlagAck
    else work
  else work

def inputFinWait1 (now : BitVec 64) (header : TcpHeader) (payload : List UInt8) (work : InputWork) : InputWork :=
  let acked := finWait1Ack now header work.pcb
  let work := finWait1Fin header payload (finWaitData header payload (work.update acked.1))
  if acked.2 then
    if work.pcb.flags.eof then
      work.update { work.pcb with
        state := .timeWait
        timers := { work.pcb.timers with timeout := now + tcpTimewaitTicks } }
    else work.update { work.pcb with state := .finWait2 }
  else work

def inputFinWait2 (now : BitVec 64) (header : TcpHeader) (payload : List UInt8) (work : InputWork) : InputWork :=
  let work := finWaitData header payload work
  if flagSet header.flags tcpFlagFin ∧ header.seqNum + BitVec.ofNat 32 payload.length = work.pcb.rcvNxt then
    let pcb := takeFin work.pcb
    reply (work.update { pcb with
      state := .timeWait
      timers := { pcb.timers with timeout := now + tcpTimewaitTicks } }) tcpFlagAck
  else work

def repeatedFin (header : TcpHeader) (payload : List UInt8) (work : InputWork) : InputWork :=
  if flagSet header.flags tcpFlagFin ∧
      header.seqNum + BitVec.ofNat 32 payload.length + 1 = work.pcb.rcvNxt then reply work tcpFlagAck
  else work

def inputTimeWait (now : BitVec 64) (header : TcpHeader) (work : InputWork) : InputWork :=
  if flagSet header.flags tcpFlagFin then
    let work := reply work tcpFlagAck
    work.update { work.pcb with timers := { work.pcb.timers with timeout := now + tcpTimewaitTicks } }
  else work

def enterEstablished (now : BitVec 64) (pcb : Pcb) : Pcb :=
  let pcb := tcpTimersReset { pcb with state := .established }
  { pcb with
    timers := { pcb.timers with keepalive := now + tcpKeepaliveTicks }
    flags := { pcb.flags with timerKeep := true, active := true } }

def inputSynSent (now : BitVec 64) (header : TcpHeader) (work : InputWork) : InputWork :=
  if header.flags &&& (tcpFlagSyn ||| tcpFlagAck) = tcpFlagSyn ||| tcpFlagAck ∧
      (header.ackNum = work.pcb.iss + 1 ∨ header.ackNum = work.pcb.seqNumber) then
    let pcb := enterEstablished now work.pcb
    reply (work.update { pcb with
      ackNumber := header.seqNum + 1
      rcvNxt := header.seqNum + 1
      sndUna := header.ackNum
      sndNxt := pcb.iss + 1
      seqNumber := pcb.iss + 1
      sndWnd := header.windowSize
      sndWl1 := header.seqNum
      sndWl2 := header.ackNum }) tcpFlagAck
  else work

def acceptsHandshake (header : TcpHeader) (pcb : Pcb) : Bool :=
  flagSet header.flags tcpFlagAck && !flagSet header.flags tcpFlagSyn &&
    (header.ackNum == pcb.iss + 1 || header.ackNum == pcb.seqNumber)

def inputSynReceived (now : BitVec 64) (header : TcpHeader) (work : InputWork) : InputWork :=
  if flagSet header.flags tcpFlagSyn ∧ !flagSet header.flags tcpFlagAck then
    reply work (tcpFlagSyn ||| tcpFlagAck)
  else if acceptsHandshake header work.pcb then
    let pcb := enterEstablished now work.pcb
    work.update { pcb with
      sndWnd := header.windowSize
      sndWl1 := header.seqNum
      sndWl2 := header.ackNum
      sndUna := header.ackNum
      sndNxt := header.ackNum
      seqNumber := header.ackNum }
  else work

inductive InputNext where
  | done
  | drain
  | enqueue
  deriving DecidableEq, Repr

structure InputResult where
  pcb : Option Pcb
  packets : List (List UInt8)
  next : InputNext

def clearTxQueues (pcb : Pcb) : Pcb :=
  { pcb with txBuf := { pcb.txBuf with unsent := TcpQueue.empty, unacked := TcpQueue.empty } }

def inputReset (pcb : Pcb) : InputResult :=
  let closed := tcpTimersReset (clearTxQueues
    { pcb with state := .closed, flags := { pcb.flags with reset := true } })
  { pcb := if !pcb.socket && pcb.parent then none else some closed, packets := [], next := .done }

def finishInput (work : InputWork) : InputResult :=
  let hasUnsent := (work.pcb.state == .established || work.pcb.state == .closeWait) &&
    (!work.pcb.txBuf.unsent.entries.isEmpty || work.pcb.flags.finPending)
  { pcb := some work.pcb
    packets := work.out.toList ++ work.rexmit.toList
    next := if hasUnsent || work.needDrain then .drain else .done }

def inputLastAck (header : TcpHeader) (payload : List UInt8) (work : InputWork) : InputResult :=
  let work := repeatedFin header payload work
  if flagSet header.flags tcpFlagAck ∧ Serial.ge header.ackNum work.pcb.sndNxt then
    { pcb := if work.pcb.socket then some (tcpTimersReset { work.pcb with state := .closed }) else none
      packets := work.out.toList
      next := .done }
  else finishInput work

/-- `tcp_input` on a connection, from taking the PCB lock to dropping it. -/
def tcpInputLocked (now : BitVec 64) (header : TcpHeader) (payload : List UInt8) (pcb : Pcb) : InputResult :=
  let work := InputWork.start pcb
  if pcb.state = .closed ∨ pcb.state = .listen then { pcb := some pcb, packets := [], next := .done }
  else if flagSet header.flags tcpFlagRst then inputReset pcb
  else
    match pcb.state with
    | .synSent => finishInput (inputSynSent now header work)
    | .synReceived =>
      let result := finishInput (inputSynReceived now header work)
      if acceptsHandshake header pcb && pcb.parent then { result with next := .enqueue }
      else result
    | .established => finishInput (inputEstablished now header payload work)
    | .finWait1 => finishInput (inputFinWait1 now header payload work)
    | .finWait2 => finishInput (inputFinWait2 now header payload work)
    | .closeWait => finishInput (repeatedFin header payload work)
    | .lastAck => inputLastAck header payload work
    | .timeWait => finishInput (inputTimeWait now header work)
    | _ => finishInput work

def tcpAcceptEnqueue (listener child : Pcb) : Option Pcb :=
  if listener.state = .listen ∧ ¬listener.acceptCount ≥ listener.backlog then
    some { child with parent := true, flags := { child.flags with acceptReady := true } }
  else none

/-- `tcp_input` as one uninterrupted call on the PCB that `tcp_lookup_locked` found. -/
def tcpInput (now : BitVec 64) (allocated : Nat → Bool) (listener : Pcb) (srcIp destIp : BitVec 32)
    (segment : List UInt8) (pcb : Pcb) : Option Pcb × List (List UInt8) :=
  match tcpDecode srcIp destIp segment with
  | none => (some pcb, [])
  | some (header, payload) =>
    let result := tcpInputLocked now header payload pcb
    match result.next, result.pcb with
    | .drain, some left =>
      let drained := tcpDrainUnsent now allocated left
      (some drained.1, result.packets ++ drained.2)
    | .enqueue, some left => (tcpAcceptEnqueue listener left, result.packets)
    | _, left => (left, result.packets)

/-- The answer of `tcp_input` to a segment for which there is no PCB. -/
def tcpResetReply (srcIp destIp : BitVec 32) (header : TcpHeader) (payload : List UInt8) : Option (List UInt8) :=
  if flagSet header.flags tcpFlagRst then none
  else
    let acked := flagSet header.flags tcpFlagAck
    let length := BitVec.ofNat 32 payload.length + (if flagSet header.flags (tcpFlagSyn ||| tcpFlagFin) then 1 else 0)
    some (tcpFinishPacket destIp srcIp {
      srcPort := header.destPort
      destPort := header.srcPort
      seqNum := if acked then header.ackNum else 0
      ackNum := if acked then 0 else header.seqNum + length
      dataOffsetFlags := offsetFlags (if acked then tcpFlagRst else tcpFlagRst ||| tcpFlagAck)
      windowSize := 0
      checksum := 0
      urgentPtr := 0 } [])

end PhotonOS
