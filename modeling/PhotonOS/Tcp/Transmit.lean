import PhotonOS.Tcp.Pcb

/-!
The data path of `tcp.c`: acknowledgement of queued segments, the drain loop,
`tcp_send` and `tcp_receive_read`.
-/

namespace PhotonOS

def releaseAcked (ack : BitVec 32) : List TcpSegment → Nat → Nat → TcpQueue
  | [], bytes, segments => { entries := [], bytes := bytes, segments := segments }
  | segment :: rest, bytes, segments =>
    if Serial.le (segment.sequence + BitVec.ofNat 32 segment.length) ack then
      releaseAcked ack rest (bytes - segment.length) (segments - 1)
    else if Serial.lt segment.sequence ack ∧ (ack - segment.sequence).toNat < segment.length then
      let acked := (ack - segment.sequence).toNat
      { entries := { segment with
          sequence := ack
          length := segment.length - acked
          offset := segment.offset + acked } :: rest
        bytes := bytes - acked
        segments := segments }
    else { entries := segment :: rest, bytes := bytes, segments := segments }

def capWindow (window : BitVec 32) : BitVec 32 := if window > 0xFFFF then 0xFFFF else window

/-- Slow start below `ssthresh`, congestion avoidance from there on. -/
def growCongestionWindow (bytesAcked : BitVec 32) (pcb : Pcb) : Pcb :=
  if pcb.cwnd < pcb.ssthresh then
    { pcb with cwnd := capWindow (pcb.cwnd + (if bytesAcked > mssWord then mssWord else bytesAcked)) }
  else if pcb.caBytesAcked + bytesAcked ≥ pcb.cwnd then
    { pcb with caBytesAcked := 0, cwnd := capWindow (pcb.cwnd + mssWord) }
  else { pcb with caBytesAcked := pcb.caBytesAcked + bytesAcked }

def rearmAfterAck (now : BitVec 64) (pcb : Pcb) : Pcb :=
  if pcb.txBuf.unacked.entries = [] then
    let cleared := clearRto pcb
    { cleared with
      timers := { cleared.timers with retransmitCount := 0, rtoTicks := tcpDataRtoTicksDefault } }
  else armDataRto now pcb

def tcpTxAckReceivedLockedExt (now : BitVec 64) (pcb : Pcb) (ack : BitVec 32) (isRecoveryExit : Bool) : Pcb :=
  if Serial.gt ack pcb.sndNxt then pcb
  else if ack = pcb.sndUna then pcb
  else if Serial.lt ack pcb.sndUna then pcb
  else
    let grown := if isRecoveryExit then pcb else growCongestionWindow (ack - pcb.sndUna) pcb
    rearmAfterAck now { grown with
      sndUna := ack
      txBuf := { pcb.txBuf with
        unacked := releaseAcked ack pcb.txBuf.unacked.entries pcb.txBuf.unacked.bytes
          pcb.txBuf.unacked.segments } }

def tcpTxAckReceivedLocked (now : BitVec 64) (pcb : Pcb) (ack : BitVec 32) : Pcb :=
  tcpTxAckReceivedLockedExt now pcb ack false

structure DrainResult where
  pcb : Pcb
  packet : Option (List UInt8)
  again : Bool

def stopDraining (pcb : Pcb) : Pcb := { pcb with flags := { pcb.flags with draining := false } }

def drainFin (now : BitVec 64) (pcb : Pcb) : DrainResult :=
  if pcb.flags.finPending then
    let pcb := { pcb with flags := { pcb.flags with finPending := false } }
    match tcpBuildOutputLocked pcb (tcpFlagFin ||| tcpFlagAck) [] with
    | none => { pcb := stopDraining pcb, packet := none, again := false }
    | some (pcb, packet) =>
      let state :=
        match pcb.state with
        | .established => .finWait1
        | .closeWait => .lastAck
        | other => other
      { pcb := stopDraining (armDataRto now { pcb with state := state })
        packet := some packet
        again := false }
  else { pcb := stopDraining pcb, packet := none, again := false }

theorem finSent_state {state next : TcpState} (sent : next = match state with
      | .established => .finWait1
      | .closeWait => .lastAck
      | other => other) : next ≠ .established ∧ (next = .finWait1 ∨ next = .lastAck ∨ next = state) := by
  subst sent
  cases state <;> simp

def remainingWindow (pcb : Pcb) : BitVec 32 :=
  let inFlight := pcb.sndNxt - pcb.sndUna
  let sndWnd := pcb.sndWnd.setWidth 32
  let effective := if sndWnd < pcb.cwnd then sndWnd else pcb.cwnd
  if effective > inFlight then effective - inFlight else 0

def armPersist (now : BitVec 64) (pcb : Pcb) : Pcb :=
  if pcb.sndWnd = 0 ∧ !pcb.flags.timerPersist then
    { pcb with
      flags := { pcb.flags with timerPersist := true }
      timers := { pcb.timers with
        persistTicks := tcpPersistTicksDefault
        persist := ticksAfter now tcpPersistTicksDefault
        persistCount := 0 } }
  else pcb

/-- `segment` sent at `snd_nxt`: it joins `unacked` and starts the timer if that was empty. -/
def transmitSegment (now : BitVec 64) (pcb : Pcb) (unsent : TcpQueue) (segment : TcpSegment) : DrainResult :=
  let sent := { segment with sequence := pcb.sndNxt, sentAt := now }
  let sndNxt := pcb.sndNxt + BitVec.ofNat 32 segment.length
  let queued := { pcb with
    txBuf := { pcb.txBuf with unsent := unsent, unacked := tcpQueueAppendLocked pcb.txBuf.unacked sent }
    sndNxt := sndNxt
    seqNumber := sndNxt }
  let armed := if pcb.txBuf.unacked.entries = [] then armDataRto now queued else queued
  { pcb := advertiseWindow armed
    packet := some (segmentPacket armed sent.sequence (tcpFlagAck ||| tcpFlagPsh) sent.payload)
    again := true }

/-- One pass of the loop of `tcp_drain_unsent`. A head that does not fit is cut: the slice is a copy. -/
def drainIteration (now : BitVec 64) (allocated : Bool) (pcb : Pcb) : DrainResult :=
  match pcb.txBuf.unsent.entries with
  | [] => drainFin now pcb
  | segment :: rest =>
    if (pcb.state ≠ .established ∧ pcb.state ≠ .closeWait) ∨ pcb.flags.reset then
      { pcb := stopDraining pcb, packet := none, again := false }
    else if remainingWindow pcb = 0 then
      { pcb := stopDraining (armPersist now pcb), packet := none, again := false }
    else
      let sendLen := min (min segment.length (remainingWindow pcb).toNat) tcpDefaultMss
      if sendLen < segment.length then
        if allocated then
          let slice : TcpSegment := {
            sequence := pcb.sndNxt, length := sendLen, offset := 0
            data := (segment.data.drop segment.offset).take sendLen
            sentAt := now, retransmitCount := 0 }
          let remainder := { segment with
            offset := segment.offset + sendLen
            length := segment.length - sendLen
            sequence := pcb.sndNxt + BitVec.ofNat 32 sendLen }
          let unsent := { pcb.txBuf.unsent with
            entries := remainder :: rest, bytes := pcb.txBuf.unsent.bytes - sendLen }
          transmitSegment now pcb unsent slice
        else { pcb := stopDraining pcb, packet := none, again := false }
      else
        transmitSegment now pcb (tcpQueueTakeHeadLocked pcb.txBuf.unsent segment rest) segment

/-- The entry of `tcp_drain_unsent`; `none` when another thread is draining. -/
def drainEnter (now : BitVec 64) (allocated : Bool) (pcb : Pcb) : Option DrainResult :=
  if pcb.flags.draining then none
  else some (drainIteration now allocated { pcb with flags := { pcb.flags with draining := true } })

def drainFuel (pcb : Pcb) : Nat := (pcb.txBuf.unsent.entries.map (fun segment => segment.length + 1)).sum + 1

/-- The loop of `tcp_drain_unsent` run without interruption, with the packets it sends. -/
def drainPasses (now : BitVec 64) (allocated : Nat → Bool) : Nat → Pcb → Pcb × List (List UInt8)
  | 0, pcb => (pcb, [])
  | fuel + 1, pcb =>
    let result := drainIteration now (allocated fuel) pcb
    if result.again then
      let rest := drainPasses now allocated fuel result.pcb
      (rest.1, result.packet.toList ++ rest.2)
    else (result.pcb, result.packet.toList)

def tcpDrainUnsent (now : BitVec 64) (allocated : Nat → Bool) (pcb : Pcb) : Pcb × List (List UInt8) :=
  if pcb.flags.draining then (pcb, [])
  else
    let entered := { pcb with flags := { pcb.flags with draining := true } }
    drainPasses now allocated (drainFuel entered) entered

def sendRefused (pcb : Pcb) : Bool :=
  (pcb.state != .established && pcb.state != .closeWait) || pcb.flags.reset || pcb.flags.shutWr

def sendRequest (pcb : Pcb) (remaining : Nat) : Nat :=
  min (min remaining tcpDefaultMss) (tcpTxBufferAvailableLocked pcb)

def sendAppend (pcb : Pcb) (chunk : List UInt8) : Pcb :=
  let segment : TcpSegment := {
    sequence := pcb.sndNxt + BitVec.ofNat 32 pcb.txBuf.unsent.bytes
    length := chunk.length, offset := 0, data := chunk, sentAt := 0, retransmitCount := 0 }
  { pcb with txBuf := { pcb.txBuf with unsent := tcpQueueAppendLocked pcb.txBuf.unsent segment } }

structure ReadResult where
  pcb : Pcb
  bytes : List UInt8
  packet : Option (List UInt8)
  hasUnsent : Bool

def tcpReceiveRead (pcb : Pcb) (length : Nat) : ReadResult :=
  if length = 0 ∨ pcb.flags.shutRd then { pcb := pcb, bytes := [], packet := none, hasUnsent := false }
  else
    let taken := pcb.rxBuf.read length
    let free := taken.1.freeSpace
    let pcb := { pcb with
      rxBuf := taken.1
      window := BitVec.ofNat 32 free
      rcvWnd := BitVec.ofNat 16 free
      rcvAnnWnd := BitVec.ofNat 16 free }
    let hasUnsent := pcb.state == .established && !pcb.txBuf.unsent.entries.isEmpty
    if taken.2 ≠ [] ∧ pcb.state = .established then
      match tcpBuildOutputLocked pcb tcpFlagAck [] with
      | none => { pcb := pcb, bytes := taken.2, packet := none, hasUnsent := hasUnsent }
      | some (pcb, packet) => { pcb := pcb, bytes := taken.2, packet := some packet, hasUnsent := hasUnsent }
    else { pcb := pcb, bytes := taken.2, packet := none, hasUnsent := hasUnsent }

end PhotonOS
