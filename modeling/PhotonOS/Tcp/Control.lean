import PhotonOS.Tcp.Input

/-!
`tcp_timer_tick` for one PCB of the list, `tcp_close` and `tcp_shutdown`. The
tick is given how many packets and dead PCBs it has already collected, since it
stops building packets after four and freeing PCBs after sixteen.
-/

namespace PhotonOS

structure TickResult where
  pcb : Option Pcb
  packets : List (List UInt8)

def timeoutExpired (now : BitVec 64) (pcb : Pcb) : Bool :=
  pcb.timers.timeout != 0 && decide (now ≥ pcb.timers.timeout)

def closeExpired (pcb : Pcb) : Pcb := tcpTimersReset { pcb with state := .closed }

/-- A PCB closed by the tick is freed when no socket is left and there is room in `dead_pcbs`. -/
def freeIfOrphan (dead : Nat) (pcb : Pcb) : Option Pcb :=
  if !pcb.socket ∧ dead < 16 then none else some pcb

/-- SYN_SENT and SYN_RECEIVED; `flags` is the segment that is sent again. -/
def tickHandshake (now : BitVec 64) (deferred : Nat) (flags : BitVec 16) (pcb : Pcb) : TickResult :=
  if timeoutExpired now pcb then { pcb := some (closeExpired pcb), packets := [] }
  else if rtoExpired now pcb then
    if pcb.timers.retransmitCount ≥ tcpMaxSynRetries then
      { pcb := some (closeExpired pcb), packets := [] }
    else
      let pcb := backoffRto now pcb
      if deferred < 4 then
        match tcpBuildOutputLocked pcb flags [] with
        | none => { pcb := some pcb, packets := [] }
        | some (pcb, packet) => { pcb := some pcb, packets := [packet] }
      else { pcb := some pcb, packets := [] }
  else { pcb := some pcb, packets := [] }

def congestionTimeout (pcb : Pcb) : Pcb :=
  let pcb :=
    if pcb.flags.fastRecovery then
      { pcb with flags := { pcb.flags with fastRecovery := false }, dupacks := 0 }
    else pcb
  if pcb.timers.retransmitCount = 0 then
    let half := (pcb.sndNxt - pcb.sndUna) / 2
    { pcb with
      ssthresh := if half > 2 * mssWord then half else 2 * mssWord
      cwnd := mssWord
      caBytesAcked := 0 }
  else pcb

def tickDataRto (now : BitVec 64) (deferred : Nat) (pcb : Pcb) : Pcb × List (List UInt8) :=
  if pcb.txBuf.unacked.entries = [] then (clearRto pcb, [])
  else
    let pcb := backoffRto now (congestionTimeout pcb)
    if deferred < 4 then
      let sent := retransmitHead now pcb
      (sent.1, sent.2.toList)
    else (pcb, [])

/-- The zero-window probe; it carries the sequence number before `snd_nxt`. -/
def tickPersist (now : BitVec 64) (deferred : Nat) (pcb : Pcb) : Pcb × List (List UInt8) :=
  if pcb.flags.timerPersist ∧ pcb.timers.persist ≠ 0 ∧ now ≥ pcb.timers.persist then
    if pcb.sndWnd = 0 ∧ pcb.txBuf.unsent.entries ≠ [] then
      if pcb.timers.persistCount < tcpMaxPersistProbes then
        let doubled := pcb.timers.persistTicks * 2
        let ticks := if doubled > tcpMaxPersistTicks then tcpMaxPersistTicks else doubled
        let pcb := { pcb with
          timers := { pcb.timers with
            persistCount := pcb.timers.persistCount + 1
            persistTicks := ticks
            persist := ticksAfter now ticks } }
        (pcb, if deferred < 4 then [segmentPacket pcb (pcb.sndNxt - 1) tcpFlagAck []] else [])
      else
        ({ pcb with
          flags := { pcb.flags with timerPersist := false }
          timers := { pcb.timers with persist := 0 } }, [])
    else
      ({ pcb with
        flags := { pcb.flags with timerPersist := false }
        timers := { pcb.timers with persist := 0, persistCount := 0 } }, [])
  else (pcb, [])

def tickData (now : BitVec 64) (deferred : Nat) (pcb : Pcb) : TickResult :=
  if rtoExpired now pcb ∧ pcb.txBuf.unacked.entries ≠ [] ∧ pcb.timers.retransmitCount ≥ tcpMaxDataRetries then
    let reset := { closeExpired pcb with flags := { (closeExpired pcb).flags with reset := true } }
    { pcb := some (clearTxQueues reset), packets := [] }
  else
    let retried := if rtoExpired now pcb then tickDataRto now deferred pcb else (pcb, [])
    let probed := tickPersist now (deferred + retried.2.length) retried.1
    { pcb := some probed.1, packets := retried.2 ++ probed.2 }

def tickFin (now : BitVec 64) (deferred dead : Nat) (pcb : Pcb) : TickResult :=
  if rtoExpired now pcb then
    if pcb.timers.retransmitCount ≥ tcpMaxDataRetries then
      { pcb := freeIfOrphan dead (closeExpired pcb), packets := [] }
    else
      let pcb := backoffRto now pcb
      if deferred < 4 then
        match pcb.txBuf.unacked.entries with
        | [] =>
          { pcb := some pcb
            packets := [segmentPacket pcb (pcb.sndNxt - 1) (tcpFlagFin ||| tcpFlagAck) []] }
        | segment :: rest =>
          { pcb := some { pcb with
              txBuf := { pcb.txBuf with
                unacked := { pcb.txBuf.unacked with
                  entries := { segment with sentAt := now } :: rest } } }
            packets := [segmentPacket pcb segment.sequence (tcpFlagAck ||| tcpFlagPsh)
              (segment.payload.take tcpDefaultMss)] }
      else { pcb := some pcb, packets := [] }
  else { pcb := some pcb, packets := [] }

def tcpTimerTickPcb (now : BitVec 64) (deferred dead : Nat) (pcb : Pcb) : TickResult :=
  match pcb.state with
  | .synSent => tickHandshake now deferred tcpFlagSyn pcb
  | .synReceived => tickHandshake now deferred (tcpFlagSyn ||| tcpFlagAck) pcb
  | .established | .closeWait => tickData now deferred pcb
  | .finWait1 | .lastAck => tickFin now deferred dead pcb
  | .timeWait =>
    if timeoutExpired now pcb then { pcb := freeIfOrphan dead (closeExpired pcb), packets := [] }
    else { pcb := some pcb, packets := [] }
  | .closed | .listen | .finWait2 => { pcb := some pcb, packets := [] }

def sendFin (now : BitVec 64) (pcb : Pcb) (state : TcpState) : Pcb × List (List UInt8) :=
  match tcpBuildOutputLocked pcb (tcpFlagFin ||| tcpFlagAck) [] with
  | none => (pcb, [])
  | some (pcb, packet) => (armDataRto now { pcb with state := state }, [packet])

def closeAfterDrain (now : BitVec 64) (expected : TcpState) (pcb : Pcb) : Pcb × List (List UInt8) :=
  if pcb.state ≠ expected then (pcb, [])
  else if pcb.txBuf.unsent.entries ≠ [] then
    ({ pcb with flags := { pcb.flags with finPending := true } }, [])
  else sendFin now pcb (if expected = .established then .finWait1 else .lastAck)

/-- `tcp_shutdown_locked` after its drain. Unlike `tcp_close` it does not look at the state again. -/
def shutdownAfterDrain (now : BitVec 64) (pcb : Pcb) : Pcb × List (List UInt8) :=
  if pcb.txBuf.unsent.entries ≠ [] then
    ({ pcb with flags := { pcb.flags with finPending := true } }, [])
  else if pcb.flags.finPending then (pcb, [])
  else sendFin now pcb (if pcb.state = .established then .finWait1 else .lastAck)

/-- Where `tcp_close` and `tcp_shutdown` are after their first critical section. -/
inductive CloseStart where
  | freed
  | returned (pcb : Pcb) (packets : List (List UInt8))
  | draining (pcb : Pcb)

def setShutWr (pcb : Pcb) : Pcb := { pcb with flags := { pcb.flags with shutWr := true } }

def closeWriting (now : BitVec 64) (pcb : Pcb) : CloseStart :=
  if pcb.flags.shutWr then .returned pcb []
  else if pcb.txBuf.unsent.entries ≠ [] then .draining (setShutWr pcb)
  else
    let closed := closeAfterDrain now pcb.state (setShutWr pcb)
    .returned closed.1 closed.2

def detachSocket (pcb : Pcb) : Pcb := { pcb with socket := false }

def tcpCloseStart (now : BitVec 64) (pcb : Pcb) : CloseStart :=
  if pcb.state = .listen ∨ pcb.state = .synSent ∨ pcb.state = .synReceived ∨ pcb.state = .closed then
    .freed
  else if pcb.state = .established ∨ pcb.state = .closeWait then closeWriting now (detachSocket pcb)
  else .returned (detachSocket pcb) []

def shutdownRead (pcb : Pcb) : Pcb :=
  if pcb.flags.shutRd then pcb
  else
    { pcb with
      flags := { pcb.flags with shutRd := true }
      rxBuf := { pcb.rxBuf with head := 0, tail := 0, used := 0 } }

def shutdownWrite (now : BitVec 64) (pcb : Pcb) : CloseStart :=
  if pcb.flags.shutWr then .returned pcb []
  else if pcb.state ≠ .established ∧ pcb.state ≠ .closeWait then .returned (setShutWr pcb) []
  else if pcb.txBuf.unsent.entries ≠ [] then .draining (setShutWr pcb)
  else
    let closed := shutdownAfterDrain now (setShutWr pcb)
    .returned closed.1 closed.2

/-- `tcp_shutdown_locked` up to the drain; `how` is 0 for reading, 1 for writing, 2 for both. -/
def tcpShutdownStart (now : BitVec 64) (how : Int) (pcb : Pcb) : CloseStart :=
  if how < 0 ∨ how > 2 then .returned pcb []
  else if pcb.state = .closed ∨ pcb.state = .listen ∨ pcb.state = .synSent ∨ pcb.state = .synReceived then
    .returned pcb []
  else
    let read := if how = 0 ∨ how = 2 then shutdownRead pcb else pcb
    if how = 1 ∨ how = 2 then shutdownWrite now read else .returned read []

end PhotonOS
