import PhotonOS.Lib.LockTrace
import PhotonOS.Tcp.Demux

/-!
The locks of `tcp.c` as one task takes them. The calls are cut where the task
sends: inside `net_send_ipv4` it may poll and handle further segments before it
goes on.
-/

namespace PhotonOS.NetLocks

open LockTrace (Op)

/-- The lock of a PCB, `tcp_pcbs_lock`, `tcp_fast_rexmit_lock` and `tcp_deferred_tx_lock`. -/
inductive NetLock where
  | pcbs
  | pcb (address : Nat)
  | fastRexmit
  | deferredTx
  deriving DecidableEq

/-- What a task has still to do: `send` is a call of `net_send_ipv4`, `drainOn` the drain loop from its `mutex_lock` on,
`connectSent` and `connectWait` are `sys_connect` after the SYN and in its loop. -/
inductive Todo where
  | send
  | unlock (lock : NetLock)
  | drain (address : Nat)
  | drainOn (address : Nat)
  | free (address : Nat)
  | destroy (address : Nat)
  | connectSent (address : Nat)
  | connectWait (address : Nat)
  deriving DecidableEq

structure Passage where
  ops : List (Op NetLock)
  table : PcbTable
  todo : List Todo

def Passage.nothing (table : PcbTable) : Passage := { ops := [], table := table, todo := [] }

def sends (count : Nat) : List Todo := List.replicate count .send

/-! Locks around what is done to the list and to one PCB. -/

def listOps : List (Op NetLock) := [.lock .pcbs, .unlock .pcbs]

def pcbOps (address : Nat) : List (Op NetLock) := [.lock (.pcb address), .unlock (.pcb address)]

def freeOps (address : Nat) : List (Op NetLock) := listOps ++ pcbOps address

/-- `tcp_socket_destroy` looks for half-open children before it does the same. -/
def destroyOps (address : Nat) : List (Op NetLock) := listOps ++ freeOps address

/-- The children that `tcp_socket_destroy` destroys with a listener: its accept queue, then the half-open ones. -/
def orphans (table : PcbTable) (listener : Nat) : List Nat :=
  let children := table.entries.filter fun entry => entry.listener = some listener
  let queued := children.filter fun entry => entry.pcb.flags.acceptReady
  let halfOpen := children.filter fun entry => entry.pcb.state = .synReceived
  (queued.take tcpMaxBacklog.toNat ++ halfOpen.take tcpMaxBacklog.toNat).map TableEntry.address

def tcpSocketDestroy (table : PcbTable) (address : Nat) : Passage where
  ops := destroyOps address
  table := table.destroy address
  todo :=
    match table.find address with
    | some entry => if entry.pcb.state = .listen then (orphans table address).map .destroy else []
    | none => []

def tcpFree (table : PcbTable) (address : Nat) : Passage where
  ops := freeOps address
  table := table.destroy address
  todo := []

/-! `tcp_drain_unsent`. -/

def drained (table : PcbTable) (address : Nat) (result : DrainResult) : Passage where
  ops := pcbOps address
  table := table.update address fun _ => result.pcb
  todo := sends result.packet.toList.length ++ if result.again then [.drainOn address] else []

def tcpDrainUnsent (now : BitVec 64) (allocated : Bool) (table : PcbTable) (address : Nat) : Passage :=
  match table.find address with
  | none => .nothing table
  | some entry =>
    match drainEnter now allocated entry.pcb with
    | none => { ops := pcbOps address, table := table, todo := [] }
    | some result => drained table address result

def drainOn (now : BitVec 64) (allocated : Bool) (table : PcbTable) (address : Nat) : Passage :=
  match table.find address with
  | none => .nothing table
  | some entry => drained table address (drainIteration now allocated entry.pcb)

/-! `tcp_input`. -/

def listenPassage (now : BitVec 64) (memory : Option Nat) (srcIp destIp : BitVec 32) (header : TcpHeader)
    (table : PcbTable) (listener : TableEntry) : Passage :=
  match memory with
  | none => { ops := pcbOps listener.address, table := table, todo := [] }
  | some address =>
    if listener.pcb.state ≠ .listen ∨ listener.pcb.acceptCount ≥ listener.pcb.backlog then
      { ops := pcbOps listener.address, table := table, todo := [] }
    else
      let child := listenChild now listener.pcb srcIp destIp header.srcPort header.seqNum
      match table.register ⟨address, child, some listener.address⟩ with
      | none => { ops := pcbOps listener.address ++ listOps ++ freeOps address, table := table, todo := [] }
      | some registered =>
        match tcpBuildOutputLocked child (tcpFlagSyn ||| tcpFlagAck) [] with
        | none =>
          { ops := pcbOps listener.address ++ listOps ++ pcbOps address ++ destroyOps address
            table := registered.destroy address
            todo := [] }
        | some (child, _) =>
          { ops := pcbOps listener.address ++ listOps ++ pcbOps address
            table := registered.update address fun _ => child
            todo := [.send] }

def enqueuePassage (table : PcbTable) (entry : TableEntry) (left : Pcb) : Passage :=
  match entry.listener with
  | none =>
    { ops := .unlock (.pcb entry.address) :: destroyOps entry.address
      table := table.destroy entry.address
      todo := [] }
  | some listener =>
    let ops : List (Op NetLock) := [.unlock (.pcb entry.address), .lock (.pcb listener), .lock (.pcb entry.address),
      .unlock (.pcb entry.address), .unlock (.pcb listener)]
    match (table.find listener).bind fun found => tcpAcceptEnqueue found.pcb left with
    | none => { ops := ops ++ destroyOps entry.address, table := table.destroy entry.address, todo := [] }
    | some child =>
      { ops := ops
        table := (table.update entry.address fun _ => child).update listener fun pcb =>
          { pcb with acceptCount := pcb.acceptCount + 1 }
        todo := [] }

def fastRetransmits (now : BitVec 64) (header : TcpHeader) (payload : List UInt8) (pcb : Pcb) : Bool :=
  decide (pcb.state = .established) && (inputEstablished now header payload (.start pcb)).rexmit.isSome

def lastAckClosed (header : TcpHeader) (payload : List UInt8) (pcb : Pcb) : Pcb :=
  tcpTimersReset { (repeatedFin header payload (.start pcb)).pcb with state := .closed }

def connectionPassage (now : BitVec 64) (header : TcpHeader) (payload : List UInt8) (table : PcbTable)
    (entry : TableEntry) : Passage :=
  let address := entry.address
  let result := tcpInputLocked now header payload entry.pcb
  if flagSet header.flags tcpFlagRst then
    match result.pcb with
    | none => { ops := .unlock (.pcb address) :: destroyOps address, table := table.destroy address, todo := [] }
    | some left => { ops := [.unlock (.pcb address)], table := table.update address fun _ => left, todo := [] }
  else
    match result.pcb with
    | none =>
      { ops := [.unlock (.pcb address)]
        table := table.update address (lastAckClosed header payload)
        todo := sends result.packets.length ++ [.free address] }
    | some left =>
      if result.next = .enqueue then enqueuePassage table entry left
      else
        let rest := if result.next = .drain then [Todo.drain address] else []
        if fastRetransmits now header payload entry.pcb then
          { ops := [.lock .fastRexmit, .unlock (.pcb address)]
            table := table.update address fun _ => left
            todo := sends result.packets.length ++ .unlock .fastRexmit :: rest }
        else
          { ops := [.unlock (.pcb address)]
            table := table.update address fun _ => left
            todo := sends result.packets.length ++ rest }

def tcpInput (now : BitVec 64) (memory : Option Nat) (srcIp destIp : BitVec 32) (segment : List UInt8)
    (table : PcbTable) : Passage :=
  match tcpDecode srcIp destIp segment with
  | none => .nothing table
  | some (header, payload) =>
    match tcpLookupLocked table ⟨destIp, srcIp, header.destPort, header.srcPort⟩ with
    | none =>
      { ops := listOps, table := table, todo := sends (tcpResetReply srcIp destIp header payload).toList.length }
    | some entry =>
      let found : Passage :=
        if entry.pcb.state = .closed then
          { ops := [.unlock (.pcb entry.address)], table := table, todo := [] }
        else if entry.pcb.state = .listen then
          let listens := flagSet header.flags tcpFlagSyn && !flagSet header.flags tcpFlagAck &&
            !flagSet header.flags tcpFlagRst
          let rest := if listens then listenPassage now memory srcIp destIp header table entry else .nothing table
          { rest with ops := .unlock (.pcb entry.address) :: rest.ops }
        else connectionPassage now header payload table entry
      { found with ops := [.lock .pcbs, .lock (.pcb entry.address), .unlock .pcbs] ++ found.ops }

/-! `tcp_timer_tick`. -/

def tcpTimerTick (now : BitVec 64) (table : PcbTable) : Passage :=
  let ticked := tableTick now table
  let dead := table.entries.filter fun entry => (ticked.1.find entry.address).isNone
  { ops := .lock .deferredTx ::
      (.lock .pcbs :: (table.entries.flatMap (fun entry => pcbOps entry.address) ++ [.unlock .pcbs]) ++
        dead.flatMap fun entry => freeOps entry.address)
    table := ticked.1
    todo := sends ticked.2.length ++ [.unlock .deferredTx] }

/-! `sys_connect` for a stream socket. -/

def connectPort (table : PcbTable) (entry : TableEntry) : BitVec 16 × PcbTable :=
  if entry.pcb.localPort = 0 then tcpAllocateEphemeralPort table entry.address netLocalIpv4
  else (entry.pcb.localPort, table)

def connectPortOps (entry : TableEntry) : List (Op NetLock) :=
  if entry.pcb.localPort = 0 then .lock .pcbs :: (pcbOps entry.address ++ [.unlock .pcbs]) else []

def sysConnect (now sendNow : BitVec 64) (remoteIp : BitVec 32) (remotePort : BitVec 16) (table : PcbTable)
    (address : Nat) : Passage :=
  match table.find address with
  | none => .nothing table
  | some entry =>
    let bound := connectPort table entry
    let ops := connectPortOps entry
    if bound.1 = 0 then { ops := ops, table := bound.2, todo := [] }
    else if entry.pcb.state ≠ .closed then { ops := ops ++ pcbOps address, table := bound.2, todo := [] }
    else
      let filled := connectPcb now bound.1 remoteIp remotePort entry.pcb
      match tcpOutput sendNow filled tcpFlagSyn with
      | none =>
        { ops := ops ++ pcbOps address ++ pcbOps address ++ pcbOps address
          table := bound.2.update address fun _ => { filled with state := .closed, retransmissionTimer := 0 }
          todo := [] }
      | some (sent, _) =>
        { ops := ops ++ pcbOps address ++ pcbOps address
          table := bound.2.update address fun _ => sent
          todo := [.send, .connectSent address] }

/-- One round of the loop of `sys_connect`. `tcp_timer_clear` takes the lock that the round has. -/
def connectWait (now : BitVec 64) (table : PcbTable) (address : Nat) : Passage :=
  match table.find address with
  | none => .nothing table
  | some entry =>
    if entry.pcb.state ≠ .synSent then { ops := pcbOps address, table := table, todo := [] }
    else if timeoutExpired now entry.pcb then
      { ops := .lock (.pcb address) :: (pcbOps address ++ [.unlock (.pcb address)])
        table := table.update address closeExpired
        todo := [] }
    else { ops := pcbOps address, table := table, todo := [.connectWait address] }

def connectSent (sent : Bool) (table : PcbTable) (address : Nat) : Passage :=
  if sent then { ops := [], table := table, todo := [.connectWait address] }
  else
    { ops := pcbOps address
      table := table.update address fun pcb => { pcb with state := .closed, retransmissionTimer := 0 }
      todo := [] }

/-! A task. -/

/-- `doubled` says that a lock has been taken while it was held. -/
structure NetTask where
  table : PcbTable
  todo : List Todo
  held : List NetLock
  doubled : Bool

def NetTask.idle (table : PcbTable) : NetTask := { table := table, todo := [], held := [], doubled := false }

def NetTask.perform (task : NetTask) (rest : List Todo) (passage : Passage) : NetTask where
  table := passage.table
  todo := passage.todo ++ rest
  held := LockTrace.after task.held passage.ops
  doubled := task.doubled || !decide (LockTrace.Clean task.held passage.ops)

inductive EntryPoint where
  | connect (now sendNow : BitVec 64) (remoteIp : BitVec 32) (remotePort : BitVec 16) (address : Nat)
  | drain (now : BitVec 64) (allocated : Bool) (address : Nat)
  | tick (now : BitVec 64)
  | destroy (address : Nat)

def entryPassage (table : PcbTable) : EntryPoint → Passage
  | .connect now sendNow remoteIp remotePort address => sysConnect now sendNow remoteIp remotePort table address
  | .drain now allocated address => tcpDrainUnsent now allocated table address
  | .tick now => tcpTimerTick now table
  | .destroy address => tcpSocketDestroy table address

def todoPassage (now : BitVec 64) (allocated sent : Bool) (table : PcbTable) : Todo → Passage
  | .send => .nothing table
  | .unlock lock => { ops := [.unlock lock], table := table, todo := [] }
  | .drain address => tcpDrainUnsent now allocated table address
  | .drainOn address => drainOn now allocated table address
  | .free address => tcpFree table address
  | .destroy address => tcpSocketDestroy table address
  | .connectSent address => connectSent sent table address
  | .connectWait address => connectWait now table address

/-- No PCB is its own listener: a child is new when its `parent` is set. -/
def Parented (table : PcbTable) : Prop := ∀ entry ∈ table.entries, entry.listener ≠ some entry.address

/-- An entry point of a task that is in none, a segment that it polls at top level or while it sends, the next thing it
has to do, and anything that other tasks do to the PCBs meanwhile. -/
inductive TaskEvent where
  | enter (entry : EntryPoint)
  | arrive (now : BitVec 64) (memory : Option Nat) (srcIp destIp : BitVec 32) (segment : List UInt8)
  | goOn (now : BitVec 64) (allocated sent : Bool)
  | others (table : PcbTable) (parented : Parented table)

def polls (task : NetTask) : Bool := task.todo.isEmpty || task.todo.head? == some .send

def taskStep (task : NetTask) : TaskEvent → NetTask
  | .enter entry => if task.todo = [] then task.perform [] (entryPassage task.table entry) else task
  | .arrive now memory srcIp destIp segment =>
    if polls task then task.perform task.todo (tcpInput now memory srcIp destIp segment task.table) else task
  | .goOn now allocated sent =>
    match task.todo with
    | [] => task
    | item :: rest => task.perform rest (todoPassage now allocated sent task.table item)
  | .others table _ => { task with table := table }

end PhotonOS.NetLocks
