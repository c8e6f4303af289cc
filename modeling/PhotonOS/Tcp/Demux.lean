import PhotonOS.Lib.Transition
import PhotonOS.Tcp.Control
import PhotonOS.Tcp.PcbTable

/-!
`tcp_lookup_locked` and the whole of `tcp_input` and `tcp_timer_tick` over the
list of registered PCBs. The lookup is given as the loop of the source and then
as what it returns: the first PCB of the segment's 4-tuple, or else the listener.
-/

namespace PhotonOS

structure FourTuple where
  localIp : BitVec 32
  remoteIp : BitVec 32
  localPort : BitVec 16
  remotePort : BitVec 16
  deriving DecidableEq, Repr

def Pcb.Local (pcb : Pcb) (tuple : FourTuple) : Prop :=
  pcb.localPort = tuple.localPort ∧ (pcb.localIp = 0 ∨ pcb.localIp = tuple.localIp)

/-- The PCB belongs to the connection of the 4-tuple, in whatever state it is. -/
def Pcb.ForTuple (pcb : Pcb) (tuple : FourTuple) : Prop :=
  pcb.Local tuple ∧ pcb.remoteIp = tuple.remoteIp ∧ pcb.remotePort = tuple.remotePort

def Pcb.ListensFor (pcb : Pcb) (tuple : FourTuple) : Prop :=
  pcb.Local tuple ∧ pcb.state = .listen ∧ pcb.remoteIp = 0 ∧ pcb.remotePort = 0

instance (pcb : Pcb) (tuple : FourTuple) : Decidable (pcb.Local tuple) := inferInstanceAs (Decidable (_ ∧ (_ ∨ _)))

instance (pcb : Pcb) (tuple : FourTuple) : Decidable (pcb.ForTuple tuple) := inferInstanceAs (Decidable (_ ∧ _ ∧ _))

instance (pcb : Pcb) (tuple : FourTuple) : Decidable (pcb.ListensFor tuple) :=
  inferInstanceAs (Decidable (_ ∧ _ ∧ _ ∧ _))

/-- The loop of `tcp_lookup_locked` with `exact_listener` and `wildcard_listener`. -/
def lookupLoop (tuple : FourTuple) : List TableEntry → Option TableEntry → Option TableEntry → Option TableEntry
  | [], exact_, wildcard => exact_.or wildcard
  | entry :: rest, exact_, wildcard =>
    if entry.pcb.localPort ≠ tuple.localPort then lookupLoop tuple rest exact_ wildcard
    else if entry.pcb.localIp ≠ 0 ∧ entry.pcb.localIp ≠ tuple.localIp then
      lookupLoop tuple rest exact_ wildcard
    else if entry.pcb.remoteIp = tuple.remoteIp ∧ entry.pcb.remotePort = tuple.remotePort ∧
        entry.pcb.state ≠ .listen then some entry
    else if entry.pcb.state = .listen ∧ entry.pcb.remoteIp = 0 ∧ entry.pcb.remotePort = 0 then
      if entry.pcb.localIp = tuple.localIp then lookupLoop tuple rest (some entry) wildcard
      else if entry.pcb.localIp = 0 ∧ wildcard = none then lookupLoop tuple rest exact_ (some entry)
      else lookupLoop tuple rest exact_ wildcard
    else lookupLoop tuple rest exact_ wildcard

def tcpLookupLocked (table : PcbTable) (tuple : FourTuple) : Option TableEntry :=
  lookupLoop tuple table.entries none none

def connectionOf (tuple : FourTuple) (entry : TableEntry) : Bool :=
  decide (entry.pcb.ForTuple tuple ∧ entry.pcb.state ≠ .listen)

def exactListener (tuple : FourTuple) (entry : TableEntry) : Bool :=
  decide (entry.pcb.ListensFor tuple ∧ entry.pcb.localIp = tuple.localIp)

def wildcardListener (tuple : FourTuple) (entry : TableEntry) : Bool :=
  decide (entry.pcb.ListensFor tuple ∧ entry.pcb.localIp ≠ tuple.localIp)

/-- The listener that gets a segment no connection gets: the last one on the list that is bound to the
segment's address, or else the first one bound to the wildcard. -/
def listenerFor (tuple : FourTuple) (entries : List TableEntry) : Option TableEntry :=
  (entries.filter (exactListener tuple)).getLast?.or (entries.find? (wildcardListener tuple))

variable {tuple : FourTuple}

theorem lookupLoop_cons {entry : TableEntry} {rest : List TableEntry}
    {exact_ wildcard : Option TableEntry} : lookupLoop tuple (entry :: rest) exact_ wildcard =
      if connectionOf tuple entry then some entry
      else if exactListener tuple entry then lookupLoop tuple rest (some entry) wildcard
      else if wildcardListener tuple entry then lookupLoop tuple rest exact_ (wildcard.or (some entry))
      else lookupLoop tuple rest exact_ wildcard := by
  simp only [lookupLoop, connectionOf, exactListener, wildcardListener, Pcb.ForTuple, Pcb.ListensFor, Pcb.Local]
  by_cases samePort : entry.pcb.localPort = tuple.localPort
  · by_cases wild : entry.pcb.localIp = 0
    · cases wildcard <;> grind
    · grind
  · simp [samePort]

theorem lookupLoop_eq : ∀ (entries : List TableEntry) (exact_ wildcard : Option TableEntry),
      lookupLoop tuple entries exact_ wildcard = (entries.find? (connectionOf tuple)).or
          (((entries.filter (exactListener tuple)).getLast?.or exact_).or
            (wildcard.or (entries.find? (wildcardListener tuple)))) := by
  intro entries
  induction entries with
  | nil =>
    intro exact_ wildcard
    simp [lookupLoop]
  | cons entry rest ih =>
    intro exact_ wildcard
    rw [lookupLoop_cons, List.find?_cons, List.find?_cons, List.filter_cons]
    cases connected : connectionOf tuple entry with
    | true => simp
    | false =>
      cases listens : exactListener tuple entry with
      | true =>
        have notWildcard : wildcardListener tuple entry = false := by
          simp only [exactListener, decide_eq_true_eq] at listens
          simp [wildcardListener, listens.2]
        simp only [notWildcard, Bool.false_eq_true, if_false, if_true, ih, List.getLast?_cons]
        cases (rest.filter (exactListener tuple)).getLast? <;> simp
      | false =>
        cases wild : wildcardListener tuple entry <;>
          simp [ih, Option.or_assoc]

theorem tcpLookupLocked_eq (table : PcbTable) (tuple : FourTuple) : tcpLookupLocked table tuple =
      (table.entries.find? (connectionOf tuple)).or (listenerFor tuple table.entries) := by
  simp [tcpLookupLocked, lookupLoop_eq, listenerFor]

namespace PcbTable

def register (table : PcbTable) (entry : TableEntry) : Option PcbTable :=
  if fresh : entry.address ∈ table.entries.map TableEntry.address then none
  else some { table with
    entries := entry :: table.entries
    distinct := List.nodup_cons.mpr ⟨fresh, table.distinct⟩ }

def destroy (table : PcbTable) (address : Nat) : PcbTable :=
  { table with
    entries := table.entries.filter fun entry => entry.address ≠ address
    distinct := table.distinct.sublist (List.filter_sublist.map TableEntry.address) }

def settle (table : PcbTable) (address : Nat) : Option Pcb → PcbTable
  | none => table.destroy address
  | some pcb => table.update address fun _ => pcb

end PcbTable

/-- `tcp_handle_listen_syn`; `memory` is the address its allocation returns. -/
def listenSyn (now : BitVec 64) (memory : Option Nat) (srcIp destIp : BitVec 32) (header : TcpHeader)
    (table : PcbTable) (listener : TableEntry) : PcbTable × List (List UInt8) :=
  match memory, tcpHandleListenSyn now memory.isSome listener.pcb srcIp destIp header.srcPort header.seqNum with
  | some address, some (child, packet) =>
    match table.register ⟨address, child, some listener.address⟩ with
    | none => (table, [])
    | some registered => (registered, [packet])
  | _, _ => (table, [])

/-- `tcp_input` on a connection. A child that becomes ESTABLISHED is counted by its listener. -/
def inputConnection (now : BitVec 64) (allocated : Nat → Bool) (header : TcpHeader) (payload : List UInt8)
    (table : PcbTable) (entry : TableEntry) : PcbTable × List (List UInt8) :=
  let result := tcpInputLocked now header payload entry.pcb
  match result.next, result.pcb with
  | .drain, some left =>
    let drained := tcpDrainUnsent now allocated left
    (table.settle entry.address (some drained.1), result.packets ++ drained.2)
  | .enqueue, some left =>
    match entry.listener.bind table.find with
    | none => (table.destroy entry.address, result.packets)
    | some listener =>
      let child := tcpAcceptEnqueue listener.pcb left
      let counted := if child.isSome then listener.pcb.acceptCount + 1 else listener.pcb.acceptCount
      ((table.settle entry.address child).update listener.address
        (fun pcb => { pcb with acceptCount := counted }), result.packets)
  | _, left => (table.settle entry.address left, result.packets)

def tableInput (now : BitVec 64) (memory : Option Nat) (allocated : Nat → Bool) (srcIp destIp : BitVec 32)
    (segment : List UInt8) (table : PcbTable) : PcbTable × List (List UInt8) :=
  match tcpDecode srcIp destIp segment with
  | none => (table, [])
  | some (header, payload) =>
    match tcpLookupLocked table ⟨destIp, srcIp, header.destPort, header.srcPort⟩ with
    | none => (table, (tcpResetReply srcIp destIp header payload).toList)
    | some entry =>
      if entry.pcb.state = .closed then (table, [])
      else if entry.pcb.state = .listen then
        if flagSet header.flags tcpFlagSyn ∧ !flagSet header.flags tcpFlagAck ∧ !flagSet header.flags tcpFlagRst then
          listenSyn now memory srcIp destIp header table entry
        else (table, [])
      else inputConnection now allocated header payload table entry

/-- The loop of `tcp_timer_tick` over the list: the PCBs that stay, and the packets. -/
def tickEntries (now : BitVec 64) : Nat → Nat → List TableEntry → List TableEntry × List (List UInt8)
  | _, _, [] => ([], [])
  | deferred, dead, entry :: rest =>
    let result := tcpTimerTickPcb now deferred dead entry.pcb
    let dead := if result.pcb.isNone then dead + 1 else dead
    let later := tickEntries now (deferred + result.packets.length) dead rest
    match result.pcb with
    | none => (later.1, result.packets ++ later.2)
    | some pcb => ({ entry with pcb := pcb } :: later.1, result.packets ++ later.2)

theorem tickEntries_addresses {now : BitVec 64} :
    ∀ entries deferred dead, ((tickEntries now deferred dead entries).1.map TableEntry.address).Sublist
      (entries.map TableEntry.address) := by
  intro entries
  induction entries with
  | nil => intro deferred dead; exact List.Sublist.refl _
  | cons entry rest ih =>
    intro deferred dead
    rw [tickEntries]
    split
    · exact (ih _ _).trans (List.sublist_cons_self _ _)
    · exact (ih _ _).cons_cons _

def tableTick (now : BitVec 64) (table : PcbTable) : PcbTable × List (List UInt8) :=
  let ticked := tickEntries now 0 0 table.entries
  ({ table with
    entries := ticked.1
    distinct := table.distinct.sublist (tickEntries_addresses table.entries 0 0) }, ticked.2)

inductive TableEvent where
  | input (now : BitVec 64) (memory : Option Nat) (allocated : Nat → Bool) (srcIp destIp : BitVec 32)
      (segment : List UInt8)
  | tick (now : BitVec 64)

def tableStep (table : PcbTable) : TableEvent → PcbTable
  | .input now memory allocated srcIp destIp segment => (tableInput now memory allocated srcIp destIp segment table).1
  | .tick now => (tableTick now table).1

end PhotonOS
