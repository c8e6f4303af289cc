import PhotonOS.Tcp.Pcb

/-!
The list `tcp_pcbs` of registered PCBs and the calls of `tcp.c` that give a PCB
its local port: `tcp_bind`, `tcp_allocate_ephemeral_port`, `tcp_listen` and
`tcp_release_port`.
-/

namespace PhotonOS

/-- A PCB on `tcp_pcbs`: `address` stands for its pointer, `listener` for the pointer in `parent`. -/
structure TableEntry where
  address : Nat
  pcb : Pcb
  listener : Option Nat
  deriving DecidableEq, Repr

/-- `tcp_pcbs`, newest first, and `tcp_next_ephemeral`. `tcp_register` takes no PCB twice. -/
structure PcbTable where
  entries : List TableEntry
  nextEphemeral : BitVec 16
  distinct : (entries.map TableEntry.address).Nodup

def tcpMaxBacklog : Int := 8
def tcpEphemeralPortFirst : BitVec 16 := 49152
def tcpEphemeralPortLast : BitVec 16 := 65535

/-- `range` of `tcp_allocate_ephemeral_port`: the number of its attempts. -/
def ephemeralRange : Nat := tcpEphemeralPortLast.toNat - tcpEphemeralPortFirst.toNat + 1

namespace PcbTable

def find (table : PcbTable) (address : Nat) : Option TableEntry :=
  table.entries.find? fun entry => entry.address = address

def editEntry (address : Nat) (edit : Pcb → Pcb) (entry : TableEntry) : TableEntry :=
  if entry.address = address then { entry with pcb := edit entry.pcb } else entry

variable {edit : Pcb → Pcb}

@[simp] theorem editEntry_address {address : Nat} {entry : TableEntry} : (editEntry address edit entry).address = entry.address := by
  unfold editEntry
  split <;> rfl

@[simp] theorem editEntry_listener {address : Nat} {entry : TableEntry} : (editEntry address edit entry).listener = entry.listener := by
  unfold editEntry
  split <;> rfl

variable {address : Nat} {entry : TableEntry} {table : PcbTable}

theorem editEntry_of_ne (edit : Pcb → Pcb) (other : entry.address ≠ address) :
    editEntry address edit entry = entry := if_neg other

def update (table : PcbTable) (address : Nat) (edit : Pcb → Pcb) : PcbTable where
  entries := table.entries.map (editEntry address edit)
  nextEphemeral := table.nextEphemeral
  distinct := by
    have addresses : (table.entries.map (editEntry address edit)).map TableEntry.address =
        table.entries.map TableEntry.address := by
      rw [List.map_map]
      exact List.map_congr_left fun entry _ => editEntry_address
    rw [addresses]
    exact table.distinct

theorem mem_of_find (found : table.find address = some entry) : entry ∈ table.entries :=
  List.mem_of_find?_eq_some found

theorem address_of_find (found : table.find address = some entry) : entry.address = address := by
  simpa using List.find?_some found

theorem eq_of_address {first second : TableEntry} (firstIn : first ∈ table.entries)
    (secondIn : second ∈ table.entries) (same : first.address = second.address) : first = second :=
  List.inj_on_of_nodup_map table.distinct firstIn secondIn same

end PcbTable

def AddressesCollide (first second : BitVec 32) : Prop := first = 0 ∨ second = 0 ∨ first = second

instance (first second : BitVec 32) : Decidable (AddressesCollide first second) :=
  inferInstanceAs (Decidable (_ ∨ _ ∨ _))

def tcpPortInUseLocked (table : PcbTable) (except : Nat) (localIp : BitVec 32) (localPort : BitVec 16) : Bool :=
  if localPort = 0 then true
  else table.entries.any fun entry =>
    decide (entry.address ≠ except ∧ entry.pcb.localPort = localPort ∧ entry.pcb.state ≠ .closed ∧
      AddressesCollide entry.pcb.localIp localIp)

def bindPcb (localIp : BitVec 32) (localPort : BitVec 16) (pcb : Pcb) : Pcb :=
  { pcb with localIp := localIp, localPort := localPort, flags := { pcb.flags with bound := true } }

def ephemeralCandidate (next : BitVec 16) : BitVec 16 :=
  if next < tcpEphemeralPortFirst then tcpEphemeralPortFirst else next

def ephemeralNext (candidate : BitVec 16) : BitVec 16 :=
  if candidate = tcpEphemeralPortLast then tcpEphemeralPortFirst else candidate + 1

def ephemeralSearch (inUse : BitVec 16 → Bool) : Nat → BitVec 16 → Option (BitVec 16) × BitVec 16
  | 0, next => (none, next)
  | attempts + 1, next =>
    let candidate := ephemeralCandidate next
    if inUse candidate then ephemeralSearch inUse attempts (ephemeralNext candidate)
    else (some candidate, ephemeralNext candidate)

def tcpAllocateEphemeralPort (table : PcbTable) (address : Nat) (localIp : BitVec 32) : BitVec 16 × PcbTable :=
  match table.find address with
  | none => (0, table)
  | some entry =>
    if entry.pcb.state ≠ .closed then (0, table)
    else
      let search := ephemeralSearch (tcpPortInUseLocked table address localIp) ephemeralRange
        table.nextEphemeral
      match search.1 with
      | none => (0, { table with nextEphemeral := search.2 })
      | some candidate =>
        (candidate, { table.update address (bindPcb localIp candidate) with nextEphemeral := search.2 })

def tcpBind (table : PcbTable) (address : Nat) (localIp : BitVec 32) (localPort : BitVec 16) : Bool × PcbTable :=
  if localPort = 0 then
    let assigned := tcpAllocateEphemeralPort table address localIp
    (assigned.1 != 0, assigned.2)
  else
    match table.find address with
    | none => (false, table)
    | some entry =>
      if entry.pcb.state ≠ .closed ∨ tcpPortInUseLocked table address localIp localPort then (false, table)
      else (true, table.update address (bindPcb localIp localPort))

def releasePcb (pcb : Pcb) : Pcb :=
  { pcb with localPort := 0, localIp := 0, flags := { pcb.flags with bound := false } }

def tcpReleasePort (table : PcbTable) (address : Nat) : PcbTable := table.update address releasePcb

def listenBacklog (backlog : Int) : Int :=
  let backlog := if backlog ≤ 0 then 1 else backlog
  if backlog > tcpMaxBacklog then tcpMaxBacklog else backlog

def listenPcb (backlog : Int) (pcb : Pcb) : Pcb :=
  { pcb with
    state := .listen
    remoteIp := 0
    remotePort := 0
    backlog := listenBacklog backlog
    flags := { pcb.flags with passive := true, bound := true, active := false } }

def tcpListen (table : PcbTable) (address : Nat) (backlog : Int) : Bool × PcbTable :=
  match table.find address with
  | none => (false, table)
  | some entry =>
    if entry.pcb.localPort = 0 ∨ (entry.pcb.state ≠ .closed ∧ entry.pcb.state ≠ .listen) then (false, table)
    else (true, table.update address (listenPcb backlog))

inductive PortCall where
  | bind (address : Nat) (localIp : BitVec 32) (localPort : BitVec 16)
  | allocateEphemeral (address : Nat) (localIp : BitVec 32)
  | listen (address : Nat) (backlog : Int)
  | release (address : Nat)
  deriving DecidableEq, Repr

def portStep (table : PcbTable) : PortCall → PcbTable
  | .bind address localIp localPort => (tcpBind table address localIp localPort).2
  | .allocateEphemeral address localIp => (tcpAllocateEphemeralPort table address localIp).2
  | .listen address backlog => (tcpListen table address backlog).2
  | .release address => tcpReleasePort table address

end PhotonOS
