import PhotonOS.Lib.Transition
import PhotonOS.Tcp.PcbTable

/-!
Which PCBs may share a local port.
-/

namespace PhotonOS

open PcbTable

def Pcb.HoldsPort (pcb : Pcb) : Prop := pcb.localPort ≠ 0 ∧ (pcb.flags.bound ∨ pcb.state = .listen)

def Pcb.PortsCollide (first second : Pcb) : Prop :=
  first.localPort = second.localPort ∧ AddressesCollide first.localIp second.localIp

def TableEntry.SameListener (first second : TableEntry) : Prop :=
  first.listener = some second.address ∨ second.listener = some first.address ∨
    (first.listener = second.listener ∧ first.listener ≠ none)

instance (pcb : Pcb) : Decidable pcb.HoldsPort := inferInstanceAs (Decidable (_ ∧ (_ ∨ _)))

instance (first second : Pcb) : Decidable (first.PortsCollide second) := inferInstanceAs (Decidable (_ ∧ _))

instance (first second : TableEntry) : Decidable (first.SameListener second) :=
  inferInstanceAs (Decidable (_ ∨ _ ∨ _))

/-- `other` holds the port that `pcb` has, or would have, as the PCB of `entry`. -/
def TableEntry.Rivals (entry : TableEntry) (pcb : Pcb) (other : TableEntry) : Prop :=
  other.address ≠ entry.address ∧ other.pcb.HoldsPort ∧ pcb.PortsCollide other.pcb ∧ ¬ entry.SameListener other

instance (entry other : TableEntry) (pcb : Pcb) : Decidable (entry.Rivals pcb other) :=
  inferInstanceAs (Decidable (_ ∧ _ ∧ _ ∧ _))

def PortsExclusive (table : PcbTable) : Prop :=
  ∀ entry ∈ table.entries, entry.pcb.HoldsPort → ∀ other ∈ table.entries, ¬ entry.Rivals entry.pcb other

instance (table : PcbTable) : Decidable (PortsExclusive table) :=
  inferInstanceAs (Decidable (∀ entry ∈ table.entries, _ → ∀ other ∈ table.entries, _))

theorem AddressesCollide.symm {first second : BitVec 32} (collide : AddressesCollide first second) :
    AddressesCollide second first := by
  rcases collide with wildcard | wildcard | same
  · exact .inr (.inl wildcard)
  · exact .inl wildcard
  · exact .inr (.inr same.symm)

theorem Pcb.PortsCollide.symm {first second : Pcb} (collide : first.PortsCollide second) :
    second.PortsCollide first := ⟨collide.1.symm, collide.2.symm⟩

theorem TableEntry.SameListener.symm {first second : TableEntry} (same : first.SameListener second) :
    second.SameListener first := by
  rcases same with child | child | ⟨shared, some⟩
  · exact .inr (.inl child)
  · exact .inl child
  · exact .inr (.inr ⟨shared.symm, shared ▸ some⟩)

section

variable {table : PcbTable} {entry : TableEntry} (edit : Pcb → Pcb)

theorem update_portsExclusive_iff (exclusive : PortsExclusive table) (registered : entry ∈ table.entries) :
    PortsExclusive (table.update entry.address edit) ↔
      ((edit entry.pcb).HoldsPort → ∀ other ∈ table.entries, ¬ entry.Rivals (edit entry.pcb) other) := by
  have edited : (editEntry entry.address edit entry).pcb = edit entry.pcb := by rw [editEntry, if_pos rfl]
  constructor
  · intro after holds other otherIn rivals
    have kept := editEntry_of_ne edit rivals.1
    apply after _ (List.mem_map_of_mem registered) (by rwa [edited]) _ (List.mem_map_of_mem otherIn)
    rw [kept, edited]
    refine ⟨?_, rivals.2.1, rivals.2.2.1, ?_⟩
    · rw [editEntry_address]
      exact rivals.1
    · simpa [TableEntry.SameListener] using rivals.2.2.2
  · intro free first firstIn holds second secondIn rivals
    obtain ⟨before, beforeIn, rfl⟩ := List.mem_map.mp firstIn
    obtain ⟨otherBefore, otherIn, rfl⟩ := List.mem_map.mp secondIn
    have apart : otherBefore.address ≠ before.address := by simpa using rivals.1
    have strangers : ¬ before.SameListener otherBefore := by simpa [TableEntry.SameListener] using rivals.2.2.2
    by_cases firstEdited : before.address = entry.address
    · obtain rfl := eq_of_address beforeIn registered firstEdited
      rw [edited] at holds
      have kept := editEntry_of_ne edit apart
      rw [kept, edited] at rivals
      exact free holds otherBefore otherIn ⟨apart, rivals.2.1, rivals.2.2.1, strangers⟩
    · rw [editEntry_of_ne edit firstEdited] at holds rivals
      by_cases secondEdited : otherBefore.address = entry.address
      · -- the conflict seen from the unchanged PCB is the same conflict seen from the changed one
        obtain rfl := eq_of_address otherIn registered secondEdited
        obtain ⟨_, otherHolds, collide, _⟩ := rivals
        rw [edited] at otherHolds collide
        exact free otherHolds before beforeIn
          ⟨firstEdited, holds, collide.symm, fun same => strangers same.symm⟩
      · rw [editEntry_of_ne edit secondEdited] at rivals
        exact exclusive before beforeIn holds otherBefore otherIn rivals

end

variable {table : PcbTable} {localIp : BitVec 32} {localPort : BitVec 16}

theorem tcpPortInUseLocked_eq_false {except : Nat}
    (free : tcpPortInUseLocked table except localIp localPort = false) :
    localPort ≠ 0 ∧ ∀ other ∈ table.entries, other.address ≠ except → other.pcb.localPort = localPort →
      AddressesCollide other.pcb.localIp localIp → other.pcb.state = .closed := by
  unfold tcpPortInUseLocked at free
  split at free
  · cases free
  rename_i nonzero
  refine ⟨nonzero, ?_⟩
  intro other otherIn apart samePort collide
  by_contra open_
  have found := List.any_eq_false.mp free other otherIn
  simp only [decide_eq_true_eq] at found
  exact found ⟨apart, samePort, open_, collide⟩

/-- A PCB that has `localPort` bound and is CLOSED, which the in-use test does not see. -/
def BoundWhileClosed (table : PcbTable) (entry : TableEntry) (localIp : BitVec 32) (localPort : BitVec 16) : Prop :=
  ∃ other ∈ table.entries, other.address ≠ entry.address ∧ other.pcb.state = .closed ∧
    other.pcb.flags.bound ∧ other.pcb.localPort = localPort ∧
    AddressesCollide other.pcb.localIp localIp ∧ ¬ entry.SameListener other

instance (table : PcbTable) (entry : TableEntry) (localIp : BitVec 32) (localPort : BitVec 16) :
    Decidable (BoundWhileClosed table entry localIp localPort) :=
  inferInstanceAs (Decidable (∃ other ∈ table.entries, _))

theorem bind_portsExclusive_iff {entry : TableEntry} (exclusive : PortsExclusive table)
    (registered : entry ∈ table.entries) (free : tcpPortInUseLocked table entry.address localIp localPort = false) :
    PortsExclusive (table.update entry.address (bindPcb localIp localPort)) ↔
      ¬ BoundWhileClosed table entry localIp localPort := by
  obtain ⟨nonzero, closed⟩ := tcpPortInUseLocked_eq_false free
  rw [update_portsExclusive_iff _ exclusive registered]
  constructor
  · rintro apart ⟨other, otherIn, distinct, _, bound, samePort, collide, strangers⟩
    refine apart ⟨nonzero, .inl rfl⟩ other otherIn ⟨distinct, ⟨?_, .inl bound⟩, ⟨samePort.symm, collide.symm⟩, strangers⟩
    rw [samePort]
    exact nonzero
  · rintro missed _ other otherIn ⟨distinct, holds, ⟨samePort, collide⟩, strangers⟩
    have otherClosed := closed other otherIn distinct samePort.symm collide.symm
    have bound : other.pcb.flags.bound := by
      rcases holds.2 with bound | listening
      · exact bound
      · rw [otherClosed] at listening
        cases listening
    exact missed ⟨other, otherIn, distinct, otherClosed, bound, samePort.symm, collide.symm, strangers⟩

/-- The port that attempt number `attempt` tries when every earlier one found its port in use. -/
def ephemeralAttempt (next : BitVec 16) : Nat → BitVec 16
  | 0 => ephemeralCandidate next
  | attempt + 1 => ephemeralAttempt (ephemeralNext (ephemeralCandidate next)) attempt

theorem ephemeralSearch_eq_some_iff (inUse : BitVec 16 → Bool) (port : BitVec 16) :
    ∀ attempts next, (ephemeralSearch inUse attempts next).1 = some port ↔
      ∃ attempt < attempts, ephemeralAttempt next attempt = port ∧ inUse port = false ∧
        ∀ earlier < attempt, inUse (ephemeralAttempt next earlier) = true := by
  intro attempts
  induction attempts with
  | zero => intro next; simp [ephemeralSearch]
  | succ attempts ih =>
    intro next
    rw [ephemeralSearch]
    cases used : inUse (ephemeralCandidate next) with
    | false =>
      simp only [Bool.false_eq_true, if_false, Option.some.injEq]
      constructor
      · rintro rfl
        exact ⟨0, Nat.succ_pos _, rfl, used, fun earlier low => absurd low (Nat.not_lt_zero _)⟩
      rintro ⟨attempt, _, tried, _, before⟩
      cases attempt with
      | zero => exact tried
      | succ attempt =>
        have first := before 0 (Nat.succ_pos _)
        rw [ephemeralAttempt, used] at first
        cases first
    | true =>
      simp only [if_true]
      rw [ih]
      constructor
      · rintro ⟨attempt, bound, tried, free, before⟩
        refine ⟨attempt + 1, Nat.succ_lt_succ bound, tried, free, ?_⟩
        intro earlier low
        cases earlier with
        | zero => exact used
        | succ earlier => exact before earlier (Nat.lt_of_succ_lt_succ low)
      · rintro ⟨attempt, bound, tried, free, before⟩
        cases attempt with
        | zero =>
          rw [← tried, ephemeralAttempt, used] at free
          cases free
        | succ attempt =>
          exact ⟨attempt, Nat.lt_of_succ_lt_succ bound, tried, free,
            fun earlier low => before (earlier + 1) (Nat.succ_lt_succ low)⟩

def EphemeralSeesAll (table : PcbTable) (address : Nat) (localIp : BitVec 32) : Prop :=
  ∀ entry, table.find address = some entry → entry.pcb.state = .closed → ∀ attempt < ephemeralRange,
      tcpPortInUseLocked table address localIp (ephemeralAttempt table.nextEphemeral attempt) = false →
      (∀ earlier < attempt,
        tcpPortInUseLocked table address localIp (ephemeralAttempt table.nextEphemeral earlier) = true) →
      ¬ BoundWhileClosed table entry localIp (ephemeralAttempt table.nextEphemeral attempt)

variable (address : Nat)

theorem tcpAllocateEphemeralPort_portsExclusive_iff (exclusive : PortsExclusive table) :
    PortsExclusive (tcpAllocateEphemeralPort table address localIp).2 ↔ EphemeralSeesAll table address localIp := by
  unfold tcpAllocateEphemeralPort EphemeralSeesAll
  cases found : table.find address with
  | none => simp [exclusive]
  | some entry =>
    obtain rfl := address_of_find found
    have registered := mem_of_find found
    simp only [Option.some.injEq, forall_eq']
    by_cases closed : entry.pcb.state = .closed
    · rw [if_neg (not_not.mpr closed)]
      have search := ephemeralSearch_eq_some_iff (tcpPortInUseLocked table entry.address localIp)
      cases result : (ephemeralSearch (tcpPortInUseLocked table entry.address localIp) ephemeralRange
          table.nextEphemeral).1 with
      | none =>
        refine iff_of_true exclusive ?_
        intro _ attempt bound free before
        have selected := (search _ _ _).mpr ⟨attempt, bound, rfl, free, before⟩
        rw [result] at selected
        cases selected
      | some port =>
        obtain ⟨attempt, bound, rfl, free, before⟩ := (search _ _ _).mp result
        have bind := bind_portsExclusive_iff exclusive registered free
        refine bind.trans ⟨?_, fun all => all closed attempt bound free before⟩
        intro missed _ other otherBound otherFree otherBefore
        have selected := (search _ _ _).mpr ⟨other, otherBound, rfl, otherFree, otherBefore⟩
        rw [result] at selected
        rwa [← Option.some.inj selected]
    · rw [if_pos closed]
      exact iff_of_true exclusive fun atClosed => absurd atClosed closed

/-- What a call has to find for local ports to stay exclusive. -/
def PortCall.SeesAll (table : PcbTable) : PortCall → Prop
  | .bind address localIp localPort =>
    if localPort = 0 then EphemeralSeesAll table address localIp
    else ∀ entry, table.find address = some entry → entry.pcb.state = .closed →
      tcpPortInUseLocked table address localIp localPort = false → ¬ BoundWhileClosed table entry localIp localPort
  | .allocateEphemeral address localIp => EphemeralSeesAll table address localIp
  | .listen address _ =>
    -- `tcp_listen` makes no in-use test, which only matters for a PCB that was never bound
    ∀ entry, table.find address = some entry → entry.pcb.localPort ≠ 0 → entry.pcb.state = .closed →
      entry.pcb.flags.bound = false → ∀ other ∈ table.entries, ¬ entry.Rivals entry.pcb other
  | .release _ => True

section

variable (exclusive : PortsExclusive table)
include exclusive

theorem tcpBind_portsExclusive_iff : PortsExclusive (tcpBind table address localIp localPort).2 ↔
      (PortCall.bind address localIp localPort).SeesAll table := by
  simp only [tcpBind, PortCall.SeesAll]
  by_cases ephemeral : localPort = 0
  · rw [if_pos ephemeral, if_pos ephemeral]
    exact tcpAllocateEphemeralPort_portsExclusive_iff address exclusive
  rw [if_neg ephemeral, if_neg ephemeral]
  cases found : table.find address with
  | none => simp [exclusive]
  | some entry =>
    obtain rfl := address_of_find found
    simp only [Option.some.injEq, forall_eq']
    split
    next refused =>
      refine iff_of_true exclusive fun closed free => ?_
      rcases refused with notClosed | used
      · exact absurd closed notClosed
      · rw [free] at used
        cases used
    next accepted =>
      have closed := not_not.mp (fun notClosed => accepted (.inl notClosed))
      have free := Bool.eq_false_iff.mpr fun used => accepted (.inr used)
      rw [bind_portsExclusive_iff exclusive (mem_of_find found) free]
      exact ⟨fun missed _ _ => missed, fun missed => missed closed free⟩

theorem tcpListen_portsExclusive_iff {backlog : Int} :
    PortsExclusive (tcpListen table address backlog).2 ↔ (PortCall.listen address backlog).SeesAll table := by
  simp only [tcpListen, PortCall.SeesAll]
  cases found : table.find address with
  | none => simp [exclusive]
  | some entry =>
    obtain rfl := address_of_find found
    have registered := mem_of_find found
    simp only [Option.some.injEq, forall_eq']
    split
    next refused =>
      refine iff_of_true exclusive fun hasPort closed => ?_
      rcases refused with unbound | ⟨notClosed, _⟩
      · exact absurd unbound hasPort
      · exact absurd closed notClosed
    next accepted =>
      have hasPort : entry.pcb.localPort ≠ 0 := fun unbound => accepted (.inl unbound)
      rw [update_portsExclusive_iff _ exclusive registered]
      constructor
      · intro apart _ _ _ other otherIn rivals
        exact apart ⟨hasPort, .inl rfl⟩ other otherIn rivals
      intro apart _ other otherIn rivals
      by_cases held : entry.pcb.HoldsPort
      · exact exclusive entry registered held other otherIn rivals
      have unbound : entry.pcb.flags.bound = false := Bool.eq_false_iff.mpr fun bound => held ⟨hasPort, .inl bound⟩
      have closed : entry.pcb.state = .closed := by
        by_contra notClosed
        exact accepted (.inr ⟨notClosed, fun listening => held ⟨hasPort, .inr listening⟩⟩)
      exact apart hasPort closed unbound other otherIn rivals

theorem tcpReleasePort_portsExclusive : PortsExclusive (tcpReleasePort table address) := by
  unfold tcpReleasePort
  by_cases registered : ∃ entry ∈ table.entries, entry.address = address
  · obtain ⟨entry, entryIn, rfl⟩ := registered
    rw [update_portsExclusive_iff _ exclusive entryIn]
    intro holds
    exact absurd rfl holds.1
  · have unchanged : (table.update address releasePcb).entries = table.entries := by
      refine (List.map_congr_left fun entry entryIn => ?_).trans (List.map_id _)
      exact editEntry_of_ne _ fun same => registered ⟨entry, entryIn, same⟩
    unfold PortsExclusive
    rw [unchanged]
    exact exclusive

end

theorem portStep_portsExclusive_iff (call : PortCall) (exclusive : PortsExclusive table) :
    PortsExclusive (portStep table call) ↔ call.SeesAll table := by
  cases call with
  | bind address localIp localPort => exact tcpBind_portsExclusive_iff address exclusive
  | allocateEphemeral address localIp => exact tcpAllocateEphemeralPort_portsExclusive_iff address exclusive
  | listen address backlog => exact tcpListen_portsExclusive_iff address exclusive
  | release address => exact iff_of_true (tcpReleasePort_portsExclusive address exclusive) trivial

/-- From any exclusive list, ports are exclusive after every call of a run exactly when every call sees
all bound ports. -/
theorem portCalls_exclusive_iff (table : PcbTable) (exclusive : PortsExclusive table) (calls : List PortCall) :
    Transition.Admissible portStep (fun table call => PortsExclusive (portStep table call)) table calls ↔
      Transition.Admissible portStep (fun table call => call.SeesAll table) table calls :=
  Transition.admissible_iff portStep _ _ (fun _ => True) PortsExclusive
    (fun _ call _ exclusive => portStep_portsExclusive_iff call exclusive)
    (fun _ call _ sees exclusive => (portStep_portsExclusive_iff call exclusive).mpr sees)
    calls table (fun _ _ => trivial) exclusive

def twoFreshPcbs : PcbTable where
  entries := [⟨2, tcpAlloc true, none⟩, ⟨1, tcpAlloc true, none⟩]
  nextEphemeral := tcpEphemeralPortFirst
  distinct := by decide

theorem portCalls_exclusive_bindListenBind : PortsExclusive twoFreshPcbs ∧
      Transition.Admissible portStep (fun table call => call.SeesAll table) twoFreshPcbs
        [.bind 1 0 80, .listen 1 4, .bind 2 0 80] := by
  have exclusive : PortsExclusive twoFreshPcbs := by decide +kernel
  refine ⟨exclusive, (portCalls_exclusive_iff twoFreshPcbs exclusive _).mp ⟨?_, ?_, ?_, trivial⟩⟩
  all_goals decide +kernel

/-- Both PCBs bind port 80 on the wildcard address and both listen on it; every call succeeds. -/
theorem bind_bind_listen_listen_shared : PortsExclusive twoFreshPcbs ∧ (tcpBind twoFreshPcbs 1 0 80).1 = true ∧
      (tcpBind (portStep twoFreshPcbs (.bind 1 0 80)) 2 0 80).1 = true ∧
      ¬ PortsExclusive (Transition.run portStep twoFreshPcbs [.bind 1 0 80, .bind 2 0 80]) ∧
      ¬ PortsExclusive (Transition.run portStep twoFreshPcbs
        [.bind 1 0 80, .bind 2 0 80, .listen 1 4, .listen 2 4]) := by
  decide +kernel

end PhotonOS
