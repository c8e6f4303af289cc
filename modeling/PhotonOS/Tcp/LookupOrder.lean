import PhotonOS.Tcp.Demux

/-!
Whether what `tcp_lookup_locked` returns depends on the order of `tcp_pcbs`.
-/

namespace PhotonOS

def AtMostOne (entries : List TableEntry) (holds : TableEntry → Bool) : Prop :=
  ∀ first ∈ entries, ∀ second ∈ entries, holds first = true → holds second = true → first = second

def exactMatch (tuple : FourTuple) (entry : TableEntry) : Bool :=
  decide (⟨entry.pcb.localIp, entry.pcb.remoteIp, entry.pcb.localPort, entry.pcb.remotePort⟩ = tuple ∧
    entry.pcb.state ≠ .listen)

/-- The conditions on a set of registered PCBs; one that has a remote end is connected. -/
structure Registered (entries : List TableEntry) : Prop where
  connections : ∀ tuple, AtMostOne entries (exactMatch tuple)
  listeners : ∀ address port, AtMostOne entries fun entry =>
    decide (entry.pcb.state = .listen ∧ entry.pcb.localIp = address ∧ entry.pcb.localPort = port)
  connected : ∀ entry ∈ entries, entry.pcb.state ≠ .listen →
    entry.pcb.remoteIp ≠ 0 ∨ entry.pcb.remotePort ≠ 0 → entry.pcb.localIp ≠ 0

/-- The PCB of the 4-tuple, else the listener on its address, else the wildcard listener. -/
def lookupSpec (tuple : FourTuple) (entries : List TableEntry) : Option TableEntry :=
  (entries.find? (exactMatch tuple)).or
    ((entries.find? (exactListener tuple)).or (entries.find? (wildcardListener tuple)))

/-- An unconnected PCB on the wildcard address, which the loop returns for a 4-tuple without remote end. -/
def Shadows (tuple : FourTuple) (entry : TableEntry) : Prop :=
  exactMatch { tuple with localIp := 0 } entry = true ∧ tuple.localIp ≠ 0 ∧ tuple.remoteIp = 0 ∧ tuple.remotePort = 0

variable {entries other : List TableEntry} {holds finds : TableEntry → Bool} {tuple : FourTuple}

theorem AtMostOne.find?_iff (unique : AtMostOne entries holds) (entry : TableEntry) :
    entries.find? holds = some entry ↔ entry ∈ entries ∧ holds entry = true := by
  refine ⟨fun found => ⟨List.mem_of_find?_eq_some found, List.find?_some found⟩, ?_⟩
  rintro ⟨member, held⟩
  obtain ⟨found, first⟩ := Option.isSome_iff_exists.mp (List.find?_isSome.mpr ⟨entry, member, held⟩)
  rw [first, unique found (List.mem_of_find?_eq_some first) entry member (List.find?_some first) held]

theorem AtMostOne.find?_perm (unique : AtMostOne entries holds) (perm : other.Perm entries)
    (same : ∀ entry ∈ entries, finds entry = holds entry) : other.find? finds = entries.find? holds := by
  have agree : ∀ entry, entry ∈ other ∧ finds entry = true ↔ entry ∈ entries ∧ holds entry = true := by
    intro entry
    rw [perm.mem_iff]
    exact and_congr_right fun member => by rw [same entry member]
  have uniqueOther : AtMostOne other finds := fun first firstIn second secondIn left right =>
    have first' := (agree first).mp ⟨firstIn, left⟩
    have second' := (agree second).mp ⟨secondIn, right⟩
    unique first first'.1 second second'.1 first'.2 second'.2
  apply Option.ext
  intro entry
  rw [unique.find?_iff, uniqueOther.find?_iff, agree]

/-- Every order of the list gives the PCB of the 4-tuple, else its listener, exactly when no unconnected PCB stands
before them. -/
theorem lookup_orderFree_iff (table : PcbTable) (registered : Registered table.entries) (tuple : FourTuple) :
    (∀ other : PcbTable, other.entries.Perm table.entries →
      tcpLookupLocked other tuple = lookupSpec tuple table.entries) ↔ ¬∃ entry ∈ table.entries, Shadows tuple entry := by
  obtain ⟨localIp, remoteIp, localPort, remotePort⟩ := tuple
  constructor
  · rintro every ⟨entry, member, bound, address, _⟩
    have perm : (entry :: table.entries.erase entry).Perm table.entries := (List.perm_cons_erase member).symm
    have first := every ⟨_, table.nextEphemeral, ((perm.map _).nodup_iff).mpr table.distinct⟩ perm
    simp only [exactMatch, FourTuple.mk.injEq, decide_eq_true_eq] at bound
    rw [tcpLookupLocked_eq, List.find?_cons_of_pos (by simp [connectionOf, Pcb.ForTuple, Pcb.Local, bound]),
      Option.some_or] at first
    -- the specification returns no PCB of another address that does not listen
    rcases Option.or_eq_some_iff.mp first.symm with found | ⟨_, found⟩
    · have held := List.find?_some found
      simp only [exactMatch, FourTuple.mk.injEq, decide_eq_true_eq] at held
      exact address (held.1.1.symm.trans bound.1.1)
    · rcases Option.or_eq_some_iff.mp found with found | ⟨_, found⟩
      · have listens := List.find?_some found
        exact bound.2 (of_decide_eq_true listens).1.2.1
      · have listens := List.find?_some found
        exact bound.2 (of_decide_eq_true listens).1.2.1
  · intro clear other perm
    rw [tcpLookupLocked_eq, listenerFor, lookupSpec, ← List.head?_reverse, ← List.filter_reverse, List.head?_filter]
    congr 1
    · refine (registered.connections _).find?_perm perm fun entry member => ?_
      have connected := registered.connected entry member
      have shadow := not_exists.mp clear entry
      simp only [Shadows, exactMatch, FourTuple.mk.injEq, decide_eq_true_eq] at shadow
      simp only [connectionOf, exactMatch, Pcb.ForTuple, Pcb.Local, FourTuple.mk.injEq]
      grind
    congr 1
    · refine AtMostOne.find?_perm (fun first firstIn second secondIn left right => ?_)
        ((List.reverse_perm other.entries).trans perm) fun _ _ => rfl
      have left := of_decide_eq_true left
      have right := of_decide_eq_true right
      exact registered.listeners localIp localPort first firstIn second secondIn
        (by simp [left.1.2.1, left.2, left.1.1.1]) (by simp [right.1.2.1, right.2, right.1.1.1])
    · refine AtMostOne.find?_perm (fun first firstIn second secondIn left right => ?_) perm fun _ _ => rfl
      have left := of_decide_eq_true left
      have right := of_decide_eq_true right
      have leftWild := left.1.1.2.resolve_right left.2
      have rightWild := right.1.1.2.resolve_right right.2
      exact registered.listeners 0 localPort first firstIn second secondIn
        (by simp [left.1.2.1, leftWild, left.1.1.1]) (by simp [right.1.2.1, rightWild, right.1.1.1])

theorem boundEntries_distinct : (([⟨0, bindPcb 0 80 (tcpAlloc true), none⟩,
    ⟨1, bindPcb 1 80 (tcpAlloc true), none⟩] : List TableEntry).map TableEntry.address).Nodup := by decide

/-- Two unconnected sockets on port 80, one of them bound to no address. -/
def boundTable : PcbTable := ⟨_, 0, boundEntries_distinct⟩

theorem boundTable_registered : Registered boundTable.entries where
  connections tuple := by
    simp only [AtMostOne, exactMatch, decide_eq_true_eq]
    rintro first firstIn second secondIn ⟨rfl, _⟩ ⟨same, _⟩
    simp only [boundTable, List.mem_cons, List.not_mem_nil, or_false] at firstIn secondIn
    rcases firstIn with rfl | rfl <;> rcases secondIn with rfl | rfl <;> simp_all [bindPcb]
  listeners := by simp [AtMostOne, boundTable, bindPcb, tcpAlloc]
  connected := by simp [boundTable, bindPcb, tcpAlloc]

theorem lookup_orderFree_withRemote : tcpLookupLocked boundTable ⟨1, 7, 80, 9⟩ =
    lookupSpec ⟨1, 7, 80, 9⟩ boundTable.entries :=
  (lookup_orderFree_iff boundTable boundTable_registered ⟨1, 7, 80, 9⟩).mpr (by simp [Shadows]) boundTable (List.Perm.refl _)

/-- A segment without remote end gets whichever of the two sockets stands first. -/
theorem lookup_order_matters : ∃ table other : PcbTable, Registered table.entries ∧
    other.entries.Perm table.entries ∧ tcpLookupLocked other ⟨1, 0, 80, 0⟩ ≠ tcpLookupLocked table ⟨1, 0, 80, 0⟩ :=
  ⟨boundTable, ⟨boundTable.entries.reverse, 0, by decide⟩, boundTable_registered, List.reverse_perm _, by decide⟩

end PhotonOS
