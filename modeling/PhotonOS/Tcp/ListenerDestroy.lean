import PhotonOS.Tcp.ListenerAnswers

/-!
`tcp_socket_destroy` of a listener. It collects at most eight half-open
children, and of the others only those that wait to be accepted.
-/

namespace PhotonOS

open PcbTable

/-- The children that the first loop of `tcp_socket_destroy` looks for, in the order of `tcp_pcbs`. -/
def halfOpen (table : PcbTable) (listener : Nat) : List Nat :=
  (table.entries.filter fun entry =>
    decide (entry.listener = some listener ∧ entry.pcb.state = .synReceived)).map TableEntry.address

def synOrphans (table : PcbTable) (listener : Nat) : List Nat :=
  (halfOpen table listener).take tcpMaxBacklog.toNat

/-- `parent = 0` for the collected half-open children. -/
def clearParent (orphans : List Nat) (entry : TableEntry) : TableEntry :=
  if entry.address ∈ orphans then { entry with listener := none, pcb := { entry.pcb with parent := false } }
  else entry

/-- `tcp_accept_queue_detach_locked` on a child. -/
def detachChild (queue : List Nat) (entry : TableEntry) : TableEntry :=
  if entry.address ∈ queue then
    { entry with
      listener := none
      pcb := { entry.pcb with
        state := .closed, parent := false, flags := { entry.pcb.flags with acceptReady := false } } }
  else entry

def PcbTable.editAll (table : PcbTable) (edit : TableEntry → TableEntry)
    (keeps : ∀ entry, (edit entry).address = entry.address) : PcbTable where
  entries := table.entries.map edit
  nextEphemeral := table.nextEphemeral
  distinct := by
    have addresses : (table.entries.map edit).map TableEntry.address = table.entries.map TableEntry.address := by
      rw [List.map_map]
      exact List.map_congr_left fun entry _ => keeps entry
    rw [addresses]
    exact table.distinct

theorem clearParent_address {orphans : List Nat} (entry : TableEntry) :
    (clearParent orphans entry).address = entry.address := by
  unfold clearParent
  split <;> rfl

theorem detachChild_address {queue : List Nat} (entry : TableEntry) :
    (detachChild queue entry).address = entry.address := by
  unfold detachChild
  split <;> rfl

/-- `tcp_socket_destroy`, with the list that starts at `accept_head`. The children it destroys are
CLOSED or SYN_RECEIVED, so their own destruction collects nothing. -/
def tcpSocketDestroy (table : PcbTable) (address : Nat) (queue : List Nat) : PcbTable :=
  match table.find address with
  | none => table
  | some entry =>
    if entry.pcb.state = .listen then
      let orphans := synOrphans table address
      let cleared := table.editAll (clearParent orphans) clearParent_address
      let detached := (cleared.destroy address).editAll (detachChild queue) detachChild_address
      (queue.take tcpMaxBacklog.toNat ++ orphans).foldl destroy detached
    else table.destroy address

def NoChildren (table : PcbTable) (listener : Nat) : Prop :=
  ∀ entry ∈ table.entries, entry.listener ≠ some listener

/-- Every child waits to be accepted or is one of at most eight half-open ones. -/
structure Collected (table : PcbTable) (listener : Nat) (queue : List Nat) : Prop where
  kinds : ∀ child ∈ table.entries, child.address ≠ listener → child.listener = some listener →
    child.address ∈ queue ∨ child.pcb.state = .synReceived
  few : ∀ child ∈ (halfOpen table listener).drop tcpMaxBacklog.toNat, child ∈ queue

variable {table : PcbTable} {listener : Nat} {queue : List Nat}

theorem mem_halfOpen {address : Nat} : address ∈ halfOpen table listener ↔ ∃ child,
    (child ∈ table.entries ∧ child.listener = some listener ∧ child.pcb.state = .synReceived) ∧
      child.address = address := by
  simp [halfOpen]

theorem halfOpen_nodup : (halfOpen table listener).Nodup :=
  table.distinct.sublist (List.filter_sublist.map TableEntry.address)

theorem mem_foldl_destroy (entry : TableEntry) : ∀ (addresses : List Nat) (table : PcbTable),
    entry ∈ (addresses.foldl destroy table).entries ↔ entry ∈ table.entries ∧ entry.address ∉ addresses := by
  intro addresses
  induction addresses with
  | nil => intro table; simp
  | cons address rest ih =>
    intro table
    rw [List.foldl_cons, ih]
    simp [destroy, and_assoc]

theorem noChildren_iff {entry : TableEntry} (found : table.find listener = some entry)
    (listens : entry.pcb.state = .listen) : NoChildren (tcpSocketDestroy table listener queue) listener ↔
      ∀ child ∈ table.entries, child.address ≠ listener → child.listener = some listener →
        child.address ∈ queue ∨ child.address ∈ synOrphans table listener := by
  simp only [NoChildren, tcpSocketDestroy, found, listens, if_true, mem_foldl_destroy]
  generalize synOrphans table listener = orphans
  constructor
  · intro none child member other parent
    by_contra kept
    rw [not_or] at kept
    have same : detachChild queue (clearParent orphans child) = child := by
      rw [clearParent, if_neg kept.2, detachChild, if_neg kept.1]
    refine none child ⟨?_, ?_⟩ parent
    · simp only [editAll, destroy, List.mem_map, List.mem_filter]
      exact ⟨clearParent orphans child, ⟨⟨child, member, rfl⟩, by simpa [clearParent_address] using other⟩, same⟩
    · rw [List.mem_append, not_or]
      exact ⟨fun taken => kept.1 (List.mem_of_mem_take taken), kept.2⟩
  · rintro all left ⟨member, spared⟩ parent
    simp only [editAll, destroy, List.mem_map, List.mem_filter] at member
    obtain ⟨_, ⟨⟨child, member, rfl⟩, other⟩, rfl⟩ := member
    simp only [detachChild_address, clearParent_address, List.mem_append, not_or] at spared
    have notQueued : child.address ∉ queue := by
      intro queued
      rw [detachChild, clearParent_address, if_pos queued] at parent
      cases parent
    rw [detachChild, clearParent_address, if_neg notQueued, clearParent, if_neg spared.2] at parent
    rcases all child member (by simpa [clearParent_address] using other) parent with queued | collected
    · exact notQueued queued
    · exact spared.2 collected

end PhotonOS
