import PhotonOS.NetLocks.Passages
import PhotonOS.Tcp.Connection

/-!
No task takes a lock that it holds, except in two places: `sys_connect` clears the
timers of a PCB whose lock it has, and a fast retransmission is sent with
`tcp_fast_rexmit_lock` held, so that a segment handled meanwhile may want it again.
-/

namespace PhotonOS.NetLocks

open Transition NetLock

open LockTrace (Op Clean Quiet after quiet_nil clean_append)

variable {address count : Nat} {listener entry : TableEntry} {now : BitVec 64} {allocated sent : Bool}
    {memory : Option Nat} {srcIp destIp : BitVec 32} {header : TcpHeader} {payload : List UInt8} {work : InputWork}

def Outer (held : List NetLock) : Prop := ∀ lock ∈ held, lock = .fastRexmit ∨ lock = .deferredTx

variable {held : List NetLock} {table : PcbTable} {entry : TableEntry} {passage : Passage} {task : NetTask}
    {rest todo : List Todo} {Fine drains : Prop}

theorem Outer.pcbs (outer : Outer held) : pcbs ∉ held := by
  intro member
  rcases outer _ member with same | same <;> cases same

theorem Outer.pcb (outer : Outer held) (address : Nat) : pcb address ∉ held := by
  intro member
  rcases outer _ member with same | same <;> cases same

/-! Balanced operations. -/

theorem quiet_listOps (free : pcbs ∉ held) : Quiet held listOps := Quiet.within free quiet_nil

theorem quiet_pcbOps (free : pcb address ∉ held) :
    Quiet held (pcbOps address) := Quiet.within free quiet_nil

theorem quiet_freeOps (outer : Outer held) (address : Nat) : Quiet held (freeOps address) :=
  (quiet_listOps outer.pcbs).append (quiet_pcbOps (outer.pcb address))

theorem quiet_destroyOps (outer : Outer held) : Quiet held (destroyOps address) :=
  (quiet_listOps outer.pcbs).append (quiet_freeOps outer address)

/-! Passages. -/

def Todo.releases : Todo → Option NetLock
  | .unlock lock => some lock
  | _ => none

def owed (todo : List Todo) : List NetLock := todo.filterMap Todo.releases

theorem owed_append {first second : List Todo} : owed (first ++ second) = owed first ++ owed second :=
  List.filterMap_append

theorem owed_sends : owed (sends count) = [] := by
  induction count with
  | zero => rfl
  | succ count ih => exact ih

theorem owed_destroys {addresses : List Nat} : owed (addresses.map .destroy) = [] := by
  induction addresses with
  | nil => rfl
  | cons address addresses ih => exact ih

/-! Who is whose listener. -/

theorem Parented.update (parented : Parented table) (address : Nat) (edit : Pcb → Pcb) :
    Parented (table.update address edit) := by
  intro entry member
  obtain ⟨old, oldMember, rfl⟩ := List.mem_map.mp member
  rw [PcbTable.editEntry_listener, PcbTable.editEntry_address]
  exact parented old oldMember

theorem Parented.destroy (parented : Parented table) (address : Nat) :
    Parented (table.destroy address) := fun entry member => parented entry (List.mem_of_mem_filter member)

theorem Parented.register {registered : PcbTable} (parented : Parented table) (member : listener ∈ table.entries)
    (child : entry.listener = some listener.address) (done : table.register entry = some registered) :
    Parented registered := by
  unfold PcbTable.register at done
  split at done
  · cases done
  rename_i fresh
  cases done
  intro other otherMember
  rcases List.mem_cons.mp otherMember with rfl | old
  · rw [child]
    intro same
    have address := Option.some.inj same
    exact fresh (address ▸ List.mem_map_of_mem member)
  · exact parented other old

theorem tickEntries_old : ∀ entries deferred dead entry,
    entry ∈ (tickEntries now deferred dead entries).1 →
      ∃ old ∈ entries, old.address = entry.address ∧ old.listener = entry.listener := by
  intro entries
  induction entries with
  | nil => intro deferred dead entry member; cases member
  | cons head rest ih =>
    intro deferred dead entry member
    rw [tickEntries] at member
    split at member
    · obtain ⟨old, oldMember, same⟩ := ih _ _ entry member
      exact ⟨old, List.mem_cons_of_mem _ oldMember, same⟩
    · rcases List.mem_cons.mp member with rfl | later
      · exact ⟨head, List.mem_cons_self, rfl, rfl⟩
      · obtain ⟨old, oldMember, same⟩ := ih _ _ entry later
        exact ⟨old, List.mem_cons_of_mem _ oldMember, same⟩

theorem Parented.tick (parented : Parented table) (now : BitVec 64) : Parented (tableTick now table).1 := by
  intro entry member
  obtain ⟨old, oldMember, address, listener⟩ := tickEntries_old table.entries 0 0 entry member
  rw [← address, ← listener]
  exact parented old oldMember

theorem Parented.allocate (parented : Parented table) (address : Nat) (localIp : BitVec 32) :
    Parented (tcpAllocateEphemeralPort table address localIp).2 := by
  unfold tcpAllocateEphemeralPort
  split
  · exact parented
  split
  · exact parented
  · simp only
    split
    · exact parented
    · exact parented.update address _

/-! Passages that give back all they take. -/

structure Passage.Calm (passage : Passage) (held : List NetLock) : Prop where
  quiet : Quiet held passage.ops
  owes : owed passage.todo = []
  parented : Parented passage.table

section

variable {held : List NetLock} (outer : Outer held) {table : PcbTable} (parented : Parented table)
include parented

theorem calm_nothing : (Passage.nothing table).Calm held := ⟨quiet_nil, rfl, parented⟩

include outer

theorem calm_destroy : (tcpSocketDestroy table address).Calm held := by
  refine ⟨quiet_destroyOps outer, ?_, parented.destroy address⟩
  unfold tcpSocketDestroy
  split
  · split
    · exact owed_destroys
    · rfl
  · rfl

theorem calm_free : (tcpFree table address).Calm held := ⟨quiet_freeOps outer address, rfl, parented.destroy address⟩

theorem calm_drained {result : DrainResult} : (drained table address result).Calm held := by
  refine ⟨quiet_pcbOps (outer.pcb address), ?_, parented.update address _⟩
  simp only [drained, owed_append, owed_sends, List.nil_append]
  split
  · rfl
  · rfl

theorem calm_drainUnsent :
    (tcpDrainUnsent now allocated table address).Calm held := by
  unfold tcpDrainUnsent
  split
  · exact calm_nothing parented
  · split
    · exact ⟨quiet_pcbOps (outer.pcb address), rfl, parented⟩
    · exact calm_drained outer parented

theorem calm_drainOn :
    (drainOn now allocated table address).Calm held := by
  unfold drainOn
  split
  · exact calm_nothing parented
  · exact calm_drained outer parented

theorem calm_listen (member : listener ∈ table.entries) :
    (listenPassage now memory srcIp destIp header table listener).Calm held := by
  have listening := quiet_pcbOps (outer.pcb listener.address)
  have listed := listening.append (quiet_listOps outer.pcbs)
  unfold listenPassage
  split
  · exact ⟨listening, rfl, parented⟩
  rename_i address
  split
  · exact ⟨listening, rfl, parented⟩
  simp only
  split
  · exact ⟨listed.append (quiet_freeOps outer address), rfl, parented⟩
  rename_i registered done
  have after := parented.register member rfl done
  have built := listed.append (quiet_pcbOps (outer.pcb address))
  split
  · exact ⟨built.append (quiet_destroyOps outer), rfl, after.destroy address⟩
  · exact ⟨built, rfl, after.update address _⟩

omit parented in
theorem quiet_connectPortOps (entry : TableEntry) : Quiet held (connectPortOps entry) := by
  have inside : pcb entry.address ∉ pcbs :: held := by simpa using outer.pcb entry.address
  unfold connectPortOps
  split
  · exact Quiet.within outer.pcbs (quiet_pcbOps inside)
  · exact quiet_nil

omit outer in
theorem parented_connectPort (entry : TableEntry) : Parented (connectPort table entry).2 := by
  unfold connectPort
  split
  · exact parented.allocate entry.address _
  · exact parented

theorem calm_connect {sendNow : BitVec 64} {remoteIp : BitVec 32} {remotePort : BitVec 16} :
    (sysConnect now sendNow remoteIp remotePort table address).Calm held := by
  have once := quiet_pcbOps (outer.pcb address)
  unfold sysConnect
  split
  · exact calm_nothing parented
  rename_i entry found
  have port := quiet_connectPortOps outer entry
  have parentedAfter := parented_connectPort parented entry
  simp only
  split
  · exact ⟨port, rfl, parentedAfter⟩
  split
  · exact ⟨port.append once, rfl, parentedAfter⟩
  · split
    · exact ⟨((port.append once).append once).append once, rfl, parentedAfter.update address _⟩
    · exact ⟨(port.append once).append once, rfl, parentedAfter.update address _⟩

theorem calm_connectSent : (connectSent sent table address).Calm held := by
  unfold connectSent
  split
  · exact ⟨quiet_nil, rfl, parented⟩
  · exact ⟨quiet_pcbOps (outer.pcb address), rfl, parented.update address _⟩

end

/-! `tcp_input`. -/

def segmentRetransmits (now : BitVec 64) (srcIp destIp : BitVec 32) (segment : List UInt8) (table : PcbTable) : Bool :=
  match tcpDecode srcIp destIp segment with
  | none => false
  | some (header, payload) =>
    match tcpLookupLocked table ⟨destIp, srcIp, header.destPort, header.srcPort⟩ with
    | none => false
    | some entry => !flagSet header.flags tcpFlagRst && fastRetransmits now header payload entry.pcb

structure Passage.Spec (passage : Passage) (before held : List NetLock) (Fine : Prop) : Prop where
  after : after before passage.ops = owed passage.todo ++ held
  clean : Clean before passage.ops ↔ Fine
  outer : Outer (owed passage.todo)
  parented : Parented passage.table

theorem Passage.Calm.spec (calm : passage.Calm held) (fine : Fine) : passage.Spec held held Fine := by
  refine ⟨?_, iff_of_true calm.quiet.clean fine, ?_, calm.parented⟩
  · rw [calm.quiet.after, calm.owes]
    rfl
  · rw [calm.owes]
    exact nofun

theorem Passage.Spec.congr {before : List NetLock} {Other : Prop} (spec : passage.Spec before held Fine)
    (same : Fine ↔ Other) : passage.Spec before held Other :=
  ⟨spec.after, spec.clean.trans same, spec.outer, spec.parented⟩

theorem Passage.Calm.released (calm : passage.Calm held) (fine : Fine) :
    Passage.Spec { passage with ops := .unlock (.pcb address) :: passage.ops } (.pcb address :: held) held Fine := by
  have spec := calm.spec fine
  refine ⟨?_, ?_, spec.outer, spec.parented⟩
  · simp only [LockTrace.after, List.erase_cons_head]
    exact spec.after
  · simp only [Clean, List.erase_cons_head]
    exact spec.clean

theorem released_spec {ops : List (Op NetLock)} (quiet : Quiet held ops)
    (owes : owed todo = []) (parented : Parented table) (fine : Fine) :
    Passage.Spec ⟨.unlock (.pcb address) :: ops, table, todo⟩ (.pcb address :: held) held Fine :=
  (show Passage.Calm ⟨ops, table, todo⟩ held from ⟨quiet, owes, parented⟩).released fine

theorem lookup_mem {tuple : FourTuple} (found : tcpLookupLocked table tuple = some entry) :
    entry ∈ table.entries := by
  rw [tcpLookupLocked_eq, Option.or_eq_some_iff, listenerFor, Option.or_eq_some_iff] at found
  rcases found with connection | ⟨_, exactly | ⟨_, wildcard⟩⟩
  · exact List.mem_of_find?_eq_some connection
  · exact List.mem_of_mem_filter (List.mem_of_getLast? exactly)
  · exact List.mem_of_find?_eq_some wildcard

section

variable {held : List NetLock} (outer : Outer held) {table : PcbTable} (parented : Parented table)
include outer parented

theorem enqueue_spec (member : entry ∈ table.entries) {left : Pcb} :
    (enqueuePassage table entry left).Spec (.pcb entry.address :: held) held True := by
  have gone : Quiet held (destroyOps entry.address) := quiet_destroyOps outer
  unfold enqueuePassage
  split
  · exact released_spec gone rfl (parented.destroy _) trivial
  rename_i listener child
  have different : pcb entry.address ∉ pcb listener :: held := by
    intro both
    rcases List.mem_cons.mp both with same | inHeld
    · exact parented entry member (by rw [child, pcb.inj same])
    · exact outer.pcb entry.address inHeld
  have nested := Quiet.within (outer.pcb listener) (quiet_pcbOps different)
  split
  · exact released_spec (nested.append gone) rfl (parented.destroy _) trivial
  · exact released_spec nested rfl ((parented.update _ _).update _ _) trivial

omit outer parented in
theorem finishInput_pcb : (finishInput work).pcb = some work.pcb := rfl

omit outer parented in
theorem finishInput_next : (finishInput work).next ≠ .enqueue := by
  unfold finishInput
  simp only
  split
  · exact nofun
  · exact nofun

omit outer parented in
theorem owed_drain [Decidable drains] :
    owed (if drains then [Todo.drain address] else []) = [] := by
  split
  · rfl
  · rfl

omit outer parented in
theorem owed_free : owed (sends count ++ [.free address]) = [] := by
  rw [owed_append, owed_sends]
  rfl

omit outer in
theorem rexmit_spec [Decidable drains] {edit : Pcb → Pcb} : Passage.Spec
      { ops := [.lock .fastRexmit, .unlock (.pcb address)]
        table := table.update address edit
        todo := sends count ++ .unlock .fastRexmit :: if drains then [Todo.drain address] else [] }
      (.pcb address :: held) held (fastRexmit ∉ held) := by
  have owes : owed (sends count ++ .unlock .fastRexmit :: if drains then [Todo.drain address] else []) =
      [fastRexmit] := by
    rw [owed_append, owed_sends]
    exact congrArg (fastRexmit :: ·) owed_drain
  refine ⟨?_, ?_, ?_, parented.update address edit⟩
  · rw [owes]
    simp [LockTrace.after]
  · simp [Clean]
  · rw [owes]
    intro lock member
    exact Or.inl (List.mem_singleton.mp member)

theorem connection_spec (member : entry ∈ table.entries) :
    (connectionPassage now header payload table entry).Spec (.pcb entry.address :: held) held
      ((!flagSet header.flags tcpFlagRst && fastRetransmits now header payload entry.pcb) = true →
        fastRexmit ∉ held) := by
  unfold connectionPassage
  cases reset : flagSet header.flags tcpFlagRst with
  | true =>
    simp only [if_true, Bool.not_true, Bool.false_and]
    split
    · exact released_spec (quiet_destroyOps outer) rfl (parented.destroy _) nofun
    · exact released_spec quiet_nil rfl (parented.update _ _) nofun
  | false =>
    simp only [Bool.false_eq_true, if_false, Bool.not_false, Bool.true_and]
    cases retransmits : fastRetransmits now header payload entry.pcb with
    | true =>
      simp only [fastRetransmits, Bool.and_eq_true, decide_eq_true_eq] at retransmits
      unfold tcpInputLocked
      simp only [retransmits.1, reset, reduceCtorEq, or_self, if_false, Bool.false_eq_true]
      simp only [finishInput_pcb, if_neg finishInput_next, if_true]
      exact (rexmit_spec parented).congr ⟨fun free _ => free, fun free => free trivial⟩
    | false =>
      split
      · exact released_spec quiet_nil owed_free (parented.update _ _) nofun
      next left _ =>
        split
        · exact (enqueue_spec outer parented member).congr (iff_of_true trivial nofun)
        refine released_spec quiet_nil ?_ (parented.update _ _) nofun
        rw [owed_append, owed_sends]
        exact owed_drain

omit parented in
theorem Passage.Spec.entered (spec : passage.Spec (.pcb address :: held) held Fine) :
    Passage.Spec { passage with ops := [.lock .pcbs, .lock (.pcb address), .unlock .pcbs] ++ passage.ops } held held
      Fine := by
  have dropped : (pcb address :: pcbs :: held).erase pcbs = pcb address :: held := by simp
  refine ⟨?_, ?_, spec.outer, spec.parented⟩
  · simp only [LockTrace.after, List.cons_append, List.nil_append, dropped]
    exact spec.after
  · simp only [Clean, List.cons_append, List.nil_append, dropped]
    rw [← spec.clean]
    have free : pcb address ∉ pcbs :: held := by simpa using outer.pcb address
    exact ⟨fun clean => clean.2.2, fun clean => ⟨outer.pcbs, free, clean⟩⟩

theorem input_spec {segment : List UInt8} :
    (tcpInput now memory srcIp destIp segment table).Spec held held
      (segmentRetransmits now srcIp destIp segment table = true → fastRexmit ∉ held) := by
  unfold tcpInput segmentRetransmits
  cases tcpDecode srcIp destIp segment with
  | none => exact (calm_nothing parented).spec (absurd · Bool.false_ne_true)
  | some decoded =>
    obtain ⟨header, payload⟩ := decoded
    simp only
    cases found : tcpLookupLocked table ⟨destIp, srcIp, header.destPort, header.srcPort⟩ with
    | none =>
      exact Passage.Calm.spec ⟨quiet_listOps outer.pcbs, owed_sends, parented⟩ (absurd · Bool.false_ne_true)
    | some entry =>
      have member : entry ∈ table.entries := lookup_mem found
      have other : entry.pcb.state ≠ .established →
          (!flagSet header.flags tcpFlagRst && fastRetransmits now header payload entry.pcb) = true →
            fastRexmit ∉ held := by
        intro state
        simp [fastRetransmits, state]
      refine Passage.Spec.entered outer ?_
      split
      next closed => exact released_spec quiet_nil rfl parented (other (by rw [closed]; decide))
      split
      next listening =>
        refine Passage.Calm.released ?_ (other (by rw [listening]; decide))
        split
        · exact calm_listen outer parented member
        · exact calm_nothing parented
      · exact connection_spec outer parented member

end

/-! `tcp_timer_tick` and the loop of `sys_connect`. -/

theorem tick_spec (parented : Parented table) : (tcpTimerTick now table).Spec [] [] True := by
  have outer : Outer [deferredTx] := fun lock member => Or.inr (List.mem_singleton.mp member)
  have inside : ∀ address, pcb address ∉ [pcbs, deferredTx] := by
    intro address
    simp
  have scan : Quiet [deferredTx]
      (.lock .pcbs :: (table.entries.flatMap (fun entry => pcbOps entry.address) ++ [.unlock .pcbs])) :=
    Quiet.within outer.pcbs (Quiet.flatMap table.entries fun entry => quiet_pcbOps (inside entry.address))
  have quiet := scan.append (Quiet.flatMap
    (table.entries.filter fun entry => ((tableTick now table).1.find entry.address).isNone)
    fun entry => quiet_freeOps outer entry.address)
  have owes : owed (sends (tableTick now table).2.length ++ [.unlock .deferredTx]) = [deferredTx] := by
    rw [owed_append, owed_sends]
    rfl
  refine ⟨?_, ?_, ?_, parented.tick now⟩
  · refine quiet.after.trans ?_
    rw [List.append_nil]
    exact owes.symm
  · exact iff_true_intro ⟨List.not_mem_nil, quiet.clean⟩
  · exact owes ▸ outer

def connectExpired (now : BitVec 64) (table : PcbTable) (address : Nat) : Bool :=
  (table.find address).any fun entry => decide (entry.pcb.state = .synSent) && timeoutExpired now entry.pcb

theorem connectWait_spec (outer : Outer held) (parented : Parented table) :
    (connectWait now table address).Spec held held (connectExpired now table address = false) := by
  have once : Quiet held (pcbOps address) := quiet_pcbOps (outer.pcb address)
  unfold connectWait connectExpired
  cases found : table.find address with
  | none => exact (calm_nothing parented).spec rfl
  | some entry =>
    simp only [Option.any_some]
    by_cases waiting : entry.pcb.state = .synSent
    · cases expired : timeoutExpired now entry.pcb with
      | false =>
        simp only [waiting, ne_eq, not_true, if_false, Bool.false_eq_true, Bool.and_false]
        exact Passage.Calm.spec ⟨once, rfl, parented⟩ trivial
      | true =>
        simp only [waiting, ne_eq, not_true, if_false, if_true, decide_true, Bool.and_true, Bool.true_eq_false]
        refine ⟨?_, ?_, nofun, parented.update address _⟩
        · simp [LockTrace.after, pcbOps, owed]
        · simp [Clean, pcbOps]
    · simp only [waiting, ne_eq, not_false_eq_true, if_true, decide_false, Bool.false_and]
      exact Passage.Calm.spec ⟨once, rfl, parented⟩ trivial

/-! Runs. -/

structure AtRest (task : NetTask) : Prop where
  parented : Parented task.table
  held : task.held = owed task.todo
  outer : Outer (owed task.todo)

theorem AtRest.perform (outer : Outer (owed rest)) (spec : passage.Spec task.held (owed rest) Fine) :
    AtRest (task.perform rest passage) ∧
      ((task.perform rest passage).doubled = false ↔ task.doubled = false ∧ Fine) := by
  refine ⟨⟨spec.parented, ?_, ?_⟩, ?_⟩
  · simp only [NetTask.perform, owed_append]
    exact spec.after
  · simp only [NetTask.perform, owed_append]
    exact List.forall_mem_append.mpr ⟨spec.outer, outer⟩
  · simp only [NetTask.perform, Bool.or_eq_false_iff, Bool.not_eq_false', decide_eq_true_eq, spec.clean]

/-- Nothing that the task does is a fast retransmission while one is being sent, or the end of a connection that is
still waited for. -/
def Orderly (task : NetTask) : TaskEvent → Prop
  | .arrive now _ srcIp destIp segment =>
    polls task = true → segmentRetransmits now srcIp destIp segment task.table = true →
      Todo.unlock .fastRexmit ∉ task.todo
  | .goOn now _ _ => ∀ address, task.todo.head? = some (.connectWait address) →
      connectExpired now task.table address = false
  | .enter _ | .others _ _ => True

theorem mem_owed {lock : NetLock} : lock ∈ owed todo ↔ Todo.unlock lock ∈ todo := by
  unfold owed
  rw [List.mem_filterMap]
  constructor
  · rintro ⟨item, member, releases⟩
    cases item with
    | unlock other =>
      cases releases
      exact member
    | send | drain | drainOn | free | destroy | connectSent | connectWait => cases releases
  · intro member
    exact ⟨.unlock lock, member, rfl⟩

theorem entry_spec (parented : Parented table) {entry : EntryPoint} : (entryPassage table entry).Spec [] [] True := by
  have outer : Outer [] := nofun
  cases entry with
  | connect now sendNow remoteIp remotePort address => exact (calm_connect outer parented).spec trivial
  | drain now allocated address => exact (calm_drainUnsent outer parented).spec trivial
  | tick now => exact tick_spec parented
  | destroy address => exact (calm_destroy outer parented).spec trivial

theorem todo_spec (outer : Outer (owed rest)) (parented : Parented table) {item : Todo} :
    (todoPassage now allocated sent table item).Spec (owed (item :: rest)) (owed rest)
      (∀ address, item = .connectWait address → connectExpired now table address = false) := by
  cases item with
  | send => exact (calm_nothing parented).spec nofun
  | unlock lock =>
    have dropped : (lock :: owed rest).erase lock = owed rest := by simp
    exact ⟨dropped, iff_of_true trivial nofun, nofun, parented⟩
  | drain address => exact (calm_drainUnsent outer parented).spec nofun
  | drainOn address => exact (calm_drainOn outer parented).spec nofun
  | free address => exact (calm_free outer parented).spec nofun
  | destroy address => exact (calm_destroy outer parented).spec nofun
  | connectSent address => exact (calm_connectSent outer parented).spec nofun
  | connectWait address =>
    refine (connectWait_spec outer parented).congr ⟨?_, fun all => all address rfl⟩
    rintro alive _ ⟨⟩
    exact alive

theorem AtRest.step (atRest : AtRest task) (event : TaskEvent) : AtRest (taskStep task event) ∧
      ((taskStep task event).doubled = false ↔ task.doubled = false ∧ Orderly task event) := by
  cases event with
  | enter entry =>
    simp only [taskStep, Orderly, and_true]
    split
    next idle =>
      have none : task.held = [] := by rw [atRest.held, idle]; rfl
      have spec : (entryPassage task.table entry).Spec task.held (owed []) True := by
        rw [none]
        exact entry_spec atRest.parented
      obtain ⟨after, fine⟩ := AtRest.perform (fun lock member => by cases member) spec
      exact ⟨after, fine.trans (and_iff_left trivial)⟩
    · exact ⟨atRest, Iff.rfl⟩
  | arrive now memory srcIp destIp segment =>
    simp only [taskStep, Orderly]
    split
    next polling =>
      have spec : (tcpInput now memory srcIp destIp segment task.table).Spec task.held (owed task.todo)
          (segmentRetransmits now srcIp destIp segment task.table = true → fastRexmit ∉ owed task.todo) := by
        rw [atRest.held]
        exact input_spec atRest.outer atRest.parented
      obtain ⟨after, fine⟩ := AtRest.perform atRest.outer spec
      refine ⟨after, fine.trans ?_⟩
      rw [mem_owed]
      simp only [polling, forall_const]
    next deaf =>
      refine ⟨atRest, (and_iff_left ?_).symm⟩
      intro polling
      exact absurd polling deaf
  | goOn now allocated sent =>
    simp only [taskStep, Orderly]
    cases todo : task.todo with
    | nil => exact ⟨atRest, (and_iff_left nofun).symm⟩
    | cons item rest =>
      have outer : Outer (owed rest) := by
        intro lock member
        exact atRest.outer lock (mem_owed.mpr
          (todo ▸ List.mem_cons_of_mem item (mem_owed.mp member)))
      have spec : (todoPassage now allocated sent task.table item).Spec task.held (owed rest)
          (∀ address, item = .connectWait address → connectExpired now task.table address = false) := by
        rw [atRest.held, todo]
        exact todo_spec outer atRest.parented
      obtain ⟨after, fine⟩ := AtRest.perform outer spec
      refine ⟨after, fine.trans ?_⟩
      simp only [List.head?_cons, Option.some.injEq]
  | others table parented => exact ⟨⟨parented, atRest.held, atRest.outer⟩, (and_iff_left trivial).symm⟩

theorem doubled_run {events : List TaskEvent} : ∀ {task : NetTask}, AtRest task →
    ((run taskStep task events).doubled = false ↔
      task.doubled = false ∧ Transition.Admissible taskStep Orderly task events) := by
  induction events with
  | nil =>
    intro task _
    exact (and_iff_left trivial).symm
  | cons event events ih =>
    intro task atRest
    obtain ⟨after, fine⟩ := atRest.step event
    rw [run_cons, ih after, fine, and_assoc]
    rfl

/-- A task that starts in no call never takes a lock that it holds, exactly when every one of its steps is orderly. -/
theorem undoubled_iff_orderly (table : PcbTable) (parented : Parented table) (events : List TaskEvent) :
    (run taskStep (.idle table) events).doubled = false ↔
      Transition.Admissible taskStep Orderly (.idle table) events := by
  have atRest : AtRest (.idle table) := ⟨parented, rfl, fun lock member => by cases member⟩
  rw [doubled_run atRest]
  exact and_iff_right rfl

/-! Two connections that each have had two duplicate ACKs, and a PCB that is not connected yet. -/

def waitingPcb (port : BitVec 16) : Pcb :=
  { tcpAlloc true with
    state := .established
    localIp := netLocalIpv4
    remoteIp := sampleRemote
    localPort := port
    remotePort := 80
    sndUna := 1001
    sndNxt := 1002
    sndWnd := 8192
    rcvNxt := 501
    dupacks := 2
    txBuf := { (tcpAlloc true).txBuf with
      unacked := {
        entries := [{ sequence := 1001, length := 1, offset := 0, data := [7], sentAt := 0, retransmitCount := 0 }]
        bytes := 1
        segments := 1 } } }

theorem twoConnections_distinct : ([⟨0, waitingPcb 1000, none⟩, ⟨1, waitingPcb 1001, none⟩,
    ⟨2, { tcpAlloc true with localPort := 1002 }, none⟩].map TableEntry.address).Nodup := by
  simp

def twoConnections : PcbTable where
  entries := [⟨0, waitingPcb 1000, none⟩, ⟨1, waitingPcb 1001, none⟩, ⟨2, { tcpAlloc true with localPort := 1002 }, none⟩]
  nextEphemeral := tcpEphemeralPortFirst
  distinct := twoConnections_distinct

theorem twoConnections_parented : Parented twoConnections := by
  unfold Parented
  decide

def thirdDuplicateAck (port : BitVec 16) : TaskEvent :=
  .arrive 1 none sampleRemote netLocalIpv4 (tcpFinishPacket sampleRemote netLocalIpv4
    { srcPort := 80, destPort := port, seqNum := 501, ackNum := 1001, dataOffsetFlags := offsetFlags tcpFlagAck
      windowSize := 8192, checksum := 0, urgentPtr := 0 } [])

theorem undoubled_iff_one_retransmission :
    (run taskStep (.idle twoConnections) [thirdDuplicateAck 1000, .goOn 1 true true]).doubled = false ↔
      Transition.Admissible taskStep Orderly (.idle twoConnections) [thirdDuplicateAck 1000, .goOn 1 true true] :=
  undoubled_iff_orderly twoConnections twoConnections_parented _

theorem locks_taken_twice :
    (run taskStep (.idle twoConnections) [thirdDuplicateAck 1000, thirdDuplicateAck 1001]).doubled = true ∧
    (run taskStep (.idle twoConnections)
      [.enter (.connect 0 0 sampleRemote 80 2), .goOn 0 true true, .goOn 0 true true, .goOn 500 true true]).doubled =
        true := by
  constructor
  · decide +kernel
  · decide +kernel

end PhotonOS.NetLocks
