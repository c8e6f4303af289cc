import PhotonOS.Tcp.Connection
import PhotonOS.Tcp.Demux

/-!
A SYN for a listening port.
-/

namespace PhotonOS

def TcpHeader.tuple (header : TcpHeader) (srcIp destIp : BitVec 32) : FourTuple :=
  ⟨destIp, srcIp, header.destPort, header.srcPort⟩

def TcpHeader.IsSyn (header : TcpHeader) : Prop :=
  flagSet header.flags tcpFlagSyn ∧ flagSet header.flags tcpFlagAck = false ∧ flagSet header.flags tcpFlagRst = false

def Pcb.HasRoom (pcb : Pcb) : Prop := pcb.acceptCount < pcb.backlog

instance (header : TcpHeader) : Decidable header.IsSyn := inferInstanceAs (Decidable (_ ∧ _ ∧ _))

instance (pcb : Pcb) : Decidable pcb.HasRoom := inferInstanceAs (Decidable (_ < _))

/-- A new SYN_RECEIVED child is registered for the SYN, and a SYN+ACK is sent from it. -/
def AnswersSyn (before : PcbTable) (srcIp destIp : BitVec 32) (header : TcpHeader)
    (after : PcbTable × List (List UInt8)) : Prop :=
  ∃ child : TableEntry, child.pcb.state = .synReceived ∧ child.pcb.ForTuple (header.tuple srcIp destIp) ∧
    child.pcb.rcvNxt = header.seqNum + 1 ∧ after.1.entries = child :: before.entries ∧
    after.2 = [segmentPacket child.pcb child.pcb.iss (tcpFlagSyn ||| tcpFlagAck) []]

/-- The numbers without which `tcp_build_output_locked` builds no reply. -/
def FourTuple.Addressed (tuple : FourTuple) : Prop :=
  tuple.localPort ≠ 0 ∧ tuple.remoteIp ≠ 0 ∧ tuple.remotePort ≠ 0

theorem tcpHandleListenSyn_isSome_iff (now : BitVec 64) {listener : Pcb} (srcIp destIp : BitVec 32)
    (remotePort : BitVec 16) (sequence : BitVec 32) (listening : listener.state = .listen) :
    (tcpHandleListenSyn now true listener srcIp destIp remotePort sequence).isSome ↔
      listener.HasRoom ∧ listener.localPort ≠ 0 ∧ srcIp ≠ 0 ∧ remotePort ≠ 0 := by
  unfold tcpHandleListenSyn Pcb.HasRoom tcpBuildOutputLocked
  by_cases room : listener.acceptCount < listener.backlog
  · rw [if_neg (by simp [listening]; omega)]
    simp [room, listenChild, Option.isSome_iff_ne_none]
  · simp [room]

variable {packet : List UInt8}

theorem tcpBuildOutputLocked_synAck {pcb built : Pcb} (received : pcb.state = .synReceived)
    (sent : tcpBuildOutputLocked pcb (tcpFlagSyn ||| tcpFlagAck) [] = some (built, packet)) :
    built.state = pcb.state ∧ built.rcvNxt = pcb.rcvNxt ∧ built.localIp = pcb.localIp ∧
      built.localPort = pcb.localPort ∧ built.remoteIp = pcb.remoteIp ∧ built.remotePort = pcb.remotePort ∧
      packet = segmentPacket built built.iss (tcpFlagSyn ||| tcpFlagAck) [] := by
  have isSyn : flagSet (tcpFlagSyn ||| tcpFlagAck) tcpFlagSyn = true := by decide
  unfold tcpBuildOutputLocked at sent
  split at sent
  · cases sent
  · simp only [isSyn, received, true_and, or_true, if_true, Option.some.injEq, Prod.mk.injEq] at sent
    obtain ⟨rfl, rfl⟩ := sent
    exact ⟨rfl, rfl, rfl, rfl, rfl, rfl, rfl⟩

theorem tcpHandleListenSyn_child {now : BitVec 64} {listener child : Pcb} {srcIp destIp : BitVec 32}
    {remotePort : BitVec 16} {sequence : BitVec 32}
    (handled : tcpHandleListenSyn now true listener srcIp destIp remotePort sequence = some (child, packet)) :
    child.state = .synReceived ∧ child.rcvNxt = sequence + 1 ∧
      child.localIp = (if listener.localIp = 0 then destIp else listener.localIp) ∧
      child.localPort = listener.localPort ∧ child.remoteIp = srcIp ∧ child.remotePort = remotePort ∧
      packet = segmentPacket child child.iss (tcpFlagSyn ||| tcpFlagAck) [] := by
  unfold tcpHandleListenSyn at handled
  split at handled
  · cases handled
  · exact tcpBuildOutputLocked_synAck rfl handled

section

variable {table : PcbTable} {srcIp destIp : BitVec 32} {header : TcpHeader} {payload segment : List UInt8}
    {listener : TableEntry} {tuple : FourTuple} {entries : List TableEntry}

theorem listenSyn_answersSyn_iff (now : BitVec 64) {fresh : Nat}
    (listens : listener.pcb.ListensFor (header.tuple srcIp destIp))
    (unused : fresh ∉ table.entries.map TableEntry.address) :
    AnswersSyn table srcIp destIp header (listenSyn now (some fresh) srcIp destIp header table listener) ↔
      listener.pcb.HasRoom ∧ (header.tuple srcIp destIp).Addressed := by
  obtain ⟨⟨samePort, sameIp⟩, listening, _⟩ := listens
  have handles := tcpHandleListenSyn_isSome_iff now srcIp destIp header.srcPort header.seqNum listening
  rw [samePort] at handles
  refine Iff.trans ?_ handles
  unfold listenSyn
  simp only [Option.isSome_some]
  cases handled : tcpHandleListenSyn now true listener.pcb srcIp destIp header.srcPort header.seqNum with
  | none => simp [AnswersSyn]
  | some built =>
    obtain ⟨child, packet⟩ := built
    obtain ⟨received, rcvNxt, localIp, localPort, remoteIp, remotePort, sent⟩ := tcpHandleListenSyn_child handled
    have registers : table.register ⟨fresh, child, some listener.address⟩ = some _ := dif_neg unused
    simp only [registers, Option.isSome_some, iff_true]
    have fits : child.localIp = destIp := by
      rw [localIp]
      rcases sameIp with wildcard | same
      · exact if_pos wildcard
      · rw [same]
        exact ite_self _
    exact ⟨⟨fresh, child, some listener.address⟩, received,
      ⟨⟨localPort.trans samePort, .inr fits⟩, remoteIp, remotePort⟩, rcvNxt, rfl, by rw [sent]⟩

theorem listenerFor_isSome (registered : listener ∈ entries) (listens : listener.pcb.ListensFor tuple) :
    (listenerFor tuple entries).isSome := by
  by_cases sameIp : listener.pcb.localIp = tuple.localIp
  · have member : listener ∈ entries.filter (exactListener tuple) :=
      List.mem_filter.mpr ⟨registered, decide_eq_true ⟨listens, sameIp⟩⟩
    have last : (entries.filter (exactListener tuple)).getLast?.isSome :=
      List.getLast?_isSome.mpr (List.ne_nil_of_mem member)
    rw [listenerFor, Option.isSome_or, last, Bool.true_or]
  · have found : (entries.find? (wildcardListener tuple)).isSome :=
      List.find?_isSome.mpr ⟨listener, registered, decide_eq_true ⟨listens, sameIp⟩⟩
    rw [listenerFor, Option.isSome_or, found, Bool.or_true]

theorem listenerFor_listens (chosen : listenerFor tuple entries = some listener) : listener.pcb.ListensFor tuple := by
  rcases Option.or_eq_some_iff.mp chosen with last | ⟨_, first⟩
  · have member := List.mem_filter.mp (List.mem_of_getLast? last)
    exact (of_decide_eq_true member.2).1
  · have wildcard := List.find?_some first
    exact (of_decide_eq_true wildcard).1

/-- A SYN for a port on which some PCB listens with room, from a peer whose only PCBs are CLOSED, is
answered exactly when the peer has no PCB at all and the listener the lookup picks has room. -/
theorem tableInput_answersSyn_iff (now : BitVec 64) (allocated : Nat → Bool) {fresh : Nat} {listener : TableEntry}
    (decoded : tcpDecode srcIp destIp segment = some (header, payload)) (syn : header.IsSyn)
    (registered : listener ∈ table.entries)
    (listens : listener.pcb.ListensFor (header.tuple srcIp destIp)) (_room : listener.pcb.HasRoom)
    (unused : fresh ∉ table.entries.map TableEntry.address)
    (dead : ∀ entry ∈ table.entries, entry.pcb.ForTuple (header.tuple srcIp destIp) → entry.pcb.state = .closed) :
    AnswersSyn table srcIp destIp header
        (tableInput now (some fresh) allocated srcIp destIp segment table) ↔
      (∀ entry ∈ table.entries, ¬ entry.pcb.ForTuple (header.tuple srcIp destIp)) ∧
        (∀ chosen ∈ listenerFor (header.tuple srcIp destIp) table.entries, chosen.pcb.HasRoom) ∧
        (header.tuple srcIp destIp).Addressed := by
  have looked : tcpLookupLocked table ⟨destIp, srcIp, header.destPort, header.srcPort⟩ = _ :=
    tcpLookupLocked_eq table (header.tuple srcIp destIp)
  simp only [tableInput, decoded]
  cases found : table.entries.find? (connectionOf (header.tuple srcIp destIp)) with
  | some entry =>
    -- a dead PCB of the peer is found first, and `tcp_input` returns at once
    have member := List.mem_of_find?_eq_some found
    have accepted := List.find?_some found
    have connection := (of_decide_eq_true accepted).1
    rw [looked, found, Option.some_or]
    simp only [dead entry member connection, if_true]
    constructor
    · rintro ⟨child, _, _, _, _, packets⟩
      cases packets
    · rintro ⟨absent, _⟩
      exact absurd connection (absent entry member)
  | none =>
    have absent : ∀ entry ∈ table.entries, ¬ entry.pcb.ForTuple (header.tuple srcIp destIp) := by
      intro entry member connection
      have skipped := List.find?_eq_none.mp found entry member
      simp [connectionOf, connection, dead entry member connection] at skipped
    obtain ⟨chosen, chosenEq⟩ := Option.isSome_iff_exists.mp (listenerFor_isSome registered listens)
    have chosenListens := listenerFor_listens chosenEq
    rw [looked, found, Option.none_or, chosenEq]
    simp only [chosenListens.2.1, reduceCtorEq, if_false, if_true]
    rw [if_pos ⟨syn.1, by simp [syn.2.1], by simp [syn.2.2]⟩, listenSyn_answersSyn_iff now chosenListens unused]
    rw [and_iff_right absent]
    simp

end

def sampleSynHeader : TcpHeader where
  srcPort := 4000
  destPort := 80
  seqNum := 500
  ackNum := 0
  dataOffsetFlags := offsetFlags tcpFlagSyn
  windowSize := 8192
  checksum := 26607
  urgentPtr := 0

def sampleSyn (now : BitVec 64) (memory : Nat) : TableEvent :=
  .input now (some memory) (fun _ => true) sampleRemote netLocalIpv4 (tcpSerializeHeader sampleSynHeader)

def listeningEntry : TableEntry := ⟨1, listenPcb 1 (bindPcb 0 80 (tcpAlloc true)), none⟩

def listeningTable : PcbTable where
  entries := [listeningEntry]
  nextEphemeral := tcpEphemeralPortFirst
  distinct := List.nodup_singleton _

theorem sampleSyn_decodes :
    tcpDecode sampleRemote netLocalIpv4 (tcpSerializeHeader sampleSynHeader) = some (sampleSynHeader, []) := by
  decide +kernel

theorem tableInput_answersSyn_first : AnswersSyn listeningTable sampleRemote netLocalIpv4 sampleSynHeader
      (tableInput 0 (some 2) (fun _ => true) sampleRemote netLocalIpv4 (tcpSerializeHeader sampleSynHeader)
        listeningTable) := by
  apply (tableInput_answersSyn_iff 0 (fun _ => true) sampleSyn_decodes (by decide) (List.mem_singleton_self _)
    (by decide) (by decide) (by decide) (by decide)).mpr
  exact ⟨by decide, by decide, by decide, by decide, by decide⟩

def afterTimeout : PcbTable := Transition.run tableStep listeningTable [sampleSyn 0 2, .tick 500]

/-- The peer's next SYN meets the dead child: the listener still has room, yet nothing is sent. -/
theorem deadChild_hides_listener :
    tcpDecode sampleRemote netLocalIpv4 (tcpSerializeHeader sampleSynHeader) = some (sampleSynHeader, []) ∧
      sampleSynHeader.IsSyn ∧ (∃ listener ∈ afterTimeout.entries,
        listener.pcb.ListensFor (sampleSynHeader.tuple sampleRemote netLocalIpv4) ∧ listener.pcb.HasRoom) ∧
      3 ∉ afterTimeout.entries.map TableEntry.address ∧
      (∀ entry ∈ afterTimeout.entries, entry.pcb.ForTuple (sampleSynHeader.tuple sampleRemote netLocalIpv4) →
        entry.pcb.state = .closed) ∧ ¬ AnswersSyn afterTimeout sampleRemote netLocalIpv4 sampleSynHeader
        (tableInput 501 (some 3) (fun _ => true) sampleRemote netLocalIpv4 (tcpSerializeHeader sampleSynHeader)
          afterTimeout) := by
  have silent : (tableInput 501 (some 3) (fun _ => true) sampleRemote netLocalIpv4
      (tcpSerializeHeader sampleSynHeader) afterTimeout).2 = [] := by
    decide +kernel
  refine ⟨sampleSyn_decodes, by decide, by decide +kernel, by decide +kernel, by decide +kernel, ?_⟩
  rintro ⟨child, _, _, _, _, sent⟩
  cases sent

end PhotonOS
