import PhotonOS.Tcp.Network
import PhotonOS.Tcp.StreamSteps

/-!
Stream safety of two connected hosts: what one side has read is a prefix of what
the other has written, whatever the network does.
-/

namespace PhotonOS

open Transition SectionOk

section

variable {own peer : ByteStream} {returned : List UInt8} {pcb : Pcb}

theorem sendRefused_established (inv : EndInv own peer returned pcb)
    (admitted : sendRefused pcb = false) : pcb.state = .established := by
  rcases sendRefused_sending admitted with state | state
  · exact state
  · rcases inv.sender.state with (early | early) | early | early <;>
      (change pcb.state = _ at early; rw [state] at early; contradiction)

theorem drainFrame_section (next : DrainReturn) (result : DrainResult)
    (kept : EndInv own peer returned result.pcb) (sent : ∀ packet ∈ result.packet, PacketOk own packet) :
    SectionOk own peer returned (drainFrame next result).pcb (drainFrame next result).output.packets :=
  ⟨fun _ found => Option.some.inj found ▸ kept, fun packet member => sent packet (Option.mem_toList.mp member)⟩

theorem runFrame_section (now : BitVec 64) (allocated : Bool) (listener : Pcb) {frame : Frame}
    (inv : EndInv own peer returned pcb) (calling : frame.closing = false) :
    SectionOk (own.extend (runFrame now allocated listener pcb frame).output.accepted) peer returned
        (runFrame now allocated listener pcb frame).pcb
        (runFrame now allocated listener pcb frame).output.packets ∧
      (runFrame now allocated listener pcb frame).output.returned = [] := by
  cases frame with
  | sendCheck buffer accepted => exact ⟨by simpa [runFrame, runSendCheck] using silent inv, rfl⟩
  | sendCopy buffer accepted requested =>
    simp only [runFrame, runSendCopy]
    split
    · exact ⟨by simpa using silent inv, rfl⟩
    split
    · exact ⟨by simpa using silent inv, rfl⟩
    rename_i admitted
    split
    · exact ⟨by simpa using silent inv, rfl⟩
    · exact ⟨silent (sendAppend_end inv (sendRefused_established inv (by simpa using admitted))), rfl⟩
  | drainEnter next =>
    simp only [runFrame]
    split
    · exact ⟨by simpa using silent inv, rfl⟩
    next result entered =>
      obtain ⟨kept, sent⟩ := drainEnter_end now inv entered
      exact ⟨by simpa [drainFrame] using drainFrame_section next result kept sent, rfl⟩
  | drainLoop next =>
    obtain ⟨kept, sent⟩ := drainIteration_end now inv
    exact ⟨by simpa [drainFrame, runFrame] using drainFrame_section next _ kept sent, rfl⟩
  | closeResume expected => contradiction
  | shutdownResume => contradiction
  | enqueue =>
    refine ⟨⟨fun after kept => ?_, by simp [runFrame]⟩, rfl⟩
    have quiet := tcpAcceptEnqueue_quiet kept
    simp only [runFrame, NumberedStream.extend_nil]
    refine inv.of_view quiet.view ?_
    simp only [runFrame, tcpAcceptEnqueue] at kept
    split at kept
    · cases kept
      simp only [recvView]
    · contradiction

end

def Side.stream (side : Side) : ByteStream := { start := side.iss + 1, items := side.accepted }

structure SideInv (side : Side) (peer : ByteStream) : Prop where
  base : ConnInv side.conn
  calling : ∀ frame ∈ side.conn.frames, frame.closing = false
  pcb : ∀ pcb, side.conn.pcb = some pcb → EndInv side.stream peer side.returned pcb
  sent : ∀ packet ∈ side.sent, PacketOk side.stream packet
  returned : side.returned <+: peer.items

variable {side other : Side} {peer : ByteStream} {pcb : Pcb}

variable {event : Event} {conn : Conn} {srcIp destIp : BitVec 32} {now : BitVec 64} {packet : List UInt8}
    {net : Net}

theorem SideInv.of_section (inv : SideInv side peer) {result : StepResult}
    (stepped : stepConn side.conn event = result) (locked : SectionOk (side.stream.extend result.output.accepted) peer
      (side.returned ++ result.output.returned) result.conn.pcb result.output.packets)
    (calling : ∀ frame ∈ result.conn.frames, frame.closing = false)
    (returned : result.output.returned = [] ∨ ∃ after, result.conn.pcb = some after) :
    SideInv (side.step event) peer := by
  have base := connStep_inv side.conn event inv.base
  rw [connStep, stepped] at base
  rw [Side.step, stepped]
  refine ⟨base, calling, locked.pcb, fun packet member => ?_, ?_⟩
  · rcases List.mem_append.mp member with old | new
    · exact (inv.sent packet old).extend _
    · exact locked.packets packet new
  · rcases returned with none | ⟨after, kept⟩
    · simpa only [none, List.append_nil] using inv.returned
    · exact (List.prefix_append _ _).trans (locked.pcb after kept).receiver.received

theorem stepConn_some (event : Event) (found : conn.pcb = some pcb) :
    stepConn conn event = stepPcb event.now pcb conn.frames event.action := by
  simp only [stepConn, found]

theorem SideInv.of_silent (inv : SideInv side peer) {frames : List Frame}
    (stepped : stepConn side.conn event = { conn := { pcb := some pcb, frames := frames }, output := {} })
    (kept : EndInv side.stream peer side.returned pcb) (calling : ∀ frame ∈ frames, frame.closing = false) :
    SideInv (side.step event) peer :=
  inv.of_section stepped (by simpa using silent kept) calling (Or.inl rfl)

theorem SideInv.resume (inv : SideInv side peer) (now : BitVec 64) (index : Nat) (allocated : Bool)
    (listener : Pcb) (found : side.conn.pcb = some pcb) :
    SideInv (side.step { now := now, action := .resume index allocated listener }) peer := by
  have stepped := stepConn_some { now := now, action := .resume index allocated listener } found
  simp only [stepPcb] at stepped
  split at stepped
  · exact inv.of_silent stepped (inv.pcb pcb found) inv.calling
  rename_i frame at_
  have calling := inv.calling frame (List.mem_of_getElem? at_)
  obtain ⟨locked, none⟩ := runFrame_section now allocated listener (inv.pcb pcb found) calling
  refine inv.of_section stepped (by simpa only [none, List.append_nil] using locked) ?_ (Or.inl none)
  refine List.forall_mem_append.mpr ⟨fun other member => inv.calling other (List.mem_of_mem_eraseIdx member), ?_⟩
  intro next member
  have closing := (runFrame_frame now allocated listener pcb frame next (Option.mem_toList.mp member)).2
  cases nextClosing : next.closing with
  | false => rfl
  | true => rw [closing nextClosing] at calling; contradiction

theorem SideInv.call (inv : SideInv side peer) (now : BitVec 64) (call : Call) :
    SideInv (side.step { now := now, action := call.action }) peer := by
  cases found : side.conn.pcb with
  | none =>
    refine inv.of_section (by simp only [stepConn, found]; rfl) ⟨?_, by simp⟩ inv.calling (Or.inl rfl)
    intro after kept
    rw [found] at kept
    contradiction
  | some pcb =>
    have kept := inv.pcb pcb found
    have stepped := stepConn_some { now := now, action := call.action } found
    have draining : ∀ frame ∈ [Frame.drainEnter .caller], frame.closing = false := by simp [Frame.closing]
    cases call with
    | send buffer =>
      refine inv.of_silent stepped kept ?_
      split
      · exact inv.calling
      · exact List.forall_mem_append.mpr ⟨inv.calling, by simp [Frame.closing]⟩
    | drain => exact inv.of_silent stepped kept (List.forall_mem_append.mpr ⟨inv.calling, draining⟩)
    | read length =>
      refine inv.of_section stepped (by simpa [stepPcb, Call.action] using tcpReceiveRead_section kept) ?_
        (Or.inr ⟨_, rfl⟩)
      simp only [Call.action, stepPcb]
      split
      · exact List.forall_mem_append.mpr ⟨inv.calling, draining⟩
      · exact inv.calling
    | accept =>
      refine inv.of_silent stepped (kept.of_view acceptChild_quiet.view ?_) inv.calling
      unfold acceptChild
      split <;> simp only [recvView]
    | tick deferred dead =>
      exact inv.of_section stepped
        (by simpa [stepPcb, Call.action] using tcpTimerTickPcb_section now kept) inv.calling
        (Or.inl rfl)
    | resume index allocated listener => exact inv.resume now index allocated listener found

theorem tcpResetReply_ok {own : ByteStream} {header : TcpHeader} {payload reset : List UInt8}
    (sent : tcpResetReply srcIp destIp header payload = some reset) : PacketOk own reset := by
  simp only [tcpResetReply] at sent
  split at sent
  · contradiction
  cases sent
  have chosen : ∀ acked : Bool, let word := offsetFlags (if acked then tcpFlagRst else tcpFlagRst ||| tcpFlagAck)
      word >>> 12 = 5#16 ∧ flagSet (word &&& 0x01FF#16) tcpFlagFin = false ∧
        flagSet (word &&& 0x01FF#16) tcpFlagSyn = false := by
    decide
  obtain ⟨plain, noFin, noSyn⟩ := chosen (flagSet header.flags tcpFlagAck)
  exact finishPacket_ok plain noFin (fun syn => absurd (noSyn.symm.trans syn) (by decide))
    (fun none => absurd rfl none)

theorem SideInv.refuse (inv : SideInv side peer) (srcIp destIp : BitVec 32) (packet : List UInt8) :
    SideInv (side.refuse srcIp destIp packet) peer := by
  unfold Side.refuse
  split
  · exact inv
  · refine ⟨inv.base, inv.calling, inv.pcb, fun other member => ?_, inv.returned⟩
    rcases List.mem_append.mp member with old | new
    · exact inv.sent other old
    · exact tcpResetReply_ok (Option.mem_toList.mp new)

theorem SideInv.receive (inv : SideInv side peer) (now : BitVec 64) (srcIp destIp : BitVec 32)
    (packet : List UInt8) (genuine : PacketOk peer packet) (small : peer.items.length < 2 ^ 32) :
    SideInv (side.receive now srcIp destIp packet) peer := by
  unfold Side.receive
  split
  · exact inv.refuse srcIp destIp packet
  rename_i pcb found
  have stepped := stepConn_some { now := now, action := .input srcIp destIp packet } found
  simp only [stepPcb] at stepped
  split at stepped
  · exact inv.of_silent stepped (inv.pcb pcb found) inv.calling
  rename_i header payload decoded
  obtain ⟨noFin, syn, data⟩ := genuine srcIp destIp header payload decoded
  have locked := tcpInputLocked_section now header payload (inv.base.pcb pcb found) (inv.pcb pcb found)
    noFin syn data small
  refine inv.of_section stepped (by simpa using locked) (List.forall_mem_append.mpr ⟨inv.calling, ?_⟩) (Or.inl rfl)
  cases (tcpInputLocked now header payload pcb).next <;> simp [inputFrames, Frame.closing]

theorem fresh_end (state : pcb.state.handshaking) (free : pcb.flags.finPending = false)
    (readable : pcb.flags.shutRd = false) (ring : pcb.rxBuf = (tcpAlloc true).rxBuf)
    (next : pcb.state = .synReceived → pcb.rcvNxt = peer.start) :
    EndInv { start := pcb.iss + 1, items := [] } peer [] pcb := by
  have wellFormed : (tcpAlloc true).rxBuf.WellFormed := ⟨List.length_replicate, by decide, by decide, by decide, rfl⟩
  have empty : (tcpAlloc true).rxBuf.contents = [] := List.take_zero
  have nothing : [] ++ (recvView pcb).rxBuf.contents = [] := by simp only [recvView, ring, empty, List.append_nil]
  have early : pcb.state ≠ .established := fun established => absurd (established ▸ state) (by decide)
  refine ⟨⟨rfl, Or.inl state, free, fun _ => rfl, (absurd · early)⟩, ⟨readable, ?_, ?_, ?_, fun _ => nothing⟩⟩
  · change pcb.rxBuf.WellFormed
    rwa [ring]
  · rw [nothing]
    exact List.nil_prefix
  rintro (received | established)
  · refine ⟨peer.items, ?_⟩
    rw [nothing]
    change peer.Cut pcb.rcvNxt [] peer.items
    rw [next received]
    exact NumberedStream.Cut.zero peer
  · exact absurd established early

theorem freshBuilt_end (pcb built : Pcb) (flags : BitVec 16) (packet : List UInt8) (peer : ByteStream)
    (syn : flags = tcpFlagSyn ∨ flags = tcpFlagSyn ||| tcpFlagAck) (state : pcb.state.handshaking)
    (free : pcb.flags.finPending = false) (readable : pcb.flags.shutRd = false)
    (ring : pcb.rxBuf = (tcpAlloc true).rxBuf) (next : pcb.state = .synReceived → pcb.rcvNxt = peer.start)
    (sent : tcpBuildOutputLocked pcb flags [] = some (built, packet)) :
    EndInv { start := built.iss + 1, items := [] } peer [] built ∧
      PacketOk { start := built.iss + 1, items := [] } packet := by
  obtain ⟨view, _⟩ := sendView_tcpBuildOutputLocked sent
  have iss : built.iss = pcb.iss := congrArg SendView.iss view
  rw [iss]
  exact ⟨handshakeBuilt_end (fresh_end state free readable ring next) state sent, builtSyn_ok syn state rfl sent⟩

theorem created_side (created : Created pcb)
    (kept : EndInv { start := pcb.iss + 1, items := [] } peer [] pcb)
    (valid : PacketOk { start := pcb.iss + 1, items := [] } packet) : SideInv (Side.created pcb packet) peer := by
  refine ⟨reachable_inv _ ⟨pcb, [], created, rfl⟩, by simp [Side.created], fun other found => ?_, ?_, List.nil_prefix⟩
  · cases found
    exact kept
  · intro other member
    rw [List.mem_singleton.mp member]
    exact valid

theorem sysConnect_side {sendNow : BitVec 64} {localPort remotePort : BitVec 16} {remoteIp : BitVec 32}
    (opened : sysConnect now sendNow localPort remoteIp remotePort (tcpAlloc true) = some (pcb, packet)) :
    SideInv (Side.created pcb packet) peer := by
  have created := Created.connect now sendNow localPort remotePort remoteIp pcb packet opened
  simp only [sysConnect, tcpOutput] at opened
  split at opened
  · contradiction
  split at opened
  · contradiction
  rename_i built syn sent
  obtain ⟨kept, valid⟩ := freshBuilt_end (connectPcb now localPort remoteIp remotePort (tcpAlloc true))
    built tcpFlagSyn syn peer (Or.inl rfl) (Or.inl rfl) rfl rfl rfl (fun received => by contradiction) sent
  rw [if_pos (by decide)] at opened
  obtain ⟨rfl, rfl⟩ := opened
  refine created_side created (kept.of_sender ?_ rfl ?_) valid
  · exact kept.sender.congr rfl rfl rfl rfl rfl
  · simp only [recvView, setRto]

theorem listenInput_side {listener : Pcb} {server : Side} (genuine : PacketOk peer packet)
    (opened : listenInput now listener srcIp destIp packet = some server) :
    SideInv server peer ∧ server.accepted = [] := by
  simp only [listenInput, Option.bind_eq_bind, Option.bind_eq_some_iff] at opened
  obtain ⟨⟨header, payload⟩, decoded, opened⟩ := opened
  split at opened
  next syn =>
    obtain ⟨⟨pcb, reply⟩, made, created⟩ := Option.bind_eq_some_iff.mp opened
    cases created
    have number := (genuine srcIp destIp header payload decoded).2.1 syn.1
    have birth := Created.child now listener srcIp destIp header.srcPort header.seqNum pcb reply made
    simp only [tcpHandleListenSyn] at made
    split at made
    · contradiction
    · obtain ⟨kept, valid⟩ := freshBuilt_end
        (listenChild now listener srcIp destIp header.srcPort header.seqNum) pcb _ reply peer (Or.inr rfl)
        (Or.inr rfl) rfl rfl rfl (fun _ => number) made
      exact ⟨created_side birth kept valid, rfl⟩
  · contradiction

def NetInv (net : Net) : Prop :=
  match net.server with
  | none => ∀ start, SideInv net.client { start := start, items := [] }
  | some server => SideInv net.client server.stream ∧ SideInv server net.client.stream

def Net.Small (net : Net) : Prop :=
  net.client.accepted.length < 2 ^ 31 ∧ ∀ server, net.server = some server → server.accepted.length < 2 ^ 31

theorem Side.step_stream (side : Side) (event : Event) :
    ∃ more, (side.step event).stream = side.stream.extend more := ⟨_, rfl⟩

theorem Side.receive_stream (side : Side) :
    ∃ more, (side.receive now srcIp destIp packet).stream = side.stream.extend more := by
  unfold Side.receive
  split
  · unfold Side.refuse
    split <;> exact ⟨[], (NumberedStream.extend_nil _).symm⟩
  · exact side.step_stream _

theorem SideInv.of_extended {peer : Side} (inv : SideInv side peer.stream)
    (grown : ∃ more, other.stream = peer.stream.extend more) : SideInv side other.stream := by
  obtain ⟨more, equal⟩ := grown
  rw [equal]
  exact ⟨inv.base, inv.calling, fun pcb found => ⟨(inv.pcb pcb found).sender, (inv.pcb pcb found).receiver.extend more⟩,
    inv.sent, inv.returned.trans (List.prefix_append _ _)⟩

theorem accepted_le_of_stream (grown : ∃ more, other.stream = side.stream.extend more) :
    side.accepted.length ≤ other.accepted.length := by
  obtain ⟨more, equal⟩ := grown
  have items : other.accepted = side.accepted ++ more := congrArg NumberedStream.items equal
  rw [items, List.length_append]
  omega

theorem netStep_small {event : NetEvent} (small : (netStep net event).Small) : net.Small := by
  cases event with
  | client now call => exact ⟨Nat.lt_of_le_of_lt (accepted_le_of_stream (net.client.step_stream _)) small.1, small.2⟩
  | server now call =>
    refine ⟨small.1, fun server found => ?_⟩
    have grown := server.step_stream { now := now, action := call.action }
    refine Nat.lt_of_le_of_lt (accepted_le_of_stream grown) (small.2 _ ?_)
    simp only [netStep, found, Option.map_some]
  | toClient now srcIp destIp index =>
    simp only [netStep] at small
    split at small
    · exact small
    · exact ⟨Nat.lt_of_le_of_lt (accepted_le_of_stream net.client.receive_stream) small.1, small.2⟩
  | toServer now srcIp destIp index listener =>
    simp only [netStep] at small
    split at small
    · exact small
    next none => exact ⟨small.1, fun server found => by rw [none] at found; contradiction⟩
    rename_i server _ found
    refine ⟨small.1, fun other same => ?_⟩
    rw [found] at same
    cases same
    exact Nat.lt_of_le_of_lt (accepted_le_of_stream server.receive_stream) (small.2 _ rfl)

theorem netStep_inv {event : NetEvent} (small : net.Small) (inv : NetInv net) : NetInv (netStep net event) := by
  cases event with
  | client now call =>
    simp only [NetInv, netStep] at inv ⊢
    split at inv
    · exact fun start => (inv start).call now call
    · exact ⟨inv.1.call now call, inv.2.of_extended (net.client.step_stream _)⟩
  | server now call =>
    simp only [NetInv, netStep] at inv ⊢
    split at inv
    next none =>
      rw [none]
      exact inv
    next server found =>
      rw [found]
      exact ⟨inv.1.of_extended (server.step_stream _), inv.2.call now call⟩
  | toClient now srcIp destIp index =>
    simp only [netStep]
    split
    · exact inv
    rename_i packet chosen
    obtain ⟨server, found, delivered⟩ := Option.bind_eq_some_iff.mp chosen
    simp only [NetInv, found] at inv ⊢
    have bound := small.2 server found
    refine ⟨inv.1.receive now srcIp destIp packet (inv.2.sent packet (List.mem_of_getElem? delivered)) ?_,
      inv.2.of_extended net.client.receive_stream⟩
    change server.accepted.length < 2 ^ 32
    omega
  | toServer now srcIp destIp index listener =>
    simp only [netStep]
    split
    · exact inv
    next packet delivered none =>
      simp only [NetInv, none] at inv ⊢
      split
      · exact inv
      rename_i server opened
      have genuine := (inv 0).sent packet (List.mem_of_getElem? delivered)
      obtain ⟨born, fresh⟩ := listenInput_side
        genuine opened
      refine ⟨?_, born⟩
      rw [Side.stream, fresh]
      exact inv (server.iss + 1)
    next packet server delivered found =>
      simp only [NetInv, found] at inv ⊢
      have bound := small.1
      refine ⟨inv.1.of_extended server.receive_stream,
        inv.2.receive now srcIp destIp packet (inv.1.sent packet (List.mem_of_getElem? delivered)) ?_⟩
      change net.client.accepted.length < 2 ^ 32
      omega

/-- **Stream safety.** Whatever the two hosts call and whatever the network does, the bytes one side has
read are a prefix of the bytes that `tcp_send` took on the other. -/
theorem tcp_stream_safety (now sendNow : BitVec 64) (localPort remotePort : BitVec 16) (remoteIp : BitVec 32)
    (pcb : Pcb) (syn : List UInt8)
    (opened : sysConnect now sendNow localPort remoteIp remotePort (tcpAlloc true) = some (pcb, syn))
    (events : List NetEvent) (net : Net) (reached : net = run netStep (Net.start pcb syn) events)
    (server : Side) (connected : net.server = some server)
    (clientSmall : net.client.accepted.length < 2 ^ 31) (serverSmall : server.accepted.length < 2 ^ 31) :
    server.returned <+: net.client.accepted ∧ net.client.returned <+: server.accepted := by
  have inv : ∀ net, net = run netStep (Net.start pcb syn) events → net.Small → NetInv net := by
    intro net reached
    rw [reached]
    refine run_invariant netStep (fun net => net.Small → NetInv net) ?_ _ ?_ events
    · intro net event kept small
      have before := netStep_small small
      exact netStep_inv before (kept before)
    · exact fun _ start => sysConnect_side opened
  have holds := inv net reached ⟨clientSmall, fun other found => by
    rw [connected] at found
    cases found
    exact serverSmall⟩
  simp only [NetInv, connected] at holds
  exact ⟨holds.2.returned, holds.1.returned⟩

def sampleListener : Pcb := { tcpAlloc true with state := .listen, localPort := 80, backlog := 1 }

def sampleExchange : List NetEvent :=
  let deliver := fun index => NetEvent.toServer 1 netLocalIpv4 sampleRemote index sampleListener
  let resume := NetEvent.client 1 (.resume 0 true sampleListener)
  [deliver 0, .toClient 1 sampleRemote netLocalIpv4 0, deliver 1, .client 1 (.send [7]),
    resume, resume, resume, resume, deliver 2, .server 1 (.read 10)]

def sampleLogs (opened : Pcb × List UInt8) : Option (List UInt8 × List UInt8 × List UInt8) :=
  let net := run netStep (Net.start opened.1 opened.2) sampleExchange
  net.server.map fun server => (server.returned, net.client.accepted, server.accepted)

theorem tcp_stream_safety_sampleExchange :
    ∃ opened server, sysConnect 0 0 1000 sampleRemote 80 (tcpAlloc true) = some opened ∧
      (run netStep (Net.start opened.1 opened.2) sampleExchange).server = some server ∧ server.returned = [7] ∧
      server.returned <+: (run netStep (Net.start opened.1 opened.2) sampleExchange).client.accepted := by
  have logs : (sysConnect 0 0 1000 sampleRemote 80 (tcpAlloc true)).bind sampleLogs = some ([7], [7], []) := by
    decide +kernel
  obtain ⟨⟨pcb, syn⟩, opened, recorded⟩ := Option.bind_eq_some_iff.mp logs
  obtain ⟨server, connected, equal⟩ := Option.map_eq_some_iff.mp recorded
  simp only [Prod.mk.injEq] at equal
  obtain ⟨returned, clientLog, serverLog⟩ := equal
  refine ⟨(pcb, syn), server, opened, connected, returned, ?_⟩
  exact (tcp_stream_safety 0 0 1000 80 sampleRemote pcb syn opened sampleExchange _ rfl server connected
    (by rw [clientLog]; decide) (by rw [serverLog]; decide)).1

end PhotonOS
