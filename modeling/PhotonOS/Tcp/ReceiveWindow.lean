import Mathlib.Data.List.Chain
import PhotonOS.Tcp.Handshake
import PhotonOS.Tcp.HandshakeSections

/-!
The receive window never shrinks. A PCB is followed from the moment it is filled
in, with all segments it builds in the order of their building.
-/

namespace PhotonOS

open InputWork

variable {packet : List UInt8} {work : InputWork} {opener : Opener}

structure Shown where
  ackNum : BitVec 32
  window : BitVec 16
  deriving DecidableEq, Repr

def Shown.edge (shown : Shown) : BitVec 32 := shown.ackNum + shown.window.setWidth 32

def advertisedWindow (packet : List UInt8) : Option Shown := do
  let header ← tcpParseHeader packet
  if flagSet header.flags tcpFlagAck ∧ !flagSet header.flags tcpFlagRst then
    some { ackNum := header.ackNum, window := header.windowSize }
  else none

/-- The same with the acknowledgement field of every segment that is not a RST. -/
def fieldWindow (packet : List UInt8) : Option Shown := do
  let header ← tcpParseHeader packet
  if flagSet header.flags tcpFlagRst then none
  else some { ackNum := header.ackNum, window := header.windowSize }

/-- No right edge lies left of the one before it. -/
def NeverShrinks (shown : List Shown) : Prop :=
  shown.IsChain fun first second => Serial.ge second.edge first.edge = true

instance (shown : List Shown) : Decidable (NeverShrinks shown) := inferInstanceAs (Decidable (List.IsChain _ shown))

/-- A PCB with the segments it has built; `passive` for the child of a listener. -/
structure Announcer where
  opener : Opener
  passive : Bool
  built : List (List UInt8)

inductive AnnouncerEvent where
  | step (event : Event)
  | first (now : BitVec 64)

def announcerStep (announcer : Announcer) : AnnouncerEvent → Announcer
  | .step event =>
    { announcer with
      opener := announcer.opener.step event
      built := announcer.built ++
        builtPackets event.action (stepConn announcer.opener.conn event).output.packets }
  | .first now =>
    let opened := if announcer.passive then announcer.opener.sendSynAck else announcer.opener.sendSyn now
    { announcer with
      opener := opened
      built := announcer.built ++ opened.sent.drop announcer.opener.sent.length }

/-- A segment that reaches `tcp_input` is the payload of an IPv4 datagram. -/
def AnnouncerEvent.Carried : AnnouncerEvent → Prop
  | .step event => event.action.limit ≤ 65535
  | .first _ => True

instance : ∀ event : AnnouncerEvent, Decidable event.Carried
  | .step event => inferInstanceAs (Decidable (event.action.limit ≤ 65535))
  | .first _ => inferInstanceAs (Decidable True)

/-- A PCB as `sys_connect` or `tcp_handle_listen_syn` fills it. Without these addresses the one refuses the
call and the other can build no segment. -/
inductive Filled : Bool → Pcb → Prop where
  | connect (now : BitVec 64) (localIp : BitVec 32) (localPort : BitVec 16) (remoteIp : BitVec 32)
      (remotePort : BitVec 16) (addressed : localPort ≠ 0 ∧ remoteIp ≠ 0 ∧ remotePort ≠ 0) :
      Filled false (connectPcb now localPort remoteIp remotePort { tcpAlloc true with localIp := localIp })
  | child (now : BitVec 64) (listener : Pcb) (srcIp destIp : BitVec 32) (remotePort : BitVec 16)
      (sequence : BitVec 32) (addressed : listener.localPort ≠ 0 ∧ srcIp ≠ 0 ∧ remotePort ≠ 0) :
      Filled true (listenChild now listener srcIp destIp remotePort sequence)

def Announcer.start (passive : Bool) (pcb : Pcb) : Announcer where
  opener := Opener.created pcb
  passive := passive
  built := []

def Announcer.run (passive : Bool) (pcb : Pcb) (events : List AnnouncerEvent) : Announcer :=
  Transition.run announcerStep (Announcer.start passive pcb) events

def AcceptedInFull (payload : List UInt8) (fin : Bool) (before after : Pcb) : Prop :=
  after.rcvNxt = before.rcvNxt + BitVec.ofNat 32 payload.length + (if fin then 1 else 0) ∧ after.rxBuf.contents =
      if before.flags.shutRd then before.rxBuf.contents else before.rxBuf.contents ++ payload

/-- An in-order payload inside the window `last` is accepted in full. -/
def AcceptsInside (last : Shown) (pcb : Pcb) : Prop :=
  ∀ now header payload, flagSet header.flags tcpFlagRst = false → header.seqNum = pcb.rcvNxt →
    (header.seqNum - last.ackNum).toNat + payload.length ≤ last.window.toNat →
      ∃ after, (tcpInputLocked now header payload pcb).pcb = some after ∧
        AcceptedInFull payload (flagSet header.flags tcpFlagFin) pcb after

section

def ReceiveView.shown (view : ReceiveView) : Shown where
  ackNum := view.rcvNxt
  window := BitVec.ofNat 16 view.rxBuf.freeSpace

def Reaches (view : ReceiveView) (last : Shown) : Prop :=
  last.ackNum = view.rcvNxt ∧ last.window.toNat ≤ view.rxBuf.freeSpace

structure Sized (view : ReceiveView) : Prop where
  addressed : view.Addressed
  ring : view.rxBuf.WellFormed
  capacity : view.rxBuf.capacity = tcpRxBufferCapacity

variable {view before after : ReceiveView} {advance : Nat}

theorem Sized.space (sized : Sized view) : view.rxBuf.freeSpace ≤ 8192 := by
  rw [RingBuffer.freeSpace_eq, sized.capacity, tcpRxBufferCapacity]
  omega

theorem Sized.widens (sized : Sized before) (widens : Widens advance before after) : Sized after :=
  ⟨widens.addressed.mpr sized.addressed, widens.ring sized.ring, widens.capacity.trans sized.capacity⟩

theorem Sized.window (sized : Sized view) : view.shown.window.toNat = view.rxBuf.freeSpace := by
  have space := sized.space
  rw [ReceiveView.shown, BitVec.toNat_ofNat, Nat.mod_eq_of_lt (by omega)]

variable {sender : Pcb} {sequence : BitVec 32} {packets : List (List UInt8)}

theorem advertisedWindow_segment (sized : Sized view) (shows : receiveView sender = view) {flags : BitVec 16}
    {payload : List UInt8} (acks : flagSet (offsetFlags flags &&& 0x01FF#16) tcpFlagAck = true)
    (lives : flagSet (offsetFlags flags &&& 0x01FF#16) tcpFlagRst = false) :
    advertisedWindow (segmentPacket sender sequence flags payload) = some view.shown := by
  have space : sender.rxBuf.freeSpace ≤ 8192 := by
    have bound := sized.space
    rw [← shows] at bound
    exact bound
  rw [advertisedWindow, segmentPacket, tcpFinishPacket, tcpParseHeader_serialize]
  simp only [Option.bind_eq_bind, Option.bind_some]
  have live : (!flagSet (offsetFlags flags &&& 0x01FF#16) tcpFlagRst) = true := by rw [lives]; rfl
  rw [if_pos ⟨acks, live⟩, ← shows]
  simp only [segmentHeader, ReceiveView.shown, receiveView, tcpWindowField]
  rw [if_neg (by omega)]

theorem advertisedWindow_syn : advertisedWindow (segmentPacket sender sequence tcpFlagSyn []) = none := by
  rw [advertisedWindow, segmentPacket, tcpFinishPacket, tcpParseHeader_serialize]
  refine if_neg ?_
  rintro ⟨acks, -⟩
  have unset : flagSet (offsetFlags tcpFlagSyn &&& 0x01FF#16) tcpFlagAck = false := by decide
  exact absurd (unset.symm.trans acks) (by decide)

theorem Announces.shown (announces : Announces packet view) (sized : Sized view) :
    advertisedWindow packet = some view.shown := by
  obtain ⟨sender, sequence, flags, payload, rfl, plain, shows⟩ := announces
  refine advertisedWindow_segment sized shows ?_ ?_
  · rcases plain with rfl | rfl | rfl <;> decide
  · rcases plain with rfl | rfl | rfl <;> decide

theorem Shown.edge_ge {first second : Shown} (number : second.ackNum = first.ackNum + BitVec.ofNat 32 advance)
    (room : first.window.toNat ≤ advance + second.window.toNat) (bound : advance ≤ 65535) :
    Serial.ge second.edge first.edge = true := by
  have window : ∀ shown : Shown, shown.window.setWidth 32 = BitVec.ofNat 32 shown.window.toNat := by
    intro shown
    simp
  rw [Serial.ge_iff_not_lt, Bool.not_eq_true', ← Bool.not_eq_true, Shown.edge, Shown.edge, number, window, window,
    BitVec.add_assoc, ← BitVec.ofNat_add, Serial.lt_offset _ _ _ (by omega) (by omega)]
  omega

structure Announced (shown : List Shown) (view : ReceiveView) : Prop where
  ordered : NeverShrinks shown
  last : ∀ last ∈ shown.getLast?, Reaches view last

theorem Announced.widen {shown : List Shown} (announced : Announced shown before)
    (still : Widens 0 before after) : Announced shown after := by
  refine ⟨announced.ordered, fun last member => ?_⟩
  obtain ⟨number, room⟩ := announced.last last member
  have space := still.space
  refine ⟨?_, by omega⟩
  rw [number, still.rcvNxt, BitVec.add_zero]

theorem Announced.add {shown : List Shown} (announced : Announced shown before) (sized : Sized before)
    (widens : Widens advance before view) (bound : advance ≤ 65535) : Announced (shown ++ [view.shown]) view := by
  have window := (sized.widens widens).window
  refine ⟨?_, ?_⟩
  · refine List.isChain_append.mpr ⟨announced.ordered, List.isChain_singleton _, ?_⟩
    rintro last member next ⟨⟩
    obtain ⟨number, room⟩ := announced.last last member
    have space := widens.space
    refine Shown.edge_ge ?_ ?_ bound
    · rw [number]
      exact widens.rcvNxt
    · omega
  · intro last member
    rw [List.getLast?_concat] at member
    obtain rfl := Option.some.inj member
    exact ⟨rfl, by omega⟩

theorem Announced.advertised {limit : Nat} (advertised : Advertised limit before packets after)
    (bound : limit ≤ 65535) : ∀ shown, Announced shown before → Sized before →
      Announced (shown ++ packets.filterMap advertisedWindow) after ∧ Sized after := by
  induction advertised with
  | done still =>
    intro shown announced sized
    rw [List.filterMap_nil, List.append_nil]
    exact ⟨announced.widen still, sized.widens still⟩
  | segment small widens announces later ih =>
    intro shown announced sized
    have next := sized.widens widens
    rw [List.filterMap_cons, announces.shown next]
    have added := announced.add sized widens (small.trans bound)
    have rest := ih _ added next
    rwa [List.append_assoc] at rest

theorem Announced.repeated (sized : Sized view)
    (shows : ∀ packet ∈ packets, advertisedWindow packet = some view.shown) :
    ∀ shown, Announced shown view → Announced (shown ++ packets.filterMap advertisedWindow) view := by
  induction packets with
  | nil =>
    intro shown announced
    rwa [List.filterMap_nil, List.append_nil]
  | cons packet rest ih =>
    intro shown announced
    rw [List.filterMap_cons, shows packet List.mem_cons_self]
    have added := announced.add sized (.refl view) (Nat.zero_le _)
    have later := ih (fun other member => shows other (List.mem_cons_of_mem _ member)) _ added
    rwa [List.append_assoc] at later

end

section

variable {pcb : Pcb} {payload : List UInt8}

structure Took (payload : List UInt8) (before after : ReceiveView) : Prop where
  rcvNxt : after.rcvNxt = before.rcvNxt + BitVec.ofNat 32 payload.length
  contents : after.rxBuf.contents = if before.shutRd then before.rxBuf.contents else before.rxBuf.contents ++ payload

theorem acceptPayload_took (ring : pcb.rxBuf.WellFormed) (room : payload.length ≤ pcb.rxBuf.freeSpace) :
    Took payload (receiveView pcb) (receiveView (acceptPayload pcb payload)) := by
  unfold acceptPayload
  cases discards : pcb.flags.shutRd with
  | true => exact ⟨rfl, by simp only [receiveView, discards, if_true]⟩
  | false =>
    have count := RingBuffer.write_count pcb.rxBuf payload
    rw [Nat.min_eq_left room] at count
    have contents := RingBuffer.write_contents pcb.rxBuf ring payload
    rw [count, List.take_length] at contents
    simp only [Bool.false_eq_true, if_false, count]
    split
    next empty =>
      rw [List.length_eq_zero_iff.mp empty]
      exact ⟨(BitVec.add_zero _).symm, by simp [receiveView]⟩
    · exact ⟨rfl, by simpa [receiveView, discards] using contents⟩

theorem Took.nil (view : ReceiveView) : Took [] view view := ⟨(BitVec.add_zero _).symm, by simp⟩

theorem receiveView_reply (flags : BitVec 16) :
    receiveView (reply work flags).pcb = receiveView work.pcb := by
  unfold reply
  split
  · rfl
  next built packet sent => exact (receiveView_tcpBuildOutputLocked sent).1

variable {now : BitVec 64} {header : TcpHeader}

theorem receiveView_establishedAck :
    receiveView (establishedAck now header payload work).pcb = receiveView work.pcb := by
  unfold establishedAck
  split
  · exact receiveView_reply _
  split
  · simp only [newAck]
    split <;> exact receiveView_tcpTxAck
  split
  · simp only [duplicateAck]
    split
    · simp only [receiveView]
    · split
      · exact (retransmitHead_shows now _).1
      · rfl
  · rfl

theorem receiveView_establishedWindow {before : BitVec 16} :
    receiveView (establishedWindow before header work).pcb = receiveView work.pcb := by
  simp only [establishedWindow]
  split
  · split <;> rfl
  · rfl

theorem receiveView_establishedProbe :
    receiveView (establishedProbe header payload work).pcb = receiveView work.pcb := by
  unfold establishedProbe
  split
  · exact receiveView_reply _
  · rfl

variable {work : InputWork} {before : ReceiveView}

def TookAll (payload : List UInt8) (fin : Bool) (before after : ReceiveView) : Prop :=
  ∃ middle, Took payload before middle ∧ after.rxBuf = middle.rxBuf ∧
    after.rcvNxt = middle.rcvNxt + (if fin then 1 else 0)

theorem TookAll.acceptedInFull {fin : Bool} {after : Pcb} (took : TookAll payload fin (receiveView pcb) (receiveView after)) :
    AcceptedInFull payload fin pcb after := by
  obtain ⟨middle, taken, ring, next⟩ := took
  refine ⟨?_, ?_⟩
  · rw [taken.rcvNxt] at next
    exact next
  · have same : after.rxBuf = middle.rxBuf := ring
    rw [same]
    exact taken.contents

theorem finBehind {middle : ReceiveView} (took : Took payload before middle)
    (inOrder : header.seqNum = before.rcvNxt) : header.seqNum + BitVec.ofNat 32 payload.length = middle.rcvNxt := by
  rw [took.rcvNxt, inOrder]

section

variable (took : Took payload before (receiveView work.pcb)) (inOrder : header.seqNum = before.rcvNxt)
include took inOrder

theorem establishedFin_took : TookAll payload (flagSet header.flags tcpFlagFin) before
      (receiveView (establishedFin header payload work).pcb) := by
  have behind : header.seqNum + BitVec.ofNat 32 payload.length = work.pcb.rcvNxt := finBehind took inOrder
  refine ⟨receiveView work.pcb, took, ?_⟩
  unfold establishedFin
  cases fin : flagSet header.flags tcpFlagFin with
  | false => exact ⟨rfl, (BitVec.add_zero _).symm⟩
  | true =>
    rw [if_pos ⟨rfl, behind⟩, receiveView_reply]
    exact ⟨rfl, rfl⟩

theorem finWait1Fin_took : TookAll payload (flagSet header.flags tcpFlagFin) before
      (receiveView (finWait1Fin header payload work).pcb) := by
  have behind : header.seqNum + BitVec.ofNat 32 payload.length = work.pcb.rcvNxt := finBehind took inOrder
  refine ⟨receiveView work.pcb, took, ?_⟩
  unfold finWait1Fin
  cases fin : flagSet header.flags tcpFlagFin with
  | false => exact ⟨rfl, (BitVec.add_zero _).symm⟩
  | true =>
    -- The FIN has not been taken before: the payload in front of it was still missing.
    have fresh : ¬(work.pcb.flags.eof = true ∧ work.pcb.rcvNxt + 1 = work.pcb.rcvNxt) := by
      rintro ⟨-, same⟩
      exact absurd (add_eq_left.mp same) (by decide)
    simp only [if_true, behind]
    rw [if_neg fresh, receiveView_reply]
    exact ⟨rfl, rfl⟩

end

section

variable (ring : (receiveView pcb).rxBuf.WellFormed) (room : payload.length ≤ (receiveView pcb).rxBuf.freeSpace)
    (inOrder : header.seqNum = (receiveView pcb).rcvNxt)
include ring room inOrder

theorem establishedData_took (same : receiveView work.pcb = receiveView pcb) :
    Took payload (receiveView pcb) (receiveView (establishedData header payload work).pcb) := by
  rw [← same] at ring room inOrder ⊢
  unfold establishedData
  split
  next empty =>
    rw [empty]
    exact .nil _
  · rw [if_pos (show header.seqNum = work.pcb.rcvNxt from inOrder), receiveView_reply]
    exact acceptPayload_took ring room

theorem finWaitData_took (same : receiveView work.pcb = receiveView pcb) :
    Took payload (receiveView pcb) (receiveView (finWaitData header payload work).pcb) := by
  rw [← same] at ring room inOrder ⊢
  unfold finWaitData
  by_cases empty : payload = []
  · rw [if_neg (fun both => both.1 empty), empty]
    exact .nil _
  · rw [if_pos ⟨empty, show header.seqNum = work.pcb.rcvNxt from inOrder⟩, receiveView_reply]
    exact acceptPayload_took ring room

theorem inputEstablished_took : TookAll payload (flagSet header.flags tcpFlagFin) (receiveView pcb)
      (receiveView (inputEstablished now header payload (.start pcb)).pcb) := by
  have acked : receiveView (if flagSet header.flags tcpFlagAck then
      establishedWindow (start pcb).pcb.sndWnd header (establishedAck now header payload (.start pcb))
      else .start pcb).pcb = receiveView pcb := by
    split
    · rw [receiveView_establishedWindow, receiveView_establishedAck]
      rfl
    · rfl
  simp only [inputEstablished]
  refine establishedFin_took ?_ inOrder
  exact establishedData_took ring room inOrder (receiveView_establishedProbe.trans acked)

theorem inputFinWait1_took : TookAll payload (flagSet header.flags tcpFlagFin) (receiveView pcb)
      (receiveView (inputFinWait1 now header payload (.start pcb)).pcb) := by
  have taken : TookAll payload (flagSet header.flags tcpFlagFin) (receiveView pcb)
      (receiveView (finWait1Fin header payload (finWaitData header payload
        ((start pcb).update (finWait1Ack now header (start pcb).pcb).1))).pcb) :=
    finWait1Fin_took (finWaitData_took ring room inOrder (receiveView_finWait1Ack now header)) inOrder
  simp only [inputFinWait1]
  split
  · split
    · exact taken
    · exact taken
  · exact taken

theorem inputFinWait2_took : TookAll payload (flagSet header.flags tcpFlagFin) (receiveView pcb)
      (receiveView (inputFinWait2 now header payload (.start pcb)).pcb) := by
  have took : Took payload (receiveView pcb) (receiveView (finWaitData header payload (.start pcb)).pcb) :=
    finWaitData_took ring room inOrder rfl
  have behind := finBehind took inOrder
  refine ⟨_, took, ?_⟩
  simp only [inputFinWait2]
  cases fin : flagSet header.flags tcpFlagFin with
  | false => exact ⟨rfl, (BitVec.add_zero _).symm⟩
  | true =>
    rw [if_pos ⟨rfl, behind⟩, receiveView_reply]
    exact ⟨rfl, rfl⟩

end

theorem Announced.acceptsInside {shown : List Shown} {last : Shown} (announced : Announced shown (receiveView pcb))
    (member : last ∈ shown.getLast?) (ring : pcb.rxBuf.WellFormed)
    (receives : pcb.state = .established ∨ pcb.state = .finWait1 ∨ pcb.state = .finWait2) :
    AcceptsInside last pcb := by
  intro now header payload live inOrder inside
  obtain ⟨number, room⟩ := announced.last last member
  have fits : payload.length ≤ pcb.rxBuf.freeSpace := by
    have free : last.window.toNat ≤ pcb.rxBuf.freeSpace := room
    omega
  have connected : ¬(pcb.state = .closed ∨ pcb.state = .listen) := by
    rcases receives with state | state | state <;> rw [state] <;> simp
  simp only [tcpInputLocked, if_neg connected, live, Bool.false_eq_true, if_false]
  rcases receives with state | state | state
  · simp only [state]
    exact ⟨_, rfl, (inputEstablished_took ring fits inOrder).acceptedInFull⟩
  · simp only [state]
    exact ⟨_, rfl, (inputFinWait1_took ring fits inOrder).acceptedInFull⟩
  · simp only [state]
    exact ⟨_, rfl, (inputFinWait2_took ring fits inOrder).acceptedInFull⟩

end

def Announcer.shown (announcer : Announcer) : List Shown := announcer.built.filterMap advertisedWindow

structure ShownInv (passive : Bool) (conn : Conn) (shown : List Shown) : Prop where
  ordered : NeverShrinks shown
  pcb : ∀ pcb ∈ conn.pcb, Sized (receiveView pcb) ∧ Announced shown (receiveView pcb)
  waits : ∀ pcb ∈ conn.pcb, pcb.state.handshaking → Waits pcb conn.frames
  active : ∀ pcb ∈ conn.pcb, pcb.state = .synSent → passive = false ∧ shown = []

section

variable {passive : Bool} {conn : Conn} {shown : List Shown} {pcb : Pcb}

theorem ShownInv.of_some (left : conn.pcb = some pcb) (sized : Sized (receiveView pcb))
    (announced : Announced shown (receiveView pcb)) (waits : pcb.state.handshaking → Waits pcb conn.frames)
    (active : pcb.state = .synSent → passive = false ∧ shown = []) : ShownInv passive conn shown := by
  refine ⟨announced.ordered, ?_, ?_, ?_⟩
  all_goals
    intro other member
    obtain rfl : pcb = other := Option.some.inj (left.symm.trans member)
  · exact ⟨sized, announced⟩
  · exact waits
  · exact active

theorem ShownInv.of_none (left : conn.pcb = none) (ordered : NeverShrinks shown) : ShownInv passive conn shown := by
  refine ⟨ordered, ?_, ?_, ?_⟩
  all_goals
    intro other member
    rw [left] at member
    cases member

theorem ShownInv.of_later (left : conn.pcb = some pcb) (later : ¬pcb.state.handshaking)
    (sized : Sized (receiveView pcb)) (announced : Announced shown (receiveView pcb)) : ShownInv passive conn shown :=
  .of_some left sized announced (fun handshaking => absurd handshaking later)
    (fun state => absurd (.inl state) later)

theorem HandshakeSegment.window (segment : HandshakeSegment pcb packet) (sized : Sized (receiveView pcb))
    (handshaking : pcb.state.handshaking) :
    advertisedWindow packet = if pcb.state = .synSent then none else some (receiveView pcb).shown := by
  obtain ⟨sender, rfl, view⟩ := segment
  rcases handshaking with state | state
  · rw [if_pos state, handshakeFlags_synSent state]
    exact advertisedWindow_syn
  · rw [if_neg (by rw [state]; decide), handshakeFlags_synReceived state]
    exact advertisedWindow_segment sized view (by decide) (by decide)

section

variable (inv : ShownInv passive conn shown)
include inv

theorem ShownInv.handshake (left : conn.pcb = some pcb)
    (handshaking : pcb.state.handshaking) (now : BitVec 64) (action : Action) :
    ShownInv passive (stepPcb now pcb conn.frames action).conn (shown ++
      (builtPackets action (stepPcb now pcb conn.frames action).output.packets).filterMap advertisedWindow) := by
  obtain ⟨sized, announced⟩ := inv.pcb pcb left
  have outcome := stepPcb_handshake now action (inv.waits pcb left handshaking) handshaking
  have none : builtPackets action [] = [] := by cases action <;> rfl
  cases outcome with
  | gone freed silent =>
    rw [silent, none, List.filterMap_nil, List.append_nil]
    exact .of_none freed inv.ordered
  | closed after kept closed view silent =>
    rw [silent, none, List.filterMap_nil, List.append_nil]
    exact .of_later kept (by rw [closed]; decide) (by rwa [view]) (by rwa [view])
  | waiting after kept still waits sent =>
    have windows : ∀ packet ∈ builtPackets action (stepPcb now pcb conn.frames action).output.packets,
        advertisedWindow packet = if pcb.state = .synSent then Option.none else some (receiveView pcb).shown :=
      fun packet member => (sent packet (mem_builtPackets.mp member)).window sized handshaking
    by_cases opening : pcb.state = .synSent
    · have silent : (builtPackets action (stepPcb now pcb conn.frames action).output.packets).filterMap
          advertisedWindow = [] := by
        refine List.filterMap_eq_nil_iff.mpr fun packet member => ?_
        rw [windows packet member, if_pos opening]
      rw [silent, List.append_nil]
      exact .of_some kept (sized.widens still.view) (announced.widen still.view) (fun _ => waits)
        (fun _ => inv.active pcb left opening)
    · have repeated := Announced.repeated sized (fun packet member => (windows packet member).trans (if_neg opening))
        shown announced
      exact .of_some kept (sized.widens still.view) (repeated.widen still.view) (fun _ => waits)
        (fun state => absurd (still.state.symm.trans state) opening)
  | active after srcIp destIp segment payload header input decoded state completes kept established view sent =>
    have later : ¬after.state.handshaking := by
      rw [established]
      decide
    have fresh := (inv.active pcb left state).2
    have sizedAfter : Sized (receiveView after) := by
      rw [view]
      exact ⟨sized.addressed, sized.ring, sized.capacity⟩
    refine .of_later kept later sizedAfter (.repeated sizedAfter ?_ _ ?_)
    · intro packet member
      exact (sent packet (mem_builtPackets.mp member)).shown sizedAfter
    · rw [fresh]
      exact ⟨List.isChain_nil, by simp⟩
  | passive after srcIp destIp segment payload header input decoded state completes kept established view silent =>
    rw [silent, none, List.filterMap_nil, List.append_nil]
    exact .of_later kept (by rw [established]; decide) (by rwa [view]) (by rwa [view])

theorem ShownInv.later (left : conn.pcb = some pcb)
    (later : ¬pcb.state.handshaking) (now : BitVec 64) (action : Action) (bound : action.limit ≤ 65535) :
    ShownInv passive (stepPcb now pcb conn.frames action).conn (shown ++
      (builtPackets action (stepPcb now pcb conn.frames action).output.packets).filterMap advertisedWindow) := by
  obtain ⟨sized, announced⟩ := inv.pcb pcb left
  have leaves := stepPcb_leaves now conn.frames action later
  obtain ⟨view, advertised, views⟩ := leaves.advertised sized.addressed
  obtain ⟨announcedAfter, sizedAfter⟩ := Announced.advertised advertised bound shown announced sized
  cases kept : (stepPcb now pcb conn.frames action).conn.pcb with
  | none => exact .of_none kept announcedAfter.ordered
  | some after =>
    have same := views after kept
    exact .of_later kept (leaves.state after kept).1 (by rwa [same]) (by rwa [same])

theorem ShownInv.step (event : Event) (bound : event.action.limit ≤ 65535) :
    ShownInv passive (stepConn conn event).conn (shown ++
      (builtPackets event.action (stepConn conn event).output.packets).filterMap advertisedWindow) := by
  unfold stepConn
  cases left : conn.pcb with
  | none =>
    have none : builtPackets event.action [] = [] := by cases event.action <;> rfl
    simp only [none, List.filterMap_nil, List.append_nil]
    exact inv
  | some pcb =>
    by_cases handshaking : pcb.state.handshaking
    · exact inv.handshake left handshaking event.now event.action
    · exact inv.later left handshaking event.now event.action bound

end

theorem ShownInv.sendSynAck (inv : ShownInv true opener.conn shown) :
    ShownInv true opener.sendSynAck.conn
      (shown ++ (opener.sendSynAck.sent.drop opener.sent.length).filterMap advertisedWindow) := by
  unfold Opener.sendSynAck
  split
  next pcb _ left =>
    obtain ⟨sized, announced⟩ := inv.pcb pcb left
    split
    · simp only [Opener.opened, List.append_nil, List.drop_length, List.filterMap_nil]
      exact .of_none rfl inv.ordered
    rename_i built packet sent
    obtain ⟨view, state⟩ := receiveView_tcpBuildOutputLocked sent
    have window : advertisedWindow packet = some (receiveView built).shown := by
      rw [tcpBuildOutputLocked_packet sent, view]
      exact advertisedWindow_segment sized rfl (by decide) (by decide)
    simp only [Opener.opened, List.drop_left, List.filterMap_cons, window, List.filterMap_nil]
    rw [← view] at sized announced
    refine .of_some rfl sized (announced.add sized (.refl _) (Nat.zero_le _)) ?_ ?_
    · intro handshaking
      rw [state] at handshaking
      have waits := inv.waits pcb left handshaking
      exact (Waits.of_syn waits.unsent waits.free waits.calm (by decide) sent).1
    · intro opening
      rw [state] at opening
      cases (inv.active pcb left opening).1
  · rw [List.drop_length, List.filterMap_nil, List.append_nil]
    exact inv

theorem ShownInv.sendSyn (inv : ShownInv false opener.conn shown) (now : BitVec 64) :
    ShownInv false (opener.sendSyn now).conn
      (shown ++ ((opener.sendSyn now).sent.drop opener.sent.length).filterMap advertisedWindow) := by
  unfold Opener.sendSyn
  split
  next pcb _ left =>
    obtain ⟨sized, announced⟩ := inv.pcb pcb left
    split
    · simp only [Opener.opened, List.append_nil, List.drop_length, List.filterMap_nil]
      exact .of_later rfl (by simp [TcpState.handshaking]) sized announced
    rename_i built packet sent
    obtain ⟨inner, output, stateKept, -, -, viewKept, waitsKept⟩ := tcpOutput_syn sent
    obtain ⟨innerView, innerState⟩ := receiveView_tcpBuildOutputLocked output
    have view := viewKept.trans innerView
    have state := stateKept.trans innerState
    have window : advertisedWindow packet = none := by
      rw [tcpBuildOutputLocked_packet output]
      exact advertisedWindow_syn
    simp only [Opener.opened, List.drop_left, List.filterMap_cons, window, List.filterMap_nil, List.append_nil]
    rw [← view] at sized announced
    refine .of_some rfl sized announced ?_ ?_
    · intro handshaking
      rw [state] at handshaking
      have waits := inv.waits pcb left handshaking
      exact waitsKept _ (Waits.of_syn waits.unsent waits.free waits.calm (by decide) output).1
    · intro opening
      rw [state] at opening
      exact inv.active pcb left opening
  · rw [List.drop_length, List.filterMap_nil, List.append_nil]
    exact inv

theorem announcerStep_inv {announcer : Announcer}
    (inv : ShownInv announcer.passive announcer.opener.conn announcer.shown) {event : AnnouncerEvent}
    (carried : event.Carried) :
    ShownInv (announcerStep announcer event).passive (announcerStep announcer event).opener.conn
      (announcerStep announcer event).shown := by
  cases event with
  | step event =>
    simp only [announcerStep, Announcer.shown, List.filterMap_append]
    exact inv.step event carried
  | first now =>
    simp only [announcerStep, Announcer.shown, List.filterMap_append]
    cases kind : announcer.passive with
    | true =>
      rw [kind] at inv
      exact inv.sendSynAck
    | false =>
      rw [kind] at inv
      exact inv.sendSyn now

theorem Filled.inv (filled : Filled passive pcb) :
    ShownInv passive (Announcer.start passive pcb).opener.conn (Announcer.start passive pcb).shown := by
  have ring : (tcpAlloc true).rxBuf.WellFormed := by
    refine ⟨?_, ?_, ?_, Nat.zero_le _, rfl⟩
    · exact List.length_replicate
    · decide
    · decide
  have nothing : ∀ view, Announced [] view := fun view => ⟨List.isChain_nil, by simp⟩
  cases filled with
  | connect now localIp localPort remoteIp remotePort addressed =>
    refine .of_some rfl ⟨addressed, ring, rfl⟩ (nothing _) (fun _ => ⟨?_, rfl, rfl, ?_⟩) (fun _ => ⟨rfl, rfl⟩)
    · simp only [connectPcb]
    · simp [Announcer.start, Opener.created]
  | child now listener srcIp destIp remotePort sequence addressed =>
    refine .of_some rfl ⟨addressed, ring, rfl⟩ (nothing _) (fun _ => ⟨rfl, rfl, rfl, ?_⟩) ?_
    · simp [Announcer.start, Opener.created]
    · intro opening
      cases opening

end

/-- Over every run of a PCB from its creation, the right edges of the segments with ACK never move left, and
what lies inside the last advertised window is accepted. -/
theorem window_never_shrinks (passive : Bool) (pcb : Pcb) (filled : Filled passive pcb)
    (events : List AnnouncerEvent) (carried : ∀ event ∈ events, event.Carried) :
    NeverShrinks (Announcer.run passive pcb events).shown ∧
      ∀ last ∈ (Announcer.run passive pcb events).shown.getLast?,
        ∀ left ∈ (Announcer.run passive pcb events).opener.conn.pcb,
          left.state = .established ∨ left.state = .finWait1 ∨ left.state = .finWait2 → AcceptsInside last left := by
  have reached := Transition.run_invariant_of_admissible announcerStep (fun _ event => event.Carried)
    (fun announcer => ShownInv announcer.passive announcer.opener.conn announcer.shown)
    (fun _ event allowed inv => announcerStep_inv inv allowed) events (Announcer.start passive pcb) filled.inv
    (Transition.admissible_of_forall announcerStep events _ carried)
  refine ⟨reached.ordered, ?_⟩
  intro last member left kept receives
  obtain ⟨sized, announced⟩ := reached.pcb left kept
  exact announced.acceptsInside member sized.ring receives

section

def windowClient : Pcb := connectPcb 0 1024 0x0202000A 80 { tcpAlloc true with localIp := 0 }

def windowPeer : Pcb :=
  { tcpAlloc true with
    localIp := 0x0202000A, localPort := 80, remoteIp := netLocalIpv4, remotePort := 1024, rcvNxt := 1001 }

def windowEvents : List AnnouncerEvent :=
  [.first 0, .step ⟨1, .input 0x0202000A netLocalIpv4
      (segmentPacket windowPeer 0x90000000 (tcpFlagSyn ||| tcpFlagAck) [])⟩, .step ⟨2, .input 0x0202000A netLocalIpv4
      (segmentPacket windowPeer 0x90000001 (tcpFlagAck ||| tcpFlagPsh) [1, 2, 3])⟩, .step ⟨3, .read 2⟩]

theorem windowClient_filled : Filled false windowClient := .connect 0 0 1024 0x0202000A 80 (by decide)

theorem windowEvents_carried : ∀ event ∈ windowEvents, event.Carried := by
  decide +kernel

theorem window_never_shrinks_windowEvents : (Announcer.run false windowClient windowEvents).shown =
        [⟨0x90000001, 8192⟩, ⟨0x90000004, 8189⟩, ⟨0x90000004, 8191⟩] ∧
      NeverShrinks (Announcer.run false windowClient windowEvents).shown :=
  ⟨by decide +kernel, (window_never_shrinks false windowClient windowClient_filled windowEvents
    windowEvents_carried).1⟩

/-- The acknowledgement field of the SYN is zero, and the next segment acknowledges the peer. -/
theorem syn_field_window_shrinks : (Announcer.run false windowClient windowEvents).built.filterMap fieldWindow =
        [⟨0, 8192⟩, ⟨0x90000001, 8192⟩, ⟨0x90000004, 8189⟩, ⟨0x90000004, 8191⟩] ∧
      ¬NeverShrinks ((Announcer.run false windowClient windowEvents).built.filterMap fieldWindow) := by
  decide +kernel

end

end PhotonOS
