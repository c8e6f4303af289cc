import PhotonOS.Tcp.UnsentAck
import PhotonOS.Udp.Checksum

/-!
Every segment that `tcp.c` builds passes the checksum test of `tcp_input`, and
its header is read back as it was written.
-/

namespace PhotonOS

open OnesComplement

def AcceptedAs (srcIp destIp : BitVec 32) (packet : List UInt8) (header : TcpHeader) : Prop :=
  tcpChecksum srcIp destIp packet = 0 ∧ ∃ sum, tcpParseHeader packet = some { header with checksum := sum }

section

variable (srcIp destIp : BitVec 32) (header : TcpHeader) {payload segment : List UInt8}

def segmentWords (segment : List UInt8) : Nat :=
  wordSum (addressBytes srcIp) + wordSum (addressBytes destIp) + 6 + segment.length + wordSum segment

theorem tcpChecksum_eq (fits : segment.length ≤ 65535) : ∃ word, FoldOf word (segmentWords srcIp destIp segment) ∧
      (tcpChecksum srcIp destIp segment).toNat = 65535 - word := by
  have length : (BitVec.ofNat 16 segment.length).toNat = segment.length := by
    rw [BitVec.toNat_ofNat]
    omega
  have wide : BitVec.ofNat 32 segment.length = (BitVec.ofNat 16 segment.length).setWidth 32 := by
    apply BitVec.eq_of_toNat_eq
    rw [BitVec.toNat_setWidth, length, BitVec.toNat_ofNat]
  have sum := udpSum_toNat srcIp destIp 6 length.symm
  rw [length] at sum
  have same : tcpChecksum srcIp destIp segment =
      tcpChecksumFinish (udpSum srcIp destIp 6 (BitVec.ofNat 16 segment.length) segment) := by
    rw [tcpChecksum, if_neg (by omega), udpSum, wide, length, List.take_length]
    rfl
  have fold := foldCarries_foldOf (sum.trans_gt (show _ > 0 by simp))
  rw [sum] at fold
  exact ⟨_, fold, by rw [same, tcpChecksumFinish_toNat]⟩

theorem wordSum_checksum {sum : BitVec 16} : wordSum (tcpSerializeHeader { header with checksum := sum } ++ payload) =
      sum.toNat + wordSum (tcpSerializeHeader { header with checksum := 0 } ++ payload) := by
  have split : ∀ sum : BitVec 16, tcpSerializeHeader { header with checksum := sum } ++ payload =
      (tcpSerializeHeader header).take 16 ++
        (Bytes.toBytes 2 sum.toNat ++ (Bytes.toBytes 2 header.urgentPtr.toNat ++ payload)) := fun _ => rfl
  have even : ((tcpSerializeHeader header).take 16).length % 2 = 0 := by
    rw [List.length_take, tcpSerializeHeader_length]
    rfl
  have zero : BitVec.toNat (0 : BitVec 16) = 0 := rfl
  rw [split, split, wordSum_append even, wordSum_append even]
  simp only [wordSum_toBytes]
  omega

theorem tcpChecksum_finishPacket (fits : payload.length ≤ 65515) :
    tcpChecksum srcIp destIp (tcpFinishPacket srcIp destIp header payload) = 0 := by
  have size : ∀ sum : BitVec 16, (tcpSerializeHeader { header with checksum := sum } ++ payload).length =
      20 + payload.length := by
    intro sum
    rw [List.length_append, tcpSerializeHeader_length]
    rfl
  have short : ∀ sum : BitVec 16, (tcpSerializeHeader { header with checksum := sum } ++ payload).length ≤ 65535 := by
    intro sum
    rw [size]
    omega
  obtain ⟨blank, blankFold, complement⟩ := tcpChecksum_eq srcIp destIp (short 0)
  have sent : (tcpPacketChecksum srcIp destIp header payload).toNat =
      if 65535 - blank = 0 then 65535 else 65535 - blank := by
    simp only [← complement, tcpPacketChecksum]
    generalize tcpChecksum srcIp destIp _ = value
    by_cases zero : value = 0
    · rw [zero]
      rfl
    · rw [if_neg zero, if_neg fun none : value.toNat = 0 => zero (BitVec.eq_of_toNat_eq none)]
  obtain ⟨word, fold, result⟩ := tcpChecksum_eq srcIp destIp (short (tcpPacketChecksum srcIp destIp header payload))
  have total : segmentWords srcIp destIp (tcpSerializeHeader
        { header with checksum := tcpPacketChecksum srcIp destIp header payload } ++ payload) =
      segmentWords srcIp destIp (tcpSerializeHeader { header with checksum := 0 } ++ payload) +
        (tcpPacketChecksum srcIp destIp header payload).toNat := by
    rw [segmentWords, segmentWords, size, size, wordSum_checksum]
    omega
  have vanishes : word = 65535 := by
    rw [fold.all_ones_iff, total, sent]
    have congruent := blankFold.congruent
    have small := blankFold.small
    split <;> omega
  apply BitVec.eq_of_toNat_eq
  rw [tcpFinishPacket, result, vanishes]
  rfl

theorem tcpFinishPacket_accepted (fits : payload.length ≤ 65515) :
    AcceptedAs srcIp destIp (tcpFinishPacket srcIp destIp header payload) header :=
  ⟨tcpChecksum_finishPacket srcIp destIp header fits, _, tcpParseHeader_serialize⟩

end

def resetHeader (header : TcpHeader) (payload : List UInt8) : TcpHeader :=
  let acked := flagSet header.flags tcpFlagAck
  let length := BitVec.ofNat 32 payload.length + (if flagSet header.flags (tcpFlagSyn ||| tcpFlagFin) then 1 else 0)
  { srcPort := header.destPort
    destPort := header.srcPort
    seqNum := if acked then header.ackNum else 0
    ackNum := if acked then 0 else header.seqNum + length
    dataOffsetFlags := offsetFlags (if acked then tcpFlagRst else tcpFlagRst ||| tcpFlagAck)
    windowSize := 0
    checksum := 0
    urgentPtr := 0 }

section

variable {pcb : Pcb} {now : BitVec 64}

theorem segmentPacket_accepted {sequence : BitVec 32} {flags : BitVec 16} {payload : List UInt8}
    (short : payload.length ≤ tcpDefaultMss) :
    AcceptedAs (tcpEffectiveLocalIp pcb) pcb.remoteIp (segmentPacket pcb sequence flags payload)
      (segmentHeader pcb sequence flags) :=
  tcpFinishPacket_accepted _ _ _ (Nat.le_trans short (by decide))

variable {packet : List UInt8}

theorem transmitSegment_accepted {unsent : TcpQueue} {segment : TcpSegment} (short : segment.length ≤ tcpDefaultMss)
    (sent : (transmitSegment now pcb unsent segment).packet = some packet) :
    AcceptedAs (tcpEffectiveLocalIp pcb) pcb.remoteIp packet
      (segmentHeader pcb pcb.sndNxt (tcpFlagAck ||| tcpFlagPsh)) := by
  have bytes : (TcpSegment.payload { segment with sequence := pcb.sndNxt, sentAt := now }).length ≤ tcpDefaultMss :=
    Nat.le_trans (List.length_take_le _ _) short
  have same : packet = segmentPacket pcb pcb.sndNxt (tcpFlagAck ||| tcpFlagPsh)
      (TcpSegment.payload { segment with sequence := pcb.sndNxt, sentAt := now }) := by
    rw [← Option.some.inj sent]
    split <;> rfl
  rw [same]
  exact segmentPacket_accepted bytes

theorem drainIteration_accepted {allocated : Bool} (sent : (drainIteration now allocated pcb).packet = some packet) :
    ∃ flags, (flags = tcpFlagAck ||| tcpFlagPsh ∨ flags = tcpFlagFin ||| tcpFlagAck) ∧
      AcceptedAs (tcpEffectiveLocalIp pcb) pcb.remoteIp packet (segmentHeader pcb pcb.sndNxt flags) := by
  rcases drainIteration_kinds with ⟨_, fin⟩ | ⟨_, _, stops⟩ | ⟨unsent, segment, cuts, sends⟩
  · rw [fin] at sent
    rw [drainFin_packet sent]
    exact ⟨_, .inr rfl, segmentPacket_accepted (Nat.zero_le _)⟩
  · rw [stops] at sent
    cases sent
  · rw [sends] at sent
    exact ⟨_, .inl rfl, transmitSegment_accepted cuts.bounded sent⟩

end

/-- Every segment built, retransmitted, drained or sent as a reset passes the checksum test of
`tcp_input` for its address pair, and its header is read back unchanged. -/
theorem tcp_segments_accepted (pcb : Pcb) (addressed : pcb.Addressed) (payload : List UInt8)
    (short : payload.length ≤ 1460) :
    (∀ flags : BitVec 8, ∃ built packet, tcpBuildOutputLocked pcb (flags.setWidth 16) payload = some (built, packet) ∧
      ∃ sequence, (sequence = pcb.sndNxt ∨ sequence = pcb.iss ∧ flagSet (flags.setWidth 16) tcpFlagSyn) ∧
        (segmentHeader pcb sequence (flags.setWidth 16)).flags = flags.setWidth 16 ∧
        AcceptedAs (tcpEffectiveLocalIp pcb) pcb.remoteIp packet
          (segmentHeader pcb sequence (flags.setWidth 16))) ∧
    (∀ now segment, AcceptedAs (tcpEffectiveLocalIp pcb) pcb.remoteIp (tcpRetransmitSegmentLocked now pcb segment).2
      (segmentHeader pcb segment.sequence (tcpFlagAck ||| tcpFlagPsh))) ∧
    (∀ now allocated packet, (drainIteration now allocated pcb).packet = some packet →
      ∃ flags, (flags = tcpFlagAck ||| tcpFlagPsh ∨ flags = tcpFlagFin ||| tcpFlagAck) ∧
        AcceptedAs (tcpEffectiveLocalIp pcb) pcb.remoteIp packet (segmentHeader pcb pcb.sndNxt flags)) ∧
    (∀ srcIp destIp header packet, tcpResetReply srcIp destIp header payload = some packet →
      AcceptedAs destIp srcIp packet (resetHeader header payload)) := by
  refine ⟨?_, ?_, ?_, ?_⟩
  · intro flags
    have kept : ∀ flags : BitVec 8, offsetFlags (flags.setWidth 16) &&& 0x01FF#16 = flags.setWidth 16 := by decide +kernel
    rw [tcpBuildOutputLocked, if_neg addressed.accepted]
    refine ⟨_, _, rfl, _, ?_, kept flags, segmentPacket_accepted short⟩
    split
    · exact .inr ⟨rfl, (‹_ ∧ _›).1⟩
    · exact .inl rfl
  · intro now segment
    exact segmentPacket_accepted (List.length_take_le _ _)
  · intro now allocated packet sent
    exact drainIteration_accepted sent
  intro srcIp destIp header packet sent
  unfold tcpResetReply at sent
  split at sent
  · cases sent
  · rw [← Option.some.inj sent]
    exact tcpFinishPacket_accepted destIp srcIp (resetHeader header payload) (Nat.zero_le _)

def addressedPcb : Pcb := { tcpAlloc true with localPort := 1000, remoteIp := sampleRemote, remotePort := 80 }

theorem tcp_segments_accepted_byte :
    ∃ built packet, tcpBuildOutputLocked addressedPcb (BitVec.setWidth 16 0x18#8) [7] = some (built, packet) ∧
      ∃ sequence, AcceptedAs (tcpEffectiveLocalIp addressedPcb) addressedPcb.remoteIp packet
        (segmentHeader addressedPcb sequence (BitVec.setWidth 16 0x18#8)) := by
  obtain ⟨built, packet, output, sequence, _, _, accepted⟩ :=
    (tcp_segments_accepted addressedPcb ⟨by decide, by decide, by decide⟩ [7] (by decide)).1 0x18#8
  exact ⟨built, packet, output, sequence, accepted⟩

end PhotonOS
