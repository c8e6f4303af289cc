import PhotonOS.Lib.OnesComplement
import PhotonOS.Tcp.Pcb

/-!
UDP datagrams: `net_send_udp` with `net_calculate_udp_checksum`, and
`net_validate_udp_checksum` on the receiving side. The header is kept as the
bytes that lie in memory, because the sender stores the checksum without `htons`.
-/

namespace PhotonOS

open OnesComplement Bytes

variable {srcPort destPort checksum : BitVec 16} {payload : List UInt8}

def ipProtoUdp : BitVec 8 := 17
def udpHeaderSize : Nat := 8

structure IpHeader where
  srcIp : BitVec 32
  destIp : BitVec 32
  protocol : BitVec 8
  deriving DecidableEq, Repr

/-- The sum over the pseudo header and then `datagram`, before its carries are folded. -/
def udpSum (srcIp destIp : BitVec 32) (protocol : BitVec 8) (length : BitVec 16) (datagram : List UInt8) :
    BitVec 32 :=
  let sum := tcpChecksumAdd 0 (addressBytes srcIp)
  let sum := tcpChecksumAdd sum (addressBytes destIp)
  let sum := sum + protocol.setWidth 32
  let sum := sum + length.setWidth 32
  tcpChecksumAdd sum (datagram.take length.toNat)

def netCalculateUdpChecksum (srcIp destIp : BitVec 32) (datagram : List UInt8) (length : BitVec 16) : BitVec 16 :=
  tcpChecksumFinish (udpSum srcIp destIp ipProtoUdp length datagram)

def udpField (datagram : List UInt8) (offset : Nat) : BitVec 16 := BitVec.ofNat 16 (field datagram offset 2)

def udpLength (datagram : List UInt8) : BitVec 16 := udpField datagram 4
def udpChecksum (datagram : List UInt8) : BitVec 16 := udpField datagram 6

/-- A received checksum of zero means that the sender computed none. -/
def netValidateUdpChecksum (ip : IpHeader) (datagram : List UInt8) : Bool :=
  if udpChecksum datagram = 0 then true
  else tcpChecksumFinish (udpSum ip.srcIp ip.destIp ip.protocol (udpLength datagram) datagram) == 0

def storedWord (value : BitVec 16) : List UInt8 :=
  [UInt8.ofNat value.toNat, UInt8.ofNat (value.toNat / 256)]

def udpDatagram (srcPort destPort length : BitVec 16) (checksum payload : List UInt8) : List UInt8 :=
  toBytes 2 srcPort.toNat ++ (toBytes 2 destPort.toNat ++ (toBytes 2 length.toNat ++
    (checksum ++ payload)))

/-- What `net_send_udp` hands to `net_send_ipv4`, once it has a buffer. -/
def netSendUdp (destIp : BitVec 32) (srcPort destPort : BitVec 16) (payload : List UInt8) : List UInt8 :=
  let length := BitVec.ofNat 16 (udpHeaderSize + payload.length)
  let blank := udpDatagram srcPort destPort length (storedWord 0) payload
  let checksum := netCalculateUdpChecksum netLocalIpv4 destIp blank length
  udpDatagram srcPort destPort length (storedWord checksum) payload

variable {sum : BitVec 32} {value length : BitVec 16} {rest : List UInt8}

theorem tcpChecksumAdd_toNat {bytes : List UInt8} (room : sum.toNat + wordSum bytes < 2 ^ 32) :
    (tcpChecksumAdd sum bytes).toNat = sum.toNat + wordSum bytes := by
  fun_induction tcpChecksumAdd sum bytes with
  | case1 sum high low rest ih =>
    rw [wordSum_cons_cons] at room ⊢
    have next : (sum + BitVec.ofNat 32 (high.toNat * 256 + low.toNat)).toNat =
        sum.toNat + (high.toNat * 256 + low.toNat) := by
      rw [BitVec.toNat_add, BitVec.toNat_ofNat]
      omega
    omega
  | case2 sum last =>
    rw [BitVec.toNat_add, BitVec.toNat_ofNat]
    simp only [wordSum] at room ⊢
    omega
  | case3 sum => simp [wordSum]

theorem foldCarries_congruent (fuel : Nat) : ∀ sum : BitVec 32, 0 < sum.toNat →
    0 < (foldCarries fuel sum).toNat ∧ (foldCarries fuel sum).toNat % 65535 = sum.toNat % 65535 := by
  induction fuel with
  | zero => intro sum positive; exact ⟨positive, rfl⟩
  | succ fuel ih =>
    intro sum positive
    simp only [foldCarries]
    split
    · exact ⟨positive, rfl⟩
    · have round : ((sum &&& 0xFFFF#32) + (sum >>> 16)).toNat = endAround sum.toNat := foldCarry_toNat sum
      obtain ⟨stays, congruent⟩ := ih ((sum &&& 0xFFFF#32) + (sum >>> 16)) (by rw [round]; exact endAround_pos positive)
      rw [round, endAround_mod] at congruent
      exact ⟨stays, congruent⟩

theorem foldCarries_foldOf (positive : 0 < sum.toNat) : FoldOf (foldCarries 2 sum).toNat sum.toNat := by
  obtain ⟨stays, congruent⟩ := foldCarries_congruent 2 sum positive
  have done := congrArg BitVec.toNat (foldCarries_done sum)
  rw [BitVec.toNat_ushiftRight, Nat.shiftRight_eq_div_pow, BitVec.toNat_ofNat] at done
  exact ⟨stays, by omega, congruent⟩

theorem tcpChecksumFinish_toNat (sum : BitVec 32) :
    (tcpChecksumFinish sum).toNat = 65535 - (foldCarries 2 sum).toNat := by
  have done := congrArg BitVec.toNat (foldCarries_done sum)
  rw [BitVec.toNat_ushiftRight, Nat.shiftRight_eq_div_pow, BitVec.toNat_ofNat] at done
  rw [tcpChecksumFinish, BitVec.toNat_not, BitVec.truncate_eq_setWidth, BitVec.toNat_setWidth]
  omega

/-- The words of the pseudo header, of the UDP header with a zero checksum, and of the payload. -/
def udpWords (destIp : BitVec 32) (srcPort destPort : BitVec 16) (payload : List UInt8) : Nat :=
  wordSum (addressBytes netLocalIpv4) + wordSum (addressBytes destIp) + ipProtoUdp.toNat +
    srcPort.toNat + destPort.toNat + 2 * (udpHeaderSize + payload.length) + wordSum payload

theorem wordSum_toBytes : wordSum (toBytes 2 value.toNat ++ rest) = value.toNat + wordSum rest := by
  simp only [toBytes, List.cons_append, List.nil_append, wordSum_cons_cons, UInt8.toNat_ofNat']
  omega

def swapped (value : BitVec 16) : Nat := value.toNat % 256 * 256 + value.toNat / 256

theorem wordSum_storedWord : wordSum (storedWord value ++ rest) = swapped value + wordSum rest := by
  simp only [storedWord, List.cons_append, List.nil_append, wordSum_cons_cons, UInt8.toNat_ofNat', swapped]
  omega

theorem wordSum_udpDatagram (srcPort destPort length checksum : BitVec 16) (payload : List UInt8) :
    wordSum (udpDatagram srcPort destPort length (storedWord checksum) payload) =
      srcPort.toNat + destPort.toNat + length.toNat + swapped checksum + wordSum payload := by
  simp only [udpDatagram, wordSum_toBytes, wordSum_storedWord]
  omega

theorem udpDatagram_length :
    (udpDatagram srcPort destPort length (storedWord checksum) payload).length = udpHeaderSize + payload.length := by
  simp [udpDatagram, storedWord, udpHeaderSize]
  omega

theorem wordSum_addressBytes_le (address : BitVec 32) : wordSum (addressBytes address) ≤ 65535 * 2 := by
  have words := wordSum_le (addressBytes address)
  rwa [show (addressBytes address).length = 4 from rfl] at words

theorem udpSum_toNat (srcIp destIp : BitVec 32) (protocol : BitVec 8) {datagram : List UInt8}
    (long : datagram.length = length.toNat) : (udpSum srcIp destIp protocol length datagram).toNat =
      wordSum (addressBytes srcIp) + wordSum (addressBytes destIp) + protocol.toNat + length.toNat +
        wordSum datagram := by
  have whole : datagram.take length.toNat = datagram := List.take_of_length_le (Nat.le_of_eq long)
  have source := wordSum_addressBytes_le srcIp
  have dest := wordSum_addressBytes_le destIp
  have data : wordSum datagram ≤ 65535 * 32768 := by
    have words := wordSum_le datagram
    omega
  have first : (tcpChecksumAdd 0 (addressBytes srcIp)).toNat = wordSum (addressBytes srcIp) := by
    rw [tcpChecksumAdd_toNat (by simp; omega)]
    simp
  have second : (tcpChecksumAdd (tcpChecksumAdd 0 (addressBytes srcIp)) (addressBytes destIp)).toNat =
      wordSum (addressBytes srcIp) + wordSum (addressBytes destIp) := by
    rw [tcpChecksumAdd_toNat (by rw [first]; omega), first]
  have third : (tcpChecksumAdd (tcpChecksumAdd 0 (addressBytes srcIp)) (addressBytes destIp) +
      protocol.setWidth 32 + length.setWidth 32).toNat =
        wordSum (addressBytes srcIp) + wordSum (addressBytes destIp) + protocol.toNat + length.toNat := by
    simp only [BitVec.toNat_add, BitVec.toNat_setWidth, second]
    omega
  simp only [udpSum, whole]
  rw [tcpChecksumAdd_toNat (by rw [third]; omega), third]

section

variable (destIp : BitVec 32) (srcPort destPort checksum : BitVec 16) {payload : List UInt8}

theorem udpSum_udpDatagram (fits : udpHeaderSize + payload.length ≤ 65535) :
    (udpSum netLocalIpv4 destIp ipProtoUdp (BitVec.ofNat 16 (udpHeaderSize + payload.length))
      (udpDatagram srcPort destPort (BitVec.ofNat 16 (udpHeaderSize + payload.length)) (storedWord checksum)
        payload)).toNat = udpWords destIp srcPort destPort payload + swapped checksum := by
  have length : (BitVec.ofNat 16 (udpHeaderSize + payload.length)).toNat = udpHeaderSize + payload.length := by
    rw [BitVec.toNat_ofNat]
    omega
  rw [udpSum_toNat _ _ _ (by rw [udpDatagram_length, length]), wordSum_udpDatagram, length, udpWords]
  omega

theorem udpWords_pos : 0 < udpWords destIp srcPort destPort payload := by
  unfold udpWords udpHeaderSize
  omega

theorem udpLength_udpDatagram :
    udpLength (udpDatagram srcPort destPort length (storedWord checksum) payload) = length := by
  simp only [udpLength, udpField, udpDatagram]
  rw [field_append (by simp), field_append (by simp)]
  simp [field_toBytes_append]

theorem udpChecksum_udpDatagram (length : BitVec 16) :
    (udpChecksum (udpDatagram srcPort destPort length (storedWord checksum) payload)).toNat = swapped checksum := by
  simp only [udpChecksum, udpField, udpDatagram]
  rw [field_append (by simp), field_append (by simp), field_append (by simp)]
  have high : checksum.toNat / 256 < 256 := by omega
  have word : checksum.toNat % 256 * 256 + checksum.toNat / 256 < 65536 := by omega
  simp [field, ofBytes, storedWord, swapped, Nat.mod_eq_of_lt high, Nat.mod_eq_of_lt word]

end

theorem netSendUdp_checksum {destIp : BitVec 32}
    (fits : udpHeaderSize + payload.length ≤ 65535) : ∃ checksum word, netSendUdp destIp srcPort destPort payload =
        udpDatagram srcPort destPort (BitVec.ofNat 16 (udpHeaderSize + payload.length)) (storedWord checksum)
          payload ∧ FoldOf word (udpWords destIp srcPort destPort payload) ∧ checksum.toNat = 65535 - word := by
  have total := udpSum_udpDatagram destIp srcPort destPort 0 fits
  have fold := foldCarries_foldOf (by rw [total]; exact udpWords_pos destIp srcPort destPort)
  rw [total] at fold
  exact ⟨_, _, rfl, fold, tcpChecksumFinish_toNat _⟩

def udpCarrier (destIp : BitVec 32) : IpHeader := ⟨netLocalIpv4, destIp, ipProtoUdp⟩

theorem netValidateUdpChecksum_iff {destIp : BitVec 32} (fits : udpHeaderSize + payload.length ≤ 65535)
    (sent : swapped checksum ≠ 0) :
    netValidateUdpChecksum (udpCarrier destIp)
        (udpDatagram srcPort destPort (BitVec.ofNat 16 (udpHeaderSize + payload.length)) (storedWord checksum)
          payload) = true ↔ 65535 ∣ udpWords destIp srcPort destPort payload + swapped checksum := by
  have total := udpSum_udpDatagram destIp srcPort destPort checksum fits
  have carried : udpChecksum (udpDatagram srcPort destPort (BitVec.ofNat 16 (udpHeaderSize + payload.length))
      (storedWord checksum) payload) ≠ 0 := by
    intro zero
    have value := @udpChecksum_udpDatagram srcPort destPort checksum payload
      (BitVec.ofNat 16 (udpHeaderSize + payload.length))
    rw [zero] at value
    exact sent value.symm
  rw [netValidateUdpChecksum, if_neg carried, udpLength_udpDatagram, beq_iff_eq, ← BitVec.toNat_inj,
    tcpChecksumFinish_toNat]
  simp only [udpCarrier]
  have fold := foldCarries_foldOf (by rw [total]; omega)
  rw [← total, ← fold.all_ones_iff]
  have small := fold.small
  rw [show BitVec.toNat (0 : BitVec 16) = 0 from rfl]
  omega

/-- The datagram agrees with the receiver's check exactly when its word sum is a multiple of 257
but not of 65535, for only then is the checksum the same word with its bytes exchanged. -/
theorem udp_checksum_agrees_iff (destIp : BitVec 32) (srcPort destPort : BitVec 16) (payload : List UInt8)
    (fits : udpHeaderSize + payload.length ≤ 65535) : (udpChecksum (netSendUdp destIp srcPort destPort payload) ≠ 0 ∧
      netValidateUdpChecksum (udpCarrier destIp) (netSendUdp destIp srcPort destPort payload) = true) ↔
    257 ∣ udpWords destIp srcPort destPort payload ∧ ¬65535 ∣ udpWords destIp srcPort destPort payload := by
  obtain ⟨checksum, word, built, fold, complement⟩ := netSendUdp_checksum fits
  have carried : udpChecksum (netSendUdp destIp srcPort destPort payload) ≠ 0 ↔ swapped checksum ≠ 0 := by
    rw [built, ← udpChecksum_udpDatagram srcPort destPort checksum, Ne, Ne, ← BitVec.toNat_inj]
    rfl
  have exchanged := fold.exchanged_iff (checksum.toNat / 256) (checksum.toNat % 256) (by omega) (by omega) (by omega)
  rw [carried, ← exchanged]
  refine and_congr_right fun sent => ?_
  rw [built, netValidateUdpChecksum_iff fits sent, swapped]

def sampleHost : BitVec 32 := 0x0202000A

theorem udp_checksum_agrees_949 : udpHeaderSize + ([] : List UInt8).length ≤ 65535 ∧
      udpChecksum (netSendUdp sampleHost 949 53 []) ≠ 0 ∧
      netValidateUdpChecksum (udpCarrier sampleHost) (netSendUdp sampleHost 949 53 []) = true :=
  ⟨by decide, (udp_checksum_agrees_iff sampleHost 949 53 [] (by decide)).mpr (by decide)⟩

theorem udp_checksum_refused_1000 : ¬(udpChecksum (netSendUdp sampleHost 1000 53 []) ≠ 0 ∧
      netValidateUdpChecksum (udpCarrier sampleHost) (netSendUdp sampleHost 1000 53 []) = true) := by
  decide

end PhotonOS
