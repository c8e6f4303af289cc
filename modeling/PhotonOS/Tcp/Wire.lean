import PhotonOS.Lib.Bytes

/-!
TCP segments as byte strings: `tcp_serialize_header`, `tcp_parse_header`,
`tcp_checksum` and the checks with which `tcp_input` turns received bytes into a
header and a payload.
-/

namespace PhotonOS

open Bytes

structure TcpHeader where
  srcPort : BitVec 16
  destPort : BitVec 16
  seqNum : BitVec 32
  ackNum : BitVec 32
  dataOffsetFlags : BitVec 16
  windowSize : BitVec 16
  checksum : BitVec 16
  urgentPtr : BitVec 16
  deriving DecidableEq, Repr

def tcpHeaderMinSize : Nat := 20
def tcpDefaultMss : Nat := 1460
def ipProtoTcp : BitVec 32 := 6

def tcpFlagFin : BitVec 16 := 0x01
def tcpFlagSyn : BitVec 16 := 0x02
def tcpFlagRst : BitVec 16 := 0x04
def tcpFlagPsh : BitVec 16 := 0x08
def tcpFlagAck : BitVec 16 := 0x10

def flagSet (flags mask : BitVec 16) : Bool := flags &&& mask != 0

def offsetFlags (flags : BitVec 16) : BitVec 16 := 0x5000 ||| flags

def tcpSerializeHeader (header : TcpHeader) : List UInt8 :=
  toBytes 2 header.srcPort.toNat ++ (toBytes 2 header.destPort.toNat ++
  (toBytes 4 header.seqNum.toNat ++ (toBytes 4 header.ackNum.toNat ++
  (toBytes 2 header.dataOffsetFlags.toNat ++ (toBytes 2 header.windowSize.toNat ++
  (toBytes 2 header.checksum.toNat ++ toBytes 2 header.urgentPtr.toNat))))))

def tcpParseHeader (buffer : List UInt8) : Option TcpHeader :=
  if buffer.length < tcpHeaderMinSize then none
  else some {
    srcPort := BitVec.ofNat 16 (field buffer 0 2)
    destPort := BitVec.ofNat 16 (field buffer 2 2)
    seqNum := BitVec.ofNat 32 (field buffer 4 4)
    ackNum := BitVec.ofNat 32 (field buffer 8 4)
    dataOffsetFlags := BitVec.ofNat 16 (field buffer 12 2)
    windowSize := BitVec.ofNat 16 (field buffer 14 2)
    checksum := BitVec.ofNat 16 (field buffer 16 2)
    urgentPtr := BitVec.ofNat 16 (field buffer 18 2) }

def tcpChecksumAdd (sum : BitVec 32) : List UInt8 → BitVec 32
  | high :: low :: rest => tcpChecksumAdd (sum + BitVec.ofNat 32 (high.toNat * 256 + low.toNat)) rest
  | [last] => sum + BitVec.ofNat 32 (last.toNat * 256)
  | [] => sum

def foldCarries : Nat → BitVec 32 → BitVec 32
  | 0, sum => sum
  | fuel + 1, sum => if sum >>> 16 = 0#32 then sum else foldCarries fuel ((sum &&& 0xFFFF#32) + (sum >>> 16))

def tcpChecksumFinish (sum : BitVec 32) : BitVec 16 := ~~~(foldCarries 2 sum).truncate 16

def addressBytes (address : BitVec 32) : List UInt8 :=
  [UInt8.ofNat address.toNat, UInt8.ofNat (address.toNat / 256),
    UInt8.ofNat (address.toNat / 256 ^ 2), UInt8.ofNat (address.toNat / 256 ^ 3)]

def tcpChecksum (srcIp destIp : BitVec 32) (segment : List UInt8) : BitVec 16 :=
  if segment.length > 0xFFFF then 0
  else
    let sum := tcpChecksumAdd 0 (addressBytes srcIp)
    let sum := tcpChecksumAdd sum (addressBytes destIp)
    let sum := sum + ipProtoTcp
    let sum := sum + BitVec.ofNat 32 segment.length
    tcpChecksumFinish (tcpChecksumAdd sum segment)

/-- The checksum sent with a header and payload. A sum of zero is sent as `0xFFFF`. -/
def tcpPacketChecksum (srcIp destIp : BitVec 32) (header : TcpHeader) (payload : List UInt8) : BitVec 16 :=
  let sum := tcpChecksum srcIp destIp (tcpSerializeHeader { header with checksum := 0 } ++ payload)
  if sum = 0 then 0xFFFF else sum

def tcpFinishPacket (srcIp destIp : BitVec 32) (header : TcpHeader) (payload : List UInt8) : List UInt8 :=
  tcpSerializeHeader { header with checksum := tcpPacketChecksum srcIp destIp header payload } ++ payload

/-- The acceptance checks at the top of `tcp_input`: length, checksum and data offset. -/
def tcpDecode (srcIp destIp : BitVec 32) (segment : List UInt8) : Option (TcpHeader × List UInt8) :=
  if segment.length < tcpHeaderMinSize then none
  else if tcpChecksum srcIp destIp segment ≠ 0 then none
  else do
    let header ← tcpParseHeader segment
    let headerLen := (header.dataOffsetFlags >>> 12).toNat * 4
    if headerLen < tcpHeaderMinSize ∨ headerLen > segment.length then none
    else some (header, segment.drop headerLen)

theorem foldCarry_toNat (sum : BitVec 32) :
    ((sum &&& 0xFFFF#32) + (sum >>> 16)).toNat = sum.toNat % 2 ^ 16 + sum.toNat / 2 ^ 16 := by
  have masked : (sum &&& 0xFFFF#32).toNat = sum.toNat % 2 ^ 16 := by exact Nat.and_two_pow_sub_one_eq_mod sum.toNat 16
  rw [BitVec.toNat_add, masked, BitVec.toNat_ushiftRight, Nat.shiftRight_eq_div_pow]
  omega

theorem foldCarries_done (sum : BitVec 32) : foldCarries 2 sum >>> 16 = 0#32 := by
  have high : ∀ value : BitVec 32, value >>> 16 = 0#32 ↔ value.toNat < 2 ^ 16 := by
    intro value
    rw [← BitVec.toNat_inj, BitVec.toNat_ushiftRight, Nat.shiftRight_eq_div_pow, BitVec.toNat_ofNat]
    omega
  simp only [foldCarries, high, foldCarry_toNat]
  split
  · assumption
  · split
    · simpa only [foldCarry_toNat] using ‹_›
    · rw [foldCarry_toNat, foldCarry_toNat]
      omega

variable {header : TcpHeader}

@[simp] theorem tcpSerializeHeader_length : (tcpSerializeHeader header).length = tcpHeaderMinSize := by
  simp [tcpSerializeHeader, tcpHeaderMinSize]

theorem tcpParseHeader_serialize {payload : List UInt8} :
    tcpParseHeader (tcpSerializeHeader header ++ payload) = some header := by
  have long : ¬(tcpSerializeHeader header ++ payload).length < tcpHeaderMinSize := by
    rw [List.length_append, tcpSerializeHeader_length]
    omega
  rw [tcpParseHeader, if_neg long]
  simp only [tcpSerializeHeader, List.append_assoc]
  simp [field_append, field_toBytes_append]

theorem tcpDecode_serialize (header received : TcpHeader) (payload data : List UInt8)
    (srcIp destIp : BitVec 32) (plain : header.dataOffsetFlags >>> 12 = 5#16)
    (decoded : tcpDecode srcIp destIp (tcpSerializeHeader header ++ payload) = some (received, data)) :
    received = header ∧ data = payload := by
  rw [tcpDecode] at decoded
  split at decoded
  · contradiction
  split at decoded
  · contradiction
  rw [tcpParseHeader_serialize] at decoded
  simp only [Option.bind_eq_bind, Option.bind_some, plain] at decoded
  split at decoded
  · contradiction
  simp only [Option.some.injEq, Prod.mk.injEq] at decoded
  obtain ⟨headerEq, dataEq⟩ := decoded
  refine ⟨headerEq.symm, ?_⟩
  rw [← dataEq]
  exact List.drop_left' tcpSerializeHeader_length

theorem tcpDecode_finishPacket (header received : TcpHeader) (payload data : List UInt8)
    {srcIp destIp : BitVec 32} (srcIp' destIp' : BitVec 32) (plain : header.dataOffsetFlags >>> 12 = 5#16)
    (decoded : tcpDecode srcIp' destIp' (tcpFinishPacket srcIp destIp header payload) = some (received, data)) :
    (∃ sum, received = { header with checksum := sum }) ∧ data = payload := by
  rw [tcpFinishPacket] at decoded
  generalize tcpPacketChecksum srcIp destIp header payload = sum at decoded
  obtain ⟨headerEq, dataEq⟩ := tcpDecode_serialize { header with checksum := sum } received payload data
    srcIp' destIp' plain decoded
  exact ⟨⟨sum, headerEq⟩, dataEq⟩

end PhotonOS
