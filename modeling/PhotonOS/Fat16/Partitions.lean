import PhotonOS.Lib.Bytes

/-!
The search for a FAT16 volume in `mount_superfloppy_or_partition`. The partition
table is read where it lies, in the sector buffer that every probe overwrites.
-/

namespace PhotonOS.Fat16

abbrev Sector := Nat → UInt8

/-- A disk without I/O errors. -/
abbrev Disk := BitVec 32 → Sector

def fieldAt (sector : Sector) (offset count : Nat) : Nat :=
  Bytes.ofBytes ((List.range count).map fun place => sector (offset + place)).reverse

def isPowerOfTwo (value : UInt8) : Bool := value != 0 && value &&& (value - 1) == 0

def isFat16PartitionType (type : UInt8) : Bool := type == 0x04 || type == 0x06 || type == 0x0E

def signed (sector : Sector) : Bool := sector 510 == 0x55 && sector 511 == 0xAA

def totalSectors (sector : Sector) : Nat :=
  if fieldAt sector 19 2 ≠ 0 then fieldAt sector 19 2 else fieldAt sector 32 4

def validateBpb (sector : Sector) : Bool :=
  signed sector && fieldAt sector 11 2 == 512 && isPowerOfTwo (sector 13) && fieldAt sector 14 2 != 0 &&
    sector 16 != 0 && fieldAt sector 17 2 != 0 && fieldAt sector 22 2 != 0 && totalSectors sector != 0

/-! The four entries of `struct mbr_partition_entry` at offset 446. -/

def bootable (table : Sector) (entry : Nat) : Bool := table (446 + 16 * entry) == 0x80

def fat16Type (table : Sector) (entry : Nat) : Bool := isFat16PartitionType (table (446 + 16 * entry + 4))

def startLba (table : Sector) (entry : Nat) : BitVec 32 := BitVec.ofNat 32 (fieldAt table (446 + 16 * entry + 8) 4)

def bootableFat16 (table : Sector) (entry : Nat) : Bool := bootable table entry && fat16Type table entry

/-- One of the two loops: the sector it mounts, or the buffer it leaves behind. -/
def probeEntries (disk : Disk) (wanted : Sector → Nat → Bool) : List Nat → Sector → BitVec 32 ⊕ Sector
  | [], buffer => .inr buffer
  | entry :: rest, buffer =>
    if wanted buffer entry then
      if validateBpb (disk (startLba buffer entry)) then .inl (startLba buffer entry)
      else probeEntries disk wanted rest (disk (startLba buffer entry))
    else probeEntries disk wanted rest buffer

def mountSuperfloppyOrPartition (disk : Disk) (requested : BitVec 32) : Option (BitVec 32) :=
  if validateBpb (disk requested) then some requested
  else if requested ≠ 0 then none
  else if signed (disk 0) = false then none
  else
    match probeEntries disk bootableFat16 (List.range 4) (disk 0) with
    | .inl lba => some lba
    | .inr buffer =>
      match probeEntries disk fat16Type (List.range 4) buffer with
      | .inl lba => some lba
      | .inr _ => none

/-! What the search is to find. -/

def mountable (disk : Disk) (entry : Nat) : Bool :=
  fat16Type (disk 0) entry && validateBpb (disk (startLba (disk 0) entry))

def bestEntry (disk : Disk) : Option Nat :=
  ((List.range 4).find? fun entry => bootable (disk 0) entry && mountable disk entry).or
    ((List.range 4).find? (mountable disk))

def firstProbed (table : Sector) : Option Nat :=
  ((List.range 4).find? (bootableFat16 table)).or ((List.range 4).find? (fat16Type table))

/-- The first probe is the last. -/
def FirstProbeHolds (disk : Disk) : Prop := ∀ entry, firstProbed (disk 0) = some entry → mountable disk entry = true

variable {entries : List Nat}

theorem probeEntries_eq {disk : Disk} {wanted : Sector → Nat → Bool} {buffer : Sector}
    (valid : ∀ entry, entries.find? (wanted buffer) = some entry → validateBpb (disk (startLba buffer entry)) = true) :
    probeEntries disk wanted entries buffer =
      (entries.find? (wanted buffer)).elim (.inr buffer) fun entry => .inl (startLba buffer entry) := by
  induction entries with
  | nil => rfl
  | cons first rest ih =>
    rw [probeEntries]
    by_cases here : wanted buffer first = true
    · rw [List.find?_cons_of_pos here] at valid ⊢
      rw [if_pos here, if_pos (valid first rfl)]
      rfl
    · rw [List.find?_cons_of_neg here] at valid ⊢
      rw [if_neg here]
      exact ih valid

theorem find?_strengthen {weak strong : Nat → Bool}
    (imp : ∀ entry, strong entry = true → weak entry = true)
    (holds : ∀ entry, entries.find? weak = some entry → strong entry = true) :
    entries.find? strong = entries.find? weak := by
  induction entries with
  | nil => rfl
  | cons first rest ih =>
    by_cases here : weak first = true
    · rw [List.find?_cons_of_pos here] at holds ⊢
      exact List.find?_cons_of_pos (holds first rfl)
    · rw [List.find?_cons_of_neg here] at holds ⊢
      rw [List.find?_cons_of_neg (mt (imp first) here)]
      exact ih holds

/-- A boot sector with 64 sectors in one FAT of one sector. -/
def volumeSector : Sector := fun place =>
  if place = 510 then 0x55 else if place = 511 then 0xAA
  else if place = 12 then 2 else if place ∈ [13, 14, 16, 17, 22] then 1 else if place = 19 then 64 else 0

/-- An MBR with FAT16 entries at sectors 1 and 2. -/
def mbrSector : Sector := fun place =>
  if place = 510 then 0x55 else if place = 511 then 0xAA
  else if place ∈ [450, 466] then 6 else if place = 454 then 1 else if place = 470 then 2 else 0

def diskOf (first second : Sector) : Disk := fun lba =>
  if lba = 0 then mbrSector else if lba = 1 then first else if lba = 2 then second else fun _ => 0

end PhotonOS.Fat16
