import Mathlib

/-!
Mounting an EXT2 volume: what the untrusted superblock feeds into shifts, divisions and sizes.
A result `none` is a division by zero or a shift by 32 or more.
-/

namespace PhotonOS.Ext2

structure Superblock where
  magic : BitVec 16
  logBlockSize : BitVec 32
  blocksCount : BitVec 32
  blocksPerGroup : BitVec 32
  inodesPerGroup : BitVec 32
  revLevel : BitVec 32
  inodeSize : BitVec 16

structure Mounted where
  sb : Superblock
  blockSize : Nat
  numGroups : Nat
  sectorsToRead : Nat

def divide (left right : Nat) : Option Nat := if right = 0 then none else some (left / right)

def shiftLeft (left right : Nat) : Option Nat := if right < 32 then some (left * 2 ^ right % 2 ^ 32) else none

/-- `ext2_read_inode`, with the size in the inode that the heap and the disk let it find. -/
def readInode (mounted : Mounted) (inode : Nat) (found : Option Nat) : Option (Option Nat) := do
  if inode = 0 then return none
  let group ← divide (inode - 1) mounted.sb.inodesPerGroup.toNat
  if group ≥ mounted.numGroups then return none
  let inodeSize := if mounted.sb.revLevel = 0 then 128 else mounted.sb.inodeSize.toNat
  let _ ← divide ((inode - 1) % mounted.sb.inodesPerGroup.toNat * inodeSize % 2 ^ 32) mounted.blockSize
  return found

/-- The first and the last file block that `ext2_vfs_read` goes through. -/
def vfsRead (mounted : Mounted) (inode : Nat) (found : Option Nat) (offset size : Nat) : Option (Option (Nat × Nat)) := do
  let some length ← readInode mounted inode found | return none
  if offset ≥ length then return none
  let size := if (offset + size) % 2 ^ 64 > length then length - offset else size
  let start ← divide offset mounted.blockSize
  let last ← divide ((offset + size + (2 ^ 64 - 1)) % 2 ^ 64) mounted.blockSize
  return some (start % 2 ^ 32, last % 2 ^ 32)

/-- An inode that `ext2_mount_dir` reads; of a directory it counts the blocks. -/
structure Visit where
  inode : Nat
  found : Option Nat
  directory : Bool

def mountDir (mounted : Mounted) : List Visit → Option Unit
  | [] => some ()
  | visit :: rest => do
    if let some length ← readInode mounted visit.inode visit.found then
      if visit.directory then
        let _ ← divide ((length + mounted.blockSize + (2 ^ 32 - 1)) % 2 ^ 32) mounted.blockSize
    mountDir mounted rest

/-- What `ext2_mount_at` computes from the superblock. -/
def Superblock.mounted (sb : Superblock) : Option Mounted := do
  let blockSize ← shiftLeft 1024 sb.logBlockSize.toNat
  let numGroups ← divide ((sb.blocksCount.toNat + sb.blocksPerGroup.toNat + (2 ^ 32 - 1)) % 2 ^ 32)
    sb.blocksPerGroup.toNat
  return ⟨sb, blockSize, numGroups, (numGroups * 32 % 2 ^ 32 + 511) % 2 ^ 32 / 512⟩

/-- `ext2_mount_at`; `some none` is its return of 0. `kmalloc` of no bytes returns the null pointer. -/
def mountAt (superblockRead tableRead : Bool) (root : Option Nat) (visits : List Visit) (sb : Superblock) :
    Option (Option Mounted) := do
  if superblockRead = false ∨ sb.magic ≠ 0xEF53 then return none
  let mounted ← sb.mounted
  if mounted.sectorsToRead = 0 ∨ tableRead = false then return none
  mountDir mounted (⟨2, root, false⟩ :: visits)
  return some mounted

structure Sane (mounted : Mounted) : Prop where
  blockSize : mounted.blockSize = 1024 * 2 ^ mounted.sb.logBlockSize.toNat
  readInode : ∀ inode found, readInode mounted inode found ≠ none
  mountDir : ∀ visits, mountDir mounted visits ≠ none
  vfsRead : ∀ inode found offset size, vfsRead mounted inode found offset size ≠ none
  groups : mounted.numGroups =
    (mounted.sb.blocksCount.toNat + mounted.sb.blocksPerGroup.toNat - 1) / mounted.sb.blocksPerGroup.toNat
  covered : mounted.numGroups * 32 ≤ mounted.sectorsToRead * 512
  unwrapped : mounted.numGroups * 32 + 511 < 2 ^ 32

section

variable {mounted : Mounted} (groups : mounted.sb.inodesPerGroup.toNat ≠ 0) (size : mounted.blockSize ≠ 0)

include groups size

theorem readInode_returns (inode : Nat) (found : Option Nat) : readInode mounted inode found ≠ none := by
  simp only [readInode, divide, if_neg groups, if_neg size, Option.pure_def, Option.bind_eq_bind, Option.bind_some]
  split
  · exact Option.some_ne_none _
  split <;> exact Option.some_ne_none _

theorem mountDir_returns (visits : List Visit) : mountDir mounted visits ≠ none := by
  induction visits with
  | nil => exact Option.some_ne_none _
  | cons visit rest ih =>
    obtain ⟨length, read⟩ := Option.ne_none_iff_exists'.mp (readInode_returns groups size visit.inode visit.found)
    simp only [mountDir, divide, if_neg size, read]
    cases length <;> cases visit.directory <;> exact ih

theorem vfsRead_returns (inode : Nat) (found : Option Nat) (offset length : Nat) :
    vfsRead mounted inode found offset length ≠ none := by
  obtain ⟨bytes, read⟩ := Option.ne_none_iff_exists'.mp (readInode_returns groups size inode found)
  simp only [vfsRead, divide, if_neg size, read]
  cases bytes with
  | none => simp
  | some bytes =>
    simp only [Option.pure_def, Option.bind_eq_bind, Option.bind_some]
    split <;> simp

end

variable {sb : Superblock} {mounted : Mounted}

/-- A wrapped block count gives no group at all, and with it a table without sectors. -/
theorem Superblock.sane_iff (found : sb.mounted = some mounted) (sectors : mounted.sectorsToRead ≠ 0) :
    Sane mounted ↔ sb.inodesPerGroup ≠ 0 ∧ sb.logBlockSize ≤ 21 ∧ mounted.numGroups < 2 ^ 27 := by
  simp only [Superblock.mounted, shiftLeft, divide, Option.bind_eq_bind, Option.bind_eq_some_iff,
    Option.ite_none_left_eq_some, Option.ite_none_right_eq_some, Option.some.injEq, Option.pure_def] at found
  obtain ⟨_, ⟨_, rfl⟩, groups, ⟨divisor, count⟩, rfl⟩ := found
  dsimp only at sectors ⊢
  rw [BitVec.le_def]
  constructor
  · intro sane
    have size : 1024 * 2 ^ sb.logBlockSize.toNat % 2 ^ 32 = 1024 * 2 ^ sb.logBlockSize.toNat := sane.blockSize
    have unwrapped : groups * 32 + 511 < 2 ^ 32 := sane.unwrapped
    refine ⟨fun zero => sane.readInode 2 none ?_, ?_, by omega⟩
    · simp [readInode, divide, zero]
    · by_contra large
      have power : 2 ^ 22 ≤ 2 ^ sb.logBlockSize.toNat := Nat.pow_le_pow_right (by decide) (Nat.lt_of_not_le large)
      omega
  · rintro ⟨inodes, log, small⟩
    have inodes : sb.inodesPerGroup.toNat ≠ 0 := fun zero => inodes (BitVec.eq_of_toNat_eq zero)
    have power : 2 ^ sb.logBlockSize.toNat ≤ 2 ^ 21 := Nat.pow_le_pow_right (by decide) log
    have positive := Nat.two_pow_pos sb.logBlockSize.toNat
    have size : 1024 * 2 ^ sb.logBlockSize.toNat % 2 ^ 32 = 1024 * 2 ^ sb.logBlockSize.toNat := by omega
    have nonzero : 1024 * 2 ^ sb.logBlockSize.toNat % 2 ^ 32 ≠ 0 := by omega
    refine ⟨size, readInode_returns inodes nonzero, mountDir_returns inodes nonzero, vfsRead_returns inodes nonzero,
      ?_, ?_, ?_⟩ <;> dsimp only
    · have fits : sb.blocksCount.toNat + sb.blocksPerGroup.toNat - 1 < 2 ^ 32 := by
        by_contra wraps
        have none : groups = 0 := count.symm.trans (Nat.div_eq_of_lt (by omega))
        omega
      rw [← count, show (sb.blocksCount.toNat + sb.blocksPerGroup.toNat + (2 ^ 32 - 1)) % 2 ^ 32 =
        sb.blocksCount.toNat + sb.blocksPerGroup.toNat - 1 by omega]
    · omega
    · omega

end PhotonOS.Ext2
