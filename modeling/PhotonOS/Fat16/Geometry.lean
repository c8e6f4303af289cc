import PhotonOS.Fat16.Partitions
import PhotonOS.Fat16.ReadChain
import Mathlib

/-!
The layout of a FAT16 volume. The functions compute with 32-bit words; a result `none` is one that wraps.
-/

namespace PhotonOS.Fat16

def word (value : Nat) : Option Nat := if value < 2 ^ 32 then some value else none

def minus (left right : Nat) : Option Nat := if right ≤ left then some (left - right) else none

def rootDirSectors (sector : Sector) : Option Nat := do
  let bytes ← word (fieldAt sector 17 2 * 32)
  let rounded ← minus (← word (bytes + fieldAt sector 11 2)) 1
  return rounded / fieldAt sector 11 2

theorem sectorsPerCluster_pos {sector : Sector} (valid : validateBpb sector = true) : 0 < (sector 13).toNat := by
  simp only [validateBpb, isPowerOfTwo, Bool.and_eq_true, bne_iff_ne] at valid
  exact Nat.pos_of_ne_zero fun zero => valid.1.1.1.1.1.2.1 (UInt8.toNat_inj.mp zero)

/-- `load_bpb_at` on a sector that passes the check. -/
def loadBpb (fat : BitVec 16 → BitVec 16) (sector : Sector) (valid : validateBpb sector = true) : Option Volume := do
  let rootDir ← rootDirSectors sector
  let rootLba ← word (fieldAt sector 14 2 + (← word ((sector 16).toNat * fieldAt sector 22 2)))
  return ⟨totalSectors sector, ← word (rootLba + rootDir), fieldAt sector 22 2, (sector 13).toNat,
    sectorsPerCluster_pos valid, fat⟩

def maxDataClusterWord (volume : Volume) : Option Nat :=
  if volume.totalSectors ≤ volume.dataLba then some 1
  else do
    let dataClusters := (← minus volume.totalSectors volume.dataLba) / volume.sectorsPerCluster
    let fatEntries := (← word (volume.sectorsPerFat * 512)) / 2
    if dataClusters = 0 ∨ fatEntries ≤ 2 then return 1
    let maxCluster ← word (dataClusters + 1)
    let maxCluster ← if fatEntries ≤ maxCluster then minus fatEntries 1 else some maxCluster
    return if 0xFFF7 ≤ maxCluster then 0xFFF7 - 1 else maxCluster

/-- `cluster_to_lba` from the start of the partition. -/
def clusterToLba (volume : Volume) (cluster : BitVec 16) : Option Nat := do
  word (volume.dataLba + (← word ((← minus cluster.toNat 2) * volume.sectorsPerCluster)))

/-- The sectors of a cluster. -/
def clusterSectors (volume : Volume) (cluster : BitVec 16) : Set Nat :=
  {sector | ∃ lba, clusterToLba volume cluster = some lba ∧ lba ≤ sector ∧ sector < lba + volume.sectorsPerCluster}

variable {sector : Sector} {volume : Volume} {cluster other : BitVec 16}

theorem word_eq {value : Nat} (small : value < 2 ^ 32) : word value = some value := if_pos small

theorem minus_eq {left right : Nat} (le : right ≤ left) : minus left right = some (left - right) := if_pos le

theorem fieldAt_lt (offset count : Nat) : fieldAt sector offset count < 256 ^ count := by
  simpa [fieldAt, Bytes.ofBytes] using
    Bytes.foldl_lt ((List.range count).map fun place => sector (offset + place)).reverse 0

theorem loadBpb_eq (fat : BitVec 16 → BitVec 16) (valid : validateBpb sector = true) :
    ∃ volume, loadBpb fat sector valid = some volume ∧ 1 ≤ volume.dataLba ∧ volume.totalSectors < 2 ^ 32 ∧
      volume.sectorsPerFat < 2 ^ 16 := by
  have bounds : ∀ offset, fieldAt sector offset 2 < 2 ^ 16 := fun offset => fieldAt_lt offset 2
  have entries := bounds 17
  have reserved := bounds 14
  have perFat := bounds 22
  have total : totalSectors sector < 2 ^ 32 := by
    have wide : fieldAt sector 32 4 < 2 ^ 32 := fieldAt_lt 32 4
    have narrow := bounds 19
    unfold totalSectors
    split <;> omega
  have checked := valid
  simp only [validateBpb, Bool.and_eq_true, bne_iff_ne, beq_iff_eq] at checked
  obtain ⟨⟨⟨⟨⟨⟨⟨_, bytes⟩, _⟩, some⟩, _⟩, _⟩, _⟩, _⟩ := checked
  have fats : (sector 16).toNat * fieldAt sector 22 2 < 2 ^ 8 * 2 ^ 16 := Nat.mul_lt_mul'' (sector 16).toNat_lt perFat
  simp (disch := omega) only [loadBpb, rootDirSectors, bytes, word_eq, minus_eq, Option.bind_eq_bind, Option.bind_some,
    Option.pure_def]
  refine ⟨_, rfl, ?_, total, perFat⟩
  dsimp only
  omega

/-- What the layout of a volume guarantees. The FAT entry of a cluster is in sector `2 * cluster / 512` of each copy. -/
structure Layout (volume : Volume) : Prop where
  maxCluster : maxDataClusterWord volume = some (maxDataCluster volume)
  entry : ∀ cluster, ClusterIsData volume cluster →
    2 * cluster.toNat / 512 < volume.sectorsPerFat ∧ 2 * cluster.toNat % 512 + 2 ≤ 512
  lba : ∀ cluster, ClusterIsData volume cluster → (clusterToLba volume cluster).isSome = true
  inside : ∀ cluster, ClusterIsData volume cluster →
    clusterSectors volume cluster ⊆ Set.Ico volume.dataLba volume.totalSectors
  apart : ∀ cluster other, ClusterIsData volume cluster → ClusterIsData volume other → cluster ≠ other →
    Disjoint (clusterSectors volume cluster) (clusterSectors volume other)

theorem maxDataCluster_bounds (data : ClusterIsData volume cluster) : volume.dataLba < volume.totalSectors ∧
    cluster.toNat - 1 ≤ (volume.totalSectors - volume.dataLba) / volume.sectorsPerCluster ∧
    cluster.toNat < volume.sectorsPerFat * 512 / 2 := by
  obtain ⟨low, high⟩ := data
  unfold maxDataCluster at high
  split at high
  · omega
  · split at high <;> omega

theorem clusterToLba_eq (small : volume.totalSectors < 2 ^ 32) (data : ClusterIsData volume cluster) :
    clusterToLba volume cluster = some (volume.dataLba + (cluster.toNat - 2) * volume.sectorsPerCluster) ∧
      volume.dataLba + (cluster.toNat - 2) * volume.sectorsPerCluster + volume.sectorsPerCluster ≤
        volume.totalSectors := by
  obtain ⟨room, clusters, _⟩ := maxDataCluster_bounds data
  have low := data.1
  have fits : (cluster.toNat - 2) * volume.sectorsPerCluster + volume.sectorsPerCluster ≤
      volume.totalSectors - volume.dataLba := calc
    _ = (cluster.toNat - 1) * volume.sectorsPerCluster := by
      rw [← Nat.succ_mul]
      congr 1
      omega
    _ ≤ _ := (Nat.mul_le_mul_right _ clusters).trans (Nat.div_mul_le_self _ _)
  refine ⟨?_, by omega⟩
  simp (disch := omega) only [clusterToLba, minus_eq, word_eq, Option.bind_eq_bind, Option.bind_some]

theorem maxDataClusterWord_eq (positive : 1 ≤ volume.dataLba) (small : volume.totalSectors < 2 ^ 32)
    (perFat : volume.sectorsPerFat < 2 ^ 16) : maxDataClusterWord volume = some (maxDataCluster volume) := by
  have clusters := Nat.div_le_self (volume.totalSectors - volume.dataLba) volume.sectorsPerCluster
  unfold maxDataClusterWord maxDataCluster
  split
  · rfl
  simp (disch := omega) only [minus_eq, word_eq, Option.bind_eq_bind, Option.bind_some, Option.pure_def]
  split
  · rfl
  split
  · rw [Option.some.injEq]
    split <;> omega
  · rw [Option.some.injEq]
    split <;> omega

/-- A sector of a cluster tells its number. -/
theorem cluster_of_sector (small : volume.totalSectors < 2 ^ 32) (data : ClusterIsData volume cluster) {place : Nat}
    (member : place ∈ clusterSectors volume cluster) : volume.dataLba ≤ place ∧ place < volume.totalSectors ∧
      (place - volume.dataLba) / volume.sectorsPerCluster = cluster.toNat - 2 := by
  obtain ⟨lba, found, low, high⟩ := member
  obtain ⟨start, fits⟩ := clusterToLba_eq small data
  obtain rfl := Option.some.inj (start.symm.trans found)
  refine ⟨by omega, by omega, Nat.div_eq_of_lt_le (by omega) ?_⟩
  rw [Nat.succ_mul]
  omega

/-- Every sector that passes `validate_bpb` lays its volume out without a wrap. -/
theorem layout_of_validateBpb (fat : BitVec 16 → BitVec 16) (sector : Sector) (valid : validateBpb sector = true) :
    ∃ volume, loadBpb fat sector valid = some volume ∧ Layout volume := by
  obtain ⟨volume, loaded, positive, small, perFat⟩ := loadBpb_eq fat valid
  refine ⟨volume, loaded, maxDataClusterWord_eq positive small perFat, ?_, ?_, ?_, ?_⟩
  · intro cluster data
    obtain ⟨_, _, entries⟩ := maxDataCluster_bounds data
    omega
  · intro cluster data
    rw [(clusterToLba_eq small data).1]
    rfl
  · intro cluster data place member
    obtain ⟨low, high, _⟩ := cluster_of_sector small data member
    exact ⟨low, high⟩
  · intro cluster other data otherData distinct
    refine Set.disjoint_left.mpr fun place member otherMember => distinct (BitVec.eq_of_toNat_eq ?_)
    have left := (cluster_of_sector small data member).2.2
    have right := (cluster_of_sector small otherData otherMember).2.2
    have low := data.1
    have otherLow := otherData.1
    omega

theorem layout_of_volumeSector :
    ∃ volume, loadBpb id volumeSector (by decide +kernel) = some volume ∧ Layout volume :=
  layout_of_validateBpb id volumeSector _

end PhotonOS.Fat16
