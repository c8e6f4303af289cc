/-!
Reading a file through its cluster chain. `read_chain` ends at an end-of-chain or bad mark only;
every other link is followed, wherever it leads.
-/

namespace PhotonOS.Fat16

structure Volume where
  totalSectors : Nat
  dataLba : Nat
  sectorsPerFat : Nat
  sectorsPerCluster : Nat
  clustered : 0 < sectorsPerCluster
  fat : BitVec 16 → BitVec 16

variable (volume : Volume)

def clusterSize : Nat := volume.sectorsPerCluster * 512

def maxDataCluster : Nat :=
  if volume.totalSectors ≤ volume.dataLba then 1
  else if (volume.totalSectors - volume.dataLba) / volume.sectorsPerCluster = 0 ∨ volume.sectorsPerFat * 512 / 2 ≤ 2 then 1
  else min (min ((volume.totalSectors - volume.dataLba) / volume.sectorsPerCluster + 1)
    (volume.sectorsPerFat * 512 / 2 - 1)) (0xFFF7 - 1)

def ClusterIsData (cluster : BitVec 16) : Prop := 2 ≤ cluster.toNat ∧ cluster.toNat ≤ maxDataCluster volume

def endOfChain (cluster : BitVec 16) : Bool := 0xFFF8 ≤ cluster.toNat || cluster.toNat == 0xFFF7

/-- A read of the FAT entry of a cluster, or of one of its sectors. -/
inductive Access where
  | fatEntry (cluster : BitVec 16)
  | sector (cluster : BitVec 16) (index : Nat)
  deriving DecidableEq

def Access.cluster : Access → BitVec 16
  | .fatEntry cluster => cluster
  | .sector cluster _ => cluster

/-- The sectors of one cluster that are copied from, and the bytes copied then. -/
def copySectors (offset size : Nat) : List Nat → Nat → List Nat × Nat
  | [], copied => ([], copied)
  | sector :: sectors, copied =>
    if size ≤ copied ∨ sector * 512 + 512 ≤ offset then copySectors offset size sectors copied
    else
      let rest := copySectors offset size sectors (copied + min (512 - (offset - sector * 512)) (size - copied))
      (sector :: rest.1, rest.2)

/-- The loop that copies; every turn copies a byte, so `size` turns are enough. -/
def copyClusters (size : Nat) : Nat → BitVec 16 → Nat → Nat → List Access
  | 0, _, _, _ => []
  | fuel + 1, cluster, offset, copied =>
    if size ≤ copied ∨ endOfChain cluster then []
    else
      let turn := copySectors offset size (List.range' 0 volume.sectorsPerCluster) copied
      turn.1.map (.sector cluster) ++
        if turn.2 < size then .fatEntry cluster :: copyClusters size fuel (volume.fat cluster) 0 turn.2 else []

/-- The loop that skips clusters, and what comes after it. -/
def skipClusters (copy : BitVec 16 → List Access) : Nat → BitVec 16 → List Access
  | 0, cluster => copy cluster
  | count + 1, cluster =>
    .fatEntry cluster ::
      if endOfChain (volume.fat cluster) then [] else skipClusters copy count (volume.fat cluster)

/-- What `read_chain` reads, in order. A read that fails ends it. -/
def readChain (first : BitVec 16) (fileSize offset size : Nat) : List Access :=
  if first.toNat < 2 ∨ fileSize ≤ offset then []
  else
    let size := min size (fileSize - offset)
    skipClusters volume (copyClusters volume size size · (offset % clusterSize volume) 0) (offset / clusterSize volume)
      first

def Inside (accesses : List Access) : Prop := ∀ access ∈ accesses, ClusterIsData volume access.cluster

/-- The first `count` clusters of a chain are data clusters, as far as it goes. -/
def ChainInside : Nat → BitVec 16 → Prop
  | 0, _ => True
  | count + 1, cluster =>
    endOfChain cluster = true ∨ ClusterIsData volume cluster ∧ ChainInside count (volume.fat cluster)

/-- The clusters from the start of the file to the end of the range. -/
def clustersTo (offset size : Nat) : Nat :=
  offset / clusterSize volume + if size = 0 then 0 else (offset % clusterSize volume + size - 1) / clusterSize volume + 1

variable {volume} {cluster : BitVec 16} {size offset : Nat}

theorem ClusterIsData.goesOn (data : ClusterIsData volume cluster) : endOfChain cluster = false := by
  have small : maxDataCluster volume < 0xFFF7 := by
    unfold maxDataCluster
    split
    · decide
    · split <;> omega
  have below := Nat.lt_of_le_of_lt data.2 small
  simp only [endOfChain, Bool.or_eq_false_iff, decide_eq_false_iff_not, beq_eq_false_iff_ne]
  omega

theorem inside_cons {access : Access} {accesses : List Access} :
    Inside volume (access :: accesses) ↔ ClusterIsData volume access.cluster ∧ Inside volume accesses :=
  List.forall_mem_cons

theorem skipClusters_inside {copy : BitVec 16 → List Access} {more : Nat}
    (copies : ∀ cluster, Inside volume (copy cluster) ↔ ChainInside volume more cluster) (count : Nat) :
    Inside volume (skipClusters volume copy count cluster) ↔
      (count = 0 ∨ ClusterIsData volume cluster) ∧ ChainInside volume (count + more) cluster := by
  induction count generalizing cluster with
  | zero => simp [skipClusters, copies]
  | succ count ih =>
    rw [skipClusters, inside_cons, Nat.succ_add, ChainInside]
    by_cases data : ClusterIsData volume cluster
    · cases ended : endOfChain (volume.fat cluster) with
      | true =>
        have past : ChainInside volume (count + more) (volume.fat cluster) := by
          cases count + more with
          | zero => trivial
          | succ _ => exact Or.inl ended
        simp [data, past, Inside, Access.cluster]
      | false =>
        have first : ChainInside volume (count + more) (volume.fat cluster) →
            count = 0 ∨ ClusterIsData volume (volume.fat cluster) := by
          cases count with
          | zero => simp
          | succ count => simp +contextual [Nat.succ_add, ChainInside, ended]
        simp [data, data.goesOn, ih, Access.cluster, and_iff_right_of_imp first]
    · simp [data, Access.cluster]

theorem copySectors_copied (count start copied : Nat) (bound : copied ≤ size) :
    (copySectors offset size (List.range' start count) copied).2 =
      min size (copied + ((start + count) * 512 - max offset (start * 512))) := by
  induction count generalizing start copied with
  | zero =>
    simp only [List.range'_zero, copySectors]
    omega
  | succ count ih =>
    rw [List.range'_succ, copySectors]
    split
    · rw [ih _ _ bound]
      omega
    · dsimp only
      rw [ih _ _ (by omega)]
      omega

theorem copySectors_nil {sectors : List Nat} {copied : Nat} (nothing : (copySectors offset size sectors copied).1 = []) :
    (copySectors offset size sectors copied).2 = copied := by
  induction sectors generalizing copied with
  | nil => rfl
  | cons sector sectors ih =>
    rw [copySectors] at nothing ⊢
    split
    next skipped =>
      rw [if_pos skipped] at nothing
      exact ih nothing
    next taken =>
      rw [if_neg taken] at nothing
      cases nothing

theorem copyClusters_inside (fuel copied : Nat) (unfinished : copied < size) (enough : size ≤ copied + fuel)
    (within : offset < clusterSize volume) : Inside volume (copyClusters volume size fuel cluster offset copied) ↔
      ChainInside volume ((offset + (size - copied) - 1) / clusterSize volume + 1) cluster := by
  induction fuel generalizing cluster offset copied with
  | zero => omega
  | succ fuel ih =>
    rw [copyClusters, ChainInside]
    cases ended : endOfChain cluster with
    | true => simp [Inside]
    | false =>
      have turn := @copySectors_copied size offset volume.sectorsPerCluster 0 copied (by omega)
      rw [Nat.zero_add, Nat.zero_mul, Nat.max_zero, ← clusterSize] at turn
      have some : (copySectors offset size (List.range' 0 volume.sectorsPerCluster) copied).1 ≠ [] := by
        intro nothing
        have same := copySectors_nil nothing
        omega
      have data : Inside volume ((copySectors offset size (List.range' 0 volume.sectorsPerCluster) copied).1.map
          (.sector cluster)) ↔ ClusterIsData volume cluster := by
        simp only [Inside, List.forall_mem_map, Access.cluster]
        exact ⟨fun all => (List.exists_mem_of_ne_nil _ some).elim all, fun data _ _ => data⟩
      have apart : ∀ {first second : List Access},
          Inside volume (first ++ second) ↔ Inside volume first ∧ Inside volume second := List.forall_mem_append
      simp only [Bool.false_eq_true, or_false, if_neg (Nat.not_le_of_lt unfinished), apart, data, turn, false_or]
      split
      next more =>
        have next : offset + (size - copied) - 1 =
            0 + (size - min size (copied + (clusterSize volume - offset))) - 1 + clusterSize volume := by omega
        rw [inside_cons, ih _ more (by omega) (by omega), next, Nat.add_div_right _ (by omega), Access.cluster]
        simp
      next last =>
        rw [Nat.div_eq_of_lt (by omega)]
        simp [Inside, ChainInside]

/-- `read_chain` stays in the data area exactly when it reads nothing, or all clusters up to the end of the range
are data clusters. -/
theorem readChain_inside_iff (volume : Volume) (first : BitVec 16) (fileSize offset size : Nat) :
    (∀ reads, Inside volume ((readChain volume first fileSize offset size).take reads)) ↔
      first.toNat < 2 ∨ fileSize ≤ offset ∨ (offset / clusterSize volume = 0 ∨ ClusterIsData volume first) ∧
        ChainInside volume (clustersTo volume offset (min size (fileSize - offset))) first := by
  have whole : ∀ accesses, (∀ reads, Inside volume (accesses.take reads)) ↔ Inside volume accesses :=
    fun accesses => ⟨fun all => accesses.take_length ▸ all _, fun inside _ _ member => inside _ (List.mem_of_mem_take member)⟩
  rw [whole, readChain, ← or_assoc]
  split
  next refused => exact iff_of_true (by simp [Inside]) (Or.inl refused)
  next refused =>
    rw [or_iff_right refused]
    refine skipClusters_inside (fun cluster => ?_) _
    split
    next empty => simp [empty, copyClusters, Inside, ChainInside]
    next some =>
      exact copyClusters_inside _ 0 (Nat.pos_of_ne_zero some) (by omega)
        (Nat.mod_lt _ (Nat.mul_pos volume.clustered (by decide)))

/-- The chain of cluster 2 goes on to the free mark 0. -/
def freeLink : Volume := ⟨1000, 100, 10, 1, by decide, fun cluster => if cluster = 2 then 0 else 0xFFFF⟩

theorem readChain_follows_free_link : Access.sector 0 0 ∈ readChain freeLink 2 1024 0 1024 ∧
    ¬ClusterIsData freeLink 0 := by
  refine ⟨?_, fun data => absurd data.1 (by decide)⟩
  decide

end PhotonOS.Fat16
