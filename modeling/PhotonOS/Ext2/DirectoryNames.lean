import Mathlib

/-!
The names that EXT2 directory listings report. A walk checks the `rec_len` of a record and
copies its name by `name_len`.
-/

namespace PhotonOS.Ext2

abbrev Bytes := Nat → BitVec 8

def recLen (block : Bytes) (record : Nat) : Nat := (block (record + 4)).toNat + 256 * (block (record + 5)).toNat

def nameLen (block : Bytes) (record : Nat) : Nat := min (block (record + 6)).toNat 255

/-- A record in use that is neither `.` nor `..`. -/
def listed (block : Bytes) (record : Nat) : Bool :=
  (List.range 4).any (fun index => block (record + index) != 0) &&
    !(nameLen block record == 1 && block (record + 8) == 46) &&
    !(nameLen block record == 2 && block (record + 8) == 46 && block (record + 9) == 46)

/-- The walk over one block; every record it passes has at least 8 bytes. -/
def walkBlock (blockSize : Nat) (block : Bytes) : Nat → Nat → List Nat
  | 0, _ => []
  | fuel + 1, offset =>
    if blockSize ≤ offset ∨ recLen block offset < 8 ∨ offset + recLen block offset > blockSize then []
    else
      let rest := walkBlock blockSize block fuel (offset + recLen block offset)
      if listed block offset then offset :: rest else rest

/-- The records of a directory that get a name, each with its block. -/
def entries (blockSize : Nat) (blocks : List Bytes) : List (Bytes × Nat) :=
  blocks.flatMap fun block => (walkBlock blockSize block blockSize 0).map (block, ·)

/-- `ext2_vfs_readdir` counts the listed records up to `index`. -/
def vfsReaddir (blockSize : Nat) (blocks : List Bytes) (index : Nat) : Option (Bytes × Nat) :=
  (entries blockSize blocks)[index]?

/-- The records for which `ext2_mount_dir` creates a node, where the inode is read and the heap has room. -/
def mountNodes (created : Bytes × Nat → Bool) (blockSize : Nat) (blocks : List Bytes) : List (Bytes × Nat) :=
  (entries blockSize blocks).filter created

/-- The positions that `copy_name` reads, up to a NUL. -/
def copyName (block : Bytes) : Nat → Nat → List Nat
  | 0, _ => []
  | left + 1, position => if block position = 0 then [] else position :: copyName block left (position + 1)

def namePositions (entry : Bytes × Nat) : List Nat :=
  copyName entry.1 (min (nameLen entry.1 entry.2) 63) (entry.2 + 8)

def NameInside (entry : Bytes × Nat) : Prop :=
  ∀ position ∈ namePositions entry, entry.2 + 8 ≤ position ∧ position < entry.2 + recLen entry.1 entry.2

theorem copyName_inside {block : Bytes} {low bound : Nat} (left start : Nat) (above : low ≤ start)
    (room : start ≤ bound) : (∀ position ∈ copyName block left start, low ≤ position ∧ position < bound) ↔
      start + left ≤ bound ∨ ∃ position, start ≤ position ∧ position ≤ bound ∧ block position = 0 := by
  induction left generalizing start with
  | zero => simp [copyName, room]
  | succ left ih =>
    rw [copyName]
    by_cases ended : block start = 0
    · rw [if_pos ended]
      exact iff_of_true (by simp) (Or.inr ⟨start, le_rfl, room, ended⟩)
    rw [if_neg ended, List.forall_mem_cons]
    have later : ∀ position, start ≤ position → block position = 0 → start + 1 ≤ position := by
      intro position after zero
      rcases Nat.eq_or_lt_of_le after with rfl | later
      · exact absurd zero ended
      · exact later
    constructor
    · rintro ⟨first, rest⟩
      rcases (ih (start + 1) (by omega) first.2).mp rest with fits | ⟨position, after, inside, zero⟩
      · exact Or.inl (by omega)
      · exact Or.inr ⟨position, by omega, inside, zero⟩
    · rintro (fits | ⟨position, after, inside, zero⟩)
      · exact ⟨⟨above, by omega⟩, (ih (start + 1) (by omega) (by omega)).mpr (Or.inl (by omega))⟩
      · have next := later position after zero
        exact ⟨⟨above, by omega⟩,
          (ih (start + 1) (by omega) (by omega)).mpr (Or.inr ⟨position, next, inside, zero⟩)⟩

theorem walkBlock_recLen {blockSize : Nat} {block : Bytes} {fuel offset record : Nat}
    (found : record ∈ walkBlock blockSize block fuel offset) : 8 ≤ recLen block record := by
  induction fuel generalizing offset with
  | zero => simp [walkBlock] at found
  | succ fuel ih =>
    simp only [walkBlock] at found
    split at found
    · simp at found
    split at found
    · rcases List.mem_cons.mp found with rfl | later
      · omega
      · exact ih later
    · exact ih found

/-- The name fits its record, or ends in it or right behind it. -/
def NameFits (entry : Bytes × Nat) : Prop :=
  8 + min (nameLen entry.1 entry.2) 63 ≤ recLen entry.1 entry.2 ∨
    ∃ position, entry.2 + 8 ≤ position ∧ position ≤ entry.2 + recLen entry.1 entry.2 ∧ entry.1 position = 0

theorem names_inside_iff (blockSize : Nat) (blocks : List Bytes) :
    ((∀ index, ∀ entry ∈ vfsReaddir blockSize blocks index, NameInside entry) ∧
      ∀ created, ∀ entry ∈ mountNodes created blockSize blocks, NameInside entry) ↔
    ∀ entry ∈ entries blockSize blocks, NameFits entry := by
  have single : ∀ entry ∈ entries blockSize blocks, NameInside entry ↔ NameFits entry := by
    rintro ⟨block, record⟩ member
    obtain ⟨_, _, walked⟩ := List.mem_flatMap.mp member
    obtain ⟨_, found, same⟩ := List.mem_map.mp walked
    cases same
    have long := walkBlock_recLen found
    rw [NameInside, namePositions, copyName_inside _ _ le_rfl (by simpa using long)]
    simp only [Nat.add_assoc, Nat.add_le_add_iff_left, NameFits]
  constructor
  · rintro ⟨reported, _⟩ entry member
    obtain ⟨index, found⟩ := List.mem_iff_getElem?.mp member
    exact (single entry member).mp (reported index entry found)
  · intro fits
    have inside : ∀ entry ∈ entries blockSize blocks, NameInside entry :=
      fun entry member => (single entry member).mpr (fits entry member)
    exact ⟨fun _ entry found => inside entry (List.mem_of_getElem? found),
      fun _ entry found => inside entry (List.mem_of_mem_filter found)⟩

/-- A record of 12 bytes that claims a name of 5. -/
def overlong : Bytes := fun index => [1, 0, 0, 0, 12, 0, 5, 1, 97, 98, 99, 100, 101].getD index 0

theorem readdir_name_leaves_record : vfsReaddir 1024 [overlong] 0 = some (overlong, 0) ∧ ¬NameInside (overlong, 0) := by
  refine ⟨by rfl, fun inside => ?_⟩
  exact absurd (inside 12 (by decide)).2 (by decide)

end PhotonOS.Ext2
