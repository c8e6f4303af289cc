import Mathlib.Data.Finset.Card
import PhotonOS.Exec.Loader
import PhotonOS.Vmm.NextTable

/-!
The page tables of an image under construction.
-/

namespace PhotonOS.Exec

open Function Machine

variable {level : Nat → Option Nat} {machine after : Machine} {block index frame : Nat}
    {words : Nat → BitVec 64}

def Supervisor (level : Nat → Option Nat) (depth : Nat) (entry : BitVec 64) : Prop :=
  hasFlag entry pageUser = false ∧ (hasFlag entry pagePresent = true →
    ∃ next, entryTable entry = frameAddress next ∧ 0 < next ∧ next < frameLimit ∧ level next = some depth)

/-- The kernel's own tables; `level` is 3 for the PML4 and 0 for a page table. -/
structure KernelTables (machine : Machine) (level : Nat → Option Nat) : Prop where
  total : machine.pmm.total ≤ pmmMaxBlocks
  reserved : 0 < machine.pmm.reserved
  guarded : ∀ frame, frame < machine.pmm.reserved → machine.pmm.bitmap frame = true
  root : ∃ frame, machine.kernelPml4 = frameAddress frame ∧ 0 < frame ∧ frame < frameLimit ∧ level frame = some 3
  used : ∀ frame depth, level frame = some depth → machine.pmm.bitmap frame = true
  entry : ∀ frame depth index, level frame = some (depth + 1) → index < 512 →
    Supervisor level depth (machine.mem frame index)

theorem supervisor_zero {depth : Nat} : Supervisor level depth 0 := by
  refine ⟨hasFlag_zero _, ?_⟩
  intro present
  cases present

theorem kernelTables_empty {root : Nat} (total : machine.pmm.total ≤ pmmMaxBlocks)
    (reserved : 0 < machine.pmm.reserved)
    (guarded : ∀ frame, frame < machine.pmm.reserved → machine.pmm.bitmap frame = true)
    (kernelPml4 : machine.kernelPml4 = frameAddress root) (positive : 0 < root) (bound : root < frameLimit)
    (used : machine.pmm.bitmap root = true) (empty : ∀ index, machine.mem root index = 0) :
    KernelTables machine fun frame => if frame = root then some 3 else none where
  total := total
  reserved := reserved
  guarded := guarded
  root := ⟨root, kernelPml4, positive, bound, if_pos rfl⟩
  used := by
    intro frame depth table
    split at table
    next same => rwa [same]
    · cases table
  entry := by
    intro frame depth index table _
    split at table
    next same =>
      rw [same, empty]
      exact supervisor_zero
    · cases table

theorem KernelTables.congr (kernel : KernelTables machine level) (total : after.pmm.total = machine.pmm.total)
    (reserved : after.pmm.reserved = machine.pmm.reserved) (kernelPml4 : after.kernelPml4 = machine.kernelPml4)
    (used : ∀ frame, machine.pmm.bitmap frame = true → after.pmm.bitmap frame = true)
    (memory : ∀ frame, machine.pmm.bitmap frame = true → after.mem frame = machine.mem frame) :
    KernelTables after level where
  total := total ▸ kernel.total
  reserved := reserved ▸ kernel.reserved
  guarded frame low := used frame (kernel.guarded frame (reserved ▸ low))
  root := kernelPml4 ▸ kernel.root
  used frame depth table := used frame (kernel.used frame depth table)
  entry := by
    intro frame depth index table small
    rw [memory frame (kernel.used frame _ table)]
    exact kernel.entry frame depth index table small

/-! The frames that are left. -/

def freeFrames (machine : Machine) : Nat :=
  ((Finset.range machine.pmm.total).filter fun frame => machine.pmm.bitmap frame = false).card

def starved (machine : Machine) : Machine := { machine with pmm := { machine.pmm with exhausted := true } }

theorem freeFrames_taken (small : block < machine.pmm.total) (clear : machine.pmm.bitmap block = false) :
    freeFrames (machine.taken block) + 1 = freeFrames machine := by
  have member : block ∈ (Finset.range machine.pmm.total).filter fun frame => machine.pmm.bitmap frame = false := by
    simp [small, clear]
  have erased : ((Finset.range machine.pmm.total).filter fun frame => (machine.taken block).pmm.bitmap frame = false) =
      ((Finset.range machine.pmm.total).filter fun frame => machine.pmm.bitmap frame = false).erase block := by
    ext frame
    by_cases same : frame = block
    · simp [taken, same]
    · simp [taken, same]
  rw [freeFrames, freeFrames, ← Finset.card_erase_add_one member, ← erased]
  rfl

theorem pmmAlloc_counts (machine : Machine) : (freeFrames machine = 0 ∧ pmmAlloc machine = (starved machine, 0)) ∨
      ∃ block, block < machine.pmm.total ∧ machine.pmm.bitmap block = false ∧
        pmmAlloc machine = (machine.taken block, frameAddress block) := by
  unfold pmmAlloc
  cases found : (List.range machine.pmm.total).find? fun block => !machine.pmm.bitmap block with
  | none =>
    refine Or.inl ⟨?_, rfl⟩
    rw [freeFrames, Finset.card_eq_zero, Finset.filter_eq_empty_iff]
    intro frame member clear
    have used := List.find?_eq_none.mp found frame (by simpa using member)
    simp [clear] at used
  | some block =>
    refine Or.inr ⟨block, List.mem_range.mp (List.mem_of_find?_eq_some found), ?_, rfl⟩
    simpa using List.find?_some found

/-! The image. -/

inductive Part where
  | table (path : List Nat)
  | page
  deriving DecidableEq

def OwnSlot (path : List Nat) : Prop := ∃ slot ∈ path.head?, 1 ≤ slot ∧ slot ≤ 255

structure Image (base : Machine) (level : Nat → Option Nat) (machine : Machine) (root : Nat)
    (parts : Nat → Option Part) : Prop where
  total : machine.pmm.total = base.pmm.total
  reserved : machine.pmm.reserved = base.pmm.reserved
  kernelPml4 : machine.kernelPml4 = base.kernelPml4
  bitmap : ∀ frame, machine.pmm.bitmap frame = (base.pmm.bitmap frame || (parts frame).isSome)
  fresh : ∀ frame, parts frame ≠ none → base.pmm.bitmap frame = false ∧ frame < base.pmm.total
  single : ∀ frame, parts frame ≠ none → machine.pmm.refcounts frame = 1
  counts : ∀ frame, base.pmm.bitmap frame = true → machine.pmm.refcounts frame = base.pmm.refcounts frame
  memory : ∀ frame, base.pmm.bitmap frame = true → machine.mem frame = base.mem frame
  rootPart : ∀ frame, parts frame = some (.table []) ↔ frame = root
  entry : ∀ frame path index, parts frame = some (.table path) → path.length < 3 → index < 512 →
    (Supervisor level (2 - path.length) (machine.mem frame index) ∧
      (OwnSlot (path ++ [index]) → machine.mem frame index = 0)) ∨
      ∃ next, machine.mem frame index = makeEntry next userTable ∧ parts next = some (.table (path ++ [index]))
  parent : ∀ next path index, parts next = some (.table (path ++ [index])) → path.length < 3 ∧ index < 512 ∧
    ∃ frame, parts frame = some (.table path) ∧ machine.mem frame index = makeEntry next userTable

namespace Image

variable {base machine : Machine} {level : Nat → Option Nat} {root : Nat} {parts : Nat → Option Part} {part : Part}
    {frame block next : Nat} {path : List Nat}

section

variable (kernel : KernelTables base level) (image : Image base level machine root parts)
include kernel image

theorem bound (used : parts frame ≠ none) : frame < frameLimit ∧ 0 < frame ∧ base.pmm.reserved ≤ frame := by
  obtain ⟨clear, small⟩ := image.fresh frame used
  have total := kernel.total
  have reserved := kernel.reserved
  have high : base.pmm.reserved ≤ frame := by
    by_contra low
    rw [kernel.guarded frame (Nat.lt_of_not_le low)] at clear
    cases clear
  simp only [pmmMaxBlocks, frameLimit] at total ⊢
  omega

theorem table_bound (table : parts frame = some (.table path)) : frame < frameLimit ∧ 0 < frame := by
  have used : parts frame ≠ none := by
    rw [table]
    simp
  exact ⟨(image.bound kernel used).1, (image.bound kernel used).2.1⟩

theorem spare (small : block < machine.pmm.total) (clear : machine.pmm.bitmap block = false) :
    parts block = none ∧ base.pmm.bitmap block = false ∧ block < base.pmm.total ∧ block < frameLimit ∧ 0 < block := by
  rw [image.bitmap, Bool.or_eq_false_iff] at clear
  have total := kernel.total
  have reserved := kernel.reserved
  have sameTotal := image.total
  have positive : 0 < block := by
    by_contra zero
    rw [kernel.guarded block (by omega)] at clear
    cases clear.1
  simp only [pmmMaxBlocks, frameLimit] at total ⊢
  refine ⟨by simpa using clear.2, clear.1, by omega, by omega, positive⟩

end

section

variable (image : Image base level machine root parts)
include image

theorem change {partsAfter : Nat → Option Part}
    (total : after.pmm.total = machine.pmm.total) (reserved : after.pmm.reserved = machine.pmm.reserved)
    (kernelPml4 : after.kernelPml4 = machine.kernelPml4)
    (bitmap : ∀ frame, after.pmm.bitmap frame = (base.pmm.bitmap frame || (partsAfter frame).isSome))
    (fresh : ∀ frame, partsAfter frame ≠ none → base.pmm.bitmap frame = false ∧ frame < base.pmm.total)
    (single : ∀ frame, partsAfter frame ≠ none → after.pmm.refcounts frame = 1)
    (counts : ∀ frame, base.pmm.bitmap frame = true → after.pmm.refcounts frame = machine.pmm.refcounts frame)
    (memory : ∀ frame, base.pmm.bitmap frame = true → after.mem frame = machine.mem frame)
    (tables : ∀ frame path, partsAfter frame = some (.table path) ↔ parts frame = some (.table path))
    (contents : ∀ frame path, parts frame = some (.table path) → path.length < 3 →
      after.mem frame = machine.mem frame) : Image base level after root partsAfter where
  total := total.trans image.total
  reserved := reserved.trans image.reserved
  kernelPml4 := kernelPml4.trans image.kernelPml4
  bitmap := bitmap
  fresh := fresh
  single := single
  counts frame set := (counts frame set).trans (image.counts frame set)
  memory frame set := (memory frame set).trans (image.memory frame set)
  rootPart frame := (tables frame []).trans (image.rootPart frame)
  entry := by
    intro frame path index table short small
    rw [tables] at table
    simp only [contents frame path table short, tables]
    exact image.entry frame path index table short small
  parent := by
    intro next path index table
    rw [tables] at table
    obtain ⟨short, small, frame, owner, value⟩ := image.parent next path index table
    exact ⟨short, small, frame, (tables frame path).mpr owner, by rw [contents frame path owner short, value]⟩

theorem starved : Image base level (starved machine) root parts :=
  image.change rfl rfl rfl image.bitmap image.fresh image.single (fun _ _ => rfl) (fun _ _ => rfl)
    (fun _ _ => Iff.rfl) (fun _ _ _ _ => rfl)

theorem not_base (own : parts frame = some part) : base.pmm.bitmap frame = false :=
  (image.fresh frame (by rw [own]; simp)).1

theorem taken_bitmap (frame : Nat) : (machine.taken block).pmm.bitmap frame =
      (base.pmm.bitmap frame || (update parts block (some part) frame).isSome) := by
  by_cases same : frame = block
  · simp [taken, same]
  · rw [update_of_ne same, ← image.bitmap]
    exact if_neg same

end

theorem taken_fresh (kernel : KernelTables base level) (image : Image base level machine root parts)
    (small : block < machine.pmm.total) (clear : machine.pmm.bitmap block = false) :
    ∀ frame, update parts block (some part) frame ≠ none →
      base.pmm.bitmap frame = false ∧ frame < base.pmm.total := by
  intro frame used
  by_cases same : frame = block
  · obtain ⟨_, free, low, _⟩ := image.spare kernel small clear
    exact same ▸ ⟨free, low⟩
  · rw [update_of_ne same] at used
    exact image.fresh frame used

theorem taken_single (image : Image base level machine root parts) :
    ∀ frame, update parts block (some part) frame ≠ none → (machine.taken block).pmm.refcounts frame = 1 := by
  intro frame used
  by_cases same : frame = block
  · exact if_pos same
  · rw [update_of_ne same] at used
    exact (if_neg same).trans (image.single frame used)

section

variable (kernel : KernelTables base level) (image : Image base level machine root parts)
include kernel image

theorem addPage (small : block < machine.pmm.total) (clear : machine.pmm.bitmap block = false)
    (words : Nat → BitVec 64) : Image base level ((machine.taken block).fill (frameAddress block) words) root
      (update parts block (some .page)) := by
  obtain ⟨unused, free, _, bound, _⟩ := image.spare kernel small clear
  have contents : ∀ frame, frame ≠ block →
      ((machine.taken block).fill (frameAddress block) words).mem frame = machine.mem frame := by
    intro frame apart
    funext index
    rw [fill_mem _ bound, if_neg apart]
    rfl
  have outside : ∀ frame, base.pmm.bitmap frame = true → frame ≠ block := by
    rintro frame set rfl
    rw [free] at set
    cases set
  refine image.change rfl rfl rfl image.taken_bitmap (image.taken_fresh kernel small clear)
    image.taken_single ?_ ?_ ?_ ?_
  · intro frame set
    exact if_neg (outside frame set)
  · intro frame set
    exact contents frame (outside frame set)
  · intro frame path
    by_cases same : frame = block
    · rw [same, update_self, unused]
      simp
    · rw [update_of_ne same]
  · intro frame path table _
    apply contents
    rintro rfl
    rw [unused] at table
    cases table

theorem fillPage (page : parts block = some .page) :
    Image base level (machine.fill (frameAddress block) words) root parts := by
  have bound : block < frameLimit := (image.bound kernel (by rw [page]; simp)).1
  have contents : ∀ frame, frame ≠ block → (machine.fill (frameAddress block) words).mem frame = machine.mem frame := by
    intro frame apart
    funext index
    rw [fill_mem _ bound, if_neg apart]
  refine image.change rfl rfl rfl image.bitmap image.fresh image.single (fun _ _ => rfl) ?_ (fun _ _ => Iff.rfl) ?_
  · intro frame set
    apply contents
    rintro rfl
    rw [image.not_base page] at set
    cases set
  · intro frame path table _
    apply contents
    rintro rfl
    rw [page] at table
    cases table

theorem writeLeaf {pt : Nat} (table : parts pt = some (.table path)) (full : path.length = 3) {entry : BitVec 64} :
    Image base level (machine.write (frameAddress pt) index entry) root parts := by
  have bound := (image.table_bound kernel table).1
  have contents : ∀ frame, frame ≠ pt → (machine.write (frameAddress pt) index entry).mem frame = machine.mem frame := by
    intro frame apart
    funext place
    rw [write_mem _ bound, if_neg (fun both => apart both.1)]
  refine image.change rfl rfl rfl image.bitmap image.fresh image.single (fun _ _ => rfl) ?_ (fun _ _ => Iff.rfl) ?_
  · intro frame set
    apply contents
    rintro rfl
    rw [image.not_base table] at set
    cases set
  · intro frame other owner short
    apply contents
    rintro rfl
    rw [table] at owner
    cases owner
    omega

theorem freePage (page : parts block = some .page) :
    Image base level (pmmFree machine (frameAddress block)) root (update parts block none) := by
  have used : parts block ≠ none := by
    rw [page]
    simp
  obtain ⟨bound, _, low⟩ := image.bound kernel used
  have small := (image.fresh block used).2
  have free := image.not_base page
  have freed : pmmFree machine (frameAddress block) = { machine with pmm := { machine.pmm with
      bitmap := fun other => if other = block then false else machine.pmm.bitmap other
      refcounts := fun other => if other = block then 0 else machine.pmm.refcounts other } } := by
    have aligned : (frameAddress block).toNat % pmmPageSize = 0 := by
      rw [frameAddress_toNat bound, pmmPageSize]
      omega
    simp only [pmmFree, frameOf_frameAddress block bound, aligned, image.total, image.reserved, image.single block used]
    rw [if_neg (by omega), if_neg (by decide)]
    simp
  have outside : ∀ frame, base.pmm.bitmap frame = true → frame ≠ block := by
    rintro frame set rfl
    rw [free] at set
    cases set
  rw [freed]
  refine image.change rfl rfl rfl ?_ ?_ ?_ ?_ (fun _ _ => rfl) ?_ (fun _ _ _ _ => rfl)
  · intro frame
    by_cases same : frame = block
    · simp [same, free]
    · rw [update_of_ne same, ← image.bitmap]
      exact if_neg same
  · intro frame kept
    by_cases same : frame = block
    · rw [same, update_self] at kept
      exact absurd rfl kept
    · rw [update_of_ne same] at kept
      exact image.fresh frame kept
  · intro frame kept
    by_cases same : frame = block
    · rw [same, update_self] at kept
      exact absurd rfl kept
    · rw [update_of_ne same] at kept
      exact (if_neg same).trans (image.single frame kept)
  · intro frame set
    exact if_neg (outside frame set)
  intro frame path
  by_cases same : frame = block
  · rw [same, update_self, page]
    simp
  · rw [update_of_ne same]

theorem unique (path : List Nat) {first second : Nat} (left : parts first = some (.table path))
    (right : parts second = some (.table path)) : first = second := by
  induction path using List.reverseRecOn generalizing first second with
  | nil => rw [(image.rootPart first).mp left, (image.rootPart second).mp right]
  | append_singleton path index ih =>
    obtain ⟨_, _, leftFrame, leftTable, leftEntry⟩ := image.parent first path index left
    obtain ⟨_, _, rightFrame, rightTable, rightEntry⟩ := image.parent second path index right
    rw [ih leftTable rightTable, rightEntry] at leftEntry
    exact (makeEntry_inj (image.table_bound kernel right).1 flagWord_userTable (image.table_bound kernel left).1 flagWord_userTable leftEntry).1.symm

end

theorem short (image : Image base level machine root parts) (table : parts frame = some (.table path)) :
    path.length ≤ 3 := by
  rcases List.eq_nil_or_concat' path with rfl | ⟨front, last, rfl⟩
  · simp
  · have parent := (image.parent frame front last table).1
    simp
    omega

end Image

namespace Image

variable {base machine : Machine} {level : Nat → Option Nat} {root : Nat} {parts : Nat → Option Part}

theorem addTable (kernel : KernelTables base level) (image : Image base level machine root parts) {path : List Nat}
    (table : parts frame = some (.table path)) (shallow : path.length < 3) (indexBound : index < 512)
    (closed : hasFlag (machine.mem frame index) pageUser = false) (small : block < machine.pmm.total)
    (clear : machine.pmm.bitmap block = false)
    (inner : path.length + 1 < 3 → ∀ place, place < 512 → Supervisor level (2 - (path.length + 1)) (words place) ∧
        (OwnSlot (path ++ [index] ++ [place]) → words place = 0)) :
    Image base level (withTable machine frame index block words) root
      (update parts block (some (.table (path ++ [index])))) := by
  obtain ⟨unused, free, _, blockBound, _⟩ := image.spare kernel small clear
  have frameBound := (image.table_bound kernel table).1
  have apart : frame ≠ block := by
    rintro rfl
    rw [unused] at table
    cases table
  have mem := withTable_mem machine index words frameBound blockBound
  have pmm : (withTable machine frame index block words).pmm = (machine.taken block).pmm := rfl
  have old : ∀ other path, parts other = some (.table path) → other ≠ block := by
    rintro other path owner rfl
    rw [unused] at owner
    cases owner
  have outside : ∀ other, base.pmm.bitmap other = true → other ≠ block ∧ other ≠ frame := by
    intro other set
    constructor
    · rintro rfl
      rw [free] at set
      cases set
    · rintro rfl
      rw [image.not_base table] at set
      cases set
  constructor
  · exact image.total
  · exact image.reserved
  · exact image.kernelPml4
  · intro other
    exact image.taken_bitmap other
  · exact image.taken_fresh kernel small clear
  · exact image.taken_single
  · intro other set
    exact (if_neg (outside other set).1).trans (image.counts other set)
  · intro other set
    rw [← image.memory other set]
    funext place
    rw [mem, if_neg (fun both => (outside other set).2 both.1), if_neg (outside other set).1]
  · intro other
    rw [← image.rootPart]
    by_cases same : other = block
    · rw [same, update_self, unused]
      simp
    · rw [update_of_ne same]
  · intro other otherPath place owner otherShallow placeBound
    by_cases same : other = block
    · subst same
      rw [update_self] at owner
      cases owner
      rw [mem, if_neg (fun both => apart both.1.symm), if_pos rfl]
      rw [List.length_append, List.length_singleton] at otherShallow ⊢
      exact Or.inl (inner otherShallow place placeBound)
    · rw [update_of_ne same] at owner
      rw [mem]
      by_cases here : other = frame ∧ place = index
      · obtain ⟨rfl, rfl⟩ := here
        rw [table] at owner
        cases owner
        rw [if_pos ⟨rfl, rfl⟩]
        exact Or.inr ⟨block, rfl, update_self ..⟩
      · rw [if_neg here, if_neg same]
        rcases image.entry other otherPath place owner otherShallow placeBound with kept | ⟨next, value, nextTable⟩
        · exact Or.inl kept
        · refine Or.inr ⟨next, value, ?_⟩
          rw [update_of_ne (old next _ nextTable), nextTable]
  · intro next otherPath place owner
    by_cases same : next = block
    · subst same
      rw [update_self] at owner
      have paths : path ++ [index] = otherPath ++ [place] := by
        injection owner with owner
        injection owner
      obtain ⟨rfl, last⟩ := List.append_inj' paths rfl
      obtain rfl : index = place := by simpa using last
      refine ⟨shallow, indexBound, frame, ?_, ?_⟩
      · rw [update_of_ne apart, table]
      · rw [mem, if_pos ⟨rfl, rfl⟩]
    · rw [update_of_ne same] at owner
      obtain ⟨otherShallow, placeBound, other, otherTable, value⟩ := image.parent next otherPath place owner
      refine ⟨otherShallow, placeBound, other, ?_, ?_⟩
      · rw [update_of_ne (old other _ otherTable), otherTable]
      · rw [mem, if_neg, if_neg (old other _ otherTable), value]
        rintro ⟨rfl, rfl⟩
        rw [value, link_user (image.table_bound kernel owner).1] at closed
        cases closed

end Image

end PhotonOS.Exec
