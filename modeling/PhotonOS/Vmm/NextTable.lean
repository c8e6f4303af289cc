import PhotonOS.Vmm.TableEdits

/-!
One step of `ensure_next_table`: the table is there, or a new one is linked that
starts as a copy of what a kernel entry led to.
-/

namespace PhotonOS

variable {machine : Machine} {frame index block : Nat} {flags : BitVec 64}

def withTable (machine : Machine) (frame index block : Nat) (words : Nat → BitVec 64) : Machine :=
  ((machine.taken block).fill (frameAddress block) words).write (frameAddress frame) index (makeEntry block userTable)

def replaced (machine : Machine) (frame index : Nat) : Nat → BitVec 64 :=
  if hasFlag (machine.mem frame index) pagePresent then machine.mem (frameOf (entryTable (machine.mem frame index)))
  else fun _ => 0

theorem withTable_mem (machine : Machine) (index : Nat) (words : Nat → BitVec 64) (frameBound : frame < frameLimit)
    (blockBound : block < frameLimit) (other place : Nat) :
    (withTable machine frame index block words).mem other place =
      if other = frame ∧ place = index then makeEntry block userTable
      else if other = block then words place else machine.mem other place := by
  rw [withTable, Machine.write_mem _ frameBound, Machine.fill_mem _ blockBound]
  rfl

variable {table : BitVec 64} {words : Nat → BitVec 64}

theorem linkTable_null (null : (pmmAlloc machine).2 = 0) :
    linkTable machine table index flags words = ((pmmAlloc machine).1, 0) := by
  simp only [linkTable, null, if_true]

theorem linkTable_taken (allocated : pmmAlloc machine = (machine.taken block, frameAddress block))
    (bound : block < frameLimit) (positive : 0 < block) (user : hasFlag flags pageUser = true) :
    linkTable machine (frameAddress frame) index flags words =
      (withTable machine frame index block words, frameAddress block) := by
  simp only [linkTable, allocated, if_neg (frameAddress_ne_zero block bound positive), frameAddress_masked block bound,
    tableFlags_user user, withTable, makeEntry]

section

variable (bound : frame < frameLimit) (positive : 0 < frame) (small : index < 512)
include bound positive small

theorem ensureNextTable_found (present : hasFlag (machine.mem frame index) pagePresent = true)
    (leads : 0 < frameOf (entryTable (machine.mem frame index)))
    (allowed : hasFlag flags pageUser = true → hasFlag (machine.mem frame index) pageUser = true) :
    ensureNextTable machine (frameAddress frame) index flags = (machine, entryTable (machine.mem frame index)) := by
  have valid := validTablePointer_entryTable _ leads
  have entryValid : validTableEntry (machine.mem frame index) = true := valid
  have copies : (hasFlag flags pageUser && !hasFlag (machine.mem frame index) pageUser) = false := by
    cases asked : hasFlag flags pageUser with
    | false => rfl
    | true => rw [allowed asked]; rfl
  simp only [ensureNextTable, validTablePointer_frameAddress frame bound positive, Nat.not_le.mpr small,
    vmmTableEntries, machine.read_frame bound, present, entryValid]
  simp [present, copies, valid, machine.read_frame bound]
  exact Eq.symm

theorem ensureNextTable_linkTable (pool : machine.pmm.total ≤ pmmMaxBlocks) (user : hasFlag flags pageUser = true)
    (closed : hasFlag (machine.mem frame index) pagePresent = true →
      hasFlag (machine.mem frame index) pageUser = false ∧ 0 < frameOf (entryTable (machine.mem frame index))) :
    ensureNextTable machine (frameAddress frame) index flags =
      linkTable machine (frameAddress frame) index flags (replaced machine frame index) := by
  -- the check behind the link finds the new table
  have checked : ∀ words, (if (linkTable machine (frameAddress frame) index flags words).2 = 0 then
        ((linkTable machine (frameAddress frame) index flags words).1, 0)
      else
        let next := entryTable ((linkTable machine (frameAddress frame) index flags words).1.mem frame index)
        if !validTablePointer next then
          linkTable (linkTable machine (frameAddress frame) index flags words).1 (frameAddress frame) index flags
            fun _ => 0
        else ((linkTable machine (frameAddress frame) index flags words).1, next)) =
      linkTable machine (frameAddress frame) index flags words := by
    intro words
    rcases pmmAlloc_cases machine with ⟨_, null⟩ | ⟨block, blockSmall, _, allocated⟩
    · rw [linkTable_null null, if_pos rfl]
    by_cases zero : block = 0
    · rw [linkTable_null (by rw [allocated, zero]; rfl), if_pos rfl]
    have blockPositive := Nat.pos_of_ne_zero zero
    have blockBound := lt_frameLimit blockSmall pool
    have entry := withTable_mem machine index words bound blockBound frame index
    rw [if_pos ⟨rfl, rfl⟩] at entry
    rw [linkTable_taken allocated blockBound blockPositive user,
      if_neg (frameAddress_ne_zero block blockBound blockPositive)]
    simp [entry, entryTable_makeEntry blockBound flagWord_userTable,
      validTablePointer_frameAddress block blockBound blockPositive]
  rw [← checked]
  simp only [ensureNextTable, validTablePointer_frameAddress frame bound positive, Nat.not_le.mpr small,
    vmmTableEntries, Machine.read_frame _ bound, replaced]
  by_cases present : hasFlag (machine.mem frame index) pagePresent = true
  · obtain ⟨notUser, leads⟩ := closed present
    have entryValid : validTableEntry (machine.mem frame index) = true := validTablePointer_entryTable _ leads
    simp [present, entryValid, notUser, user, Machine.read_frame _ bound]
    rfl
  · simp [present, Machine.read_frame _ bound]

end

def ensureTables (flags : BitVec 64) : Machine → BitVec 64 → List Nat → Machine × BitVec 64
  | machine, table, [] => (machine, table)
  | machine, table, index :: rest =>
    let (machine, next) := ensureNextTable machine table index flags
    if next = 0 then (machine, 0) else ensureTables flags machine next rest

theorem mapInPml4_eq {pml4 virtualAddr physicalAddr : BitVec 64} :
    mapInPml4 machine pml4 virtualAddr physicalAddr flags =
      let tables := ensureTables flags machine pml4 (indicesOf virtualAddr).path
      if tables.2 = 0 then tables.1
      else tables.1.write tables.2 (indicesOf virtualAddr).pt
        ((physicalAddr &&& vmmPageMask &&& vmmEntryAddrMask) ||| (flags &&& vmmEntryFlagsMask)) := by
  simp only [mapInPml4, indicesOf_page, Indices.path, ensureTables]
  split
  · simp
  split
  · simp
  · split
    · simp
    · simp [*]

end PhotonOS
