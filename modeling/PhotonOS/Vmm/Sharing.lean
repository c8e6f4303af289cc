import Mathlib.Data.Finset.Prod
import PhotonOS.Vmm.TableGrowth

/-!
Who shares a frame: the places in page tables that map it. A frame's reference
count is the number of those places, and a writable place is the only one.
-/

namespace PhotonOS

variable {machine : Machine} {target : Nat}

def Role.holdsPages : Role → Bool
  | .table _ path => path.length == 3
  | _ => false

def mapsTo (entry : BitVec 64) (target : Nat) : Bool :=
  hasFlag entry pagePresent && frameOf (entryTable entry) == target

def mappings (machine : Machine) (roles : Nat → Role) (target : Nat) : Finset (Nat × Nat) :=
  (Finset.range machine.pmm.total ×ˢ Finset.range 512).filter fun place =>
    (roles place.1).holdsPages && mapsTo (machine.mem place.1 place.2) target

def writableAt (machine : Machine) (place : Nat × Nat) : Bool :=
  hasFlag (machine.mem place.1 place.2) pageWritable

def Sole (machine : Machine) (roles : Nat → Role) : Prop :=
  ∀ target, ∀ place ∈ mappings machine roles target, writableAt machine place = true →
    ∀ other ∈ mappings machine roles target, other = place

structure Sharing (machine : Machine) (roles : Nat → Role) : Prop where
  counted : ∀ target, roles target = .data →
    (machine.pmm.refcounts target).toNat = (mappings machine roles target).card
  sole : Sole machine roles

theorem holdsPages_iff (role : Role) :
    role.holdsPages = true ↔ ∃ space path, role = .table space path ∧ path.length = 3 := by
  cases role with
  | unused => simp [Role.holdsPages]
  | data => simp [Role.holdsPages]
  | table space path => simp [Role.holdsPages]

@[simp] theorem mapsTo_zero : mapsTo 0 target = false := by
  rw [mapsTo, hasFlag_zero, Bool.false_and]

theorem mapsTo_makeEntry {frame : Nat} {flags : BitVec 64} (bound : frame < frameLimit) (page : PageFlags flags)
    (target : Nat) : mapsTo (makeEntry frame flags) target = decide (frame = target) := by
  rw [mapsTo, hasFlag_makeEntry bound _ (by decide), page.present, entryTable_makeEntry bound page.word,
    frameOf_frameAddress frame bound, Bool.true_and, Bool.beq_eq_decide_eq]

theorem mem_mappings {roles : Nat → Role} {place : Nat × Nat} :
    place ∈ mappings machine roles target ↔ (place.1 < machine.pmm.total ∧ place.2 < 512) ∧
      (roles place.1).holdsPages = true ∧ mapsTo (machine.mem place.1 place.2) target = true := by
  simp [mappings]

theorem mappings_card (roles : Nat → Role) (target : Nat) (total : machine.pmm.total ≤ pmmMaxBlocks) :
    (mappings machine roles target).card ≤ 2 ^ 24 := by
  calc (mappings machine roles target).card
      ≤ (Finset.range machine.pmm.total ×ˢ Finset.range 512).card := Finset.card_filter_le _ _
    _ = machine.pmm.total * 512 := by simp
    _ ≤ pmmMaxBlocks * 512 := Nat.mul_le_mul_right _ total
    _ = 2 ^ 24 := rfl

section

variable {machine : Machine} {roots : List Nat} {roles : Nat → Role} {after : Machine} {rolesAfter : Nat → Role}
    {rootsAfter : List Nat}

theorem mappings_congr (total : after.pmm.total = machine.pmm.total)
    (same : ∀ frame, (rolesAfter frame).holdsPages = (roles frame).holdsPages)
    (tables : ∀ frame, (roles frame).holdsPages = true → after.mem frame = machine.mem frame) :
    mappings after rolesAfter target = mappings machine roles target := by
  ext place
  rw [mem_mappings, mem_mappings, total, same]
  by_cases holds : (roles place.1).holdsPages = true
  · rw [tables place.1 holds]
  · simp [holds]

theorem Grows.mappings (grows : Grows machine after roots rootsAfter roles rolesAfter) (target : Nat) :
    mappings after rolesAfter target = PhotonOS.mappings machine roles target := by
  ext place
  rw [mem_mappings, mem_mappings, grows.total]
  by_cases unused : roles place.1 = .unused
  · rw [unused]
    constructor
    · rintro ⟨_, holds, maps⟩
      obtain ⟨space, path, role, full⟩ := (holdsPages_iff _).mp holds
      rw [grows.fresh place.1 space path unused role full, mapsTo_zero] at maps
      contradiction
    · rintro ⟨_, holds, _⟩
      contradiction
  · rw [grows.kept place.1 unused]
    by_cases holds : (roles place.1).holdsPages = true
    · obtain ⟨space, path, role, full⟩ := (holdsPages_iff _).mp holds
      rw [grows.leaves place.1 space path role full]
    · simp [holds]

theorem Sole.grows (sole : Sole machine roles) (grows : Grows machine after roots rootsAfter roles rolesAfter) :
    Sole after rolesAfter := by
  intro target place member writable other otherMember
  rw [grows.mappings] at member otherMember
  obtain ⟨_, holds, _⟩ := mem_mappings.mp member
  obtain ⟨space, path, role, full⟩ := (holdsPages_iff _).mp holds
  rw [writableAt, grows.leaves place.1 space path role full] at writable
  exact sole target place member writable other otherMember

theorem Sharing.grows (sharing : Sharing machine roles)
    (grows : Grows machine after roots rootsAfter roles rolesAfter) (onlyTables : OnlyTables roles rolesAfter) :
    Sharing after rolesAfter where
  counted := by
    intro target data
    have before := onlyTables target data
    rw [grows.mappings, grows.refcounts target (by rw [before]; simp), sharing.counted target before]
  sole := sharing.sole.grows grows

theorem mappings_write (forest : Forest machine roots roles) {pt space : Nat} {path : List Nat} {index : Nat}
    (role : roles pt = .table space path) (full : path.length = 3) (small : index < 512) {entry : BitVec 64} :
    mappings (machine.write (frameAddress pt) index entry) roles target =
      if mapsTo entry target then insert (pt, index) (mappings machine roles target)
      else (mappings machine roles target).erase (pt, index) := by
  have holds : (roles pt).holdsPages = true := by rw [role, Role.holdsPages, full]; rfl
  have high := (forest.owned pt (by rw [role]; simp)).2.1
  ext place
  obtain ⟨frame, position⟩ := place
  rw [mem_mappings, machine.write_mem (forest.table_bound role).1]
  by_cases here : frame = pt ∧ position = index
  · obtain ⟨rfl, rfl⟩ := here
    cases maps : mapsTo entry target <;> simp [maps, holds, high, small]
  · rw [if_neg here]
    cases maps : mapsTo entry target <;> simp [mem_mappings, here]

theorem mappings_unused (forest : Forest machine roots roles) (notData : roles target ≠ .data) :
    mappings machine roles target = ∅ := by
  apply Finset.eq_empty_of_forall_notMem
  rintro ⟨frame, index⟩ member
  obtain ⟨⟨_, small⟩, holds, maps⟩ := mem_mappings.mp member
  obtain ⟨space, path, role, full⟩ := (holdsPages_iff _).mp holds
  rcases forest.leaf frame space path index role full small with zero | ⟨mapped, flags, value, page, data⟩
  · rw [zero, mapsTo_zero] at maps
    contradiction
  · rw [value, mapsTo_makeEntry (forest.data_bound data).1 page, decide_eq_true_iff] at maps
    exact notData (maps ▸ data)

end

section

variable {machine : Machine} {roots : List Nat} {roles : Nat → Role} (forest : Forest machine roots roles)
  {pt space : Nat} {path : List Nat} {index : Nat} (role : roles pt = .table space path)
  (full : path.length = 3) (small : index < 512) {target : Nat} {flags : BitVec 64}
  (bound : target < frameLimit) (page : PageFlags flags)

include forest role full small bound page

theorem mappings_write_page (other : Nat) :
    mappings (machine.write (frameAddress pt) index (makeEntry target flags)) roles other =
      if target = other then insert (pt, index) (mappings machine roles other)
      else (mappings machine roles other).erase (pt, index) := by
  rw [mappings_write forest role full small, mapsTo_makeEntry bound page]
  simp only [decide_eq_true_eq]

theorem mappings_write_same (member : (pt, index) ∈ mappings machine roles target) {other : Nat} :
    mappings (machine.write (frameAddress pt) index (makeEntry target flags)) roles other =
      mappings machine roles other := by
  rw [mappings_write_page forest role full small bound page]
  split
  next same =>
    subst same
    exact Finset.insert_eq_of_mem member
  rename_i apart
  apply Finset.erase_eq_of_notMem
  intro otherMember
  -- one entry maps one frame
  have first := (mem_mappings.mp member).2.2
  have second := (mem_mappings.mp otherMember).2.2
  simp only [mapsTo, Bool.and_eq_true, beq_iff_eq] at first second
  exact apart (first.2.symm.trans second.2)

theorem mappings_write_empty (empty : machine.mem pt index = 0) (other : Nat) :
    (mappings (machine.write (frameAddress pt) index (makeEntry target flags)) roles other).card =
      (mappings machine roles other).card + if target = other then 1 else 0 := by
  have outside : (pt, index) ∉ mappings machine roles other := by
    intro member
    have maps := (mem_mappings.mp member).2.2
    rw [empty, mapsTo_zero] at maps
    contradiction
  rw [mappings_write_page forest role full small bound page]
  split
  · rw [Finset.card_insert_of_notMem outside]
  · rw [Finset.erase_eq_of_notMem outside]
    rfl

theorem Sole.write (sole : Sole machine roles) (alone : ∀ other ∈ mappings machine roles target, other = (pt, index) ∨
      (hasFlag flags pageWritable = false ∧ writableAt machine other = false)) :
    Sole (machine.write (frameAddress pt) index (makeEntry target flags)) roles := by
  intro mapped place member writable other otherMember
  have unchanged : ∀ elsewhere : Nat × Nat, elsewhere ≠ (pt, index) →
      writableAt (machine.write (frameAddress pt) index (makeEntry target flags)) elsewhere =
        writableAt machine elsewhere := by
    rintro ⟨frame, position⟩ apart
    have apart : ¬ (frame = pt ∧ position = index) := by simpa using apart
    rw [writableAt, machine.write_mem (forest.table_bound role).1, if_neg apart]
    rfl
  have here : writableAt (machine.write (frameAddress pt) index (makeEntry target flags)) (pt, index) =
      hasFlag flags pageWritable := by
    rw [writableAt, machine.write_mem (forest.table_bound role).1, if_pos ⟨rfl, rfl⟩,
      hasFlag_makeEntry bound _ (by decide)]
  rw [mappings_write_page forest role full small bound page] at member otherMember
  by_cases same : target = mapped
  · subst same
    rw [if_pos rfl, Finset.mem_insert] at member otherMember
    by_cases home : place = (pt, index)
    · subst home
      rcases otherMember with rfl | otherMember
      · rfl
      · rcases alone other otherMember with rfl | ⟨readOnly, _⟩
        · rfl
        · rw [here, readOnly] at writable
          contradiction
    · rcases alone place (member.resolve_left home) with found | ⟨_, readOnly⟩
      · exact absurd found home
      · rw [unchanged place home, readOnly] at writable
        contradiction
  · rw [if_neg same, Finset.mem_erase] at member otherMember
    rw [unchanged place member.1] at writable
    exact sole mapped place member.2 writable other otherMember.2

end

end PhotonOS
