import PhotonOS.Vmm.TableTree

/-!
The edits that the kernel makes to the forest of page tables: a frame is taken
from the allocator and becomes a data page, a root or a linked table, or an entry
of a page table is replaced.
-/

namespace PhotonOS

open Function

variable {target space : Nat} {path : List Nat} {role : Role} {page : BitVec 64}

namespace Machine

section

variable (machine : Machine)

@[simp] theorem write_pmm (table : BitVec 64) (index : Nat) (value : BitVec 64) :
    (machine.write table index value).pmm = machine.pmm := rfl

@[simp] theorem fill_pmm {words : Nat → BitVec 64} : (machine.fill page words).pmm = machine.pmm := rfl

@[simp] theorem clearPage_pmm : (machine.clearPage page).pmm = machine.pmm := rfl

theorem read_frame {frame : Nat} (bound : frame < frameLimit) (index : Nat) :
    machine.read (frameAddress frame) index = machine.mem frame index := by
  rw [read, frameOf_frameAddress frame bound]

theorem write_mem (bound : target < frameLimit) (place : Nat) (value : BitVec 64)
    (frame index : Nat) : (machine.write (frameAddress target) place value).mem frame index =
      if frame = target ∧ index = place then value else machine.mem frame index := by
  simp only [write, frameOf_frameAddress target bound]

theorem fill_mem (bound : target < frameLimit) (words : Nat → BitVec 64) (frame index : Nat) :
    (machine.fill (frameAddress target) words).mem frame index =
      if frame = target then words index else machine.mem frame index := by
  simp only [fill, frameOf_frameAddress target bound]

end

def taken (machine : Machine) (block : Nat) : Machine :=
  { machine with pmm := { machine.pmm with
      bitmap := fun other => if other = block then true else machine.pmm.bitmap other
      refcounts := fun other => if other = block then 1 else machine.pmm.refcounts other } }

end Machine

theorem pmmAlloc_cases (machine : Machine) : ((pmmAlloc machine).1.pmm.exhausted = true ∧ (pmmAlloc machine).2 = 0) ∨
      ∃ block, block < machine.pmm.total ∧ machine.pmm.bitmap block = false ∧
        pmmAlloc machine = (machine.taken block, frameAddress block) := by
  unfold pmmAlloc
  split
  · exact Or.inl ⟨rfl, rfl⟩
  next block found =>
    refine Or.inr ⟨block, ?_, ?_, rfl⟩
    · exact List.mem_range.mp (List.mem_of_find?_eq_some found)
    · simpa using List.find?_some found

theorem pmmFree_mem {machine : Machine} {address : BitVec 64} : (pmmFree machine address).mem = machine.mem := by
  rw [pmmFree]
  split
  · rfl
  · split <;> rfl

variable {entry : BitVec 64} {frame block : Nat} {roles : Nat → Role}

theorem hasFlag_present_ne_zero {mask : BitVec 64} (found : hasFlag entry mask = true) : entry ≠ 0 := by
  rintro rfl
  rw [hasFlag_zero] at found
  contradiction

theorem makeEntry_userTable_ne_zero (bound : frame < frameLimit) : makeEntry frame userTable ≠ 0 :=
  hasFlag_present_ne_zero (link_present bound)

theorem PageFlags.entry_ne_zero {flags : BitVec 64} (page : PageFlags flags) (bound : frame < frameLimit) :
    makeEntry frame flags ≠ 0 :=
  hasFlag_present_ne_zero ((hasFlag_makeEntry bound pagePresent (by decide)).trans page.present)

theorem ne_of_unused (held : roles frame = role) (unused : roles block = .unused)
    (used : role ≠ .unused := by simp) : frame ≠ block := by
  rintro rfl
  exact used (held.symm.trans unused)

structure Spare (machine : Machine) (roles : Nat → Role) (block : Nat) : Prop where
  unused : roles block = .unused
  low : machine.pmm.reserved ≤ block
  high : block < machine.pmm.total
  taken : machine.pmm.bitmap block = true

namespace Forest

variable {machine : Machine} {roots : List Nat} {roles : Nat → Role}

section

variable (forest : Forest machine roots roles)
include forest

theorem congr {after : Machine} (total : after.pmm.total = machine.pmm.total)
    (reserved : after.pmm.reserved = machine.pmm.reserved)
    (bitmap : ∀ frame, machine.pmm.bitmap frame = true → after.pmm.bitmap frame = true)
    (tables : ∀ frame space path, roles frame = .table space path → after.mem frame = machine.mem frame) :
    Forest after roots roles where
  total := total ▸ forest.total
  reserved := reserved ▸ forest.reserved
  guarded := by
    intro frame low
    exact bitmap frame (forest.guarded frame (reserved ▸ low))
  owned := by
    intro frame used
    obtain ⟨low, high, set⟩ := forest.owned frame used
    exact ⟨reserved ▸ low, total ▸ high, bitmap frame set⟩
  root := forest.root
  child := by
    intro frame space path index role short link
    rw [tables frame space path role]
    exact forest.child frame space path index role short link
  parent := by
    intro next space path index role
    obtain ⟨short, link, frame, frameRole, entry⟩ := forest.parent next space path index role
    exact ⟨short, link, frame, frameRole, by rw [tables frame space path frameRole, entry]⟩
  leaf := by
    intro frame space path index role full small
    rw [tables frame space path role]
    exact forest.leaf frame space path index role full small

theorem spare (small : block < machine.pmm.total) (clear : machine.pmm.bitmap block = false) :
    Spare (machine.taken block) roles block where
  unused := by
    by_contra used
    have set := (forest.owned block used).2.2
    rw [clear] at set
    contradiction
  low := by
    by_contra low
    have set := forest.guarded block (Nat.lt_of_not_le low)
    rw [clear] at set
    contradiction
  high := small
  taken := by simp [Machine.taken]

theorem taken (block : Nat) : Forest (machine.taken block) roots roles := by
  refine forest.congr rfl rfl ?_ (fun _ _ _ _ => rfl)
  intro frame set
  simp only [Machine.taken]
  split
  · rfl
  · exact set

theorem spare_bound (spare : Spare machine roles block) : block < frameLimit ∧ 0 < block := by
  obtain ⟨_, low, high, _⟩ := spare
  exact ⟨lt_frameLimit high forest.total, Nat.lt_of_lt_of_le forest.reserved low⟩

theorem fill_spare (spare : Spare machine roles block) (words : Nat → BitVec 64) :
    Forest (machine.fill (frameAddress block) words) roots roles := by
  refine forest.congr rfl rfl (fun _ set => set) ?_
  intro frame space path role
  funext index
  rw [machine.fill_mem (forest.spare_bound spare).1, if_neg (ne_of_unused role spare.unused)]

theorem has_root (role : roles frame = .table space path) : space < roots.length := by
  induction path using List.reverseRecOn generalizing frame with
  | nil =>
    rw [forest.root] at role
    exact (List.getElem?_eq_some_iff.mp role).1
  | append_singleton path index ih =>
    obtain ⟨_, _, parent, parentRole, _⟩ := forest.parent frame space path index role
    exact ih parentRole

end

end Forest

theorem PageEntry.update (page : PageEntry roles entry) (unused : roles block = .unused) (role : Role) :
    PageEntry (update roles block role) entry := by
  obtain ⟨target, flags, value, page, data⟩ := page
  exact ⟨target, flags, value, page, by rw [update_of_ne (ne_of_unused data unused), data]⟩

theorem update_table (old : roles frame = .table space path) (unused : roles block = .unused) :
    update roles block role frame = .table space path := by
  rw [update_of_ne (ne_of_unused old unused), old]

namespace Forest

variable {machine : Machine} {roots : List Nat} {roles : Nat → Role} {block space index : Nat} {path : List Nat}

section

variable (forest : Forest machine roots roles)
include forest

section

variable (spare : Spare machine roles block)
include spare

theorem assigned_owned : ∀ frame, update roles block role frame ≠ .unused →
      machine.pmm.reserved ≤ frame ∧ frame < machine.pmm.total ∧ machine.pmm.bitmap frame = true := by
  intro frame used
  by_cases same : frame = block
  · subst same
    exact ⟨spare.low, spare.high, spare.taken⟩
  · rw [update_of_ne same] at used
    exact forest.owned frame used

theorem assign_data : Forest machine roots (update roles block .data) := by
  have tables : ∀ frame space path, update roles block .data frame = .table space path ↔
      roles frame = .table space path := by
    intro frame space path
    by_cases same : frame = block
    · subst same
      rw [update_self, spare.unused]
      simp
    · rw [update_of_ne same]
  refine ⟨forest.total, forest.reserved, forest.guarded, forest.assigned_owned spare, ?_, ?_, ?_, ?_⟩
  · intro frame space
    rw [tables, forest.root]
  · intro frame space path index role short link
    simp only [tables] at role ⊢
    exact forest.child frame space path index role short link
  · intro next space path index role
    simp only [tables] at role ⊢
    exact forest.parent next space path index role
  intro frame space path index role full small
  rw [tables] at role
  rcases forest.leaf frame space path index role full small with zero | page
  · exact Or.inl zero
  · exact Or.inr (page.update spare.unused .data)

theorem assign_root (clear : ∀ index, 1 ≤ index → index ≤ 255 → machine.mem block index = 0) :
    Forest machine (roots ++ [block]) (update roles block (.table roots.length [])) := by
  refine ⟨forest.total, forest.reserved, forest.guarded, forest.assigned_owned spare, ?_, ?_, ?_, ?_⟩
  · intro frame space
    by_cases same : frame = block
    · subst same
      rw [update_self]
      constructor
      · intro role
        rw [← (Role.table.inj role).1]
        simp
      intro found
      rcases Nat.lt_trichotomy space roots.length with low | rfl | high
      · rw [List.getElem?_append_left low, ← forest.root, spare.unused] at found
        contradiction
      · rfl
      · rw [List.getElem?_eq_none (by simp; omega)] at found
        contradiction
    · rw [update_of_ne same, forest.root]
      constructor
      · intro found
        rw [List.getElem?_append_left (List.getElem?_eq_some_iff.mp found).1, found]
      intro found
      rw [List.getElem?_append] at found
      split at found
      · exact found
      · have last := List.mem_of_getElem? found
        rw [List.mem_singleton] at last
        exact absurd last same
  · intro frame space path index role short link
    by_cases same : frame = block
    · subst same
      rw [update_self] at role
      have empty := (Role.table.inj role).2
      exact Or.inl (clear index (link.2 empty.symm).1 (link.2 empty.symm).2)
    · rw [update_of_ne same] at role
      rcases forest.child frame space path index role short link with zero | ⟨next, entry, nextRole⟩
      · exact Or.inl zero
      · exact Or.inr ⟨next, entry, update_table nextRole spare.unused⟩
  · intro next space path index role
    by_cases same : next = block
    · subst same
      rw [update_self] at role
      have empty := (Role.table.inj role).2
      simp at empty
    · rw [update_of_ne same] at role
      obtain ⟨short, link, frame, frameRole, entry⟩ := forest.parent next space path index role
      exact ⟨short, link, frame, update_table frameRole spare.unused, entry⟩
  · intro frame space path index role full small
    by_cases same : frame = block
    · subst same
      rw [update_self] at role
      have empty := (Role.table.inj role).2
      rw [← empty] at full
      contradiction
    · rw [update_of_ne same] at role
      rcases forest.leaf frame space path index role full small with zero | page
      · exact Or.inl zero
      · exact Or.inr (page.update spare.unused _)

end

theorem link (role : roles frame = .table space path) (short : path.length < 3) (valid : LinkIndex path index)
    (empty : machine.mem frame index = 0) (spare : Spare machine roles block)
    (clear : ∀ place, machine.mem block place = 0) :
    Forest (machine.write (frameAddress frame) index (makeEntry block userTable)) roots
      (update roles block (.table space (path ++ [index]))) := by
  have mem := machine.write_mem (forest.table_bound role).1 index (makeEntry block userTable)
  have apart := (ne_of_unused role spare.unused).symm
  have blockMem : ∀ place, (machine.write (frameAddress frame) index (makeEntry block userTable)).mem block place = 0 := by
    intro place
    rw [mem, if_neg (fun same => apart same.1), clear]
  refine ⟨forest.total, forest.reserved, forest.guarded, forest.assigned_owned spare, ?_, ?_, ?_, ?_⟩
  · intro other otherSpace
    rw [← forest.root]
    by_cases same : other = block
    · subst same
      rw [update_self, spare.unused]
      simp
    · rw [update_of_ne same]
  · intro other otherSpace otherPath place otherRole otherShort otherValid
    by_cases same : other = block
    · subst same
      exact Or.inl (blockMem place)
    rw [update_of_ne same] at otherRole
    rw [mem]
    split
    next here =>
      obtain ⟨rfl, rfl⟩ := here
      rw [role] at otherRole
      obtain ⟨rfl, rfl⟩ := Role.table.inj otherRole
      exact Or.inr ⟨block, rfl, update_self ..⟩
    · rcases forest.child other otherSpace otherPath place otherRole otherShort otherValid with
        zero | ⟨next, entry, nextRole⟩
      · exact Or.inl zero
      · exact Or.inr ⟨next, entry, update_table nextRole spare.unused⟩
  · intro next otherSpace otherPath place nextRole
    by_cases same : next = block
    · subst same
      rw [update_self] at nextRole
      obtain ⟨rfl, paths⟩ := Role.table.inj nextRole
      obtain ⟨rfl, last⟩ := List.append_inj' paths rfl
      obtain rfl : index = place := by simpa using last
      refine ⟨short, valid, frame, update_table role spare.unused, ?_⟩
      rw [mem, if_pos ⟨rfl, rfl⟩]
    · rw [update_of_ne same] at nextRole
      obtain ⟨otherShort, otherValid, other, otherRole, entry⟩ :=
        forest.parent next otherSpace otherPath place nextRole
      refine ⟨otherShort, otherValid, other, update_table otherRole spare.unused, ?_⟩
      rw [mem, if_neg, entry]
      rintro ⟨rfl, rfl⟩
      rw [empty] at entry
      exact makeEntry_userTable_ne_zero (forest.table_bound nextRole).1 entry.symm
  · intro other otherSpace otherPath place otherRole full small
    by_cases same : other = block
    · subst same
      exact Or.inl (blockMem place)
    rw [update_of_ne same] at otherRole
    rw [mem, if_neg]
    · rcases forest.leaf other otherSpace otherPath place otherRole full small with zero | page
      · exact Or.inl zero
      · exact Or.inr (page.update spare.unused _)
    · rintro ⟨rfl, rfl⟩
      rw [role] at otherRole
      obtain ⟨_, rfl⟩ := Role.table.inj otherRole
      omega

theorem setLeaf {pt : Nat} (role : roles pt = .table space path) (full : path.length = 3)
    (page : entry = 0 ∨ PageEntry roles entry) :
    Forest (machine.write (frameAddress pt) index entry) roots roles := by
  have mem := machine.write_mem (forest.table_bound role).1 index entry
  have shallow : ∀ other otherSpace otherPath place, roles other = .table otherSpace otherPath →
      otherPath.length < 3 →
      (machine.write (frameAddress pt) index entry).mem other place = machine.mem other place := by
    intro other otherSpace otherPath place otherRole short
    rw [mem, if_neg]
    rintro ⟨rfl, _⟩
    rw [role] at otherRole
    obtain ⟨_, rfl⟩ := Role.table.inj otherRole
    omega
  refine ⟨forest.total, forest.reserved, forest.guarded, forest.owned, forest.root, ?_, ?_, ?_⟩
  · intro other otherSpace otherPath place otherRole short valid
    rw [shallow other otherSpace otherPath place otherRole short]
    exact forest.child other otherSpace otherPath place otherRole short valid
  · intro next otherSpace otherPath place nextRole
    obtain ⟨short, valid, other, otherRole, value⟩ := forest.parent next otherSpace otherPath place nextRole
    exact ⟨short, valid, other, otherRole, by rw [shallow other otherSpace otherPath place otherRole short, value]⟩
  intro other otherSpace otherPath place otherRole otherFull small
  rw [mem]
  split
  · exact page
  · exact forest.leaf other otherSpace otherPath place otherRole otherFull small

end

end Forest

end PhotonOS
