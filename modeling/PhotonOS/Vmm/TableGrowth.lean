import PhotonOS.Vmm.NextTable

/-!
Mapping a page. `ensure_next_table` may add empty tables on the way, which no
address space can notice; then one page-table entry is written.
-/

namespace PhotonOS

open Function Machine

variable {root block index : Nat} {indices : Indices} {machine : Machine} {words : Nat → BitVec 64}

structure Grows (before after : Machine) (roots rootsAfter : List Nat) (roles rolesAfter : Nat → Role) : Prop where
  forest : Forest after rootsAfter rolesAfter
  starts : ∀ (space root : Nat), roots[space]? = some root → rootsAfter[space]? = some root
  kept : ∀ frame, roles frame ≠ .unused → rolesAfter frame = roles frame
  fresh : ∀ frame space path, roles frame = .unused → rolesAfter frame = .table space path →
    path.length = 3 → ∀ index, after.mem frame index = 0
  data : ∀ frame, roles frame = .data → after.mem frame = before.mem frame
  leaves : ∀ frame space path, roles frame = .table space path → path.length = 3 → after.mem frame = before.mem frame
  refcounts : ∀ frame, roles frame ≠ .unused → after.pmm.refcounts frame = before.pmm.refcounts frame
  total : after.pmm.total = before.pmm.total

def OnlyTables (roles rolesAfter : Nat → Role) : Prop :=
  ∀ frame, rolesAfter frame = .data → roles frame = .data

namespace Grows

variable {first second third : Machine} {roots middleRoots lastRoots : List Nat} {roles middle last : Nat → Role}

theorem refl (forest : Forest first roots roles) : Grows first first roots roots roles roles where
  forest := forest
  starts _ _ start := start
  kept _ _ := rfl
  fresh frame space path unused role := by
    rw [unused] at role
    contradiction
  data _ _ := rfl
  leaves _ _ _ _ _ := rfl
  refcounts _ _ := rfl
  total := rfl

variable {frame space : Nat} {path : List Nat}

theorem kept_table (grows : Grows first second roots middleRoots roles middle)
    (role : roles frame = .table space path) : middle frame = .table space path := by
  rw [grows.kept frame (by rw [role]; simp), role]

theorem kept_data (grows : Grows first second roots middleRoots roles middle) (role : roles frame = .data) :
    middle frame = .data := by
  rw [grows.kept frame (by rw [role]; simp), role]

theorem trans (left : Grows first second roots middleRoots roles middle) (right : Grows second third middleRoots lastRoots middle last) :
    Grows first third roots lastRoots roles last where
  forest := right.forest
  starts space root start := right.starts space root (left.starts space root start)
  kept frame used := by
    have same := left.kept frame used
    rw [right.kept frame (by rw [same]; exact used), same]
  fresh frame space path unused role full index := by
    by_cases free : middle frame = .unused
    · exact right.fresh frame space path free role full index
    · rw [right.kept frame free] at role
      rw [right.leaves frame space path role full]
      exact left.fresh frame space path unused role full index
  data frame role := by rw [right.data frame (left.kept_data role), left.data frame role]
  leaves frame space path role full := by
    rw [right.leaves frame space path (left.kept_table role) full, left.leaves frame space path role full]
  refcounts frame used := by
    have same := left.kept frame used
    rw [right.refcounts frame (by rw [same]; exact used), left.refcounts frame used]
  total := right.total.trans left.total

theorem role_before (grows : Grows first second roots middleRoots roles middle)
    (role : middle frame = .table space path) : roles frame = .unused ∨ roles frame = .table space path := by
  by_cases used : roles frame = .unused
  · exact Or.inl used
  · exact Or.inr (by rw [← grows.kept frame used, role])

theorem leafOf (forest : Forest first roots roles) (grows : Grows first second roots middleRoots roles middle)
    (start : roots[space]? = some root) (user : indices.User) :
    leafOf second root indices = PhotonOS.leafOf first root indices := by
  have startAfter := grows.starts space root start
  rcases grows.forest.leafOf_cases startAfter user with ⟨pt, role, entry⟩ | ⟨absent, zero⟩
  · rcases grows.role_before role with unused | before
    · rw [entry, grows.fresh pt space indices.path unused role rfl]
      symm
      apply forest.leafOf_absent start user
      intro other otherRole
      have same := grows.forest.unique indices.path (grows.kept_table otherRole) role
      rw [same, unused] at otherRole
      contradiction
    · rw [entry, grows.leaves pt space indices.path before rfl, forest.leafOf_table start before]
  · rw [zero]
    symm
    apply forest.leafOf_absent start user
    intro pt role
    exact absent pt (grows.kept_table role)

end Grows

namespace Forest

variable {machine : Machine} {roots : List Nat} {roles : Nat → Role}

theorem leafOf_write (forest : Forest machine roots roles) {pt space : Nat} {target : Indices} {entry : BitVec 64}
    (role : roles pt = .table space target.path) (page : entry = 0 ∨ PageEntry roles entry) {other : Nat}
    (start : roots[other]? = some root) (user : indices.User) :
    leafOf (machine.write (frameAddress pt) target.pt entry) root indices =
      if other = space ∧ indices = target then entry else leafOf machine root indices := by
  have after : Forest (machine.write (frameAddress pt) target.pt entry) roots roles := forest.setLeaf role rfl page
  have mem := machine.write_mem (forest.table_bound role).1 target.pt entry
  rcases forest.leafOf_cases start user with ⟨found, foundRole, value⟩ | ⟨absent, zero⟩
  · rw [after.leafOf_table start foundRole, value, mem]
    by_cases same : found = pt
    · subst same
      rw [role] at foundRole
      obtain ⟨rfl, paths⟩ := Role.table.inj foundRole
      have equal : indices = target ↔ indices.pt = target.pt := by
        obtain ⟨pml4, pdpt, pd, pt⟩ := indices
        obtain ⟨pml4', pdpt', pd', pt'⟩ := target
        simp only [Indices.path, List.cons.injEq, Indices.mk.injEq] at paths ⊢
        simp [paths]
      simp only [true_and, equal]
    · rw [if_neg (fun both => same both.1), if_neg]
      rintro ⟨rfl, rfl⟩
      exact same (forest.unique indices.path foundRole role)
  · rw [after.leafOf_absent start user absent, zero, if_neg]
    rintro ⟨rfl, rfl⟩
    exact absent pt role

end Forest

theorem grows_assign {roots : List Nat} {roles : Nat → Role} {rootsAfter : List Nat} {role : Role}
    (unused : roles block = .unused) (bound : block < frameLimit)
    (shallow : ∀ space path, role = .table space path → path.length ≠ 3)
    (starts : ∀ (space root : Nat), roots[space]? = some root → rootsAfter[space]? = some root)
    (after : Forest ((machine.taken block).fill (frameAddress block) words) rootsAfter
      (update roles block role)) :
    Grows machine ((machine.taken block).fill (frameAddress block) words) roots rootsAfter roles
      (update roles block role) := by
  have apart : ∀ frame, roles frame ≠ .unused → frame ≠ block := by
    rintro frame used rfl
    exact used unused
  have mem : ∀ frame, roles frame ≠ .unused →
      ((machine.taken block).fill (frameAddress block) words).mem frame = machine.mem frame := by
    intro frame used
    funext index
    rw [(machine.taken block).fill_mem bound, if_neg (apart frame used)]
    rfl
  refine ⟨after, starts, ?_, ?_, ?_, ?_, ?_, rfl⟩
  · intro frame used
    rw [update_of_ne (apart frame used)]
  · intro frame space path free table full
    by_cases same : frame = block
    · rw [same, update_self] at table
      exact absurd full (shallow space path table)
    · rw [update_of_ne same, free] at table
      contradiction
  · intro frame data
    exact mem frame (by rw [data]; simp)
  · intro frame space path table _
    exact mem frame (by rw [table]; simp)
  · intro frame used
    simp only [fill_pmm, taken]
    rw [if_neg (apart frame used)]

namespace Forest

variable {machine : Machine} {roots : List Nat} {roles : Nat → Role}

variable (forest : Forest machine roots roles) (small : block < machine.pmm.total)
    (clear : machine.pmm.bitmap block = false)
include forest small clear

theorem grows_data (words : Nat → BitVec 64) :
    Grows machine ((machine.taken block).fill (frameAddress block) words) roots roots roles
      (update roles block .data) := by
  have spare := forest.spare small clear
  have filled := (forest.taken block).fill_spare spare words
  exact grows_assign spare.unused ((forest.taken block).spare_bound spare).1 (by simp)
    (fun _ _ start => start) (filled.assign_data ⟨spare.unused, spare.low, spare.high, spare.taken⟩)

theorem grows_root (empty : ∀ index, 1 ≤ index → index ≤ 255 → words index = 0) :
    Grows machine ((machine.taken block).fill (frameAddress block) words) roots (roots ++ [block]) roles
      (update roles block (.table roots.length [])) := by
  have spare := forest.spare small clear
  have bound := ((forest.taken block).spare_bound spare).1
  have filled := (forest.taken block).fill_spare spare words
  refine grows_assign spare.unused bound ?_ ?_
    (filled.assign_root ⟨spare.unused, spare.low, spare.high, spare.taken⟩ ?_)
  · intro space path role
    rw [← (Role.table.inj role).2]
    decide
  · intro space root start
    rw [List.getElem?_append_left (List.getElem?_eq_some_iff.mp start).1, start]
  · intro index low high
    rw [(machine.taken block).fill_mem bound, if_pos rfl, empty index low high]

end Forest

section

variable {machine : Machine} {roots : List Nat} {roles : Nat → Role}

def Linked (before : Machine) (roots : List Nat) (roles : Nat → Role) (frame space : Nat) (path : List Nat)
    (index : Nat) (result : Machine × BitVec 64) : Prop :=
  (result.1.pmm.exhausted = true ∧ result.2 = 0) ∨
    ∃ next rolesAfter, result.2 = frameAddress next ∧ rolesAfter next = .table space (path ++ [index]) ∧
      result.1.mem frame index = makeEntry next userTable ∧
      Grows before result.1 roots roots roles rolesAfter ∧ OnlyTables roles rolesAfter

variable {frame space : Nat} {path : List Nat} {flags : BitVec 64}

variable (forest : Forest machine roots roles)
include forest

section

variable (role : roles frame = .table space path) (short : path.length < 3) (valid : LinkIndex path index)
include role short valid

theorem linkTable_linked (empty : machine.mem frame index = 0) (user : hasFlag flags pageUser = true) :
    Linked machine roots roles frame space path index
      (linkTable machine (frameAddress frame) index flags fun _ => 0) := by
  have frameBound := (forest.table_bound role).1
  rcases pmmAlloc_cases machine with ⟨exhausted, null⟩ | ⟨block, small, clear, allocated⟩
  · rw [linkTable_null null]
    exact Or.inl ⟨exhausted, rfl⟩
  have spare := forest.spare small clear
  have apart := ne_of_unused role spare.unused
  obtain ⟨blockBound, positive⟩ := (forest.taken block).spare_bound spare
  have mem := (machine.taken block).fill_mem blockBound fun _ => 0
  -- the new table is cleared before it is linked
  have cleared := (forest.taken block).fill_spare spare fun _ => 0
  have grown := cleared.link role short valid (by rw [mem, if_neg apart]; exact empty)
    ⟨spare.unused, spare.low, spare.high, spare.taken⟩ (fun place => by rw [mem, if_pos rfl])
  rw [linkTable_taken allocated blockBound positive user]
  have written := withTable_mem machine index (fun _ => 0) frameBound blockBound
  have others : ∀ other, roles other ≠ .unused → other ≠ frame →
      (withTable machine frame index block fun _ => 0).mem other = machine.mem other := by
    intro other used notFrame
    funext place
    rw [written, if_neg (fun both => notFrame both.1), if_neg]
    rintro rfl
    exact used spare.unused
  refine Or.inr ⟨block, _, rfl, update_self .., by rw [written, if_pos ⟨rfl, rfl⟩],
    ⟨grown, fun _ _ start => start, ?_, ?_, ?_, ?_, ?_, rfl⟩, ?_⟩
  · intro other used
    rw [update_of_ne]
    rintro rfl
    exact used spare.unused
  · intro other otherSpace otherPath unused otherRole _ place
    have same : other = block := by
      by_contra apart
      rw [update_of_ne apart, unused] at otherRole
      contradiction
    rw [written, if_neg (fun both => apart (both.1.symm.trans same)), if_pos same]
  · intro other data
    refine others other (by rw [data]; simp) ?_
    rintro rfl
    rw [role] at data
    contradiction
  · intro other otherSpace otherPath otherRole full
    refine others other (by rw [otherRole]; simp) ?_
    rintro rfl
    rw [role] at otherRole
    obtain ⟨_, rfl⟩ := Role.table.inj otherRole
    omega
  · intro other used
    simp only [withTable, write_pmm, fill_pmm, taken]
    rw [if_neg]
    rintro rfl
    exact used spare.unused
  · intro other data
    by_cases same : other = block
    · rw [same, update_self] at data
      contradiction
    · rwa [update_of_ne same] at data

theorem ensureNextTable_linked (user : hasFlag flags pageUser = true) :
    Linked machine roots roles frame space path index
      (ensureNextTable machine (frameAddress frame) index flags) := by
  obtain ⟨frameBound, positive⟩ := forest.table_bound role
  rcases forest.child frame space path index role short valid with empty | ⟨next, entry, nextRole⟩
  · have absent : ¬hasFlag (machine.mem frame index) pagePresent = true := by rw [empty, hasFlag_zero]; decide
    rw [ensureNextTable_linkTable frameBound positive valid.1 forest.total user (fun present => absurd present absent),
      replaced, if_neg absent]
    exact linkTable_linked forest role short valid empty user
  · obtain ⟨nextBound, nextPositive⟩ := forest.table_bound nextRole
    have table : entryTable (machine.mem frame index) = frameAddress next := by
      rw [entry, entryTable_makeEntry nextBound flagWord_userTable]
    rw [ensureNextTable_found frameBound positive valid.1 (by rw [entry]; exact link_present nextBound)
      (by rw [table, frameOf_frameAddress next nextBound]; exact nextPositive)
      (fun _ => by rw [entry]; exact link_user nextBound), table]
    exact Or.inr ⟨next, roles, rfl, nextRole, entry, Grows.refl forest, fun _ data => data⟩

end

theorem mapInPml4_mapped {target : Nat} (start : roots[space]? = some root)
    (virtualAddr : BitVec 64) (indices : (indicesOf virtualAddr).User) (bound : target < frameLimit)
    (user : hasFlag flags pageUser = true) :
    (mapInPml4 machine (frameAddress root) virtualAddr (frameAddress target) flags).pmm.exhausted = true ∨
      ∃ grown rolesAfter pt, Grows machine grown roots roots roles rolesAfter ∧ OnlyTables roles rolesAfter ∧
        rolesAfter pt = .table space (indicesOf virtualAddr).path ∧
        mapInPml4 machine (frameAddress root) virtualAddr (frameAddress target) flags =
          grown.write (frameAddress pt) (indicesOf virtualAddr).pt
            (makeEntry target (flags &&& vmmEntryFlagsMask)) := by
  obtain ⟨⟨pml4, pdpt, pd, _⟩, lower, upper⟩ := indices
  simp only [mapInPml4, indicesOf_page, frameAddress_page bound, frameAddress_masked target bound]
  rcases ensureNextTable_linked forest ((forest.root root space).mpr start) (by simp) ⟨pml4, fun _ => ⟨lower, upper⟩⟩ user with
    ⟨exhausted, null⟩ | ⟨first, firstRoles, firstPointer, firstRole, _, firstGrows, firstOnly⟩
  · rw [if_pos null]
    exact Or.inl exhausted
  obtain ⟨firstBound, firstPositive⟩ := firstGrows.forest.table_bound firstRole
  rw [firstPointer, if_neg (frameAddress_ne_zero first firstBound firstPositive)]
  rcases ensureNextTable_linked firstGrows.forest firstRole (by simp)
      ⟨pdpt, by simp⟩ user with
    ⟨exhausted, null⟩ | ⟨second, secondRoles, secondPointer, secondRole, _, secondGrows, secondOnly⟩
  · rw [if_pos null]
    exact Or.inl exhausted
  obtain ⟨secondBound, secondPositive⟩ := secondGrows.forest.table_bound secondRole
  rw [secondPointer, if_neg (frameAddress_ne_zero second secondBound secondPositive)]
  rcases ensureNextTable_linked secondGrows.forest secondRole (by simp)
      ⟨pd, by simp⟩ user with
    ⟨exhausted, null⟩ | ⟨third, thirdRoles, thirdPointer, thirdRole, _, thirdGrows, thirdOnly⟩
  · rw [if_pos null]
    exact Or.inl exhausted
  obtain ⟨thirdBound, thirdPositive⟩ := thirdGrows.forest.table_bound thirdRole
  rw [thirdPointer, if_neg (frameAddress_ne_zero third thirdBound thirdPositive)]
  exact Or.inr ⟨_, thirdRoles, third, (firstGrows.trans secondGrows).trans thirdGrows,
    fun frame data => firstOnly frame (secondOnly frame (thirdOnly frame data)), thirdRole, rfl⟩

end

/-! A failed allocation is remembered. -/

theorem pmmAlloc_exhausted (failed : machine.pmm.exhausted = true) :
    (pmmAlloc machine).1.pmm.exhausted = true := by
  rcases pmmAlloc_cases machine with ⟨exhausted, _⟩ | ⟨block, _, _, allocated⟩
  · exact exhausted
  · rw [allocated]
    exact failed

theorem linkTable_exhausted {table : BitVec 64} {flags : BitVec 64} (failed : machine.pmm.exhausted = true) :
    (linkTable machine table index flags words).1.pmm.exhausted = true := by
  have allocated := pmmAlloc_exhausted failed
  simp only [linkTable]
  split
  · exact allocated
  · exact allocated

theorem ensureNextTable_exhausted (machine : Machine) (table : BitVec 64) (index : Nat) (flags : BitVec 64)
    (failed : machine.pmm.exhausted = true) : (ensureNextTable machine table index flags).1.pmm.exhausted = true := by
  have linked : ∀ other : Machine, other.pmm.exhausted = true → ∀ words,
      (linkTable other table index flags words).1.pmm.exhausted = true :=
    fun other otherFailed words => linkTable_exhausted otherFailed
  simp only [ensureNextTable]
  grind [write_pmm]

theorem mapInPml4_exhausted (machine : Machine) (pml4 virtualAddr physicalAddr flags : BitVec 64)
    (failed : machine.pmm.exhausted = true) :
    (mapInPml4 machine pml4 virtualAddr physicalAddr flags).pmm.exhausted = true := by
  have linked := ensureNextTable_exhausted
  simp only [mapInPml4]
  grind [write_pmm]

end PhotonOS
