import PhotonOS.Vmm.Sharing
import PhotonOS.Vmm.Walks

/-!
How page tables and frames represent the private memories, and the two steps that
only add to them: a new address space and a new page.
-/

namespace PhotonOS

variable {machine : Machine} {roles : Nat → Role} {memories : List UserMemory} {entry : BitVec 64} {space : Nat}
    {indices : Indices}

def Backs (machine : Machine) (roles : Nat → Role) (entry : BitVec 64) : Option UserPage → Prop
  | none => entry = 0
  | some page => ∃ target flags, entry = makeEntry target flags ∧ PageFlags flags ∧ roles target = .data ∧
      (hasFlag flags pageWritable || hasFlag flags pageCow) = page.writable ∧ machine.mem target = page.words

def Backed (machine : Machine) (roots : List Nat) (roles : Nat → Role)
    (pages : Nat → Indices → Option UserPage) : Prop :=
  ∀ space root, roots[space]? = some root → ∀ indices : Indices, indices.User →
    Backs machine roles (leafOf machine root indices) (pages space indices)

def pagesOf (memories : List UserMemory) (space : Nat) (indices : Indices) : Option UserPage :=
  memories[space]?.bind fun memory => memory indices

structure Shows (machine : Machine) (roots : List Nat) (roles : Nat → Role)
    (pages : Nat → Indices → Option UserPage) : Prop where
  forest : Forest machine roots roles
  sharing : Sharing machine roles
  backed : Backed machine roots roles pages

structure Represents (machine : Machine) (roots : List Nat) (roles : Nat → Role)
    (memories : List UserMemory) : Prop where
  forest : Forest machine roots roles
  sharing : Sharing machine roles
  sizes : memories.length = roots.length
  backed : Backed machine roots roles (pagesOf memories)

theorem Represents.shows {roots : List Nat} (represents : Represents machine roots roles memories) :
    Shows machine roots roles (pagesOf memories) :=
  ⟨represents.forest, represents.sharing, represents.backed⟩

theorem Backs.congr {after : Machine} {rolesAfter : Nat → Role} {page : Option UserPage}
    (backs : Backs machine roles entry page)
    (kept : ∀ frame, roles frame = .data → rolesAfter frame = .data ∧ after.mem frame = machine.mem frame) :
    Backs after rolesAfter entry page := by
  cases page with
  | none => exact backs
  | some page =>
    obtain ⟨target, flags, value, page, data, writable, words⟩ := backs
    obtain ⟨dataAfter, same⟩ := kept target data
    exact ⟨target, flags, value, page, dataAfter, writable, same.trans words⟩

section

variable {machine after : Machine} {roots rootsAfter : List Nat} {roles rolesAfter : Nat → Role}
  {pages pagesAfter : Nat → Indices → Option UserPage}

section

variable (backed : Backed machine roots roles pages) (forest : Forest machine roots roles)
include backed forest

theorem Backed.grows_old (grows : Grows machine after roots rootsAfter roles rolesAfter) {root : Nat}
    (start : roots[space]? = some root) (user : indices.User) :
    Backs after rolesAfter (leafOf after root indices) (pages space indices) := by
  rw [grows.leafOf forest start user]
  apply (backed space root start indices user).congr
  intro frame data
  exact ⟨grows.kept_data data, grows.data frame data⟩

theorem Backed.grows (grows : Grows machine after roots roots roles rolesAfter) :
    Backed after roots rolesAfter pages :=
  fun _ _ start _ user => backed.grows_old forest grows start user

theorem Backed.write {pt : Nat} {target : Indices} (role : roles pt = .table space target.path)
    (page : entry = 0 ∨ PageEntry roles entry) (shown : Backs machine roles entry (pagesAfter space target))
    (others : ∀ other indices, indices.User → ¬ (other = space ∧ indices = target) →
      pagesAfter other indices = pages other indices) :
    Backed (machine.write (frameAddress pt) target.pt entry) roots roles pagesAfter := by
  have kept : ∀ frame, roles frame = .data → roles frame = .data ∧
      (machine.write (frameAddress pt) target.pt entry).mem frame = machine.mem frame := by
    intro frame data
    refine ⟨data, ?_⟩
    funext index
    rw [machine.write_mem (forest.table_bound role).1, if_neg]
    rintro ⟨rfl, _⟩
    rw [role] at data
    contradiction
  intro other root start indices user
  rw [forest.leafOf_write role page start user]
  by_cases here : other = space ∧ indices = target
  · rw [if_pos here]
    obtain ⟨rfl, rfl⟩ := here
    exact shown.congr kept
  · rw [if_neg here, others other indices user here]
    exact (backed other root start indices user).congr kept

end

end

theorem pagesOf_append {memory : UserMemory} :
    pagesOf (memories ++ [memory]) space indices =
      if space = memories.length then memory indices else pagesOf memories space indices := by
  rcases Nat.lt_trichotomy space memories.length with low | rfl | high
  · rw [pagesOf, List.getElem?_append_left low, if_neg (by omega), pagesOf]
  · simp [pagesOf]
  · rw [pagesOf, pagesOf, List.getElem?_eq_none (by simp; omega), List.getElem?_eq_none (by omega), if_neg (by omega)]

theorem pagesOf_modify {change : UserMemory → UserMemory} {other : Nat} :
    pagesOf (memories.modify space change) other indices =
      if other = space then memories[space]?.bind (fun memory => change memory indices)
      else pagesOf memories other indices := by
  rw [pagesOf, List.getElem?_modify]
  by_cases same : space = other
  · subst same
    cases memories[space]? <;> simp
  · simp [same, Ne.symm same, pagesOf]

section

variable {machine : Machine} {roots : List Nat} {roles : Nat → Role} {memories : List UserMemory}

theorem Represents.add_root (represents : Represents machine roots roles memories) {block : Nat}
    (small : block < machine.pmm.total) (clear : machine.pmm.bitmap block = false) (words : Nat → BitVec 64)
    (empty : ∀ index, 1 ≤ index → index ≤ 255 → words index = 0) :
    Represents ((machine.taken block).fill (frameAddress block) words) (roots ++ [block])
      (Function.update roles block (.table roots.length [])) (memories ++ [UserMemory.empty]) := by
  obtain ⟨forest, sharing, sizes, backed⟩ := represents
  have grows := forest.grows_root small clear empty
  refine ⟨grows.forest, sharing.grows grows ?_, by simp [sizes], ?_⟩
  · intro frame data
    by_cases same : frame = block
    · rw [same, Function.update_self] at data
      contradiction
    · rwa [Function.update_of_ne same] at data
  · intro space root start indices user
    rw [pagesOf_append]
    split
    · -- no table of the new space is as deep as a page table
      apply grows.forest.leafOf_absent start user
      intro pt role
      by_cases same : pt = block
      · rw [same, Function.update_self] at role
        have paths := (Role.table.inj role).2
        simp [Indices.path] at paths
      · rw [Function.update_of_ne same] at role
        have old := forest.has_root role
        omega
    · have bound := (List.getElem?_eq_some_iff.mp start).1
      rw [List.length_append, List.length_singleton] at bound
      rw [List.getElem?_append_left (by omega)] at start
      exact backed.grows_old forest grows start user

theorem Machine.fill_fill (machine : Machine) (page : BitVec 64) (first second : Nat → BitVec 64) :
    (machine.fill page first).fill page second = machine.fill page second := by
  simp only [Machine.fill, Machine.mk.injEq, and_true]
  funext frame position
  split <;> rfl

theorem vmmCreateAddressSpace_represents (represents : Represents machine roots roles memories) :
    (vmmCreateAddressSpace machine).1.pmm.exhausted = true ∨
      ∃ block rolesAfter, (vmmCreateAddressSpace machine).2 = frameAddress block ∧
        Represents (vmmCreateAddressSpace machine).1 (roots ++ [block]) rolesAfter
          (memories ++ [UserMemory.empty]) := by
  rcases pmmAlloc_cases machine with ⟨exhausted, null⟩ | ⟨block, small, clear, allocated⟩
  · simp only [vmmCreateAddressSpace, null, if_true]
    exact Or.inl exhausted
  have spare := represents.forest.spare small clear
  obtain ⟨bound, positive⟩ := (represents.forest.taken block).spare_bound spare
  simp only [vmmCreateAddressSpace, allocated, if_neg (frameAddress_ne_zero block bound positive),
    Machine.clearPage, Machine.fill_fill]
  refine Or.inr ⟨block, _, rfl, represents.add_root small clear _ ?_⟩
  intro index low high
  rw [if_neg (by omega), Machine.read, frameOf_frameAddress block bound, Machine.fill_mem _ bound, if_pos rfl]

end

section

variable {machine : Machine} {roots : List Nat} {roles : Nat → Role} {memories : List UserMemory}
  {root space : Nat} {address flags : BitVec 64}

theorem userAddress_indices (user : UserAddress address) : (indicesOf address).User :=
  ⟨indicesOf_valid address, user.1, user.2⟩

theorem pageFlags_masked (present : hasFlag flags pagePresent = true) (user : hasFlag flags pageUser = true) :
    PageFlags (flags &&& vmmEntryFlagsMask) ∧ (∀ mask, vmmEntryFlagsMask &&& mask = mask →
        hasFlag (flags &&& vmmEntryFlagsMask) mask = hasFlag flags mask) := by
  have same : ∀ mask, vmmEntryFlagsMask &&& mask = mask →
      hasFlag (flags &&& vmmEntryFlagsMask) mask = hasFlag flags mask := by
    intro mask inside
    rw [hasFlag, BitVec.and_assoc, inside, hasFlag]
  exact ⟨⟨flagWord_masked, by rw [same _ (by decide), present], by rw [same _ (by decide), user]⟩, same⟩

section

variable (forest : Forest machine roots roles) (start : roots[space]? = some root) (user : UserAddress address)
include forest start user

theorem leafOf_unmapped (unmapped : vmmIsMapped machine (frameAddress root) address = false) :
    leafOf machine root (indicesOf address) = 0 := by
  obtain ⟨bound, positive⟩ := forest.table_bound ((forest.root root space).mpr start)
  have indices := userAddress_indices user
  rcases forest.walk start indices with ⟨pt, walk, role, leaf⟩ | ⟨_, zero⟩
  · rw [vmmIsMapped_of_walk bound positive walk, Option.any_some, ← leaf] at unmapped
    rcases forest.leafOf_entry start indices with zero | ⟨target, flags, value, page, data⟩
    · exact zero
    · rw [value, hasFlag_makeEntry (forest.data_bound data).1 _ (by decide), page.present] at unmapped
      contradiction
  · exact zero

theorem vmmIsMapped_zero (zero : leafOf machine root (indicesOf address) = 0) :
    vmmIsMapped machine (frameAddress root) address = false := by
  obtain ⟨bound, positive⟩ := forest.table_bound ((forest.root root space).mpr start)
  rcases forest.walk start (userAddress_indices user) with ⟨pt, walk, _, leaf⟩ | ⟨walk, _⟩
  · rw [vmmIsMapped_of_walk bound positive walk, Option.any_some, ← leaf, zero, hasFlag_zero]
  · rw [vmmIsMapped_of_walk bound positive walk, Option.any_none]

end

theorem mapPage_represents (represents : Represents machine roots roles memories)
    (start : roots[space]? = some root) {words : Nat → BitVec 64}
    (allowed : mappable machine (frameAddress root) address flags = true) :
    (mapPage machine (frameAddress root) address flags words).pmm.exhausted = true ∨
      ∃ rolesAfter, Represents (mapPage machine (frameAddress root) address flags words) roots rolesAfter
        (memories.modify space fun memory => memory.map (indicesOf address)
          { writable := hasFlag flags pageWritable || hasFlag flags pageCow, words := words }) := by
  obtain ⟨forest, sharing, sizes, backed⟩ := represents
  simp only [mappable, Bool.and_eq_true, decide_eq_true_eq, Bool.not_eq_true'] at allowed
  obtain ⟨⟨⟨user, present⟩, userFlag⟩, unmapped⟩ := allowed
  have indices := userAddress_indices user
  obtain ⟨rootBound, rootPositive⟩ := forest.table_bound ((forest.root root space).mpr start)
  obtain ⟨page, same⟩ := pageFlags_masked present userFlag
  rcases pmmAlloc_cases machine with ⟨exhausted, null⟩ | ⟨block, small, clear, allocated⟩
  · simp only [mapPage, null, if_true]
    exact Or.inl exhausted
  have unused := (forest.spare small clear).unused
  obtain ⟨bound, positive⟩ := (forest.taken block).spare_bound (forest.spare small clear)
  simp only [mapPage, allocated, if_neg (frameAddress_ne_zero block bound positive), vmmMapInSpace,
    if_neg (frameAddress_ne_zero root rootBound rootPositive)]
  -- the frame becomes a data page before it is mapped
  have filled := forest.grows_data small clear words
  have blockData : Function.update roles block .data block = .data := Function.update_self ..
  rcases mapInPml4_mapped filled.forest start address indices bound userFlag with
    exhausted | ⟨grown, rolesAfter, pt, grows, onlyTables, role, result⟩
  · exact Or.inl exhausted
  have all := filled.trans grows
  have blockRole := grows.kept_data blockData
  have zero : leafOf grown root (indicesOf address) = 0 := by
    rw [all.leafOf forest start indices, leafOf_unmapped forest start user unmapped]
  have empty : grown.mem pt (indicesOf address).pt = 0 := by rw [← grows.forest.leafOf_table start role, zero]
  have entry : PageEntry rolesAfter (makeEntry block (flags &&& vmmEntryFlagsMask)) :=
    ⟨block, _, rfl, page, blockRole⟩
  have nowhere : mappings grown rolesAfter block = ∅ := by
    rw [all.mappings, mappings_unused forest (by rw [unused]; simp)]
  have memory : pagesOf memories space (indicesOf address) = none := by
    have shown := backed space root start _ indices
    rw [leafOf_unmapped forest start user unmapped] at shown
    cases found : pagesOf memories space (indicesOf address) with
    | none => rfl
    | some page =>
      rw [found] at shown
      obtain ⟨target, flags, value, page, data, _⟩ := shown
      exact absurd value.symm (page.entry_ne_zero (forest.data_bound data).1)
  rw [result]
  refine Or.inr ⟨rolesAfter, grows.forest.setLeaf role rfl (Or.inr entry), ⟨?_, ?_⟩, by simp [sizes], ?_⟩
  · intro target data
    rw [mappings_write_empty grows.forest role rfl indices.valid.pt bound page empty, all.mappings, Machine.write_pmm]
    by_cases isBlock : block = target
    · subst isBlock
      rw [mappings_unused forest (by rw [unused]; simp), if_pos rfl, grows.refcounts block (by rw [blockData]; simp)]
      simp [Machine.taken]
    · have old := onlyTables target data
      rw [Function.update_of_ne (Ne.symm isBlock)] at old
      rw [if_neg isBlock, all.refcounts target (by rw [old]; simp), sharing.counted target old, Nat.add_zero]
  · apply (sharing.sole.grows all).write grows.forest role rfl indices.valid.pt bound page
    intro other member
    rw [nowhere] at member
    exact absurd member (Finset.notMem_empty other)
  · apply (backed.grows forest all).write grows.forest role (Or.inr entry)
    · obtain ⟨own, found⟩ : ∃ own, memories[space]? = some own :=
        ⟨_, List.getElem?_eq_getElem (by rw [sizes]; exact (List.getElem?_eq_some_iff.mp start).1)⟩
      rw [pagesOf, found] at memory
      rw [pagesOf_modify, if_pos rfl, found, Option.bind_some, UserMemory.map, if_pos ⟨rfl, memory⟩]
      refine ⟨block, _, rfl, page, blockRole, ?_, ?_⟩
      · rw [same _ (by decide), same _ (by decide)]
      · rw [grows.data block blockData]
        funext index
        rw [Machine.fill_mem _ bound, if_pos rfl]
    · intro other indices _ apart
      rw [pagesOf_modify]
      split
      next here =>
        subst here
        cases found : memories[other]? with
        | none => simp [pagesOf, found]
        | some own =>
          rw [Option.bind_some, UserMemory.map, if_neg (fun both => apart ⟨rfl, both.1⟩), pagesOf, found]
          rfl
      · rfl

end

end PhotonOS
