import PhotonOS.Vmm.Clone

/-!
Copy-on-write isolation over whole runs: every address space reads its own private
memory, however the frames are shared underneath.
-/

namespace PhotonOS

open Transition

def Refines (vm : Vm) (memories : List UserMemory) : Prop :=
  vm.machine.pmm.exhausted = true ∨
    ∃ roots roles, vm.spaces = roots.map frameAddress ∧ Represents vm.machine roots roles memories

variable {kernelEnd : Nat}

theorem pmmInit_reserved : 0 < (pmmInit kernelEnd).reserved := by
  have first : alignUp pmmReservedEnd = 4096 * 256 := by decide
  simp only [pmmInit, pmmPageSize, pmmMaxBlocks]
  omega

theorem boot_forest {mem : Nat → Nat → BitVec 64} {kernelPml4 : BitVec 64} :
    Forest (Vm.boot mem kernelPml4 kernelEnd).machine [] fun _ => .unused where
  total := Nat.le_refl _
  reserved := pmmInit_reserved
  guarded _ low := decide_eq_true low
  owned _ used := absurd rfl used
  root := by simp
  child := by simp
  parent := by simp
  leaf := by simp

variable (machine : Machine) {frame space : Nat}

theorem sharing_unused : Sharing machine fun _ => .unused where
  counted := by simp
  sole := by
    intro target place member
    simp [mem_mappings, Role.holdsPages] at member

/-! A failed allocation is never forgotten. -/

theorem vmmPageFaultHandler_exhausted {cr3 errorCode address : BitVec 64} (failed : machine.pmm.exhausted = true) :
    (vmmPageFaultHandler machine cr3 errorCode address).1.pmm.exhausted = true := by
  have allocated := pmmAlloc_exhausted failed
  have freed : ∀ other physical, (pmmFree other physical).pmm.exhausted = other.pmm.exhausted := by
    intro other physical
    rw [pmmFree]
    split
    · rfl
    · split <;> rfl
  rw [vmmPageFaultHandler]
  split
  · exact failed
  dsimp only
  split
  · split
    · split
      · exact allocated
      · rw [freed]
        exact allocated
    · exact failed
  · exact failed

theorem userStore_exhausted {pml4 address value : BitVec 64} (failed : machine.pmm.exhausted = true) :
    (userStore machine pml4 address value).pmm.exhausted = true := by
  rw [userStore]
  split
  next stored result =>
    have pmm := storeWord_pmm machine pml4 address value
    rw [result, Option.getD_some] at pmm
    rw [pmm, failed]
  · dsimp only
    generalize (if (faultWalk machine pml4 address).isSome = true then pfErrorPresent else 0) = present
    split
    · rw [storeWord_pmm]
      exact vmmPageFaultHandler_exhausted machine failed
    · exact vmmPageFaultHandler_exhausted machine failed

theorem vmStep_exhausted {vm : Vm} {event : VmEvent} (failed : vm.machine.pmm.exhausted = true) :
    (vmStep vm event).machine.pmm.exhausted = true := by
  have allocated := pmmAlloc_exhausted failed
  cases event with
  | create =>
    simp only [vmStep, Vm.join, vmmCreateAddressSpace]
    split <;> exact allocated
  | map space address flags words =>
    simp only [vmStep]
    split
    · exact failed
    split
    · simp only [mapPage, vmmMapInSpace]
      split
      · exact allocated
      · split
        · exact allocated
        · exact mapInPml4_exhausted _ _ _ _ _ allocated
    · exact failed
  | clone space =>
    simp only [vmStep]
    split
    · exact failed
    simp only [Vm.join, vmmCloneAddressSpace]
    split
    · exact failed
    · split
      · exact allocated
      · exact foldl_stuck (·.pmm.exhausted = true) clonePdpt_exhausted _ allocated
  | write space address value =>
    simp only [vmStep]
    split
    · exact failed
    · split
      · exact userStore_exhausted vm.machine failed
      · exact failed

theorem modify_unchanged {memories : List UserMemory} {change : UserMemory → UserMemory}
    (fixed : ∀ memory, memories[space]? = some memory → change memory = memory) :
    memories.modify space change = memories := by
  apply List.ext_getElem?
  intro other
  rw [List.getElem?_modify]
  by_cases here : space = other
  · subst here
    cases found : memories[space]? with
    | none => rfl
    | some memory => simp [fixed memory found]
  · simp [here]

theorem vmStep_refines (vm : Vm) (memories : List UserMemory) (event : VmEvent) (refines : Refines vm memories) :
    Refines (vmStep vm event) (memoryStep memories event) := by
  rcases refines with failed | ⟨roots, roles, spaces, represents⟩
  · exact Or.inl (vmStep_exhausted failed)
  -- a new space is appended on both sides
  have joined : ∀ (result : Machine × BitVec 64) (memory : UserMemory), (result.1.pmm.exhausted = true ∨
      ∃ block rolesAfter, result.2 = frameAddress block ∧
        Represents result.1 (roots ++ [block]) rolesAfter (memories ++ [memory])) →
      Refines (vm.join result) (memories ++ [memory]) := by
    rintro result memory (failed | ⟨block, rolesAfter, address, after⟩)
    · exact Or.inl failed
    have start : (roots ++ [block])[roots.length]? = some block := by simp
    obtain ⟨bound, positive⟩ := after.forest.table_bound ((after.forest.root block roots.length).mpr start)
    refine Or.inr ⟨roots ++ [block], rolesAfter, ?_, after⟩
    simp only [Vm.join, address, if_neg (frameAddress_ne_zero block bound positive), spaces, List.map_append,
      List.map_cons, List.map_nil]
  have missing_before : ∀ space : Nat, vm.spaces[space]? = none → memories[space]? = none := by
    intro space missing
    rw [spaces, List.getElem?_map, Option.map_eq_none_iff, List.getElem?_eq_none_iff] at missing
    rw [List.getElem?_eq_none_iff, represents.sizes]
    exact missing
  have found_before : ∀ (space : Nat) (cr3 : BitVec 64), vm.spaces[space]? = some cr3 →
      ∃ root memory, roots[space]? = some root ∧ cr3 = frameAddress root ∧ memories[space]? = some memory := by
    intro space cr3 found
    rw [spaces, List.getElem?_map, Option.map_eq_some_iff] at found
    obtain ⟨root, start, address⟩ := found
    have low := (List.getElem?_eq_some_iff.mp start).1
    rw [← represents.sizes] at low
    exact ⟨root, memories[space], start, address.symm, List.getElem?_eq_getElem low⟩
  have still : Refines vm memories := Or.inr ⟨roots, roles, spaces, represents⟩
  have unmodified : ∀ (space : Nat) (change : UserMemory → UserMemory), vm.spaces[space]? = none → Refines vm (memories.modify space change) := by
    intro space change missing
    rw [modify_unchanged (by simp [missing_before space missing])]
    exact still
  cases event with
  | create => exact joined _ _ (vmmCreateAddressSpace_represents represents)
  | map space address flags words =>
    simp only [vmStep, memoryStep]
    cases found : vm.spaces[space]? with
    | none =>
      dsimp only
      split
      · exact unmodified space _ found
      · exact still
    | some cr3 =>
      obtain ⟨root, memory, start, rfl, same⟩ := found_before space cr3 found
      dsimp only
      by_cases allowed : mappable vm.machine (frameAddress root) address flags = true
      · have guard := allowed
        simp only [mappable, Bool.and_eq_true, decide_eq_true_eq, Bool.not_eq_true'] at guard
        rw [if_pos allowed, if_pos ⟨guard.1.1.1, guard.1.1.2, guard.1.2⟩]
        rcases mapPage_represents represents start allowed with failed | ⟨rolesAfter, after⟩
        · exact Or.inl failed
        · exact Or.inr ⟨roots, rolesAfter, spaces, after⟩
      · rw [if_neg allowed]
        split
        next guard =>
          -- the page is already there, so the abstract memory keeps it too
          have occupied : memory (indicesOf address) ≠ none := by
            intro missing
            have shown := represents.backed space root start _ (userAddress_indices guard.1)
            rw [pagesOf, same, Option.bind_some, missing] at shown
            have unmapped := vmmIsMapped_zero represents.forest start guard.1 shown
            simp [mappable, guard, unmapped] at allowed
          rw [modify_unchanged]
          · exact still
          · intro other otherSame
            rw [same, Option.some.injEq] at otherSame
            exact otherSame ▸ funext fun _ => if_neg fun both => occupied both.2
        · exact still
  | clone space =>
    simp only [vmStep, memoryStep]
    cases found : vm.spaces[space]? with
    | none =>
      rw [missing_before space found]
      simpa using still
    | some cr3 =>
      obtain ⟨root, memory, start, rfl, same⟩ := found_before space cr3 found
      rw [same]
      exact joined _ _ (vmmCloneAddressSpace_represents represents start same)
  | write space address value =>
    simp only [vmStep, memoryStep]
    cases found : vm.spaces[space]? with
    | none =>
      dsimp only
      split
      · exact unmodified space _ found
      · exact still
    | some cr3 =>
      obtain ⟨root, memory, start, rfl, same⟩ := found_before space cr3 found
      dsimp only
      split
      next user =>
        rcases userStore_represents represents start user with failed | ⟨rolesAfter, after⟩
        · exact Or.inl failed
        · exact Or.inr ⟨roots, rolesAfter, spaces, after⟩
      · exact still

def Vm.entry (vm : Vm) (space : Nat) (indices : Indices) : BitVec 64 :=
  match vm.spaces[space]? with
  | none => 0
  | some cr3 => leafOf vm.machine (frameOf cr3) indices

/-- The page `page.2` of space `page.1` is mapped to `frame`. -/
def Vm.Maps (vm : Vm) (frame : Nat) (page : Nat × Indices) : Prop :=
  page.2.User ∧ mapsTo (vm.entry page.1 page.2) frame = true

section

variable {vm : Vm} {memories : List UserMemory} {roots : List Nat} {roles : Nat → Role}
  (spaces : vm.spaces = roots.map frameAddress) (represents : Represents vm.machine roots roles memories)

include spaces represents

theorem userRead_represented {cr3 address : BitVec 64} (found : vm.spaces[space]? = some cr3)
    (user : UserAddress address) :
    userRead vm.machine cr3 address = memories[space]?.bind fun memory => memory.read address := by
  rw [spaces, List.getElem?_map, Option.map_eq_some_iff] at found
  obtain ⟨root, start, rfl⟩ := found
  have forest := represents.forest
  have indices := userAddress_indices user
  obtain ⟨rootBound, _⟩ := forest.table_bound ((forest.root root space).mpr start)
  have abstract : (memories[space]?.bind fun memory => memory.read address) =
      (pagesOf memories space (indicesOf address)).map (·.words (wordIndex address)) := by
    rw [pagesOf, Option.map_bind]
    rfl
  have shown := represents.backed space root start _ indices
  rw [abstract, userRead]
  cases found : pagesOf memories space (indicesOf address) with
  | none =>
    rw [found] at shown
    rcases forest.walk start indices with ⟨pt, walk, _, leaf⟩ | ⟨walk, _⟩
    · rw [userTranslate_of_walk rootBound walk, Option.bind_some, ← leaf, shown]
      simp only [hasFlag_zero, Bool.and_self, Bool.false_eq_true, if_false, Option.map_none]
    · rw [userTranslate_of_walk rootBound walk]
      rfl
  | some page =>
    rw [found] at shown
    obtain ⟨target, flags, leaf, pageFlags, data, _, words⟩ := shown
    have bound := (forest.data_bound data).1
    obtain ⟨pt, walk, _, entry, _⟩ := forest.place start indices leaf pageFlags data
    rw [userTranslate_of_walk rootBound walk]
    simp only [Option.bind_some, entry, hasFlag_makeEntry bound pagePresent (by decide),
      hasFlag_makeEntry bound pageUser (by decide), pageFlags.present, pageFlags.user, Bool.and_self, if_true,
      Option.map_some, entryTable_makeEntry bound pageFlags.word, Machine.read_frame _ bound, words]

theorem maps_place {page : Nat × Indices} (maps : vm.Maps frame page) :
    roles frame = .data ∧ ∃ pt, roles pt = .table page.1 page.2.path ∧
      (pt, page.2.pt) ∈ mappings vm.machine roles frame ∧ vm.machine.mem pt page.2.pt = vm.entry page.1 page.2 := by
  obtain ⟨space, indices⟩ := page
  obtain ⟨user, maps⟩ := maps
  have forest := represents.forest
  cases start : roots[space]? with
  | none =>
    have missing : vm.entry space indices = 0 := by simp [Vm.entry, spaces, start]
    rw [missing, mapsTo_zero] at maps
    contradiction
  | some root =>
    obtain ⟨rootBound, _⟩ := forest.table_bound ((forest.root root space).mpr start)
    have entry : vm.entry space indices = leafOf vm.machine root indices := by
      simp [Vm.entry, spaces, start, frameOf_frameAddress root rootBound]
    rcases forest.leafOf_entry start user with zero | ⟨target, flags, leaf, page, data⟩
    · rw [entry, zero, mapsTo_zero] at maps
      contradiction
    · rw [entry, leaf, mapsTo_makeEntry (forest.data_bound data).1 page, decide_eq_true_eq] at maps
      subst maps
      obtain ⟨pt, _, role, value, member⟩ := forest.place start user leaf page data
      exact ⟨data, pt, role, member, by rw [entry, leaf, value]⟩

theorem writable_alone {first second : Nat × Indices} (firstMaps : vm.Maps frame first)
    (secondMaps : vm.Maps frame second)
    (writable : hasFlag (vm.entry first.1 first.2) pageWritable = true) : second = first := by
  obtain ⟨_, pt, role, member, value⟩ := maps_place spaces represents firstMaps
  obtain ⟨_, otherPt, otherRole, otherMember, _⟩ := maps_place spaces represents secondMaps
  have same := represents.sharing.sole frame _ member (by rw [writableAt, value, writable]) _ otherMember
  obtain ⟨spaceEq, indicesEq⟩ := place_inj otherRole role same
  exact Prod.ext spaceEq indicesEq

theorem refcount_covers {pages : List (Nat × Indices)} (distinct : pages.Nodup)
    (all : ∀ page ∈ pages, vm.Maps frame page) : pages.length ≤ (vm.machine.pmm.refcounts frame).toNat := by
  cases pages with
  | nil => exact Nat.zero_le _
  | cons first rest =>
    have data := (maps_place spaces represents (all first (by simp))).1
    rw [represents.sharing.counted frame data, ← List.toFinset_card_of_nodup distinct]
    -- each page goes to its own place
    have places : ∀ page : Nat × Indices, ∃ place, vm.Maps frame page →
        place ∈ mappings vm.machine roles frame ∧ roles place.1 = .table page.1 page.2.path ∧
          place.2 = page.2.pt := by
      intro page
      by_cases maps : vm.Maps frame page
      · obtain ⟨_, pt, role, member, _⟩ := maps_place spaces represents maps
        exact ⟨(pt, page.2.pt), fun _ => ⟨member, role, rfl⟩⟩
      · exact ⟨(0, 0), fun found => absurd found maps⟩
    choose place found using places
    apply Finset.card_le_card_of_injOn place
    · intro page member
      exact (found page (all page (by simpa using member))).1
    intro page member other otherMember same
    obtain ⟨_, role, last⟩ := found page (all page (by simpa using member))
    obtain ⟨_, otherRole, otherLast⟩ := found other (all other (by simpa using otherMember))
    have samePlace : ((place page).1, page.2.pt) = ((place other).1, other.2.pt) := by rw [← last, ← otherLast, same]
    obtain ⟨spaceEq, indicesEq⟩ := place_inj role otherRole samePlace
    exact Prod.ext spaceEq indicesEq

end

def sampleVmEvents : List VmEvent :=
  [.create, .clone 0, .map 0 0x8000000000 7 (fun _ => 5), .write 0 0x8000000008 42]

theorem sampleVmEvents_noFailure :
    (run vmStep (Vm.boot (fun _ _ => 0) 0 0) sampleVmEvents).machine.pmm.exhausted = false := by
  decide +kernel

theorem sampleVmEvents_spaces :
    (run vmStep (Vm.boot (fun _ _ => 0) 0 0) sampleVmEvents).spaces = [0x100000, 0x101000] := by
  decide +kernel

end PhotonOS
