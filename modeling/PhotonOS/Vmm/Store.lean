import PhotonOS.Vmm.PrivateMemory

/-!
A user store on represented memories. A writable page has its frame for itself, so
the store reaches one space only; a copy-on-write page is made writable first.
-/

namespace PhotonOS

open Machine

variable {index : Nat} {value resolved : BitVec 64} {machine : Machine} {roots : List Nat} {roles : Nat → Role}
    {memories : List UserMemory} {root space : Nat} {indices : Indices} {target : Nat} {flags : BitVec 64}

theorem Forest.place (forest : Forest machine roots roles) (start : roots[space]? = some root)
    (user : indices.User) (leaf : leafOf machine root indices = makeEntry target flags) (page : PageFlags flags)
    (data : roles target = .data) : ∃ pt, Walk machine root indices (some pt) ∧ roles pt = .table space indices.path ∧
      machine.mem pt indices.pt = makeEntry target flags ∧ (pt, indices.pt) ∈ mappings machine roles target := by
  have bound := (forest.data_bound data).1
  rcases forest.walk start user with ⟨pt, walk, role, entry⟩ | ⟨_, zero⟩
  · rw [leaf] at entry
    refine ⟨pt, walk, role, entry.symm, mem_mappings.mpr ⟨⟨?_, user.valid.pt⟩, ?_, ?_⟩⟩
    · exact (forest.owned pt (by rw [role]; simp)).2.1
    · rw [role]
      rfl
    · simp only [← entry, mapsTo_makeEntry bound page, decide_true]
  · exact absurd (leaf.symm.trans zero) (page.entry_ne_zero bound)

theorem place_inj {pt pt' space' : Nat} {indices' : Indices} (role : roles pt = .table space indices.path)
    (role' : roles pt' = .table space' indices'.path) (same : (pt, indices.pt) = (pt', indices'.pt)) :
    space = space' ∧ indices = indices' := by
  obtain ⟨rfl, last⟩ := Prod.mk.inj same
  rw [role] at role'
  obtain ⟨spaces, paths⟩ := Role.table.inj role'
  obtain ⟨pml4, pdpt, pd, pt⟩ := indices
  simp only [Indices.path, List.cons.injEq] at paths last
  simp [spaces, paths, last]

theorem Forest.leafOf_congr (forest : Forest machine roots roles) {after : Machine}
    (forestAfter : Forest after roots roles) (start : roots[space]? = some root) (user : indices.User)
    (tables : ∀ frame space path, roles frame = .table space path → after.mem frame = machine.mem frame) :
    leafOf after root indices = leafOf machine root indices := by
  rcases forest.leafOf_cases start user with ⟨pt, role, entry⟩ | ⟨absent, zero⟩
  · rw [entry, forestAfter.leafOf_table start role, tables pt space _ role]
  · rw [zero, forestAfter.leafOf_absent start user absent]

structure SameTables (before after : Machine) (roles : Nat → Role) : Prop where
  total : after.pmm.total = before.pmm.total
  reserved : after.pmm.reserved = before.pmm.reserved
  bitmap : ∀ frame, before.pmm.bitmap frame = true → after.pmm.bitmap frame = true
  tables : ∀ frame space path, roles frame = .table space path → after.mem frame = before.mem frame

namespace SameTables

variable {after : Machine} (same : SameTables machine after roles)

include same

theorem forest (forest : Forest machine roots roles) : Forest after roots roles :=
  forest.congr same.total same.reserved same.bitmap same.tables

theorem mem_eq {frame : Nat} (holds : (roles frame).holdsPages = true) : after.mem frame = machine.mem frame := by
  obtain ⟨space, path, role, _⟩ := (holdsPages_iff _).mp holds
  exact same.tables frame space path role

theorem mappings (target : Nat) : mappings after roles target = PhotonOS.mappings machine roles target :=
  mappings_congr same.total (fun _ => rfl) (fun _ holds => same.mem_eq holds)

theorem sole (sole : Sole machine roles) : Sole after roles := by
  intro target place member writable other otherMember
  rw [same.mappings] at member otherMember
  rw [writableAt, same.mem_eq (mem_mappings.mp member).2.1] at writable
  exact sole target place member writable other otherMember

theorem leafOf (forest : Forest machine roots roles) (start : roots[space]? = some root) (user : indices.User) :
    leafOf after root indices = PhotonOS.leafOf machine root indices :=
  forest.leafOf_congr (same.forest forest) start user same.tables

end SameTables

theorem SameTables.write_data (forest : Forest machine roots roles) (data : roles target = .data) (index : Nat)
    (value : BitVec 64) : SameTables machine (machine.write (frameAddress target) index value) roles where
  total := rfl
  reserved := rfl
  bitmap _ set := set
  tables := by
    intro frame space path role
    funext place
    rw [machine.write_mem (forest.data_bound data).1, if_neg]
    rintro ⟨rfl, _⟩
    rw [role] at data
    contradiction

theorem pagesOf_store {other : Nat} {page : Indices} :
    pagesOf (memories.modify space fun memory => memory.store indices index value) other page =
      if other = space ∧ page = indices then (pagesOf memories other page).map (·.store index value)
      else pagesOf memories other page := by
  rw [pagesOf_modify]
  by_cases here : other = space
  · subst here
    cases found : memories[other]? with
    | none => simp [pagesOf, found]
    | some memory => simp only [Option.bind_some, UserMemory.store, pagesOf, found, true_and, if_true]
  · rw [if_neg here, if_neg (fun both => here both.1)]

theorem Represents.store_nothing (represents : Represents machine roots roles memories)
    (readOnly : ∀ page, pagesOf memories space indices = some page → page.writable = false) :
    Represents machine roots roles (memories.modify space fun memory => memory.store indices index value) := by
  obtain ⟨forest, sharing, sizes, backed⟩ := represents
  refine ⟨forest, sharing, by simp [sizes], ?_⟩
  intro other otherRoot start page user
  have shown := backed other otherRoot start page user
  rw [pagesOf_store]
  split
  next here =>
    obtain ⟨rfl, rfl⟩ := here
    cases found : pagesOf memories other page with
    | none => rwa [found] at shown
    | some own =>
      rw [found] at shown
      simpa [UserPage.store, readOnly own found] using shown
  · exact shown

theorem Represents.store_writable (represents : Represents machine roots roles memories)
    (start : roots[space]? = some root) (user : indices.User)
    (leaf : leafOf machine root indices = makeEntry target flags) (page : PageFlags flags)
    (data : roles target = .data) (writable : hasFlag flags pageWritable = true) (index : Nat) (value : BitVec 64) :
    Represents (machine.write (frameAddress target) index value) roots roles
      (memories.modify space fun memory => memory.store indices index value) := by
  obtain ⟨forest, sharing, sizes, backed⟩ := represents
  have bound := (forest.data_bound data).1
  have same := SameTables.write_data forest data index value
  obtain ⟨pt, _, role, entry, member⟩ := forest.place start user leaf page data
  have alone := sharing.sole target (pt, indices.pt) member
    (by rw [writableAt, entry, hasFlag_makeEntry bound _ (by decide), writable])
  refine ⟨same.forest forest, ⟨?_, same.sole sharing.sole⟩, by simp [sizes], ?_⟩
  · intro frame frameData
    rw [same.mappings]
    exact sharing.counted frame frameData
  intro other otherRoot otherStart otherIndices otherUser
  have shown := backed other otherRoot otherStart otherIndices otherUser
  rw [same.leafOf forest otherStart otherUser, pagesOf_store]
  cases found : pagesOf memories other otherIndices with
  | none =>
    rw [found] at shown
    rw [Option.map_none, ite_self]
    exact shown
  | some own =>
    rw [found] at shown
    obtain ⟨otherTarget, otherFlags, otherLeaf, otherPage, otherData, allowed, words⟩ := shown
    obtain ⟨otherPt, _, otherRole, otherEntry, otherMember⟩ :=
      forest.place otherStart otherUser otherLeaf otherPage otherData
    split
    next here =>
      obtain ⟨rfl, rfl⟩ := here
      have sameEntry : makeEntry otherTarget otherFlags = makeEntry target flags := by
        rw [← otherLeaf, ← leaf, Option.some.inj (otherStart.symm.trans start)]
      obtain ⟨rfl, rfl⟩ := makeEntry_inj (forest.data_bound otherData).1 otherPage.word bound page.word sameEntry
      have ownWritable : own.writable = true := by rw [← allowed, writable, Bool.true_or]
      refine ⟨otherTarget, otherFlags, otherLeaf, otherPage, otherData, ?_, ?_⟩
      · simp only [UserPage.store, ownWritable, if_true, writable, Bool.true_or]
      · funext place
        rw [machine.write_mem bound, words]
        simp [UserPage.store, ownWritable]
    next apart =>
      -- a second place for the frame would contradict that the entry is writable
      have otherFrame : otherTarget ≠ target := by
        rintro rfl
        have places := alone (otherPt, otherIndices.pt) otherMember
        exact apart (place_inj otherRole role places)
      refine ⟨otherTarget, otherFlags, otherLeaf, otherPage, otherData, allowed, ?_⟩
      funext place
      rw [machine.write_mem bound, if_neg (fun both => otherFrame both.1), words]

theorem pmmFree_shared (forest : Forest machine roots roles) (data : roles target = .data)
    (shared : 1 < (machine.pmm.refcounts target).toNat) :
    SameTables machine (pmmFree machine (frameAddress target)) roles ∧
      (pmmFree machine (frameAddress target)).mem = machine.mem ∧
      ∀ frame, ((pmmFree machine (frameAddress target)).pmm.refcounts frame).toNat =
        (machine.pmm.refcounts frame).toNat - if frame = target then 1 else 0 := by
  obtain ⟨low, high, _⟩ := forest.owned target (by rw [data]; simp)
  have bound := (forest.data_bound data).1
  have aligned : ¬ ((frameAddress target).toNat % pmmPageSize ≠ 0 ∨ target ≥ machine.pmm.total ∨
      target < machine.pmm.reserved) := by
    rw [frameAddress_toNat bound, pmmPageSize]
    omega
  have counted : (machine.pmm.refcounts target - 1).toNat = (machine.pmm.refcounts target).toNat - 1 := by
    rw [BitVec.toNat_sub_of_le (BitVec.le_def.mpr (by simp; omega))]
    rfl
  have positive : machine.pmm.refcounts target ≠ 0 := by
    intro zero
    rw [zero] at shared
    contradiction
  have remaining : machine.pmm.refcounts target - 1 ≠ 0 := by
    intro zero
    rw [zero] at counted
    have value : (0 : BitVec 32).toNat = 0 := rfl
    omega
  simp only [pmmFree, frameOf_frameAddress target bound, if_neg aligned, if_neg positive, remaining, and_false,
    if_false]
  refine ⟨⟨rfl, rfl, fun _ set => set, fun _ _ _ _ => rfl⟩, trivial, ?_⟩
  intro frame
  by_cases same : frame = target
  · rw [if_pos same, if_pos same, counted, same]
  · rw [if_neg same, if_neg same, Nat.sub_zero]

theorem pmmRefGet_data (forest : Forest machine roots roles) (data : roles target = .data) :
    pmmRefGet machine (frameAddress target) = machine.pmm.refcounts target := by
  have bound := (forest.data_bound data).1
  have high := (forest.owned target (by rw [data]; simp)).2.1
  rw [pmmRefGet, frameOf_frameAddress target bound, if_neg]
  rw [frameAddress_toNat bound, pmmPageSize]
  omega

section

variable {pages : Nat → Indices → Option UserPage} {pt target : Nat} {flags : BitVec 64}
  (start : roots[space]? = some root) (user : indices.User)
  (role : roles pt = .table space indices.path) (entry : machine.mem pt indices.pt = makeEntry target flags)
  (page : PageFlags flags) (data : roles target = .data)

include start user role entry page data

theorem Shows.shown_page (shows : Shows machine roots roles pages) : ∃ own, pages space indices = some own ∧
      (hasFlag flags pageWritable || hasFlag flags pageCow) = own.writable ∧ machine.mem target = own.words := by
  have forest := shows.forest
  have bound := (forest.data_bound data).1
  have shown := shows.backed space root start indices user
  rw [forest.leafOf_table start role, entry] at shown
  cases found : pages space indices with
  | none =>
    rw [found] at shown
    exact absurd shown (page.entry_ne_zero bound)
  | some own =>
    rw [found] at shown
    obtain ⟨otherTarget, otherFlags, same, otherPage, otherData, writable, words⟩ := shown
    obtain ⟨rfl, rfl⟩ := makeEntry_inj bound page.word (forest.data_bound otherData).1 otherPage.word same
    exact ⟨own, rfl, writable, words⟩

theorem Shows.reflag (shows : Shows machine roots roles pages)
    (member : (pt, indices.pt) ∈ mappings machine roles target) {after : BitVec 64} (afterPage : PageFlags after)
    (allowed : (hasFlag after pageWritable || hasFlag after pageCow) =
      (hasFlag flags pageWritable || hasFlag flags pageCow))
    (alone : ∀ other ∈ mappings machine roles target, other = (pt, indices.pt) ∨
      (hasFlag after pageWritable = false ∧ writableAt machine other = false)) :
    Shows (machine.write (frameAddress pt) indices.pt (makeEntry target after)) roots roles pages := by
  obtain ⟨own, found, writable, words⟩ := shows.shown_page start user role entry page data
  obtain ⟨forest, sharing, backed⟩ := shows
  have bound := (forest.data_bound data).1
  have good : PageEntry roles (makeEntry target after) := ⟨target, after, rfl, afterPage, data⟩
  refine ⟨forest.setLeaf role rfl (Or.inr good), ⟨?_, ?_⟩, ?_⟩
  · intro frame frameData
    rw [mappings_write_same forest role rfl user.valid.pt bound afterPage member]
    exact sharing.counted frame frameData
  · exact sharing.sole.write forest role rfl user.valid.pt bound afterPage alone
  · apply backed.write forest role (Or.inr good)
    · rw [found]
      exact ⟨target, after, rfl, afterPage, data, allowed.trans writable, words⟩
    · exact fun _ _ _ _ => rfl

variable (represents : Represents machine roots roles memories)
  (member : (pt, indices.pt) ∈ mappings machine roles target)
  (allowed : (hasFlag flags pageWritable || hasFlag flags pageCow) = true)

include represents member allowed

theorem Represents.take_over (single : (machine.pmm.refcounts target).toNat ≤ 1) (resolvedPage : PageFlags resolved)
    (writable : hasFlag resolved pageWritable = true) :
    Represents (machine.write (frameAddress pt) indices.pt (makeEntry target resolved)) roots roles memories := by
  have sharing := represents.sharing
  obtain ⟨forest, sharing, backed⟩ := represents.shows.reflag start user role entry page data member resolvedPage
    (by rw [writable, allowed, Bool.true_or]) (by
      intro other otherMember
      rw [sharing.counted target data, Finset.card_le_one] at single
      exact Or.inl (single other otherMember _ member))
  exact ⟨forest, sharing, represents.sizes, backed⟩

theorem Represents.take_copy (shared : 1 < (machine.pmm.refcounts target).toNat) (resolvedPage : PageFlags resolved)
    (writable : hasFlag resolved pageWritable = true) {block : Nat} (small : block < machine.pmm.total)
    (clear : machine.pmm.bitmap block = false) :
    Represents (pmmFree (((machine.taken block).fill (frameAddress block) (machine.mem target)).write
        (frameAddress pt) indices.pt (makeEntry block resolved)) (frameAddress target)) roots
      (Function.update roles block .data) memories := by
  obtain ⟨own, found, sameWritable, words⟩ := represents.shows.shown_page start user role entry page data
  have ownWritable : own.writable = true := sameWritable.symm.trans allowed
  obtain ⟨forest, sharing, sizes, backed⟩ := represents
  have grows := forest.grows_data small clear (machine.mem target)
  have unused := (forest.spare small clear).unused
  have bound := ((forest.taken block).spare_bound (forest.spare small clear)).1
  generalize copied : (machine.taken block).fill (frameAddress block) (machine.mem target) = copy at grows ⊢
  have copyMem : copy.mem block = machine.mem target := by
    funext index
    rw [← copied, fill_mem _ bound, if_pos rfl]
  have copyCount : (copy.pmm.refcounts block).toNat = 1 := by simp [← copied, taken]
  have apart := ne_of_unused data unused
  have blockData : Function.update roles block .data block = .data := Function.update_self ..
  have newData : ∀ frame, block ≠ frame → Function.update roles block .data frame = .data → roles frame = .data := by
    intro frame other frameData
    rwa [Function.update_of_ne (Ne.symm other)] at frameData
  generalize Function.update roles block .data = rolesAfter at grows blockData newData ⊢
  have roleAfter := grows.kept_table role
  have dataAfter := grows.kept_data data
  have good : PageEntry rolesAfter (makeEntry block resolved) := ⟨block, resolved, rfl, resolvedPage, blockData⟩
  have mapped : Forest (copy.write (frameAddress pt) indices.pt (makeEntry block resolved)) roots rolesAfter :=
    grows.forest.setLeaf roleAfter rfl (Or.inr good)
  have mappedCount : 1 < ((copy.write (frameAddress pt) indices.pt (makeEntry block resolved)).pmm.refcounts
      target).toNat := by
    rw [write_pmm, grows.refcounts target (by rw [data]; simp)]
    exact shared
  obtain ⟨same, sameMem, counts⟩ := pmmFree_shared mapped dataAfter mappedCount
  have nowhere : mappings copy rolesAfter block = ∅ := by
    rw [grows.mappings, mappings_unused forest (by rw [unused]; simp)]
  have backedAfter : Backed (copy.write (frameAddress pt) indices.pt (makeEntry block resolved)) roots rolesAfter
      (pagesOf memories) := by
    apply (backed.grows forest grows).write grows.forest roleAfter (Or.inr good)
    · rw [found]
      exact ⟨block, resolved, rfl, resolvedPage, blockData, by rw [writable, ownWritable, Bool.true_or],
        copyMem.trans words⟩
    · exact fun _ _ _ _ => rfl
  have soleAfter : Sole (copy.write (frameAddress pt) indices.pt (makeEntry block resolved)) rolesAfter := by
    apply (sharing.sole.grows grows).write grows.forest roleAfter rfl user.valid.pt bound resolvedPage
    intro other otherMember
    rw [nowhere] at otherMember
    exact absurd otherMember (Finset.notMem_empty other)
  refine ⟨same.forest mapped, ⟨?_, same.sole soleAfter⟩, sizes, ?_⟩
  · intro frame frameData
    rw [counts, write_pmm, same.mappings,
      mappings_write_page grows.forest roleAfter rfl user.valid.pt bound resolvedPage]
    by_cases isBlock : block = frame
    · subst isBlock
      rw [if_pos rfl, nowhere, if_neg (Ne.symm apart), copyCount]
      simp
    have old := newData frame isBlock frameData
    rw [if_neg isBlock, grows.mappings, grows.refcounts frame (by rw [old]; simp), sharing.counted frame old]
    by_cases isTarget : frame = target
    · subst isTarget
      rw [if_pos rfl, Finset.card_erase_of_mem member]
    rw [if_neg isTarget, Nat.sub_zero, Finset.erase_eq_of_notMem]
    intro otherMember
    have maps := (mem_mappings.mp otherMember).2.2
    simp only [entry, mapsTo_makeEntry (forest.data_bound data).1 page, decide_eq_true_eq] at maps
    exact isTarget maps.symm
  · intro other otherRoot otherStart otherIndices otherUser
    rw [same.leafOf mapped otherStart otherUser]
    apply (backedAfter other otherRoot otherStart otherIndices otherUser).congr
    intro frame frameData
    exact ⟨frameData, by rw [sameMem]⟩

end

theorem storeWord_pmm (machine : Machine) (pml4 address value : BitVec 64) :
    ((storeWord machine pml4 address value).getD machine).pmm = machine.pmm := by
  rw [storeWord]
  split <;> rfl

def StorablePage (machine : Machine) (roles : Nat → Role) (root : Nat) (indices : Indices) : Prop :=
  ∃ target flags, leafOf machine root indices = makeEntry target flags ∧ PageFlags flags ∧ roles target = .data ∧
    hasFlag flags pageWritable = true

section

variable {address : BitVec 64} (represents : Represents machine roots roles memories)
  (start : roots[space]? = some root) (user : UserAddress address)

include represents start user

theorem vmmPageFaultHandler_represents (errorCode : BitVec 64)
    (leaf : leafOf machine root (indicesOf address) = makeEntry target flags) (page : PageFlags flags)
    (data : roles target = .data) (cow : hasFlag flags pageCow = true)
    (store : errorCode &&& (pfErrorPresent ||| pfErrorWrite) = pfErrorPresent ||| pfErrorWrite) :
    let result := vmmPageFaultHandler machine (frameAddress root) errorCode address
    result.1.pmm.exhausted = true ∨ result.2 = true ∧ ∃ rolesAfter, Represents result.1 roots rolesAfter memories ∧
        StorablePage result.1 rolesAfter root (indicesOf address) := by
  have forest := represents.forest
  have indices := userAddress_indices user
  obtain ⟨rootBound, rootPositive⟩ := forest.table_bound ((forest.root root space).mpr start)
  have bound := (forest.data_bound data).1
  obtain ⟨pt, walk, role, entry, member⟩ := forest.place start indices leaf page data
  have ptBound := (forest.table_bound role).1
  obtain ⟨word, present, userFlag, writable⟩ := resolvedFlags_facts bound page.word
  have resolved : PageFlags (resolvedFlags (makeEntry target flags)) :=
    ⟨word, present.trans page.present, userFlag.trans page.user⟩
  have allowed : (hasFlag flags pageWritable || hasFlag flags pageCow) = true := by rw [cow, Bool.or_true]
  have cowEntry : hasFlag (makeEntry target flags) pageCow = true := by
    rw [hasFlag_makeEntry bound _ (by decide), cow]
  have presentEntry : hasFlag (makeEntry target flags) pagePresent = true := by
    rw [hasFlag_makeEntry bound _ (by decide), page.present]
  simp only [vmmPageFaultHandler, frameAddress_masked root rootBound, faultWalk_of_walk rootBound rootPositive walk,
    entry, presentEntry, Option.bind_some, if_true, store, cowEntry, and_self, makeEntry_addr bound page.word,
    pmmRefGet_data forest data]
  have position : indexAt address 12 = (indicesOf address).pt := rfl
  by_cases shared : machine.pmm.refcounts target > 1
  · rw [if_pos shared]
    rcases pmmAlloc_cases machine with ⟨exhausted, null⟩ | ⟨block, small, clear, allocated⟩
    · rw [if_pos null]
      exact Or.inl exhausted
    have spare := forest.spare small clear
    obtain ⟨blockBound, blockPositive⟩ := (forest.taken block).spare_bound spare
    have after := represents.take_copy start indices role entry page data member allowed
      (BitVec.lt_def.mp shared) resolved writable small clear
    have copied : (machine.taken block).copyPage (frameAddress block) (frameAddress target) =
        (machine.taken block).fill (frameAddress block) (machine.mem target) := by
      rw [copyPage]
      congr 1
      funext index
      rw [read_frame _ bound]
      rfl
    rw [allocated, if_neg (frameAddress_ne_zero block blockBound blockPositive), copied,
      frameAddress_masked block blockBound, position]
    refine Or.inr ⟨rfl, _, after, block, _, ?_, resolved, Function.update_self .., writable⟩
    change leafOf (pmmFree (write _ _ _ (makeEntry block _)) _) root (indicesOf address) = _
    rw [after.forest.leafOf_table start (update_table role spare.unused), pmmFree_mem, write_mem _ ptBound,
      if_pos ⟨rfl, rfl⟩]
  · rw [if_neg shared, position]
    have single : (machine.pmm.refcounts target).toNat ≤ 1 := by
      have lower := mt BitVec.lt_def.mpr shared
      simp at lower
      omega
    have after := represents.take_over start indices role entry page data member allowed single resolved writable
    refine Or.inr ⟨rfl, roles, after, target, _, ?_, resolved, data, writable⟩
    change leafOf (write _ _ _ (makeEntry target _)) root (indicesOf address) = _
    rw [after.forest.leafOf_table start role, write_mem _ ptBound, if_pos ⟨rfl, rfl⟩]

theorem storeWord_represents (storable : StorablePage machine roles root (indicesOf address)) (value : BitVec 64) :
    ∃ stored, storeWord machine (frameAddress root) address value = some stored ∧ Represents stored roots roles
        (memories.modify space fun memory => memory.store (indicesOf address) (wordIndex address) value) := by
  obtain ⟨target, flags, leaf, page, data, writable⟩ := storable
  have forest := represents.forest
  have indices := userAddress_indices user
  have bound := (forest.data_bound data).1
  obtain ⟨pt, walk, _, entry, _⟩ := forest.place start indices leaf page data
  refine ⟨machine.write (frameAddress target) (wordIndex address) value, ?_,
    represents.store_writable start indices leaf page data writable (wordIndex address) value⟩
  rw [storeWord, userTranslate_of_walk (forest.table_bound ((forest.root root space).mpr start)).1 walk]
  simp only [Option.bind_some, entry, hasFlag_makeEntry bound pagePresent (by decide),
    hasFlag_makeEntry bound pageUser (by decide), hasFlag_makeEntry bound pageWritable (by decide), page.present,
    page.user, writable, Bool.and_self, if_true, entryTable_makeEntry bound page.word]

theorem userStore_represents :
    (userStore machine (frameAddress root) address value).pmm.exhausted = true ∨
      ∃ rolesAfter, Represents (userStore machine (frameAddress root) address value) roots rolesAfter
        (memories.modify space fun memory => memory.store (indicesOf address) (wordIndex address) value) := by
  have forest := represents.forest
  have indices := userAddress_indices user
  obtain ⟨rootBound, rootPositive⟩ := forest.table_bound ((forest.root root space).mpr start)
  rcases forest.leafOf_entry start indices with zero | ⟨target, flags, leaf, page, data⟩
  · -- nothing is mapped: the walks find no entry and the fault stays unresolved
    have missing : userTranslate machine (frameAddress root) address = none ∧
        faultWalk machine (frameAddress root) address = none := by
      rcases forest.walk start indices with ⟨pt, walk, _, entry⟩ | ⟨walk, _⟩
      · rw [userTranslate_of_walk rootBound walk, faultWalk_of_walk rootBound rootPositive walk, Option.bind_some,
          Option.bind_some, ← entry, zero, hasFlag_zero]
        exact ⟨rfl, rfl⟩
      · rw [userTranslate_of_walk rootBound walk, faultWalk_of_walk rootBound rootPositive walk]
        exact ⟨rfl, rfl⟩
    have unchanged : userStore machine (frameAddress root) address value = machine := by
      simp only [userStore, storeWord, missing.1, vmmPageFaultHandler, frameAddress_masked root rootBound, missing.2]
      rfl
    rw [unchanged]
    refine Or.inr ⟨roles, represents.store_nothing ?_⟩
    intro own found
    have shown := represents.backed space root start _ indices
    rw [zero, found] at shown
    obtain ⟨target, flags, entry, page, data, _⟩ := shown
    exact absurd entry.symm (page.entry_ne_zero (forest.data_bound data).1)
  by_cases writable : hasFlag flags pageWritable = true
  · obtain ⟨stored, result, after⟩ :=
      storeWord_represents represents start user ⟨target, flags, leaf, page, data, writable⟩ value
    rw [userStore, result]
    exact Or.inr ⟨roles, after⟩
  have bound := (forest.data_bound data).1
  obtain ⟨pt, walk, role, entry, member⟩ := forest.place start indices leaf page data
  have fault : storeWord machine (frameAddress root) address value = none := by
    rw [storeWord, userTranslate_of_walk rootBound walk]
    simp only [Option.bind_some, entry, hasFlag_makeEntry bound pagePresent (by decide),
      hasFlag_makeEntry bound pageUser (by decide), hasFlag_makeEntry bound pageWritable (by decide), page.present,
      page.user, writable, Bool.and_self, if_true]
  have walked : faultWalk machine (frameAddress root) address = some (frameAddress pt, makeEntry target flags) := by
    rw [faultWalk_of_walk rootBound rootPositive walk, Option.bind_some, entry,
      hasFlag_makeEntry bound _ (by decide), page.present, if_pos rfl]
  simp only [userStore, fault, walked, Option.isSome_some, if_true]
  by_cases cow : hasFlag flags pageCow = true
  · rcases vmmPageFaultHandler_represents represents start user (pfErrorPresent ||| pfErrorWrite ||| pfErrorUser)
        leaf page data cow (by decide) with exhausted | ⟨resolved, rolesAfter, after, storable⟩
    · left
      split
      · rw [storeWord_pmm]
        exact exhausted
      · exact exhausted
    · obtain ⟨stored, result, final⟩ := storeWord_represents after start user storable value
      rw [if_pos resolved, result]
      exact Or.inr ⟨rolesAfter, final⟩
  · have refused : vmmPageFaultHandler machine (frameAddress root) (pfErrorPresent ||| pfErrorWrite ||| pfErrorUser)
        address = (machine, false) := by
      simp only [vmmPageFaultHandler, frameAddress_masked root rootBound, walked,
        hasFlag_makeEntry bound pageCow (by decide), cow, Bool.false_eq_true, and_false, if_false]
    rw [refused]
    refine Or.inr ⟨roles, represents.store_nothing ?_⟩
    intro own found
    obtain ⟨shown, same, writable_eq, _⟩ := represents.shows.shown_page start indices role entry page data
    rw [found, Option.some.injEq] at same
    rw [same, ← writable_eq]
    simp [writable, cow]

end

end PhotonOS
