import PhotonOS.Vmm.CloneLoops
import PhotonOS.Vmm.Store

/-!
`vmm_clone_address_space` shows the child, page by page, what the parent sees.
-/

namespace PhotonOS

variable {machine : Machine} {roots : List Nat} {roles : Nat → Role} {index : Nat}

def clonedPages (pages : Nat → Indices → Option UserPage) (parent child count space : Nat) (indices : Indices) :
    Option UserPage :=
  if space = child then if indices.rank < count then pages parent indices else none else pages space indices

theorem pmmRefInc_data (forest : Forest machine roots roles) {target : Nat} (data : roles target = .data)
    (room : (machine.pmm.refcounts target).toNat < 2 ^ 24 + 1) :
    SameTables machine (pmmRefInc machine (frameAddress target)) roles ∧
      (pmmRefInc machine (frameAddress target)).mem = machine.mem ∧
      ∀ frame, ((pmmRefInc machine (frameAddress target)).pmm.refcounts frame).toNat =
        (machine.pmm.refcounts frame).toNat + if target = frame then 1 else 0 := by
  have bound := (forest.data_bound data).1
  have high := (forest.owned target (by rw [data]; simp)).2.1
  have aligned : ¬ ((frameAddress target).toNat % pmmPageSize ≠ 0 ∨ target ≥ machine.pmm.total) := by
    rw [frameAddress_toNat bound, pmmPageSize]
    omega
  simp only [pmmRefInc, frameOf_frameAddress target bound, if_neg aligned]
  refine ⟨⟨rfl, rfl, fun _ set => set, fun _ _ _ _ => rfl⟩, trivial, ?_⟩
  intro frame
  by_cases same : frame = target
  · subst same
    simp
    omega
  · rw [if_neg same, if_neg (Ne.symm same), Nat.add_zero]

theorem pmmRefInc_exhausted {address : BitVec 64} :
    (pmmRefInc machine address).pmm.exhausted = machine.pmm.exhausted := by
  rw [pmmRefInc]
  split <;> rfl

theorem clonePage_exhausted {child pt : BitVec 64} {pml4Index pdptIndex pdIndex : Nat}
    (failed : machine.pmm.exhausted = true) :
    (clonePage child pt pml4Index pdptIndex pdIndex machine index).pmm.exhausted = true := by
  simp only [clonePage]
  split
  · exact failed
  rw [pmmRefInc_exhausted]
  apply mapInPml4_exhausted
  split
  · exact failed
  · exact failed

theorem clonePdpt_exhausted {child parent : BitVec 64} (machine : Machine) (index : Nat)
    (failed : machine.pmm.exhausted = true) : (clonePdpt child parent machine index).pmm.exhausted = true :=
  clonePdpt_stuck (·.pmm.exhausted = true)
    (fun stuck pt pml4 pdpt pd place => clonePage_exhausted stuck) machine index
    failed

section

variable {machine : Machine} {roots : List Nat} {roles : Nat → Role} {pages : Nat → Indices → Option UserPage}
  {parent child parentRoot childRoot : Nat}

def Progress (roots : List Nat) (pages : Nat → Indices → Option UserPage) (parent child : Nat)
    (roles : Nat → Role) (count : Nat) (machine : Machine) : Prop :=
  machine.pmm.exhausted = true ∨
    ∃ rolesAfter, Shows machine roots rolesAfter (clonedPages pages parent child count) ∧ Keeps roles rolesAfter

theorem Shows.skip {count next : Nat} (shows : Shows machine roots roles (clonedPages pages parent child count))
    (parentStart : roots[parent]? = some parentRoot) (apart : parent ≠ child) (forward : count ≤ next)
    (missing : ∀ indices : Indices, indices.User → count ≤ indices.rank → indices.rank < next →
      leafOf machine parentRoot indices = 0) : Shows machine roots roles (clonedPages pages parent child next) := by
  refine ⟨shows.forest, shows.sharing, ?_⟩
  intro space root start indices user
  have shown := shows.backed space root start indices user
  unfold clonedPages at shown ⊢
  split
  next isChild =>
    rw [if_pos isChild] at shown
    by_cases done : indices.rank < count
    · rw [if_pos done] at shown
      rw [if_pos (by omega)]
      exact shown
    rw [if_neg done] at shown
    split
    next reached =>
      -- the parent's entry is zero, so its page is missing and so is the child's
      have above := shows.backed parent parentRoot parentStart indices user
      rw [missing indices user (by omega) reached, clonedPages, if_neg apart] at above
      cases found : pages parent indices with
      | none => exact shown
      | some own =>
        rw [found] at above
        obtain ⟨target, flags, entry, page, data, _⟩ := above
        exact absurd entry.symm (page.entry_ne_zero (shows.forest.data_bound data).1)
    · exact shown
  next notChild => rwa [if_neg notChild] at shown

theorem Machine.write_same (machine : Machine) {frame : Nat} (bound : frame < frameLimit) {value : BitVec 64}
    (same : machine.mem frame index = value) :
    machine.write (frameAddress frame) index value = machine := by
  have mem : (machine.write (frameAddress frame) index value).mem = machine.mem := by
    funext other place
    rw [machine.write_mem bound]
    split
    next here => rw [here.1, here.2, same]
    · rfl
  calc machine.write (frameAddress frame) index value
      = { machine with mem := (machine.write (frameAddress frame) index value).mem } := rfl
    _ = machine := by rw [mem]

variable {indices : Indices} {pt target : Nat} {flags : BitVec 64}

theorem Shows.share (shows : Shows machine roots roles pages) (start : roots[parent]? = some parentRoot)
    (user : indices.User) (role : roles pt = .table parent indices.path)
    (entry : machine.mem pt indices.pt = makeEntry target flags) (page : PageFlags flags)
    (data : roles target = .data) (member : (pt, indices.pt) ∈ mappings machine roles target) :
    Shows (machine.write (frameAddress pt) indices.pt (makeEntry target (cowFlags flags))) roots roles pages := by
  obtain ⟨word, present, userFlag, readOnly, shared⟩ := cowFlags_cowOf page.word
  apply shows.reflag start user role entry page data member
    ⟨word, present.trans page.present, userFlag.trans page.user⟩ shared
  intro other otherMember
  by_cases writable : writableAt machine other = true
  · exact Or.inl (shows.sharing.sole target other otherMember writable _ member).symm
  · exact Or.inr ⟨readOnly, by simpa using writable⟩

theorem Shows.attach {own : Nat} (shows : Shows machine roots roles (clonedPages pages parent child indices.rank))
    (parentStart : roots[parent]? = some parentRoot) (childStart : roots[child]? = some childRoot)
    (apart : parent ≠ child) (user : indices.User) (role : roles pt = .table parent indices.path)
    (entry : machine.mem pt indices.pt = makeEntry target flags) (page : PageFlags flags)
    (data : roles target = .data) (readOnly : hasFlag flags pageWritable = false)
    (member : (pt, indices.pt) ∈ mappings machine roles target) (ownRole : roles own = .table child indices.path) :
    Shows (pmmRefInc (machine.write (frameAddress own) indices.pt (makeEntry target flags)) (frameAddress target))
      roots roles (clonedPages pages parent child (indices.rank + 1)) := by
  obtain ⟨shown, found, writable, words⟩ := shows.shown_page parentStart user role entry page data
  rw [clonedPages, if_neg apart] at found
  have childEmpty : machine.mem own indices.pt = 0 := by
    have nothing := shows.backed child childRoot childStart indices user
    rw [clonedPages, if_pos rfl, if_neg (Nat.lt_irrefl _), shows.forest.leafOf_table childStart ownRole] at nothing
    exact nothing
  obtain ⟨forest, sharing, backed⟩ := shows
  have bound := (forest.data_bound data).1
  have good : PageEntry roles (makeEntry target flags) := ⟨target, flags, rfl, page, data⟩
  have mapped : Forest (machine.write (frameAddress own) indices.pt (makeEntry target flags)) roots roles :=
    forest.setLeaf ownRole rfl (Or.inr good)
  have room : ((machine.write (frameAddress own) indices.pt (makeEntry target flags)).pmm.refcounts target).toNat <
      2 ^ 24 + 1 := by
    rw [Machine.write_pmm, sharing.counted target data]
    have limit := mappings_card roles target forest.total
    omega
  obtain ⟨same, sameMem, counts⟩ := pmmRefInc_data mapped data room
  have soleAfter : Sole (machine.write (frameAddress own) indices.pt (makeEntry target flags)) roles := by
    apply sharing.sole.write forest ownRole rfl user.valid.pt bound page
    intro other otherMember
    refine Or.inr ⟨readOnly, ?_⟩
    -- a writable place would be the parent's own, which is not writable
    by_contra otherWritable
    rw [Bool.not_eq_false] at otherWritable
    have parentPlace := sharing.sole target other otherMember otherWritable _ member
    rw [← parentPlace, writableAt, entry, hasFlag_makeEntry bound _ (by decide), readOnly] at otherWritable
    contradiction
  have backedAfter : Backed (machine.write (frameAddress own) indices.pt (makeEntry target flags)) roots roles
      (clonedPages pages parent child (indices.rank + 1)) := by
    apply backed.write forest ownRole (Or.inr good)
    · rw [clonedPages, if_pos rfl, if_pos (by omega), found]
      exact ⟨target, flags, rfl, page, data, writable, words⟩
    intro space other otherUser elsewhere
    unfold clonedPages
    by_cases isChild : space = child
    · have different : other.rank ≠ indices.rank := by
        intro equal
        exact elsewhere ⟨isChild, Indices.rank_inj otherUser.valid user.valid equal⟩
      simp only [if_pos isChild, show other.rank < indices.rank + 1 ↔ other.rank < indices.rank by omega]
    · rw [if_neg isChild, if_neg isChild]
  refine ⟨same.forest mapped, ⟨?_, same.sole soleAfter⟩, ?_⟩
  · intro frame frameData
    rw [counts, Machine.write_pmm, same.mappings,
      mappings_write_empty forest ownRole rfl user.valid.pt bound page childEmpty, sharing.counted frame frameData]
  intro space root start other otherUser
  rw [same.leafOf mapped start otherUser]
  apply (backedAfter space root start other otherUser).congr
  intro frame frameData
  exact ⟨frameData, by rw [sameMem]⟩

theorem Grows.keeps {after : Machine} {rootsAfter : List Nat} {rolesAfter : Nat → Role}
    (grows : Grows machine after roots rootsAfter roles rolesAfter) : Keeps roles rolesAfter :=
  fun _ _ _ role => grows.kept_table role

variable (parentStart : roots[parent]? = some parentRoot) (childStart : roots[child]? = some childRoot)
  (apart : parent ≠ child)

include parentStart childStart apart

theorem clonePage_progress (shows : Shows machine roots roles (clonedPages pages parent child indices.rank))
    (user : indices.User) (role : roles pt = .table parent indices.path) :
    Progress roots pages parent child roles (indices.rank + 1)
      (clonePage (frameAddress childRoot) (frameAddress pt) indices.pml4 indices.pdpt indices.pd machine
        indices.pt) := by
  have forest := shows.forest
  have ptBound := (forest.table_bound role).1
  have leaf := forest.leafOf_table parentStart role
  rcases forest.leafOf_entry parentStart user with zero | ⟨target, flags, entry, page, data⟩
  · -- nothing to share
    rw [zero] at leaf
    simp only [clonePage, machine.read_frame ptBound, ← leaf, hasFlag_zero, Bool.not_false, if_true]
    refine Or.inr ⟨roles, shows.skip parentStart apart (Nat.le_succ _) ?_, fun _ _ _ same => same⟩
    intro other otherUser low high
    rw [Indices.rank_inj otherUser.valid user.valid (by omega), zero]
  have bound := (forest.data_bound data).1
  rw [entry] at leaf
  obtain ⟨found, _, foundRole, _, member⟩ := forest.place parentStart user entry page data
  rw [forest.unique _ foundRole role] at member
  obtain ⟨word, present, userFlag, readOnly, _⟩ := cowFlags_cowOf page.word
  have cowPage : PageFlags (cowFlags flags) := ⟨word, present.trans page.present, userFlag.trans page.user⟩
  have presentEntry : hasFlag (makeEntry target flags) pagePresent = true := by
    rw [hasFlag_makeEntry bound _ (by decide), page.present]
  -- writing back the flags of a page that was not writable changes nothing
  have written : (if hasFlag flags pageWritable = true then
      machine.write (frameAddress pt) indices.pt (frameAddress target ||| cowFlags flags) else machine) =
      machine.write (frameAddress pt) indices.pt (makeEntry target (cowFlags flags)) := by
    split
    · rfl
    next notWritable => rw [cowFlags, if_neg notWritable, machine.write_same ptBound leaf.symm]
  have step : clonePage (frameAddress childRoot) (frameAddress pt) indices.pml4 indices.pdpt indices.pd machine
      indices.pt = pmmRefInc (mapInPml4
        (machine.write (frameAddress pt) indices.pt (makeEntry target (cowFlags flags))) (frameAddress childRoot)
        (virtualAddress indices) (frameAddress target) (cowFlags flags)) (frameAddress target) := by
    simp only [clonePage, machine.read_frame ptBound, ← leaf, presentEntry, Bool.not_true, Bool.false_eq_true,
      if_false, makeEntry_addr bound page.word, makeEntry_flags bound page.word, written]
  rw [step]
  have shared := shows.share parentStart user role leaf.symm page data member
  have indicesEq := indicesOf_virtualAddress user.valid
  rcases mapInPml4_mapped shared.forest childStart (virtualAddress indices)
      (by rw [indicesEq]; exact user) bound cowPage.user with
    exhausted | ⟨grown, rolesAfter, own, grows, onlyTables, ownRole, result⟩
  · left
    rw [pmmRefInc_exhausted]
    exact exhausted
  rw [result, indicesEq, word]
  rw [indicesEq] at ownRole
  have grownShows : Shows grown roots rolesAfter (clonedPages pages parent child indices.rank) :=
    ⟨grows.forest, shared.sharing.grows grows onlyTables, shared.backed.grows shared.forest grows⟩
  have parentEntry : grown.mem pt indices.pt = makeEntry target (cowFlags flags) := by
    rw [grows.leaves pt parent indices.path role rfl, Machine.write_mem _ ptBound, if_pos ⟨rfl, rfl⟩]
  have memberAfter : (pt, indices.pt) ∈ mappings grown rolesAfter target := by
    rw [grows.mappings, mappings_write_same forest role rfl user.valid.pt bound cowPage member]
    exact member
  exact Or.inr ⟨rolesAfter, grownShows.attach parentStart childStart apart user (grows.kept_table role) parentEntry
    cowPage (grows.kept_data data) readOnly memberAfter ownRole, grows.keeps⟩

theorem clone_invariant : CloneInvariant roots parent parentRoot childRoot (·.pmm.exhausted = true)
    fun count machine roles => Shows machine roots roles (clonedPages pages parent child count) where
  start := parentStart
  forest shows := shows.forest
  skip shows forward missing := shows.skip parentStart apart forward missing
  page shows user role := clonePage_progress parentStart childStart apart shows user role
  stuck failed pt pml4 pdpt pd index := clonePage_exhausted failed

end

theorem vmmCloneAddressSpace_represents {memories : List UserMemory} {parent parentRoot : Nat} {memory : UserMemory}
    (represents : Represents machine roots roles memories) (start : roots[parent]? = some parentRoot)
    (found : memories[parent]? = some memory) :
    (vmmCloneAddressSpace machine (frameAddress parentRoot)).1.pmm.exhausted = true ∨
      ∃ block rolesAfter, (vmmCloneAddressSpace machine (frameAddress parentRoot)).2 = frameAddress block ∧
        Represents (vmmCloneAddressSpace machine (frameAddress parentRoot)).1 (roots ++ [block]) rolesAfter
          (memories ++ [memory]) := by
  have forest := represents.forest
  have sizes := represents.sizes
  obtain ⟨rootBound, rootPositive⟩ := forest.table_bound ((forest.root parentRoot parent).mpr start)
  have low := (List.getElem?_eq_some_iff.mp start).1
  rcases pmmAlloc_cases machine with ⟨exhausted, null⟩ | ⟨block, small, clear, allocated⟩
  · simp only [vmmCloneAddressSpace, validTablePointer_frameAddress parentRoot rootBound rootPositive, null,
      Bool.not_true, Bool.false_eq_true, if_false, if_true]
    exact Or.inl exhausted
  have spare := forest.spare small clear
  obtain ⟨bound, positive⟩ := (forest.taken block).spare_bound spare
  simp only [vmmCloneAddressSpace, validTablePointer_frameAddress parentRoot rootBound rootPositive, allocated,
    Bool.not_true, Bool.false_eq_true, if_false, if_neg (frameAddress_ne_zero block bound positive),
    Machine.clearPage, Machine.fill_fill]
  generalize filling : (fun index => if index = 0 ∨ 256 ≤ index ∧ index < 512 then
    ((machine.taken block).fill (frameAddress block) fun _ => 0).read (frameAddress parentRoot) index
    else ((machine.taken block).fill (frameAddress block) fun _ => 0).read (frameAddress block) index) = words
  have added := represents.add_root small clear words (by
    intro index lower upper
    rw [← filling]
    dsimp only
    rw [if_neg (by omega), Machine.read_frame _ bound, Machine.fill_mem _ bound, if_pos rfl])
  have parentStart : (roots ++ [block])[parent]? = some parentRoot := by rw [List.getElem?_append_left low, start]
  have childStart : (roots ++ [block])[memories.length]? = some block := by simp [sizes]
  have apart : parent ≠ memories.length := by omega
  -- before the first round the child has no page, after the last one it has all
  have initial : Shows ((machine.taken block).fill (frameAddress block) words) (roots ++ [block])
      (Function.update roles block (.table roots.length []))
      (clonedPages (pagesOf memories) parent memories.length (512 * 512 * 512)) := by
    refine ⟨added.forest, added.sharing, ?_⟩
    intro space root rootStart indices user
    have shown := added.backed space root rootStart indices user
    have late : ¬ indices.rank < 512 * 512 * 512 := by
      have lower := user.lower
      simp only [Indices.rank]
      omega
    rw [pagesOf_append] at shown
    rw [clonedPages, if_neg late]
    exact shown
  have loop := cloneLoops_reach (clone_invariant parentStart childStart apart) initial
  rcases loop with failed | ⟨rolesAfter, shows, _⟩
  · exact Or.inl failed
  refine Or.inr ⟨block, rolesAfter, rfl, shows.forest, shows.sharing, by simp [sizes], ?_⟩
  intro space root rootStart indices user
  have shown := shows.backed space root rootStart indices user
  have early : indices.rank < 256 * (512 * 512 * 512) := by
    obtain ⟨⟨_, _, _, _⟩, _, _⟩ := user
    simp only [Indices.rank]
    omega
  rw [clonedPages, if_pos early] at shown
  rw [pagesOf_append]
  rwa [show pagesOf memories parent indices = memory indices by rw [pagesOf, found]; rfl] at shown

end PhotonOS
