import PhotonOS.Exec.ImageMapping

/-!
The pages of an image. A page is mapped or the attempt leaves nothing behind but
tables; the task's inventory lists exactly the pages of the image.
-/

namespace PhotonOS.Exec

open Function

variable {target block : Nat} {address flags : BitVec 64} {machine : Machine}

section

variable {base machine : Machine} {level : Nat → Option Nat} {root : Nat} {parts : Nat → Option Part}

section

variable (kernel : KernelTables base level) (image : Image base level machine root parts)
include kernel image

theorem Image.reach (path : List Nat) (table : parts target = some (.table path)) :
    descend machine root path = some target := by
  induction path using List.reverseRecOn generalizing target with
  | nil =>
    rw [image.rootPart] at table
    rw [table]
    rfl
  | append_singleton path index ih =>
    obtain ⟨_, _, frame, frameTable, entry⟩ := image.parent target path index table
    have bound := (image.table_bound kernel table).1
    rw [descend_append, ih frameTable, Option.bind_some, descend, entry, if_pos (link_present bound),
      entryTable_makeEntry bound flagWord_userTable, frameOf_frameAddress target bound]
    rfl

theorem Image.vmmIsMapped_eq (address : BitVec 64) : vmmIsMapped machine (frameAddress root) address =
      (descend machine root (indicesOf address).toList).isSome :=
  (image.walkable kernel).vmmIsMapped_eq image.root_isTable (image.root_bound kernel).1 (image.root_bound kernel).2
    address

theorem Image.vmmIsMapped_leaf {pt : Nat} (table : parts pt = some (.table (indicesOf address).path)) :
    vmmIsMapped machine (frameAddress root) address =
      hasFlag (machine.mem pt (indicesOf address).pt) pagePresent := by
  rw [image.vmmIsMapped_eq kernel,
    show (indicesOf address).toList = (indicesOf address).path ++ [(indicesOf address).pt] from rfl, descend_append,
    image.reach kernel _ table, Option.bind_some, descend]
  cases hasFlag (machine.mem pt (indicesOf address).pt) pagePresent <;> rfl

end

theorem indices_bounds (address : BitVec 64) : (∀ index ∈ (indicesOf address).path, index < 512) ∧
    ∀ index ∈ (indicesOf address).toList, index < 512 := by
  obtain ⟨pml4, pdpt, pd, pt⟩ := indicesOf_valid address
  constructor
  · simp [Indices.path, pml4, pdpt, pd]
  · simp [Indices.toList, pml4, pdpt, pd, pt]

def Entered (machine after : Machine) (parts partsAfter : Nat → Option Part) (address entry : BitVec 64) : Prop :=
  ∃ pt, partsAfter pt = some (.table (indicesOf address).path) ∧ after.mem pt (indicesOf address).pt = entry ∧
    ∀ frame path index, parts frame = some (.table path) → path.length = 3 →
      (frame ≠ pt ∨ index ≠ (indicesOf address).pt) → after.mem frame index = machine.mem frame index

variable (kernel : KernelTables base level) (image : Image base level machine root parts)
include kernel image

theorem mapInPml4_image (bound : target < frameLimit) (user : hasFlag flags pageUser = true) : ∃ partsAfter,
      Image base level (mapInPml4 machine (frameAddress root) address (frameAddress target) flags) root partsAfter ∧
      (∀ frame part, parts frame = some part → partsAfter frame = some part) ∧
      (∀ frame, partsAfter frame = some .page → parts frame = some .page) ∧
      ((Entered machine (mapInPml4 machine (frameAddress root) address (frameAddress target) flags) parts partsAfter
          address (makeEntry target (flags &&& vmmEntryFlagsMask)) ∧ (Bare parts [] → 3 ≤ freeFrames machine)) ∨
        freeFrames machine < 3 ∧
        vmmIsMapped (mapInPml4 machine (frameAddress root) address (frameAddress target) flags) (frameAddress root)
          address = vmmIsMapped machine (frameAddress root) address ∧
        (OwnSlot (indicesOf address).path → vmmIsMapped machine (frameAddress root) address = false)) := by
  have rootTable := (image.rootPart root).mpr rfl
  obtain ⟨partsAfter, imageAfter, extended, outcome⟩ := ensureTables_image kernel user image
    rootTable rfl (indices_bounds address).1
  rw [mapInPml4_eq, frameAddress_page bound, frameAddress_masked target bound]
  simp only
  generalize ensureTables flags machine (frameAddress root) (indicesOf address).path = tables at *
  rcases outcome with ⟨pt, pointer, ptTable, counted⟩ | ⟨failed, few, absent⟩
  · obtain ⟨ptBound, ptPositive⟩ := imageAfter.table_bound kernel ptTable
    rw [pointer, if_neg (frameAddress_ne_zero pt ptBound ptPositive)]
    have written := tables.1.write_mem ptBound (indicesOf address).pt
      (makeEntry target (flags &&& vmmEntryFlagsMask))
    refine ⟨partsAfter, imageAfter.writeLeaf kernel ptTable rfl, extended.kept, extended.pages,
      Or.inl ⟨⟨pt, ptTable, ?_, ?_⟩, ?_⟩⟩
    · exact (written _ _).trans (if_pos ⟨rfl, rfl⟩)
    · intro frame path index table full apart
      rw [← extended.leaves frame path table full]
      refine (written _ _).trans (if_neg ?_)
      rintro ⟨rfl, rfl⟩
      simp at apart
    · intro bare
      have count := counted bare
      simp only [Indices.path, List.length_cons, List.length_nil] at count
      omega
  · rw [if_pos failed]
    refine ⟨partsAfter, imageAfter, extended.kept, extended.pages, Or.inr ⟨few, ?_, ?_⟩⟩
    · rw [imageAfter.vmmIsMapped_eq kernel, image.vmmIsMapped_eq kernel]
      exact extended.walks root 0 _ image.root_isTable rfl (indices_bounds address).2
    intro own
    rw [image.vmmIsMapped_eq kernel]
    have nothing := absent own (indicesOf address).pt
    rw [show (indicesOf address).toList = (indicesOf address).path ++ [(indicesOf address).pt] from rfl, nothing]
    rfl

theorem vmmIsMapped_addPage
    (small : block < machine.pmm.total) (clear : machine.pmm.bitmap block = false) (words : Nat → BitVec 64)
    (address : BitVec 64) :
    vmmIsMapped ((machine.taken block).fill (frameAddress block) words) (frameAddress root) address =
      vmmIsMapped machine (frameAddress root) address := by
  obtain ⟨_, _, _, bound, _⟩ := image.spare kernel small clear
  rw [(image.addPage kernel small clear words).vmmIsMapped_eq kernel, image.vmmIsMapped_eq kernel]
  congr 1
  refine (image.walkable kernel).descend_congr ?_ root 0 image.root_isTable (by simp [Indices.toList])
    (indices_bounds address).2
  intro depth frame isTable
  funext index
  rw [Machine.fill_mem _ bound, if_neg]
  · rfl
  · rintro rfl
    rw [image.used_of_isTable kernel isTable] at clear
    cases clear

end

structure Built (base : Machine) (level : Nat → Option Nat) (root : Nat) (parts : Nat → Option Part)
    (state : Loading) : Prop where
  image : Image base level state.machine root parts
  listed : ∀ address ∈ state.pages, ∃ frame, address = frameAddress frame ∧ parts frame = some .page
  complete : ∀ frame, parts frame = some .page → frameAddress frame ∈ state.pages

namespace Built

variable {base : Machine} {level : Nat → Option Nat} {root : Nat} {parts : Nat → Option Part} {state : Loading}
    {partsAfter : Nat → Option Part}

variable (built : Built base level root parts state) (image : Image base level machine root partsAfter)
include built image

theorem keep (same : ∀ frame, partsAfter frame = some .page ↔ parts frame = some .page) :
    Built base level root partsAfter { state with machine := machine } where
  image := image
  listed := by
    intro address member
    obtain ⟨frame, value, page⟩ := built.listed address member
    exact ⟨frame, value, (same frame).mpr page⟩
  complete frame page := built.complete frame ((same frame).mp page)

theorem join (same : ∀ frame, partsAfter frame = some .page ↔ frame = block ∨ parts frame = some .page) :
    Built base level root partsAfter { machine := machine, pages := state.pages ++ [frameAddress block] } where
  image := image
  listed := by
    intro address member
    rcases List.mem_append.mp member with old | new
    · obtain ⟨frame, value, page⟩ := built.listed address old
      exact ⟨frame, value, (same frame).mpr (Or.inr page)⟩
    · exact ⟨block, List.mem_singleton.mp new, (same block).mpr (Or.inl rfl)⟩
  complete := by
    intro frame page
    rcases (same frame).mp page with rfl | old
    · simp
    · exact List.mem_append_left _ (built.complete frame old)

end Built

structure PageMapped (base : Machine) (level : Nat → Option Nat) (root : Nat) (parts : Nat → Option Part)
    (before : Loading) (address flags : BitVec 64) (after : Loading) (partsAfter : Nat → Option Part) : Prop where
  built : Built base level root partsAfter after
  kept : ∀ frame path, parts frame = some (.table path) → partsAfter frame = some (.table path)
  page : ∃ frame, frame < frameLimit ∧ after.pages = before.pages ++ [frameAddress frame] ∧
    Entered before.machine after.machine parts partsAfter address (makeEntry frame (flags &&& vmmEntryFlagsMask))
  enough : Bare parts [] → 4 ≤ freeFrames before.machine

structure PageRefused (base : Machine) (level : Nat → Option Nat) (root : Nat) (parts : Nat → Option Part)
    (before : Loading) (contents : Option (Nat → BitVec 64)) (after : Loading) (partsAfter : Nat → Option Part) :
    Prop where
  built : Built base level root partsAfter after
  kept : ∀ frame path, parts frame = some (.table path) → partsAfter frame = some (.table path)
  pages : after.pages = before.pages
  reason : contents.isSome → before.pages.length < taskPageLimit → freeFrames before.machine < 4

section

variable {base : Machine} {level : Nat → Option Nat} {root : Nat} {parts : Nat → Option Part} {state : Loading}

theorem mapUserPage_built (kernel : KernelTables base level) (built : Built base level root parts state)
    (contents : Option (Nat → BitVec 64)) (user : hasFlag flags pageUser = true)
    (present : hasFlag flags pagePresent = true)
    (clean : vmmIsMapped state.machine (frameAddress root) address = false ∨ OwnSlot (indicesOf address).path) :
    (∃ after partsAfter, mapUserPage state (frameAddress root) address flags contents = (after, true) ∧
        contents.isSome = true ∧ PageMapped base level root parts state address flags after partsAfter) ∨
      ∃ after partsAfter, mapUserPage state (frameAddress root) address flags contents = (after, false) ∧
        PageRefused base level root parts state contents after partsAfter := by
  have image := built.image
  rw [mapUserPage]
  rcases pmmAlloc_counts state.machine with ⟨nothing, allocated⟩ | ⟨block, small, clear, allocated⟩
  · simp only [allocated, if_true]
    refine Or.inr ⟨_, parts, rfl, ⟨built.keep image.starved fun _ => Iff.rfl, fun _ _ table => table, rfl, ?_⟩⟩
    intro _ _
    omega
  obtain ⟨unused, _, _, bound, positive⟩ := image.spare kernel small clear
  have count := freeFrames_taken small clear
  -- a page that leaves again before it is mapped
  have returned : ∀ words, Built base level root parts { state with
      machine := pmmFree ((state.machine.taken block).fill (frameAddress block) words) (frameAddress block) } := by
    intro words
    have freed := (image.addPage kernel small clear words).freePage kernel (update_self ..)
    rw [update_idem, ← unused, update_eq_self] at freed
    exact built.keep freed fun _ => Iff.rfl
  simp only [allocated, if_neg (frameAddress_ne_zero block bound positive)]
  by_cases full : state.pages.length ≥ taskPageLimit
  · have unfilled : (state.machine.taken block).fill (frameAddress block) (state.machine.mem block) =
        state.machine.taken block := by
      have same : ∀ frame index, ((state.machine.taken block).fill (frameAddress block) (state.machine.mem block)).mem
          frame index = state.machine.mem frame index := by
        intro frame index
        rw [Machine.fill_mem _ bound]
        split
        next here => rw [here]
        · rfl
      exact congrArg (fun mem => { state.machine.taken block with mem := mem })
        (funext fun frame => funext (same frame))
    have back := returned (state.machine.mem block)
    rw [unfilled] at back
    rw [if_pos full]
    exact Or.inr ⟨_, parts, rfl, ⟨back, fun _ _ table => table, rfl, fun _ room => absurd room (Nat.not_lt.mpr full)⟩⟩
  rw [if_neg full]
  cases contents with
  | none => exact Or.inr ⟨_, parts, rfl, ⟨returned _, fun _ _ table => table, rfl, fun read => by cases read⟩⟩
  | some words =>
    have added := image.addPage kernel small clear words
    have unseen := vmmIsMapped_addPage kernel image small clear words address
    have rootNull : frameAddress root ≠ 0 :=
      frameAddress_ne_zero root (image.root_bound kernel).1 (image.root_bound kernel).2
    have isPage : ∀ frame, update parts block (some .page) frame = some .page ↔
        frame = block ∨ parts frame = some .page := by
      intro frame
      by_cases same : frame = block
      · simp [same]
      · simp [same]
    have old : ∀ frame path, parts frame = some (.table path) → frame ≠ block := by
      rintro frame path table rfl
      rw [unused] at table
      cases table
    obtain ⟨partsAfter, imageAfter, kept, pages, outcome⟩ := mapInPml4_image kernel added bound user
    have samePages : ∀ frame, partsAfter frame = some .page ↔ frame = block ∨ parts frame = some .page := by
      intro frame
      rw [← isPage]
      exact ⟨pages frame, kept frame _⟩
    simp only [vmmMapInSpace, if_neg rootNull]
    generalize mapInPml4 ((state.machine.taken block).fill (frameAddress block) words) (frameAddress root) address
      (frameAddress block) flags = after at *
    rcases outcome with ⟨⟨pt, ptTable, entry, others⟩, enough⟩ | ⟨few, unchanged, own⟩
    · have mapped : vmmIsMapped after (frameAddress root) address = true := by
        rw [imageAfter.vmmIsMapped_leaf kernel ptTable, entry, hasFlag_makeEntry bound _ (by decide),
          hasFlag, BitVec.and_assoc, ← present]
        rfl
      simp only [mapped, Bool.not_true, Bool.false_eq_true, if_false]
      refine Or.inl ⟨_, partsAfter, rfl, rfl, ⟨built.join imageAfter samePages, ?_, ?_, ?_⟩⟩
      · intro frame path table
        exact kept frame _ (by rw [update_of_ne (old frame path table), table])
      · refine ⟨block, bound, rfl, pt, ptTable, entry, ?_⟩
        intro frame path index table full apart
        rw [others frame path index (by rw [update_of_ne (old frame path table), table]) full apart,
          Machine.fill_mem _ bound, if_neg (old frame path table)]
        rfl
      · intro bare
        have bareAfter : Bare (update parts block (some .page)) [] := by
          intro next more nonempty table
          by_cases same : next = block
          · rw [same, update_self] at table
            cases table
          · rw [update_of_ne same] at table
            exact bare next more nonempty table
        have filled : freeFrames ((state.machine.taken block).fill (frameAddress block) words) =
          freeFrames (state.machine.taken block) := rfl
        have three := enough bareAfter
        omega
    · have unmapped : vmmIsMapped after (frameAddress root) address = false := by
        rw [unchanged, unseen]
        rcases clean with before | slot
        · exact before
        · rw [← unseen]
          exact own slot
      simp only [unmapped, Bool.not_false, if_true]
      have freed := imageAfter.freePage kernel ((samePages block).mpr (Or.inl rfl))
      refine Or.inr ⟨_, _, rfl, ⟨built.keep freed ?_, ?_, rfl, ?_⟩⟩
      · intro frame
        by_cases same : frame = block
        · simp [same, unused]
        · simp [samePages, same]
      · intro frame path table
        rw [update_of_ne (old frame path table)]
        exact kept frame _ (by rw [update_of_ne (old frame path table), table])
      · intro _ _
        have filled : freeFrames ((state.machine.taken block).fill (frameAddress block) words) =
          freeFrames (state.machine.taken block) := rfl
        omega

end

end PhotonOS.Exec
