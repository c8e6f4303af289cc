import PhotonOS.Exec.ExecCurrent
import PhotonOS.Exec.Teardown

/-!
The loops of the loader on an image: each keeps the image well formed and only adds
to its inventory of pages.
-/

namespace PhotonOS.Exec

/-! A new address space. -/

def rootOnly (root : Nat) : Nat → Option Part := Function.update (fun _ => none) root (some (.table []))

theorem rootOnly_eq_some {root frame : Nat} {part : Part} (own : rootOnly root frame = some part) :
    frame = root ∧ part = .table [] := by
  by_cases same : frame = root
  · rw [rootOnly, same, Function.update_self] at own
    cases own
    exact ⟨same, rfl⟩
  · rw [rootOnly, Function.update_of_ne same] at own
    cases own

theorem rootOnly_bare {root : Nat} : Bare (rootOnly root) [] := by
  intro next more nonempty table
  obtain ⟨_, path⟩ := rootOnly_eq_some table
  simp at path
  exact nonempty path

def newRoot (base : Machine) (index : Nat) : BitVec 64 :=
  if index = 0 ∨ 256 ≤ index ∧ index < 512 then base.read base.kernelPml4 index else 0

section

variable {base : Machine} {level : Nat → Option Nat} {root : Nat}

theorem newRoot_image (kernel : KernelTables base level) (small : root < base.pmm.total)
    (clear : base.pmm.bitmap root = false) :
    Image base level ((base.taken root).fill (frameAddress root) (newRoot base)) root (rootOnly root) := by
  obtain ⟨kernelRoot, kernelValue, _, kernelBound, kernelLevel⟩ := kernel.root
  have bound := lt_frameLimit small kernel.total
  have outside : ∀ frame, base.pmm.bitmap frame = true → frame ≠ root := by
    rintro frame set rfl
    rw [clear] at set
    cases set
  have mem := (base.taken root).fill_mem bound (newRoot base)
  constructor
  · rfl
  · rfl
  · rfl
  · intro frame
    by_cases same : frame = root
    · simp [Machine.taken, rootOnly, same]
    · simp [Machine.taken, rootOnly, same]
  · intro frame used
    obtain ⟨part, own⟩ := Option.ne_none_iff_exists'.mp used
    rw [(rootOnly_eq_some own).1]
    exact ⟨clear, small⟩
  · intro frame used
    obtain ⟨part, own⟩ := Option.ne_none_iff_exists'.mp used
    exact if_pos (rootOnly_eq_some own).1
  · intro frame set
    exact if_neg (outside frame set)
  · intro frame set
    funext index
    rw [mem, if_neg (outside frame set)]
    rfl
  · intro frame
    constructor
    · intro own
      exact (rootOnly_eq_some own).1
    · rintro rfl
      exact Function.update_self ..
  · intro frame path index own _ indexBound
    obtain ⟨rfl, part⟩ := rootOnly_eq_some own
    cases part
    rw [mem, if_pos rfl, newRoot]
    split
    · rw [kernelValue, base.read_frame kernelBound]
      refine Or.inl ⟨kernel.entry kernelRoot 2 index kernelLevel indexBound, ?_⟩
      rintro ⟨slot, head, lower, upper⟩
      simp only [List.nil_append, List.head?_cons, Option.mem_def, Option.some.injEq] at head
      omega
    · exact Or.inl ⟨supervisor_zero, fun _ => rfl⟩
  · intro next path index own
    obtain ⟨_, part⟩ := rootOnly_eq_some own
    simp at part

def newImage (base : Machine) (root : Nat) : Loading where
  machine := (base.taken root).fill (frameAddress root) (newRoot base)
  pages := []

theorem newImage_built (kernel : KernelTables base level) (small : root < base.pmm.total)
    (clear : base.pmm.bitmap root = false) : Built base level root (rootOnly root) (newImage base root) := by
  refine ⟨newRoot_image kernel small clear, by simp [newImage], ?_⟩
  intro frame page
  have part := (rootOnly_eq_some page).2
  cases part

theorem vmmCreateAddressSpace_image (kernel : KernelTables base level) :
    (freeFrames base = 0 ∧ vmmCreateAddressSpace base = (starved base, 0)) ∨
      ∃ root, root < base.pmm.total ∧ base.pmm.bitmap root = false ∧ vmmCreateAddressSpace base =
        ((base.taken root).fill (frameAddress root) (newRoot base), frameAddress root) := by
  rw [vmmCreateAddressSpace]
  rcases pmmAlloc_counts base with ⟨nothing, allocated⟩ | ⟨root, small, clear, allocated⟩
  · simp only [allocated, if_true]
    exact Or.inl ⟨nothing, trivial⟩
  obtain ⟨kernelRoot, kernelValue, _, kernelBound, kernelLevel⟩ := kernel.root
  have bound := (newRoot_image kernel small clear).root_bound kernel
  have apart : kernelRoot ≠ root := by
    rintro rfl
    rw [kernel.used kernelRoot 3 kernelLevel] at clear
    cases clear
  simp only [allocated, if_neg (frameAddress_ne_zero root bound.1 bound.2)]
  refine Or.inr ⟨root, small, clear, Prod.ext ?_ rfl⟩
  have same : ∀ frame index, (((base.taken root).clearPage (frameAddress root)).fill (frameAddress root) fun index =>
      if index = 0 ∨ 256 ≤ index ∧ index < 512 then
        ((base.taken root).clearPage (frameAddress root)).read base.kernelPml4 index
      else ((base.taken root).clearPage (frameAddress root)).read (frameAddress root) index).mem frame index =
      ((base.taken root).fill (frameAddress root) (newRoot base)).mem frame index := by
    intro frame index
    simp only [Machine.clearPage, kernelValue, Machine.read_frame _ kernelBound, Machine.read_frame _ bound.1,
      Machine.fill_mem _ bound.1, if_neg apart, newRoot, if_true]
    split
    · rfl
    · rfl
  exact congrArg (fun mem => { base.taken root with mem := mem }) (funext fun frame => funext (same frame))

end

/-! The loops. -/

structure Progress (base : Machine) (level : Nat → Option Nat) (root : Nat) (parts : Nat → Option Part)
    (before : Loading) (partsAfter : Nat → Option Part) (after : Loading) : Prop where
  built : Built base level root partsAfter after
  kept : ∀ frame path, parts frame = some (.table path) → partsAfter frame = some (.table path)
  pages : before.pages <+: after.pages

def EntryAt (machine : Machine) (parts : Nat → Option Part) (address entry : BitVec 64) : Prop :=
  ∃ pt, parts pt = some (.table (indicesOf address).path) ∧ machine.mem pt (indicesOf address).pt = entry

section

variable {base : Machine} {level : Nat → Option Nat} {root : Nat} {parts middle last : Nat → Option Part}
  {first second third state : Loading}

theorem Progress.refl (built : Built base level root parts state) : Progress base level root parts state parts state :=
  ⟨built, fun _ _ table => table, List.prefix_rfl⟩

theorem Progress.trans (left : Progress base level root parts first middle second)
    (right : Progress base level root middle second last third) : Progress base level root parts first last third :=
  ⟨right.built, fun frame path table => right.kept frame path (left.kept frame path table),
    left.pages.trans right.pages⟩

variable {address flags : BitVec 64} {header : ProgramHeader}

theorem PageMapped.progress (mapped : PageMapped base level root parts first address flags second middle) :
    Progress base level root parts first middle second := by
  obtain ⟨frame, _, pages, _⟩ := mapped.page
  exact ⟨mapped.built, mapped.kept, pages ▸ List.prefix_append _ _⟩

theorem PageRefused.progress {contents : Option (Nat → BitVec 64)}
    (refused : PageRefused base level root parts first contents second middle) :
    Progress base level root parts first middle second :=
  ⟨refused.built, refused.kept, refused.pages ▸ List.prefix_rfl⟩

section

variable (mapped : PageMapped base level root parts first address flags second middle)
include mapped

theorem PageMapped.entryAt : ∃ frame, frame < frameLimit ∧
      EntryAt second.machine middle address (makeEntry frame (flags &&& vmmEntryFlagsMask)) := by
  obtain ⟨frame, bound, _, pt, table, entry, _⟩ := mapped.page
  exact ⟨frame, bound, pt, table, entry⟩

theorem PageMapped.other {other entry : BitVec 64}
    (apart : indicesOf other ≠ indicesOf address) (before : EntryAt first.machine parts other entry) :
    EntryAt second.machine middle other entry := by
  obtain ⟨pt, table, value⟩ := before
  obtain ⟨frame, _, _, target, targetTable, _, others⟩ := mapped.page
  refine ⟨pt, mapped.kept pt _ table, ?_⟩
  rw [others pt _ _ table rfl, value]
  by_contra same
  push Not at same
  obtain ⟨rfl, index⟩ := same
  have paths := mapped.kept pt _ table
  rw [targetTable] at paths
  simp only [Indices.path, Option.some.injEq, Part.table.injEq, List.cons.injEq, and_true] at paths
  cases left : indicesOf other
  cases right : indicesOf address
  simp_all

end

theorem segmentPageFlags_facts : hasFlag (segmentPageFlags header) pageUser = true ∧
    hasFlag (segmentPageFlags header) pagePresent = true := by
  unfold segmentPageFlags
  cases header.writable <;> cases header.executable <;> decide

theorem mapSegmentPages_progress (kernel : KernelTables base level) (node : FileNode) (header : ProgramHeader)
    (count : Nat) : ∀ {page : Nat} {state : Loading} {parts : Nat → Option Part}, Built base level root parts state →
      ∃ partsAfter, Progress base level root parts state partsAfter
        (mapSegmentPages node (frameAddress root) header count page state).1 := by
  induction count with
  | zero => intro page state parts built; exact ⟨parts, .refl built⟩
  | succ count ih =>
    intro page state parts built
    rw [mapSegmentPages]
    by_cases mapped : vmmIsMapped state.machine (frameAddress root) (BitVec.ofNat 64 page) = true
    · rw [if_pos mapped]
      exact ⟨parts, .refl built⟩
    rw [if_neg mapped]
    obtain ⟨user, present⟩ := segmentPageFlags_facts
    rcases mapUserPage_built kernel built (segmentWords node header page) user present
        (Or.inl (by simpa using mapped)) with
      ⟨after, middle, result, _, done⟩ | ⟨after, middle, result, refused⟩
    · obtain ⟨last, later⟩ := @ih (page + pageSize) after middle done.built
      rw [result]
      exact ⟨last, done.progress.trans later⟩
    · rw [result]
      exact ⟨middle, refused.progress⟩

theorem mapSegment_progress (kernel : KernelTables base level) {node : FileNode}
    (built : Built base level root parts state) : ∃ partsAfter, Progress base level root parts state partsAfter
      (mapSegment node (frameAddress root) header state).1 := by
  rw [mapSegment]
  split
  · exact ⟨parts, .refl built⟩
  · exact mapSegmentPages_progress kernel node header _ built

theorem ownSlot_iff : OwnSlot (indicesOf address).path ↔
    1 ≤ (indicesOf address).pml4 ∧ (indicesOf address).pml4 ≤ 255 := by
  simp [OwnSlot, Indices.path]

theorem stackFlags_facts : hasFlag stackFlags pageUser = true ∧ hasFlag stackFlags pagePresent = true ∧
    stackFlags &&& vmmEntryFlagsMask = stackFlags := by decide

theorem mapStackPages_progress (kernel : KernelTables base level) {count : Nat} :
    ∀ {page : Nat} {state : Loading} {parts : Nat → Option Part}, Built base level root parts state →
      (∀ step < count, OwnSlot (indicesOf (BitVec.ofNat 64 (page + step * pageSize))).path) →
      ∃ partsAfter, Progress base level root parts state partsAfter
          (mapStackPages (frameAddress root) count page state).1 ∧
        ((mapStackPages (frameAddress root) count page state).2 = true → 0 < count →
          ∃ frame, frame < frameLimit ∧ EntryAt (mapStackPages (frameAddress root) count page state).1.machine partsAfter
            (BitVec.ofNat 64 (page + (count - 1) * pageSize)) (makeEntry frame stackFlags)) := by
  induction count with
  | zero => intro page state parts built _; exact ⟨parts, .refl built, fun _ none => absurd none (by omega)⟩
  | succ count ih =>
    intro page state parts built own
    obtain ⟨user, present, word⟩ := stackFlags_facts
    have here := own 0 (by omega)
    rw [Nat.zero_mul, Nat.add_zero] at here
    rcases mapUserPage_built kernel built (some fun _ => 0) user present (Or.inr here) with
      ⟨after, middle, result, _, done⟩ | ⟨after, middle, result, refused⟩
    · have later : ∀ step < count, OwnSlot (indicesOf (BitVec.ofNat 64 (page + pageSize + step * pageSize))).path := by
        intro step small
        have next := own (step + 1) (by omega)
        rwa [Nat.succ_mul, Nat.add_comm (step * pageSize), ← Nat.add_assoc] at next
      obtain ⟨last, progress, entered⟩ := @ih (page + pageSize) after middle done.built later
      simp only [mapStackPages, result]
      refine ⟨last, done.progress.trans progress, ?_⟩
      intro success _
      cases count with
      | zero =>
        obtain ⟨frame, bound, entry⟩ := done.entryAt
        rw [word] at entry
        obtain ⟨pt, table, value⟩ := entry
        exact ⟨frame, bound, pt, progress.kept pt _ (by simpa using table), by simpa [mapStackPages] using value⟩
      | succ count =>
        have position : page + pageSize + (count + 1 - 1) * pageSize = page + (count + 1 + 1 - 1) * pageSize := by
          simp only [Nat.add_sub_cancel, Nat.succ_mul]
          omega
        rw [position] at entered
        exact entered success (by omega)
    · simp only [mapStackPages, result]
      exact ⟨middle, refused.progress, fun success => by cases success⟩

theorem stack_ownSlot : ∀ step < elfUserStackPages,
    OwnSlot (indicesOf (BitVec.ofNat 64 (stackBottom + step * pageSize))).path := by
  intro step small
  rw [ownSlot_iff]
  revert step
  decide

theorem trampoline_ownSlot : OwnSlot (indicesOf signalTrampolineAddr).path := by
  rw [ownSlot_iff]
  decide

section

variable (kernel : KernelTables base level)
include kernel

theorem mapSignalTrampoline_cases (built : Built base level root parts state) :
    (∃ after partsAfter, mapSignalTrampoline (frameAddress root) state = (after, true) ∧
        PageMapped base level root parts state signalTrampolineAddr trampolineFlags after partsAfter) ∨
      ∃ after partsAfter, mapSignalTrampoline (frameAddress root) state = (after, false) ∧
        Progress base level root parts state partsAfter after := by
  have user : hasFlag trampolineFlags pageUser = true := by decide
  have present : hasFlag trampolineFlags pagePresent = true := by decide
  rcases mapUserPage_built kernel built (some (pageWords 0 signalTrampolineCode)) user present
      (Or.inr trampoline_ownSlot) with
    ⟨after, partsAfter, result, _, done⟩ | ⟨after, partsAfter, result, refused⟩
  · exact Or.inl ⟨after, partsAfter, result, done⟩
  · exact Or.inr ⟨after, partsAfter, result, refused.progress⟩

theorem Built.fill (built : Built base level root parts state) {physical : BitVec 64}
    (listed : physical ∈ state.pages) (words : Nat → BitVec 64) :
    Built base level root parts { state with machine := state.machine.fill physical words } := by
  obtain ⟨frame, rfl, page⟩ := built.listed physical listed
  exact built.keep (built.image.fillPage kernel page) fun _ => Iff.rfl

theorem storeStack_built {memory : ByteMemory.Memory} {pages : List (BitVec 64)} :
    ∀ {page : Nat} {state : Loading}, Built base level root parts state → (∀ physical ∈ pages, physical ∈ state.pages) →
      Built base level root parts { state with machine := storeStack memory page pages state.machine } := by
  induction pages with
  | nil => intro page state built _; exact built
  | cons physical rest ih =>
    intro page state built listed
    obtain ⟨here, later⟩ := List.forall_mem_cons.mp listed
    exact ih (built.fill kernel here _) later

theorem mapExecStackPages_progress {vectors : ExecVectors}
    (built : Built base level root parts state) : ∃ partsAfter, Progress base level root parts state partsAfter
      (mapExecStackPages (frameAddress root) vectors state).1 := by
  obtain ⟨stackParts, stackProgress, _⟩ := mapStackPages_progress kernel built stack_ownSlot
  rw [mapExecStackPages]
  generalize mapStackPages (frameAddress root) elfUserStackPages stackBottom state = result at *
  obtain ⟨stacked, done⟩ := result
  cases done with
  | false => exact ⟨stackParts, stackProgress⟩
  | true =>
    simp only
    rcases mapSignalTrampoline_cases kernel stackProgress.built with
      ⟨after, partsAfter, trampoline, mapped⟩ | ⟨after, partsAfter, trampoline, progress⟩
    · rw [trampoline]
      have progress := stackProgress.trans mapped.progress
      simp only
      split
      · exact ⟨partsAfter, progress⟩
      · refine ⟨partsAfter, storeStack_built kernel mapped.built ?_, progress.kept, progress.pages⟩
        intro physical member
        exact mapped.progress.pages.subset (List.mem_of_mem_drop member)
    · rw [trampoline]
      exact ⟨partsAfter, stackProgress.trans progress⟩

end

theorem forSegments_progress {Scan : Type} (node : FileNode) (header : ElfHeader)
    {step : ProgramHeader → Scan → Loading → Loading × Option Scan}
    (steps : ∀ {segment : ProgramHeader} {scan : Scan} {state : Loading} {parts : Nat → Option Part},
      Built base level root parts state → ∃ partsAfter, Progress base level root parts state partsAfter
        (step segment scan state).1) (count : Nat) :
    ∀ {index : Nat} {scan : Scan} {state : Loading} {parts : Nat → Option Part},
      Built base level root parts state → ∃ partsAfter, Progress base level root parts state partsAfter
        (forSegments node header step count index scan state).1 := by
  induction count with
  | zero => intro index scan state parts built; exact ⟨parts, .refl built⟩
  | succ count ih =>
    intro index scan state parts built
    rw [forSegments]
    cases readProgramHeader node header index with
    | none => exact ⟨parts, .refl built⟩
    | some segment =>
      obtain ⟨middle, progress⟩ : ∃ partsAfter, Progress base level root parts state partsAfter
          (if segment.type ≠ ptLoad then (state, some scan) else step segment scan state).1 := by
        split
        · exact ⟨parts, .refl built⟩
        · exact steps built
      simp only
      generalize (if segment.type ≠ ptLoad then (state, some scan) else step segment scan state) = result at *
      obtain ⟨after, next⟩ := result
      cases next with
      | none => exact ⟨middle, progress⟩
      | some next =>
        obtain ⟨last, later⟩ := @ih (index + 1) next after middle progress.built
        exact ⟨last, progress.trans later⟩

variable (kernel : KernelTables base level) (node : FileNode) (header : ElfHeader)
include kernel

theorem loadExecSegment_progress
    {segment : ProgramHeader} {scan : ExecScan} (built : Built base level root parts state) :
    ∃ partsAfter, Progress base level root parts state partsAfter
      (loadExecSegment node header (frameAddress root) segment scan state).1 := by
  rw [loadExecSegment]
  split
  · exact ⟨parts, .refl built⟩
  obtain ⟨middle, progress⟩ := mapSegment_progress kernel built
  generalize mapSegment node (frameAddress root) segment state = result at *
  obtain ⟨after, done⟩ := result
  cases done with
  | false => exact ⟨middle, progress⟩
  | true => exact ⟨middle, progress⟩

theorem buildExecImage_progress (vectors : ExecVectors) (built : Built base level root parts state) :
    ∃ partsAfter, Progress base level root parts state partsAfter
      (buildExecImage node header vectors (frameAddress root) state).1 := by
  obtain ⟨middle, progress⟩ : ∃ partsAfter, Progress base level root parts state partsAfter
      (forSegments node header (loadExecSegment node header (frameAddress root)) header.phnum 0 ⟨0, false⟩ state).1 :=
    forSegments_progress node header (loadExecSegment_progress kernel node header) header.phnum built
  rw [buildExecImage]
  generalize forSegments node header (loadExecSegment node header (frameAddress root)) header.phnum 0 ⟨0, false⟩ state
    = result at *
  obtain ⟨loaded, scan⟩ := result
  cases scan with
  | none => exact ⟨middle, progress⟩
  | some scan =>
    simp only
    split
    · exact ⟨middle, progress⟩
    obtain ⟨last, later⟩ := mapExecStackPages_progress kernel progress.built
    generalize mapExecStackPages (frameAddress root) vectors loaded = stacked at *
    obtain ⟨after, stack⟩ := stacked
    cases stack with
    | none => exact ⟨last, progress.trans later⟩
    | some stack => exact ⟨last, progress.trans later⟩

end

end PhotonOS.Exec
