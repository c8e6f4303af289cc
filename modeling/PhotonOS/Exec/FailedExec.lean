import PhotonOS.Exec.HeapGrowth
import PhotonOS.Exec.ImageLoops
import PhotonOS.Exec.Processes

/-!
A failed `execve`. The cleanup gives back the tables of the new image but not
its pages, and pages that the kernel heap has grown by stay with the heap.
-/

namespace PhotonOS.Exec

/-! The first page of the new image. -/

def firstLoad (node : FileNode) (header : ElfHeader) : Nat → Nat → Option ProgramHeader
  | 0, _ => none
  | count + 1, index =>
    (readProgramHeader node header index).bind fun segment =>
      if segment.type ≠ ptLoad then firstLoad node header count (index + 1) else some segment

def inherited (machine : Machine) (page : BitVec 64) : Bool :=
  decide ((indicesOf page).pml4 = 0 ∨ 256 ≤ (indicesOf page).pml4) && vmmIsMapped machine machine.kernelPml4 page

structure FirstPageFits (machine : Machine) (node : FileNode) (segment : ProgramHeader) : Prop where
  allowed : execSegmentAllowed node segment = true
  accepted : segmentAccepted node segment = true
  unmapped : inherited machine (BitVec.ofNat 64 (alignDown segment.vaddr)) = false
  readable : (segmentWords node segment (alignDown segment.vaddr)).isSome
  frames : 5 ≤ freeFrames machine

def GetsPage (machine : Machine) (node : FileNode) (header : ElfHeader) : Prop :=
  ∃ segment, firstLoad node header header.phnum 0 = some segment ∧ FirstPageFits machine node segment

section

variable {base : Machine} {level : Nat → Option Nat} {root : Nat}

theorem newImage_isMapped (kernel : KernelTables base level) (small : root < base.pmm.total)
    (clear : base.pmm.bitmap root = false) {page : BitVec 64} :
    vmmIsMapped (newImage base root).machine (frameAddress root) page = inherited base page := by
  have image := (newImage_built kernel small clear).image
  obtain ⟨bound, positive⟩ := image.root_bound kernel
  obtain ⟨kernelRoot, kernelValue, kernelPositive, kernelBound, kernelLevel⟩ := kernel.root
  obtain ⟨pml4, pdpt, pd, pt⟩ := indicesOf_valid page
  have step : ∀ (machine : Machine) (frame : Nat), descend machine frame (indicesOf page).toList =
      if hasFlag (machine.mem frame (indicesOf page).pml4) pagePresent then
        descend machine (frameOf (entryTable (machine.mem frame (indicesOf page).pml4)))
          [(indicesOf page).pdpt, (indicesOf page).pd, (indicesOf page).pt]
      else none := fun _ _ => rfl
  have filled := (base.taken root).fill_mem bound (newRoot base)
  have entry : (newImage base root).machine.mem root (indicesOf page).pml4 = newRoot base (indicesOf page).pml4 :=
    (filled root _).trans (if_pos rfl)
  rw [newRoot, kernelValue, base.read_frame kernelBound] at entry
  rw [image.vmmIsMapped_eq kernel, inherited, kernelValue,
    kernel.walkable.vmmIsMapped_eq kernelLevel kernelBound kernelPositive, step, step, entry]
  by_cases shared : (indicesOf page).pml4 = 0 ∨ 256 ≤ (indicesOf page).pml4
  · have copied : (indicesOf page).pml4 = 0 ∨ 256 ≤ (indicesOf page).pml4 ∧ (indicesOf page).pml4 < 512 :=
      shared.imp_right fun upper => ⟨upper, pml4⟩
    rw [if_pos copied, decide_eq_true shared, Bool.true_and]
    by_cases present : hasFlag (base.mem kernelRoot (indicesOf page).pml4) pagePresent = true
    · obtain ⟨next, _, value, _, _, nextLevel⟩ := kernel.step kernelLevel pml4 present
      rw [if_pos present, if_pos present, value]
      congr 1
      apply kernel.walkable.descend_congr _ next 1 nextLevel (by simp) (by simp [pdpt, pd, pt])
      intro depth frame table
      funext index
      refine (filled frame index).trans (if_neg ?_)
      rintro rfl
      rw [kernel.used frame _ table] at clear
      cases clear
    · rw [if_neg present, if_neg present]
  · have own : ¬((indicesOf page).pml4 = 0 ∨ 256 ≤ (indicesOf page).pml4 ∧ (indicesOf page).pml4 < 512) :=
      fun copied => shared (copied.imp_right And.left)
    rw [if_neg own, decide_eq_false shared, hasFlag_zero, if_neg (by simp)]
    rfl

variable {node : FileNode} {state : Loading} {parts : Nat → Option Part} {machine after : Machine}
    {segment : ProgramHeader} {scan : ExecScan}

theorem segmentPages_positive (accepted : segmentAccepted node segment = true) :
    0 < segmentPages segment := by
  have nonempty : segment.memsz ≠ 0 := by
    intro empty
    simp [segmentAccepted, empty] at accepted
  rw [segmentPages, alignUp, alignDown, pageSize]
  omega

theorem mapSegment_first (kernel : KernelTables base level)
    (built : Built base level root (rootOnly root) state) (empty : state.pages = []) (node : FileNode)
    (segment : ProgramHeader) :
    ((mapSegment node (frameAddress root) segment state).1.pages ≠ [] ↔ segmentAccepted node segment = true ∧
      vmmIsMapped state.machine (frameAddress root) (BitVec.ofNat 64 (alignDown segment.vaddr)) = false ∧
      (segmentWords node segment (alignDown segment.vaddr)).isSome ∧ 4 ≤ freeFrames state.machine) ∧
    ((mapSegment node (frameAddress root) segment state).2 = true →
      (mapSegment node (frameAddress root) segment state).1.pages ≠ []) := by
  rw [mapSegment]
  cases accepted : segmentAccepted node segment with
  | false => simp [empty]
  | true =>
    obtain ⟨count, more⟩ : ∃ count, segmentPages segment = count + 1 :=
      ⟨segmentPages segment - 1, by have := segmentPages_positive accepted; omega⟩
    rw [more, mapSegmentPages]
    cases mapped : vmmIsMapped state.machine (frameAddress root) (BitVec.ofNat 64 (alignDown segment.vaddr)) with
    | true => simp [empty]
    | false =>
      simp only [Bool.false_eq_true, if_false, true_and]
      obtain ⟨user, present⟩ := segmentPageFlags_facts
      rcases mapUserPage_built kernel built (segmentWords node segment (alignDown segment.vaddr)) user present
          (Or.inl mapped) with
        ⟨after, parts, result, readable, done⟩ | ⟨after, parts, result, refused⟩
      · obtain ⟨_, later⟩ := @mapSegmentPages_progress _ _ _ kernel node segment count
          (alignDown segment.vaddr + pageSize) after parts done.built
        obtain ⟨frame, _, listed, _⟩ := done.page
        have enough := done.enough rootOnly_bare
        rw [result]
        have pages : (mapSegmentPages node (frameAddress root) segment count (alignDown segment.vaddr + pageSize)
            after).1.pages ≠ [] := by
          intro none
          have longer := later.pages
          rw [none, listed] at longer
          simp at longer
        exact ⟨⟨fun _ => ⟨readable, enough⟩, fun _ => pages⟩, fun _ => pages⟩
      · rw [result]
        have reason := refused.reason
        rw [empty] at reason
        have same : after.pages = [] := refused.pages.trans empty
        refine ⟨⟨fun some => absurd same some, ?_⟩, fun success => by cases success⟩
        rintro ⟨readable, enough⟩
        have few := reason readable (by decide)
        omega

theorem Progress.pages_ne_nil {partsAfter : Nat → Option Part} {before after : Loading}
    (progress : Progress base level root parts before partsAfter after) (some : before.pages ≠ []) :
    after.pages ≠ [] := by
  intro none
  have longer := progress.pages
  rw [none] at longer
  exact some (List.prefix_nil.mp longer)

section

variable (kernel : KernelTables base level) (built : Built base level root (rootOnly root) state)
    (empty : state.pages = [])
include kernel built empty

theorem loadExecSegment_first {header : ElfHeader} :
    ((loadExecSegment node header (frameAddress root) segment scan state).1.pages ≠ [] ↔
      execSegmentAllowed node segment = true ∧ (mapSegment node (frameAddress root) segment state).1.pages ≠ []) ∧
    ((loadExecSegment node header (frameAddress root) segment scan state).2.isSome →
      (loadExecSegment node header (frameAddress root) segment scan state).1.pages ≠ []) := by
  have filled := (mapSegment_first kernel built empty node segment).2
  rw [loadExecSegment]
  cases execSegmentAllowed node segment with
  | false => simp [empty]
  | true =>
    generalize mapSegment node (frameAddress root) segment state = result at *
    obtain ⟨after, done⟩ := result
    cases done with
    | false => simp
    | true => simpa using filled

theorem forSegments_first {header : ElfHeader} {count : Nat} : ∀ index,
    ((forSegments node header (loadExecSegment node header (frameAddress root)) count index scan state).1.pages ≠ [] ↔
      ∃ segment, firstLoad node header count index = some segment ∧ execSegmentAllowed node segment = true ∧
        (mapSegment node (frameAddress root) segment state).1.pages ≠ []) ∧
    ((forSegments node header (loadExecSegment node header (frameAddress root)) count index scan state).1.pages = [] →
      ∀ after, (forSegments node header (loadExecSegment node header (frameAddress root)) count index scan state).2 =
        some after → after = scan) := by
  induction count with
  | zero =>
    intro index
    simp only [forSegments, firstLoad, empty]
    refine ⟨by simp, ?_⟩
    intro _ after same
    cases same
    rfl
  | succ count ih =>
    intro index
    rw [forSegments, firstLoad]
    cases readProgramHeader node header index with
    | none => simp [empty]
    | some segment =>
      simp only [Option.bind_some]
      by_cases other : segment.type ≠ ptLoad
      · simp only [if_pos other]
        exact ih (index + 1)
      simp only [if_neg other, Option.some.injEq, exists_eq_left']
      obtain ⟨first, filled⟩ := loadExecSegment_first kernel built empty
      obtain ⟨parts, progress⟩ := @loadExecSegment_progress _ _ _ _ _ kernel node header segment scan built
      generalize loadExecSegment node header (frameAddress root) segment scan state = result at *
      obtain ⟨after, next⟩ := result
      cases next with
      | none => exact ⟨first, fun _ after none => by cases none⟩
      | some next =>
        have some := filled rfl
        obtain ⟨_, later⟩ := @forSegments_progress base level root _ node header
          (loadExecSegment node header (frameAddress root)) (loadExecSegment_progress kernel node header) count
          (index + 1) next after parts progress.built
        have more := later.pages_ne_nil some
        exact ⟨⟨fun _ => first.mp some, fun _ => more⟩, fun none => absurd none more⟩

end

variable {header : ElfHeader} {vectors : ExecVectors}

theorem buildExecImage_pages (kernel : KernelTables base level)
    (built : Built base level root (rootOnly root) state) (empty : state.pages = []) :
    (buildExecImage node header vectors (frameAddress root) state).1.pages ≠ [] ↔
      ∃ segment, firstLoad node header header.phnum 0 = some segment ∧ execSegmentAllowed node segment = true ∧
        (mapSegment node (frameAddress root) segment state).1.pages ≠ [] := by
  obtain ⟨first, unseen⟩ := forSegments_first kernel built empty 0
  obtain ⟨parts, progress⟩ : ∃ partsAfter, Progress base level root (rootOnly root) state partsAfter
      (forSegments node header (loadExecSegment node header (frameAddress root)) header.phnum 0 ⟨0, false⟩ state).1 :=
    forSegments_progress node header (loadExecSegment_progress kernel node header) header.phnum built
  rw [← first, buildExecImage]
  generalize forSegments node header (loadExecSegment node header (frameAddress root)) header.phnum 0 ⟨0, false⟩ state
    = result at *
  obtain ⟨loaded, scan⟩ := result
  cases scan with
  | none => exact Iff.rfl
  | some scan =>
    simp only
    by_cases none : loaded.pages = []
    · rw [unseen none scan rfl]
      simp
    split
    · exact Iff.rfl
    obtain ⟨_, later⟩ := mapExecStackPages_progress kernel progress.built
    have more := later.pages_ne_nil none
    generalize mapExecStackPages (frameAddress root) vectors loaded = stacked at *
    obtain ⟨after, stack⟩ := stacked
    cases stack with
    | none => exact ⟨fun _ => none, fun _ => more⟩
    | some stack => exact ⟨fun _ => none, fun _ => more⟩

theorem Built.destroyed_bitmap (kernel : KernelTables base level) (built : Built base level root parts state) :
    (∀ frame, (vmmDestroyAddressSpace (frameAddress root) state.machine).pmm.bitmap frame = base.pmm.bitmap frame) ↔
      state.pages = [] := by
  have without := built.image.destroyed kernel
  constructor
  · intro same
    by_contra some
    obtain ⟨physical, rest, first⟩ := List.exists_cons_of_ne_nil some
    obtain ⟨frame, _, page⟩ := built.listed physical (by simp [first])
    have clear := (built.image.fresh frame (by rw [page]; simp)).1
    have kept := (without.kept frame (by
      rintro ⟨path, table⟩
      rw [page] at table
      cases table)).1
    rw [same frame, clear, built.image.bitmap, page] at kept
    simp at kept
  · intro none frame
    cases part : parts frame with
    | none =>
      rw [(without.kept frame (by simp [part])).1, built.image.bitmap, part]
      simp
    | some part' =>
      have clear := (built.image.fresh frame (by rw [part]; simp)).1
      cases part' with
      | table path => rw [(without.freed frame ⟨path, part⟩).1, clear]
      | page =>
        have listed := built.complete frame part
        rw [none] at listed
        cases listed

structure FramesKept (before after : Machine) : Prop where
  used : ∀ frame, before.pmm.bitmap frame = true → after.pmm.bitmap frame = true
  refcounts : ∀ frame, before.pmm.bitmap frame = true → after.pmm.refcounts frame = before.pmm.refcounts frame
  memory : ∀ frame, before.pmm.bitmap frame = true → after.mem frame = before.mem frame

theorem FramesKept.refl (machine : Machine) : FramesKept machine machine :=
  ⟨fun _ set => set, fun _ _ => rfl, fun _ _ => rfl⟩

theorem FramesKept.trans {first second third : Machine} (left : FramesKept first second)
    (right : FramesKept second third) : FramesKept first third where
  used frame set := right.used frame (left.used frame set)
  refcounts frame set := (right.refcounts frame (left.used frame set)).trans (left.refcounts frame set)
  memory frame set := (right.memory frame (left.used frame set)).trans (left.memory frame set)

section

variable (same : SameFrames machine after)
include same

theorem SameFrames.kept : FramesKept machine after := by
  rcases same with rfl | rfl
  · exact .refl _
  · exact ⟨fun _ set => set, fun _ _ => rfl, fun _ _ => rfl⟩

theorem SameFrames.bitmap (frame : Nat) : after.pmm.bitmap frame = machine.pmm.bitmap frame := by
  rcases same with rfl | rfl
  · rfl
  · rfl

theorem SameFrames.kernelTables (kernel : KernelTables machine level) : KernelTables after level := by
  rcases same with rfl | rfl
  · exact kernel
  · exact kernel.congr rfl rfl rfl (fun _ set => set) (fun _ _ => rfl)

end

/-- The call has failed with the strings given back, and has kept frames exactly if it has reached some point. -/
structure FailedWith (storage : Nat) (kernel after : ExecKernel) (Reached : Prop) : Prop where
  task : after.task = kernel.task
  frame : after.frame = kernel.frame
  heap : KernelHeap.kfree storage kernel.heap = some after.heap
  kept : FramesKept kernel.machine after.machine
  allocated : (∀ frame, after.machine.pmm.bitmap frame = kernel.machine.pmm.bitmap frame) ↔ ¬Reached

theorem execImage_failed {kernel after : ExecKernel} (tables : KernelTables kernel.machine level)
    {storage : Nat} {path : List UInt8}
    (failed : execImage kernel storage vectors path node header = some (after, -1)) :
    FailedWith storage kernel after (GetsPage kernel.machine node header) := by
  rw [execImage] at failed
  rcases vmmCreateAddressSpace_image tables with ⟨nothing, created⟩ | ⟨root, small, clear, created⟩
  · simp only [created, if_true, failExec] at failed
    obtain ⟨returned, done, same⟩ := Option.map_eq_some_iff.mp failed
    cases same
    refine ⟨rfl, rfl, done, SameFrames.kept (Or.inr rfl), fun _ => ?_, fun _ _ => rfl⟩
    rintro ⟨segment, _, fits⟩
    have enough := fits.frames
    omega
  · have built := newImage_built tables small clear
    obtain ⟨bound, positive⟩ := built.image.root_bound tables
    have count : freeFrames (newImage kernel.machine root).machine + 1 = freeFrames kernel.machine :=
      freeFrames_taken small clear
    have pages : (buildExecImage node header vectors (frameAddress root) (newImage kernel.machine root)).1.pages ≠ [] ↔
        GetsPage kernel.machine node header := by
      rw [buildExecImage_pages tables built rfl, GetsPage]
      refine exists_congr fun segment => and_congr_right fun _ => ?_
      rw [(mapSegment_first tables built rfl node segment).1, newImage_isMapped tables small clear]
      constructor
      · rintro ⟨allowed, accepted, unmapped, readable, enough⟩
        exact ⟨allowed, accepted, unmapped, readable, by omega⟩
      · rintro ⟨allowed, accepted, unmapped, readable, enough⟩
        exact ⟨allowed, accepted, unmapped, readable, by omega⟩
    obtain ⟨parts, progress⟩ := buildExecImage_progress tables node header vectors built
    simp only [created, if_neg (frameAddress_ne_zero root bound positive)] at failed
    rw [newImage] at pages progress
    generalize buildExecImage node header vectors (frameAddress root) _ = result at *
    obtain ⟨state, outcome⟩ := result
    cases outcome with
    | none =>
      obtain ⟨returned, done, same⟩ := Option.map_eq_some_iff.mp failed
      cases same
      refine ⟨rfl, rfl, done, ⟨?_, ?_, ?_⟩, ?_⟩
      · intro frame set
        exact (progress.built.image.destroyed_base tables set).1
      · intro frame set
        exact (progress.built.image.destroyed_base tables set).2.1
      · intro frame set
        exact (progress.built.image.destroyed_base tables set).2.2
      · rw [progress.built.destroyed_bitmap tables, ← pages, not_not]
    | some found =>
      obtain ⟨returned, _, same⟩ := Option.map_eq_some_iff.mp failed
      simp only [Prod.mk.injEq] at same
      exact absurd same.2 (by decide)

end

/-! The whole call. -/

structure ReadyKernel extends ExecKernel where
  level : Nat → Option Nat
  blocks : List Tiling.Block
  tables : KernelTables machine level
  heapBlocks : KernelHeap.HeapInv heap blocks
  heapTables : HeapTables machine heap

/-- Everything is as before: the task, its frame, the frames in use with their counts and contents, and the
blocks of the heap that are in use. -/
structure Unchanged (blocks : List Tiling.Block) (before after : ExecKernel) : Prop where
  task : after.task = before.task
  frame : after.frame = before.frame
  allocated : ∀ frame, after.machine.pmm.bitmap frame = before.machine.pmm.bitmap frame
  refcounts : ∀ frame, before.machine.pmm.bitmap frame = true →
    after.machine.pmm.refcounts frame = before.machine.pmm.refcounts frame
  memory : ∀ frame, before.machine.pmm.bitmap frame = true → after.machine.mem frame = before.machine.mem frame
  heap : ∃ blocksAfter, KernelHeap.HeapInv after.heap blocksAfter ∧ KernelHeap.SameUsed blocks blocksAfter

def StringsFit (heap : KernelHeap.Heap) : Prop :=
  KernelHeap.findBlock heap.fuel heap.mem heap.head execStringsMax ≠ some 0

def ReachesPage (machine : Machine) (call : ExecCall) : Prop :=
  let path := stringFrom call.user.byte filePathMax call.path
  (copyExecVectors call.user call.argv call.envp).isSome ∧ ¬(path.length = 0 ∨ path.length ≥ filePathMax) ∧
    ∃ node header, openExecutable call.find path = some (node, header) ∧ GetsPage machine node header

/-- The call takes frames that a failure does not give back. -/
def KeepsFrames (kernel : ExecKernel) (call : ExecCall) : Prop :=
  ¬(call.frameAddr = 0 ∨ !vmmValidateUserString call.user call.path filePathMax) ∧
    (HeapTakesFrames kernel.machine kernel.heap execStringsMax ∨
      StringsFit kernel.heap ∧ ReachesPage kernel.machine call)

variable {call : ExecCall}

theorem SameFrames.reachesPage {machine after : Machine} (same : SameFrames machine after) :
    ReachesPage after call ↔ ReachesPage machine call := by
  rcases same with rfl | rfl
  · exact Iff.rfl
  refine and_congr_right fun _ => and_congr_right fun _ => exists_congr fun node => exists_congr fun header =>
    and_congr_right fun _ => exists_congr fun segment => and_congr_right fun _ => ?_
  constructor
  · rintro ⟨allowed, accepted, unmapped, readable, frames⟩
    exact ⟨allowed, accepted, unmapped, readable, frames⟩
  · rintro ⟨allowed, accepted, unmapped, readable, frames⟩
    exact ⟨allowed, accepted, unmapped, readable, frames⟩

theorem execWithStrings_failed {level : Nat → Option Nat} {kernel after : ExecKernel}
    (tables : KernelTables kernel.machine level) {storage : Nat}
    (failed : execWithStrings kernel storage call = some (after, -1)) :
    FailedWith storage kernel after (ReachesPage kernel.machine call) := by
  have early : ∀ {stopped : ExecKernel}, failExec storage stopped = some (after, -1) → stopped.task = kernel.task →
      stopped.frame = kernel.frame → stopped.heap = kernel.heap → stopped.machine = kernel.machine →
      ¬ReachesPage kernel.machine call → FailedWith storage kernel after (ReachesPage kernel.machine call) := by
    intro stopped failed task frame heap machine unreached
    obtain ⟨returned, done, same⟩ := Option.map_eq_some_iff.mp failed
    cases same
    refine ⟨task, frame, heap ▸ done, ?_, fun _ => unreached, fun _ => ?_⟩
    · simp only [machine]
      exact .refl _
    · exact fun _ => by rw [machine]
  rw [execWithStrings] at failed
  cases copied : copyExecVectors call.user call.argv call.envp with
  | none =>
    rw [copied] at failed
    exact early failed rfl rfl rfl rfl (by simp [ReachesPage, copied])
  | some vectors =>
    simp only [copied] at failed
    split at failed
    next short => exact early failed rfl rfl rfl rfl (fun reaches => reaches.2.1 short)
    rename_i long
    cases opened : openExecutable call.find (stringFrom call.user.byte filePathMax call.path) with
    | none =>
      simp only [opened] at failed
      exact early failed rfl rfl rfl rfl (by simp [ReachesPage, opened])
    | some found =>
      obtain ⟨node, header⟩ := found
      simp only [opened] at failed
      obtain ⟨task, frame, heap, kept, pages⟩ := execImage_failed tables failed
      refine ⟨task, frame, heap, kept, pages.trans (not_congr ?_)⟩
      constructor
      · intro gets
        exact ⟨by rw [copied]; rfl, long, node, header, opened, gets⟩
      · rintro ⟨_, _, node', header', same, gets⟩
        rw [opened] at same
        cases same
        exact gets

theorem elfExecCurrent_failed {kernel : ReadyKernel} {after : ExecKernel}
    (failed : elfExecCurrent kernel.toExecKernel call = some (after, -1)) :
    after.task = kernel.task ∧ after.frame = kernel.frame ∧
      (∃ more, KernelHeap.HeapInv after.heap more ∧ KernelHeap.SameUsed kernel.blocks more) ∧
      ((KeepsFrames kernel.toExecKernel call ∧
          ∃ frame, after.machine.pmm.bitmap frame ≠ kernel.machine.pmm.bitmap frame) ∨
        ¬KeepsFrames kernel.toExecKernel call ∧ FramesKept kernel.machine after.machine ∧
          ∀ frame, after.machine.pmm.bitmap frame = kernel.machine.pmm.bitmap frame) := by
  rw [elfExecCurrent] at failed
  by_cases invalid : call.frameAddr = 0 ∨ !vmmValidateUserString call.user call.path filePathMax
  · rw [if_pos invalid] at failed
    cases failed
    exact ⟨rfl, rfl, ⟨kernel.blocks, kernel.heapBlocks, fun _ _ => Iff.rfl⟩,
      Or.inr ⟨fun keeps => keeps.1 invalid, .refl _, fun _ => rfl⟩⟩
  rw [if_neg invalid] at failed
  have large : execStringsMax ≠ 0 := by decide
  obtain ⟨machine, heap, storage, allocated, ⟨returned, more, freed, inv, sameBlocks⟩, outcome⟩ :=
    kmalloc_cases kernel.tables kernel.heapBlocks kernel.heapTables large
  rw [show KernelHeap.alignUp execStringsMax 16 = execStringsMax by decide] at outcome
  simp only [allocated, Option.bind_eq_bind, Option.bind_some] at failed
  -- the state in which the call ends, seen from the state after kmalloc
  have ended : ∀ tables : KernelTables machine kernel.level, after.task = kernel.task ∧ after.frame = kernel.frame ∧
      after.heap = returned ∧ FramesKept machine after.machine ∧
      ((∀ frame, after.machine.pmm.bitmap frame = machine.pmm.bitmap frame) ↔
        ¬(storage ≠ 0 ∧ ReachesPage machine call)) := by
    intro tables
    split at failed
    next null =>
      rw [null, KernelHeap.kfree, if_pos rfl] at freed
      cases freed
      cases failed
      exact ⟨rfl, rfl, rfl, .refl _, fun _ reaches => reaches.1 null, fun _ _ => rfl⟩
    next given =>
      obtain ⟨task, frame, heapAfter, kept, pages⟩ := execWithStrings_failed tables failed
      rw [freed, Option.some.injEq] at heapAfter
      refine ⟨task, frame, heapAfter.symm, kept, pages.trans (not_congr ?_)⟩
      exact (and_iff_right given).symm
  rcases outcome with ⟨calm, sameFrames, null⟩ | ⟨takes, grown, block, clear, set⟩
  · obtain ⟨task, frame, heapAfter, kept, pages⟩ := ended (sameFrames.kernelTables kernel.tables)
    have fits : storage ≠ 0 ↔ StringsFit kernel.heap := not_congr null
    have keeps : KeepsFrames kernel.toExecKernel call ↔ storage ≠ 0 ∧ ReachesPage machine call := by
      rw [KeepsFrames, and_iff_right invalid, or_iff_right calm, fits, sameFrames.reachesPage]
    refine ⟨task, frame, ⟨more, heapAfter ▸ inv, sameBlocks⟩, ?_⟩
    simp only [sameFrames.bitmap] at pages
    rw [keeps]
    by_cases reaches : storage ≠ 0 ∧ ReachesPage machine call
    · refine Or.inl ⟨reaches, ?_⟩
      by_contra same
      push Not at same
      exact pages.mp same reaches
    · exact Or.inr ⟨reaches, sameFrames.kept.trans kept, pages.mpr reaches⟩
  · obtain ⟨task, frame, heapAfter, kept, _⟩ := ended (grown.kernelTables kernel.tables)
    refine ⟨task, frame, ⟨more, heapAfter ▸ inv, sameBlocks⟩, Or.inl ⟨⟨invalid, Or.inl takes⟩, block, ?_⟩⟩
    rw [kept.used block set, clear]
    simp

def tinyHeap : KernelHeap.Heap where
  mem := KernelHeap.writeFree (fun _ => 0) 4096 (12288 - 4096 - KernelHeap.headerSize) 0 0
  head := 4096
  start := 4096
  stop := 12288
  limit := 12288

theorem tinyMachine_tables : KernelTables tinyMachine fun frame => if frame = 1 then some 3 else none := by
  apply kernelTables_empty (by decide) (by decide) ?_ rfl (by decide) (by decide) rfl fun _ => rfl
  intro frame low
  exact decide_eq_true low

theorem tinyHeap_blocks : KernelHeap.HeapInv tinyHeap [{ addr := 4096, size := 12288 - 4096 - KernelHeap.headerSize, free := true }] := by
  have empty : KernelHeap.HeapInv { mem := fun _ => 0, head := 0, start := 4096, stop := 4096, limit := 12288 } [] :=
    ⟨⟨by decide, rfl, trivial, rfl, by simp⟩, List.isChain_nil, by decide⟩
  have filled : 4096 + KernelHeap.headerSize ≤ 12288 := by decide
  exact empty.begin filled (by decide)

theorem tinyHeap_tables : HeapTables tinyMachine tinyHeap :=
  fun _ low high => absurd (Nat.lt_of_le_of_lt low high) (by decide)

def tinyKernel : ReadyKernel where
  machine := tinyMachine
  heap := tinyHeap
  cr3 := frameAddress 1
  task := blankTask
  frame := blankFrame
  level frame := if frame = 1 then some 3 else none
  blocks := [{ addr := 4096, size := 12288 - 4096 - KernelHeap.headerSize, free := true }]
  tables := tinyMachine_tables
  heapBlocks := tinyHeap_blocks
  heapTables := tinyHeap_tables

def tinyCall : ExecCall where
  user := { byte := fun address => if address = 0x3000 then 97 else 0, readable := fun _ _ => true }
  path := 0x3000
  argv := 0
  envp := 0
  frameAddr := 1
  find _ := some (tinyNode 4)

def tinyHeader : ElfHeader where
  ident := elfIdent ++ List.replicate 9 0
  type := 2
  machine := 62
  version := 1
  entry := 0x8000001000
  phoff := 64
  ehsize := 64
  phentsize := 56
  phnum := 1

def tinySegment : ProgramHeader where
  type := ptLoad
  flags := 4
  offset := 0
  vaddr := 0x8000001000
  filesz := 0
  memsz := 1
  align := 4096

theorem tinyCall_keepsFrames : KeepsFrames tinyKernel.toExecKernel tinyCall := by
  have opened : readElfHeader (tinyNode 4) = some tinyHeader := by decide +kernel
  have segment : firstLoad (tinyNode 4) tinyHeader 1 0 = some tinySegment := by decide +kernel
  refine ⟨by decide +kernel, Or.inr ⟨by unfold StringsFit; decide +kernel, by decide +kernel, by decide +kernel, ?_⟩⟩
  refine ⟨tinyNode 4, tinyHeader, ?_, tinySegment, segment, ?_⟩
  · simp only [openExecutable, tinyCall, Option.bind_eq_bind, Option.bind_some, opened]
    rfl
  · exact ⟨by decide +kernel, by decide +kernel, by decide +kernel, by decide +kernel, by decide +kernel⟩

theorem tinyCall_status : (elfExecCurrent tinyKernel.toExecKernel tinyCall).map Prod.snd = some (-1) := by
  decide +kernel

end PhotonOS.Exec
