import PhotonOS.Exec.ExecCurrent
import PhotonOS.Exec.ImagePages
import PhotonOS.Heap.Calls

/-!
The frames of the kernel heap.
-/

namespace PhotonOS.Exec

section

variable {machine after : Machine} {level : Nat → Option Nat}

theorem KernelTables.step (kernel : KernelTables machine level) {frame depth index : Nat}
    (table : level frame = some (depth + 1)) (small : index < 512)
    (present : hasFlag (machine.mem frame index) pagePresent = true) :
    ∃ next, entryTable (machine.mem frame index) = frameAddress next ∧
      frameOf (entryTable (machine.mem frame index)) = next ∧ 0 < next ∧ next < frameLimit ∧ level next = some depth := by
  obtain ⟨next, address, positive, bound, nextLevel⟩ := (kernel.entry frame depth index table small).2 present
  exact ⟨next, address, by rw [address, frameOf_frameAddress next bound], positive, bound, nextLevel⟩

variable {path : List Nat}

section

variable (kernel : KernelTables machine level)
include kernel

theorem KernelTables.descend_level :
    ∀ {frame target : Nat}, level frame = some path.length → 0 < frame → frame < frameLimit →
      (∀ index ∈ path, index < 512) → descend machine frame path = some target →
      level target = some 0 ∧ 0 < target ∧ target < frameLimit := by
  induction path with
  | nil =>
    intro frame target table positive bound _ found
    cases found
    exact ⟨table, positive, bound⟩
  | cons index path ih =>
    intro frame target table positive bound bounds found
    obtain ⟨small, pathBounds⟩ := List.forall_mem_cons.mp bounds
    rw [descend] at found
    split at found
    next present =>
      obtain ⟨next, _, value, nextPositive, nextBound, nextLevel⟩ := kernel.step table small present
      rw [value] at found
      exact ih nextLevel nextPositive nextBound pathBounds found
    · cases found

theorem KernelTables.descend_upper
    (same : ∀ frame depth, level frame = some (depth + 1) → after.mem frame = machine.mem frame) :
    ∀ {frame : Nat}, level frame = some path.length → (∀ index ∈ path, index < 512) →
      descend after frame path = descend machine frame path := by
  induction path with
  | nil => intro frame _ _; rfl
  | cons index path ih =>
    intro frame table bounds
    obtain ⟨small, pathBounds⟩ := List.forall_mem_cons.mp bounds
    rw [descend, descend, same frame path.length table]
    split
    next present =>
      obtain ⟨next, _, value, _, _, nextLevel⟩ := kernel.step table small present
      rw [value]
      exact ih nextLevel pathBounds
    · rfl

theorem KernelTables.ensureTables_eq {flags : BitVec 64} (supervisor : hasFlag flags pageUser = false) :
    ∀ {frame target : Nat}, level frame = some path.length → 0 < frame → frame < frameLimit →
      (∀ index ∈ path, index < 512) → descend machine frame path = some target →
      ensureTables flags machine (frameAddress frame) path = (machine, frameAddress target) := by
  induction path with
  | nil =>
    intro frame target _ _ _ _ found
    cases found
    rfl
  | cons index path ih =>
    intro frame target table positive bound bounds found
    obtain ⟨small, pathBounds⟩ := List.forall_mem_cons.mp bounds
    rw [descend] at found
    split at found
    next present =>
      obtain ⟨next, address, value, nextPositive, nextBound, nextLevel⟩ := kernel.step table small present
      rw [value] at found
      have ensured : ensureNextTable machine (frameAddress frame) index flags = (machine, frameAddress next) := by
        rw [ensureNextTable_found bound positive small present (by rw [value]; exact nextPositive)
          (fun user => absurd user (by rw [supervisor]; decide)), address]
      rw [ensureTables, ensured]
      simp only [frameAddress_ne_zero next nextBound nextPositive, if_false]
      exact ih nextLevel nextPositive nextBound pathBounds found
    · cases found

end

structure Grown (level : Nat → Option Nat) (machine after : Machine) : Prop where
  total : after.pmm.total = machine.pmm.total
  reserved : after.pmm.reserved = machine.pmm.reserved
  kernelPml4 : after.kernelPml4 = machine.kernelPml4
  used : ∀ frame, machine.pmm.bitmap frame = true → after.pmm.bitmap frame = true
  upper : ∀ frame depth, level frame = some (depth + 1) → after.mem frame = machine.mem frame

theorem Grown.refl : Grown level machine machine := ⟨rfl, rfl, rfl, fun _ set => set, fun _ _ _ => rfl⟩

theorem Grown.trans {last : Machine} (left : Grown level machine after) (right : Grown level after last) :
    Grown level machine last where
  total := right.total.trans left.total
  reserved := right.reserved.trans left.reserved
  kernelPml4 := right.kernelPml4.trans left.kernelPml4
  used frame set := right.used frame (left.used frame set)
  upper frame depth table := (right.upper frame depth table).trans (left.upper frame depth table)

theorem Grown.kernelTables (grown : Grown level machine after) (kernel : KernelTables machine level) :
    KernelTables after level where
  total := grown.total ▸ kernel.total
  reserved := grown.reserved ▸ kernel.reserved
  guarded frame low := grown.used frame (kernel.guarded frame (grown.reserved ▸ low))
  root := grown.kernelPml4 ▸ kernel.root
  used frame depth table := grown.used frame (kernel.used frame depth table)
  entry := by
    intro frame depth index table small
    rw [grown.upper frame depth table]
    exact kernel.entry frame depth index table small

def HasPageTable (machine : Machine) (page : BitVec 64) : Prop :=
  (descend machine (frameOf machine.kernelPml4) (indicesOf page).path).isSome

variable {page : BitVec 64} {pt size : Nat} {heap : KernelHeap.Heap}

theorem Grown.hasPageTable (grown : Grown level machine after) (kernel : KernelTables machine level)
    (before : HasPageTable machine page) : HasPageTable after page := by
  obtain ⟨root, rootValue, _, rootBound, rootLevel⟩ := kernel.root
  rw [HasPageTable, grown.kernelPml4, rootValue, frameOf_frameAddress root rootBound]
  rw [HasPageTable, rootValue, frameOf_frameAddress root rootBound] at before
  rwa [kernel.descend_upper grown.upper rootLevel (indices_bounds page).1]

theorem Grown.taken (machine : Machine) (block : Nat) : Grown level machine (machine.taken block) :=
  ⟨rfl, rfl, rfl, fun frame set => by simp [Machine.taken, set], fun _ _ _ => rfl⟩

theorem Grown.enter (table : level pt = some 0) (bound : pt < frameLimit) (machine : Machine) (index : Nat)
    (entry : BitVec 64) : Grown level machine (machine.write (frameAddress pt) index entry) := by
  refine ⟨rfl, rfl, rfl, fun _ set => set, ?_⟩
  intro frame depth upper
  funext place
  rw [machine.write_mem bound, if_neg]
  rintro ⟨rfl, _⟩
  rw [table] at upper
  cases upper

theorem KernelTables.vmmIsMapped_leaf (kernel : KernelTables machine level) {root : Nat}
    (table : level root = some 3) (positive : 0 < root) (bound : root < frameLimit)
    (found : descend machine root (indicesOf page).path = some pt) :
    vmmIsMapped machine (frameAddress root) page = hasFlag (machine.mem pt (indicesOf page).pt) pagePresent := by
  rw [kernel.walkable.vmmIsMapped_eq table bound positive,
    show (indicesOf page).toList = (indicesOf page).path ++ [(indicesOf page).pt] from rfl, descend_append, found,
    Option.bind_some, descend]
  cases hasFlag (machine.mem pt (indicesOf page).pt) pagePresent <;> rfl

theorem heapMapPage_cases (kernel : KernelTables machine level) (table : HasPageTable machine page) :
    (freeFrames machine = 0 ∧ heapMapPage machine page = (starved machine, none)) ∨
      ∃ block after, 0 < freeFrames machine ∧ machine.pmm.bitmap block = false ∧
        heapMapPage machine page = (after, some (frameAddress block)) ∧ Grown level machine after ∧ after.pmm.bitmap block = true := by
  rw [heapMapPage]
  rcases pmmAlloc_counts machine with ⟨nothing, allocated⟩ | ⟨block, small, clear, allocated⟩
  · simp only [allocated, if_true]
    exact Or.inl ⟨nothing, trivial⟩
  have blockBound := lt_frameLimit small kernel.total
  have blockPositive : 0 < block := by
    by_contra zero
    have guarded := kernel.guarded 0 kernel.reserved
    rw [show block = 0 by omega, guarded] at clear
    cases clear
  obtain ⟨root, rootValue, rootPositive, rootBound, rootLevel⟩ := kernel.root
  obtain ⟨pt, found⟩ := Option.isSome_iff_exists.mp table
  rw [rootValue, frameOf_frameAddress root rootBound] at found
  have bounds := (indices_bounds page).1
  obtain ⟨ptLevel, ptPositive, ptBound⟩ := kernel.descend_level rootLevel rootPositive rootBound bounds found
  have taken : Grown level machine (machine.taken block) := .taken machine block
  have walked : ensureTables heapFlags (machine.taken block) (frameAddress root) (indicesOf page).path =
      (machine.taken block, frameAddress pt) := by
    apply (taken.kernelTables kernel).ensureTables_eq (by decide) rootLevel rootPositive rootBound bounds
    exact found
  have entered : mapInPml4 (machine.taken block) (frameAddress root) page (frameAddress block) heapFlags =
      (machine.taken block).write (frameAddress pt) (indicesOf page).pt
        (makeEntry block (heapFlags &&& vmmEntryFlagsMask)) := by
    rw [mapInPml4_eq, walked, frameAddress_page blockBound, frameAddress_masked block blockBound]
    exact if_neg (frameAddress_ne_zero pt ptBound ptPositive)
  have grown := taken.trans (.enter ptLevel ptBound (machine.taken block) (indicesOf page).pt
    (makeEntry block (heapFlags &&& vmmEntryFlagsMask)))
  have mapped : vmmIsMapped ((machine.taken block).write (frameAddress pt) (indicesOf page).pt
      (makeEntry block (heapFlags &&& vmmEntryFlagsMask))) (frameAddress root) page = true := by
    rw [(grown.kernelTables kernel).vmmIsMapped_leaf rootLevel rootPositive rootBound
        ((kernel.descend_upper grown.upper rootLevel bounds).trans found),
      Machine.write_mem _ ptBound, if_pos ⟨rfl, rfl⟩, hasFlag_makeEntry blockBound _ (by decide)]
    decide
  have kernelRoot : (machine.taken block).kernelPml4 = frameAddress root := rootValue
  simp only [allocated, if_neg (frameAddress_ne_zero block blockBound blockPositive), kernelRoot, entered]
  rw [show ((machine.taken block).write (frameAddress pt) (indicesOf page).pt
    (makeEntry block (heapFlags &&& vmmEntryFlagsMask))).kernelPml4 = frameAddress root from rootValue, mapped]
  have free := freeFrames_taken small clear
  exact Or.inr ⟨block, _, by omega, clear, rfl, grown, by simp [Machine.taken, Machine.write]⟩

theorem heapMapPages_cases {count : Nat} : ∀ {page : Nat} {machine : Machine}, KernelTables machine level →
    (∀ step < count, HasPageTable machine (BitVec.ofNat 64 (page + step * pageSize))) →
    Grown level machine (heapMapPages count page machine).1 ∧
      (0 < count → (freeFrames machine = 0 ∧ heapMapPages count page machine = (starved machine, [])) ∨
        0 < freeFrames machine ∧
          ∃ block, machine.pmm.bitmap block = false ∧ (heapMapPages count page machine).1.pmm.bitmap block = true) := by
  induction count with
  | zero => intro page machine _ _; exact ⟨.refl, fun none => absurd none (by omega)⟩
  | succ count ih =>
    intro page machine kernel tables
    have here := tables 0 (by omega)
    rw [Nat.zero_mul, Nat.add_zero] at here
    rw [heapMapPages]
    rcases heapMapPage_cases kernel here with ⟨nothing, result⟩ | ⟨block, after, free, clear, result, grown, set⟩
    · rw [result]
      exact ⟨⟨rfl, rfl, rfl, fun _ set => set, fun _ _ _ => rfl⟩, fun _ => Or.inl ⟨nothing, rfl⟩⟩
    rw [result]
    have rest : ∀ step < count, HasPageTable after (BitVec.ofNat 64 (page + pageSize + step * pageSize)) := by
      intro step small
      have next := grown.hasPageTable kernel (tables (step + 1) (by omega))
      rwa [Nat.succ_mul, Nat.add_comm (step * pageSize), ← Nat.add_assoc] at next
    have later := (ih (grown.kernelTables kernel) rest).1
    exact ⟨grown.trans later, fun _ => Or.inr ⟨free, block, clear, later.used block set⟩⟩

def HeapTables (machine : Machine) (heap : KernelHeap.Heap) : Prop :=
  ∀ page, heap.stop ≤ page → page < heap.limit → HasPageTable machine (BitVec.ofNat 64 page)

def HeapTakesFrames (machine : Machine) (heap : KernelHeap.Heap) (size : Nat) : Prop :=
  heapGrows heap size = true ∧ 0 < freeFrames machine

theorem expandedEnd_pages (aligned : heap.stop % pageSize = 0) :
    heap.stop + pageSize * ((expandedEnd heap size - heap.stop) / pageSize) = expandedEnd heap size ∧
      0 < (expandedEnd heap size - heap.stop) / pageSize := by
  simp only [expandedEnd, KernelHeap.alignUp, KernelHeap.headerSize, pageSize] at *
  omega

theorem growHeap_cases (kernel : KernelTables machine level) (tables : HeapTables machine heap)
    (aligned : heap.stop % pageSize = 0) (size : Nat) : (¬HeapTakesFrames machine heap size ∧
        (growHeap machine heap size = (machine, []) ∨ growHeap machine heap size = (starved machine, []))) ∨
      HeapTakesFrames machine heap size ∧ Grown level machine (growHeap machine heap size).1 ∧
        ∃ block, machine.pmm.bitmap block = false ∧ (growHeap machine heap size).1.pmm.bitmap block = true := by
  rw [growHeap]
  by_cases grows : heapGrows heap size = true
  · rw [if_pos grows]
    obtain ⟨reaches, positive⟩ := expandedEnd_pages aligned
    have limit : expandedEnd heap size ≤ heap.limit := by
      rw [heapGrows, Bool.and_eq_true] at grows
      exact of_decide_eq_true grows.2
    have within : ∀ step < (expandedEnd heap size - heap.stop) / pageSize,
        HasPageTable machine (BitVec.ofNat 64 (heap.stop + step * pageSize)) := by
      intro step small
      have below : pageSize * (step + 1) ≤ pageSize * ((expandedEnd heap size - heap.stop) / pageSize) :=
        Nat.mul_le_mul_left pageSize small
      rw [pageSize] at below reaches ⊢
      exact tables _ (by omega) (by omega)
    generalize (expandedEnd heap size - heap.stop) / pageSize = count at *
    obtain ⟨grown, outcome⟩ := heapMapPages_cases kernel within
    rcases outcome positive with ⟨nothing, result⟩ | ⟨free, taken⟩
    · rw [result]
      refine Or.inl ⟨?_, Or.inr rfl⟩
      rintro ⟨_, free⟩
      omega
    · exact Or.inr ⟨⟨grows, free⟩, grown, taken⟩
  · rw [if_neg grows]
    exact Or.inl ⟨fun takes => grows takes.1, Or.inl rfl⟩

def SameFrames (machine after : Machine) : Prop := after = machine ∨ after = starved machine

theorem kmalloc_cases (kernel : KernelTables machine level) {blocks : List Tiling.Block}
    (inv : KernelHeap.HeapInv heap blocks) (tables : HeapTables machine heap) (positive : size ≠ 0) :
    ∃ after heapAfter storage, kmalloc machine heap size = some (after, heapAfter, storage) ∧
      (∃ returned more, KernelHeap.kfree storage heapAfter = some returned ∧ KernelHeap.HeapInv returned more ∧
        KernelHeap.SameUsed blocks more) ∧
      ((¬HeapTakesFrames machine heap (KernelHeap.alignUp size 16) ∧ SameFrames machine after ∧ (storage = 0 ↔
            KernelHeap.findBlock heap.fuel heap.mem heap.head (KernelHeap.alignUp size 16) = some 0)) ∨
        HeapTakesFrames machine heap (KernelHeap.alignUp size 16) ∧ Grown level machine after ∧
          ∃ block, machine.pmm.bitmap block = false ∧ after.pmm.bitmap block = true) := by
  have outcome := growHeap_cases kernel tables inv.page (KernelHeap.alignUp size 16)
  rw [kmalloc]
  generalize growHeap machine heap (KernelHeap.alignUp size 16) = result at *
  obtain ⟨after, pages⟩ := result
  obtain ⟨heapAfter, storage, allocated, returned⟩ := inv.borrow (heapFrames after heap pages) size
  refine ⟨after, heapAfter, storage, by simp only [allocated]; rfl, returned, ?_⟩
  rcases outcome with ⟨calm, same⟩ | grown
  · have nothing : pages = [] := by
      rcases same with same | same
      · exact congrArg Prod.snd same
      · exact congrArg Prod.snd same
    have refused : (heapFrames after heap pages).maps 0 heap.stop = false := by
      rw [nothing]
      simp [heapFrames]
    refine Or.inl ⟨calm, ?_, inv.kmalloc_null_iff refused positive allocated⟩
    exact same.imp (congrArg Prod.fst) (congrArg Prod.fst)
  · exact Or.inr grown

end

end PhotonOS.Exec
