import PhotonOS.Exec.ImageLoops
import PhotonOS.Exec.Processes

/-!
Write-xor-execute. The loader maps the stack writable and without the NX bit, so
the address space of every process that is loaded breaks the rule at once.
-/

namespace PhotonOS.Exec

def WxorX (machine : Machine) (pml4 : BitVec 64) : Prop :=
  ∀ indices : Indices, indices.Valid → let entry := leafOf machine (frameOf pml4) indices
    hasFlag entry pagePresent = true → hasFlag entry pageUser = true →
      (hasFlag entry pageWritable || hasFlag entry pageCow) = true → hasFlag entry pageNx = true

def AllWxorX (system : System) : Prop :=
  ∀ process ∈ system.slots, process.live = true → WxorX system.machine process.task.cr3

section

variable {base : Machine} {level : Nat → Option Nat} {root : Nat} {parts : Nat → Option Part} {state : Loading}
    {argument : Option (List UInt8)} {node : FileNode} {address : BitVec 64}

theorem EntryAt.fill (kernel : KernelTables base level) (built : Built base level root parts state)
    {physical entry : BitVec 64} (listed : physical ∈ state.pages) (words : Nat → BitVec 64)
    (before : EntryAt state.machine parts address entry) :
    EntryAt (state.machine.fill physical words) parts address entry := by
  obtain ⟨pt, table, value⟩ := before
  obtain ⟨frame, rfl, page⟩ := built.listed physical listed
  have bound : frame < frameLimit := (built.image.bound kernel (by rw [page]; simp)).1
  refine ⟨pt, table, ?_⟩
  rw [Machine.fill_mem _ bound, if_neg, value]
  rintro rfl
  rw [page] at table
  cases table

def topStackPage : BitVec 64 := BitVec.ofNat 64 (stackBottom + (elfUserStackPages - 1) * pageSize)

variable (kernel : KernelTables base level) (built : Built base level root parts state)
include kernel built

theorem mapUserStack_progress :
    ∃ partsAfter, Progress base level root parts state partsAfter (mapUserStack (frameAddress root) argument state).1 ∧
      ((mapUserStack (frameAddress root) argument state).2 = true → ∃ frame, frame < frameLimit ∧
        EntryAt (mapUserStack (frameAddress root) argument state).1.machine partsAfter topStackPage
          (makeEntry frame stackFlags)) := by
  obtain ⟨partsAfter, progress, entered⟩ := mapStackPages_progress kernel built stack_ownSlot
  rw [mapUserStack]
  generalize mapStackPages (frameAddress root) elfUserStackPages stackBottom state = result at *
  obtain ⟨stacked, done⟩ := result
  cases done with
  | false => exact ⟨partsAfter, progress, fun success => by cases success⟩
  | true =>
    obtain ⟨frame, bound, entry⟩ := entered rfl (by decide)
    simp only
    split
    next bytes top last =>
      have listed : top ∈ stacked.pages := List.mem_of_getLast? last
      exact ⟨partsAfter, ⟨progress.built.fill kernel listed _, progress.kept, progress.pages⟩,
        fun _ => ⟨frame, bound, entry.fill kernel progress.built listed _⟩⟩
    · exact ⟨partsAfter, progress, fun _ => ⟨frame, bound, entry⟩⟩

theorem loadImage_progress {header : ElfHeader} : ∃ partsAfter, Progress base level root parts state partsAfter
        (loadImage node header argument (frameAddress root) state).1 ∧
      ((loadImage node header argument (frameAddress root) state).2.isSome → ∃ frame, frame < frameLimit ∧
        EntryAt (loadImage node header argument (frameAddress root) state).1.machine partsAfter topStackPage
          (makeEntry frame stackFlags)) := by
  obtain ⟨loadedParts, loadedProgress⟩ : ∃ partsAfter, Progress base level root parts state partsAfter
      (forSegments node header (loadSegment node (frameAddress root)) header.phnum 0 0 state).1 :=
    forSegments_progress node header (fun built => mapSegment_progress kernel built) header.phnum built
  rw [loadImage]
  generalize forSegments node header (loadSegment node (frameAddress root)) header.phnum 0 0 state = result at *
  obtain ⟨loaded, heapStart⟩ := result
  cases heapStart with
  | none => exact ⟨loadedParts, loadedProgress, fun success => by cases success⟩
  | some heapStart =>
    obtain ⟨stackParts, stackProgress, entered⟩ := mapUserStack_progress kernel loadedProgress.built
    simp only
    generalize mapUserStack (frameAddress root) argument loaded = result at *
    obtain ⟨stacked, done⟩ := result
    have soFar := loadedProgress.trans stackProgress
    cases done with
    | false => exact ⟨stackParts, soFar, fun success => by cases success⟩
    | true =>
      obtain ⟨frame, bound, entry⟩ := entered rfl
      rcases mapSignalTrampoline_cases kernel stackProgress.built with
        ⟨after, partsAfter, trampoline, mapped⟩ | ⟨after, partsAfter, trampoline, progress⟩
      · simp only [trampoline]
        have kept : EntryAt after.machine partsAfter topStackPage (makeEntry frame stackFlags) :=
          mapped.other (by decide) entry
        split
        · exact ⟨partsAfter, soFar.trans mapped.progress, fun success => by cases success⟩
        · exact ⟨partsAfter, soFar.trans mapped.progress, fun _ => ⟨frame, bound, kept⟩⟩
      · simp only [trampoline]
        exact ⟨partsAfter, soFar.trans progress, fun success => by cases success⟩

theorem not_wxorX_of_stack {frame : Nat} (bound : frame < frameLimit)
    (entry : EntryAt state.machine parts address (makeEntry frame stackFlags)) :
    ¬WxorX state.machine (frameAddress root) := by
  intro rule
  obtain ⟨pt, table, value⟩ := entry
  have leaf : leafOf state.machine (frameOf (frameAddress root)) (indicesOf address) = makeEntry frame stackFlags := by
    rw [frameOf_frameAddress root (built.image.root_bound kernel).1, leafOf,
      show [(indicesOf address).pml4, (indicesOf address).pdpt, (indicesOf address).pd] = (indicesOf address).path
        from rfl, built.image.reach kernel _ table]
    exact value
  have flag : ∀ mask, vmmEntryAddrMask &&& mask = 0#64 →
      hasFlag (makeEntry frame stackFlags) mask = hasFlag stackFlags mask :=
    fun mask apart => hasFlag_makeEntry bound mask apart
  have broken := rule (indicesOf address) (indicesOf_valid address)
  simp only [leaf, flag pagePresent (by decide), flag pageUser (by decide), flag pageWritable (by decide),
    flag pageCow (by decide), flag pageNx (by decide)] at broken
  exact absurd (broken (by decide) (by decide) (by decide)) (by decide)

end

/-! Runs of the system. -/

structure Quiet (system : System) : Prop where
  tables : ∃ level, KernelTables system.machine level
  empty : system.slots = []

def Refused (system : System) : SpaceEvent → Prop
  | .load path find => (elfLoadProcess system path find).2 = none
  | _ => True

variable {system : System}

theorem allocateTaskSlot_empty (empty : system.slots = []) :
    allocateTaskSlot system = (system, none) ∨ allocateTaskSlot system = (system, some 0) := by
  rw [allocateTaskSlot, empty]
  simp only [List.findIdx?_nil]
  split
  · exact Or.inl rfl
  · exact Or.inr rfl

theorem not_allWxorX_enterProcess (empty : system.slots = []) {process : Process} (live : process.live = true)
    (broken : ¬WxorX system.machine process.task.cr3) : ¬AllWxorX (enterProcess system 0 process) := by
  rw [enterProcess, if_neg (by simp [empty]), empty]
  intro rule
  exact broken (rule process (List.mem_singleton.mpr rfl) live)

theorem elfLoadProcess_quiet (quiet : Quiet system) {path : List UInt8} {find : List UInt8 → Option FileNode} :
    ((elfLoadProcess system path find).2 = none ∧ Quiet (elfLoadProcess system path find).1) ∨
      ((elfLoadProcess system path find).2 ≠ none ∧ ¬AllWxorX (elfLoadProcess system path find).1) := by
  obtain ⟨⟨level, kernel⟩, empty⟩ := quiet
  simp only [elfLoadProcess]
  cases openExecutable find (splitCommand path).1 with
  | none => exact Or.inl ⟨rfl, ⟨level, kernel⟩, empty⟩
  | some found =>
    obtain ⟨node, header⟩ := found
    rcases vmmCreateAddressSpace_image kernel with ⟨_, created⟩ | ⟨root, small, clear, created⟩
    · simp only [created, if_true]
      exact Or.inl ⟨trivial, ⟨level, kernel.congr rfl rfl rfl (fun _ set => set) (fun _ _ => rfl)⟩, empty⟩
    have built := newImage_built kernel small clear
    have rootBound := built.image.root_bound kernel
    simp only [created, if_neg (frameAddress_ne_zero root rootBound.1 rootBound.2)]
    obtain ⟨parts, progress, entered⟩ := loadImage_progress kernel built
    rw [newImage] at progress entered
    generalize loadImage node header (splitCommand path).2 (frameAddress root) _ = result at *
    obtain ⟨state, heapStart⟩ := result
    have after := progress.built.image.destroyed_kernelTables kernel
    cases heapStart with
    | none => exact Or.inl ⟨rfl, ⟨level, after⟩, empty⟩
    | some heapStart =>
      obtain ⟨frame, bound, entry⟩ := entered rfl
      have broken := not_wxorX_of_stack kernel progress.built bound entry
      have noSlots : ({ system with machine := state.machine } : System).slots = [] := empty
      rcases allocateTaskSlot_empty noSlots with full | slot
      · simp only [full]
        exact Or.inl ⟨trivial, ⟨level, after⟩, empty⟩
      · simp only [slot]
        exact Or.inr ⟨Option.some_ne_none 0, not_allWxorX_enterProcess noSlots rfl broken⟩

theorem spaceStep_quiet (quiet : Quiet system) {event : SpaceEvent} :
    (Refused system event ∧ Quiet (spaceStep system event)) ∨
      (¬Refused system event ∧ ¬AllWxorX (spaceStep system event)) := by
  have nobody : ∀ slot, system.process slot = none := by
    intro slot
    simp [System.process, quiet.empty]
  cases event with
  | load path find => exact elfLoadProcess_quiet quiet
  | exec | fork | fault | brk | tick | syscallReturn | exit =>
    simp only [spaceStep, nobody]
    exact Or.inl ⟨trivial, quiet⟩

theorem Quiet.allWxorX (quiet : Quiet system) : AllWxorX system := by
  intro process member
  rw [quiet.empty] at member
  cases member

structure Booted extends System where
  quiet : Quiet toSystem

/-- The rule holds along a run exactly when no image is accepted in it. -/
theorem allWxorX_iff_refused (start : Booted) (events : List SpaceEvent) :
    Transition.Admissible spaceStep (fun system event => AllWxorX (spaceStep system event)) start.toSystem events ↔
      Transition.Admissible spaceStep Refused start.toSystem events := by
  apply Transition.admissible_iff spaceStep _ _ (fun _ => True) Quiet ?_ ?_ events start.toSystem
    (fun _ _ => trivial) start.quiet
  · intro system event _ quiet
    rcases spaceStep_quiet quiet with ⟨refused, after⟩ | ⟨accepted, broken⟩
    · exact ⟨fun _ => refused, fun _ => after.allWxorX⟩
    · exact ⟨fun rule => absurd rule broken, fun refused => absurd refused accepted⟩
  · intro system event _ refused quiet
    rcases spaceStep_quiet quiet with ⟨_, after⟩ | ⟨accepted, _⟩
    · exact after
    · exact absurd refused accepted

def tinySystem : System where
  machine := tinyMachine
  heap := ⟨fun _ => 0, 0, 0, 0, 0⟩
  cr3 := frameAddress 1
  slots := []
  kernelTasks := 1

theorem tinySystem_quiet : Quiet tinySystem := by
  refine ⟨⟨_, kernelTables_empty (by decide) (by decide) ?_ rfl (by decide) (by decide) rfl fun _ => rfl⟩, rfl⟩
  intro frame low
  exact decide_eq_true low

theorem loaded_stack_executable : (elfLoadProcess tinySystem [] fun _ => some (tinyNode 5)).2 = some 0 ∧
    ¬AllWxorX (elfLoadProcess tinySystem [] fun _ => some (tinyNode 5)).1 := by
  have accepted : (elfLoadProcess tinySystem [] fun _ => some (tinyNode 5)).2 = some 0 := by decide +kernel
  refine ⟨accepted, ?_⟩
  rcases elfLoadProcess_quiet tinySystem_quiet with ⟨refused, _⟩ | ⟨_, broken⟩
  · rw [accepted] at refused
    cases refused
  · exact broken

end PhotonOS.Exec
