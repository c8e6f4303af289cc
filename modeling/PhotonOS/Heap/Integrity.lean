import PhotonOS.Heap.Calls

/-!
Integrity of the kernel heap.
-/

namespace PhotonOS.KernelHeap

open Tiling

def payloadSize (mem : Memory) (pointer : Nat) : Nat := blockSize mem (pointer - headerSize)

structure Integrity (state : HeapState) : Prop where
  list : ∃ blocks, Tiles headerSize state.heap.start blocks state.heap.stop ∧
    state.heap.head = firstAddr blocks 0 ∧ Linked state.heap.mem 0 blocks 0 ∧ Separated blocks
  inside : ∀ entry ∈ state.live, state.heap.start ≤ entry.1 ∧
    entry.1 + payloadSize state.heap.mem entry.1 ≤ state.heap.stop
  long : ∀ entry ∈ state.live, entry.2 ≤ payloadSize state.heap.mem entry.1
  disjoint : state.live.Pairwise fun first second =>
    first.1 + payloadSize state.heap.mem first.1 ≤ second.1 ∨ second.1 + payloadSize state.heap.mem second.1 ≤ first.1
  validates : heapValidate state.heap = some true

def liveEntries (state : Option HeapState) : List (Nat × Nat) := (state.map HeapState.live).getD []

/-- `kfree` is given live pointers only, and owners write inside what they asked for. -/
def Allowed (state : Option HeapState) : HeapCall → Prop
  | .kmalloc _ _ => True
  | .kfree pointer => pointer = 0 ∨ ∃ size, (pointer, size) ∈ liveEntries state
  | .store pointer offset _ => ∃ size, (pointer, size) ∈ liveEntries state ∧ offset < size ∧ offset % 8 = 0

def Holds (blocks : List Block) (entry : Nat × Nat) : Prop :=
  ∃ block ∈ blocks, block.free = false ∧ entry.1 = block.addr + headerSize ∧ entry.2 ≤ block.size

structure LiveInv (state : HeapState) (blocks : List Block) : Prop where
  heap : HeapInv state.heap blocks
  holds : ∀ entry ∈ state.live, Holds blocks entry
  distinct : (state.live.map Prod.fst).Nodup

section

variable {state : HeapState} {blocks : List Block}

theorem Linked.payloadSize {mem : Memory} {prev after : Nat} {block : Block} (linked : Linked mem prev blocks after)
    (member : block ∈ blocks) : KernelHeap.payloadSize mem (block.addr + headerSize) = block.size := by
  obtain ⟨before, rest, rfl⟩ := List.append_of_mem member
  obtain ⟨-, header, -⟩ := linked_append.mp linked
  exact header.size

theorem LiveInv.integrity (inv : LiveInv state blocks) : Integrity state where
  list := ⟨blocks, inv.heap.tiles, inv.heap.head, inv.heap.linked, inv.heap.separated⟩
  inside := by
    intro entry member
    obtain ⟨block, own, -, place, -⟩ := inv.holds entry member
    have bounds := inv.heap.tiles.bounds block own
    rw [place, inv.heap.linked.payloadSize own]
    omega
  long := by
    intro entry member
    obtain ⟨block, own, -, place, room⟩ := inv.holds entry member
    rw [place, inv.heap.linked.payloadSize own]
    exact room
  disjoint := by
    refine (List.pairwise_map.mp inv.distinct).imp_of_mem ?_
    intro first second one two apart
    obtain ⟨left, leftOwn, -, leftPlace, -⟩ := inv.holds first one
    obtain ⟨right, rightOwn, -, rightPlace, -⟩ := inv.holds second two
    have sides := inv.heap.tiles.disjoint leftOwn rightOwn (by omega)
    rw [leftPlace, rightPlace, inv.heap.linked.payloadSize leftOwn, inv.heap.linked.payloadSize rightOwn]
    omega
  validates := inv.heap.validates

/-- Where a word becomes `HEAP_MAGIC`: it is the header of what `kmalloc` returned, or an owner wrote it. -/
structure Traced (state after : HeapState) : Prop where
  grows : state.heap.stop ≤ after.heap.stop
  magic : ∀ word < state.heap.stop, after.heap.mem word = heapMagic → state.heap.mem word = heapMagic ∨
    (∃ entry ∈ after.live, entry.1 = word + headerSize) ∨ ∃ entry ∈ state.live, entry.1 ≤ word ∧ word < entry.1 + entry.2

variable (inv : LiveInv state blocks)
include inv

theorem LiveInv.kmalloc (size : Nat) (frames : Frames) :
    ∃ after more, heapCall state (.kmalloc size frames) = some after ∧ LiveInv after more ∧ Traced state after := by
  obtain ⟨heap, pointer, more, returned, kept, used, _, hands, grows, harmless⟩ := inv.heap.kmalloc frames size
  refine ⟨_, more, congrArg (Option.bind · _) returned, ⟨kept, ?_, ?_⟩, grows, fun word low magic => ?_⟩
  rotate_right
  · refine (harmless word low magic).imp_right fun own => Or.inl ⟨(pointer, size), ?_, own.symm⟩
    rw [if_neg (by rw [← own, headerSize]; omega)]
    exact List.mem_cons_self
  all_goals
    have old : ∀ entry ∈ state.live, Holds more entry := by
      intro entry member
      obtain ⟨block, own, inUse, rest⟩ := inv.holds entry member
      exact ⟨block, used block own inUse, inUse, rest⟩
    by_cases null : pointer = 0
    all_goals simp only [null, if_true, if_false]
  · exact old
  · intro entry member
    rcases List.mem_cons.mp member with rfl | earlier
    · exact (hands null).1
    · exact old entry earlier
  · exact inv.distinct
  refine List.nodup_cons.mpr ⟨?_, inv.distinct⟩
  intro again
  obtain ⟨entry, member, same⟩ := List.mem_map.mp again
  obtain ⟨block, own, inUse, place, -⟩ := inv.holds entry member
  exact (hands null).2 block own inUse (by omega)

theorem LiveInv.kfree {pointer size : Nat} (live : (pointer, size) ∈ state.live) :
    ∃ after more, heapCall state (.kfree pointer) = some after ∧ LiveInv after more ∧ Traced state after ∧
      after.heap.mem (pointer - headerSize) ≠ heapMagic := by
  obtain ⟨block, own, inUse, place, -⟩ := inv.holds _ live
  obtain ⟨before, rest, rfl⟩ := List.append_of_mem own
  obtain ⟨mem, more, freed, represents, separated, same, harmless⟩ :=
    inv.heap.toRepresents.kfree inUse inv.heap.separated
  have returned : KernelHeap.kfree pointer state.heap = some { state.heap with mem := mem } := by
    rw [← freed]
    exact congrArg (KernelHeap.kfree · state.heap) place
  refine ⟨_, more, congrArg (Option.bind · _) returned, ⟨⟨represents, separated, inv.heap.page⟩, ?_, ?_⟩,
    ⟨Nat.le_refl _, fun word _ magic => Or.inl (harmless word magic).1⟩, fun magic => ?_⟩
  · intro entry member
    obtain ⟨old, other⟩ := List.mem_filter.mp member
    obtain ⟨holder, holderOwn, holderInUse, holderPlace, room⟩ := inv.holds entry old
    refine ⟨holder, (same holder holderInUse).mpr ?_, holderInUse, holderPlace, room⟩
    have different : holder ≠ block := by
      rintro rfl
      exact (bne_iff_ne.mp other) (holderPlace.trans place.symm)
    simpa only [List.mem_append, List.mem_cons, different, false_or] using holderOwn
  · exact inv.distinct.sublist (List.filter_sublist.map _)
  · exact (harmless _ magic).2 (by simp only at place; omega)

theorem LiveInv.store {pointer offset size : Nat} (live : (pointer, size) ∈ state.live)
    (low : offset < size) (value : Nat) :
    ∃ after, heapCall state (.store pointer offset value) = some after ∧ LiveInv after blocks ∧ Traced state after := by
  obtain ⟨block, own, -, place, room⟩ := inv.holds _ live
  obtain ⟨before, rest, rfl⟩ := List.append_of_mem own
  refine ⟨_, rfl, ⟨⟨inv.heap.toRepresents.payload ?_, inv.heap.separated, inv.heap.page⟩, inv.holds, inv.distinct⟩,
    Nat.le_refl _, ?_⟩
  · intro word outside
    exact store_other (by omega)
  · intro word _ magic
    by_cases own : word = pointer + offset
    · exact Or.inr (Or.inr ⟨_, live, by simp only; omega⟩)
    · exact Or.inl ((store_other own).symm.trans magic)

theorem LiveInv.heapCall {call : HeapCall} (allowed : Allowed (some state) call) :
    ∃ after more, KernelHeap.heapCall state call = some after ∧ LiveInv after more ∧ Traced state after := by
  cases call with
  | kmalloc size frames => exact inv.kmalloc size frames
  | kfree pointer =>
    by_cases null : pointer = 0
    · refine ⟨_, blocks, congrArg (Option.bind · _) (if_pos null), ⟨inv.heap, ?_, ?_⟩, Nat.le_refl _,
        fun _ _ magic => Or.inl magic⟩
      · intro entry member
        exact inv.holds entry (List.mem_filter.mp member).1
      · exact inv.distinct.sublist (List.filter_sublist.map _)
    · obtain ⟨size, live⟩ := allowed.resolve_left null
      obtain ⟨after, more, called, kept, traced, -⟩ := inv.kfree live
      exact ⟨after, more, called, kept, traced⟩
  | store pointer offset value =>
    obtain ⟨size, live, low, -⟩ := allowed
    obtain ⟨after, returned, kept⟩ := inv.store live low value
    exact ⟨after, blocks, returned, kept⟩

end

theorem heapStart_live {frames : Frames} {mem : Memory} :
    ∃ state blocks, heapStart frames mem = some state ∧ LiveInv state blocks := by
  have empty : HeapInv ⟨mem, 0, kernelHeapBase, kernelHeapBase, kernelHeapBase + kernelHeapMaxPages * pmmPageSize⟩ [] :=
    { placed := (by decide : 0 < kernelHeapBase)
      tiles := rfl
      linked := trivial
      head := rfl
      aligned := by simp
      separated := .nil
      page := (by decide : kernelHeapBase % pmmPageSize = 0) }
  obtain ⟨heap, ok, blocks, expanded, inv, -⟩ := empty.expand frames 0
    (show headerSize ≤ kernelHeapInitialPages * pmmPageSize by decide)
  have started : heapInit frames mem = some heap := by exact congrArg (Option.bind · _) expanded
  exact ⟨⟨heap, []⟩, blocks, congrArg (Option.map _) started, inv, by simp, .nil⟩

theorem heap_integrity (frames : Frames) (mem : Memory) (calls : List HeapCall)
    (admissible : Transition.Admissible heapStep Allowed (heapStart frames mem) calls) :
    ∃ state, Transition.run heapStep (heapStart frames mem) calls = some state ∧ Integrity state := by
  have kept := Transition.run_invariant_of_admissible heapStep Allowed
    (fun reached => ∃ state blocks, reached = some state ∧ LiveInv state blocks)
    (by
      rintro reached call allowed ⟨state, blocks, rfl, inv⟩
      obtain ⟨after, more, called, kept, -⟩ := inv.heapCall allowed
      exact ⟨after, more, called, kept⟩)
  obtain ⟨state, blocks, reached, inv⟩ := kept calls _ heapStart_live admissible
  exact ⟨state, reached, inv.integrity⟩

def zeroFrames : Frames := ⟨fun _ _ => true, fun _ _ => 0⟩

def exampleCalls : List HeapCall :=
  [.kmalloc 24 zeroFrames, .kmalloc 100 zeroFrames, .store (kernelHeapBase + 40) 16 7,
    .kfree (kernelHeapBase + 40), .kmalloc 5000 zeroFrames, .kfree (kernelHeapBase + 112)]

theorem heap_integrity_exampleCalls :
    ∃ state, Transition.run heapStep (heapStart zeroFrames fun _ => 0) exampleCalls = some state ∧ Integrity state :=
  heap_integrity zeroFrames (fun _ => 0) exampleCalls
    ⟨trivial, trivial, ⟨24, by decide, by decide, by decide⟩, .inr ⟨24, by decide⟩, trivial, .inr ⟨100, by decide⟩, trivial⟩

end PhotonOS.KernelHeap
