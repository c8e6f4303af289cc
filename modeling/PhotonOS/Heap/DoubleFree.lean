import PhotonOS.Heap.Integrity

/-!
A second `kfree` of a pointer whose memory has not been handed out again.
-/

namespace PhotonOS.KernelHeap

open Tiling Transition

def Apart (pointer size : Nat) (entry : Nat × Nat) : Prop :=
  entry.1 + entry.2 + headerSize ≤ pointer ∨ pointer + size ≤ entry.1

/-- No call of `kmalloc` returns memory of the block, or of its header, that was freed at `pointer`. -/
def NotReused (pointer size : Nat) (state : Option HeapState) (call : HeapCall) : Prop :=
  Allowed state call ∧
    ∀ after ∈ heapStep state call, ∀ entry ∈ after.live, entry ∈ liveEntries state ∨ Apart pointer size entry

structure Forgotten (pointer size : Nat) (state : HeapState) : Prop where
  headed : headerSize ≤ pointer
  inside : pointer - headerSize < state.heap.stop
  dead : state.heap.mem (pointer - headerSize) ≠ heapMagic
  apart : ∀ entry ∈ state.live, Apart pointer size entry

variable {pointer size : Nat} {state : HeapState} {blocks : List Block} {call : HeapCall}

theorem Forgotten.kfree (old : Forgotten pointer size state) : kfree pointer state.heap = some state.heap := by
  have dead : blockMagic state.heap.mem (pointer - headerSize) ≠ heapMagic := old.dead
  simp only [KernelHeap.kfree, if_pos dead]
  repeat' split
  all_goals rfl

theorem LiveInv.forgets (inv : LiveInv state blocks) (live : (pointer, size) ∈ state.live) :
    ∃ after more, KernelHeap.heapCall state (.kfree pointer) = some after ∧ LiveInv after more ∧
      Forgotten pointer (KernelHeap.payloadSize state.heap.mem pointer) after := by
  obtain ⟨after, more, called, kept, traced, dead⟩ := inv.kfree live
  obtain ⟨block, own, -, place, -⟩ := inv.holds _ live
  have bounds := inv.heap.tiles.bounds block own
  have size := inv.heap.linked.payloadSize own
  have forty : headerSize = 40 := rfl
  have grows := traced.grows
  rw [← place] at size
  simp only at place
  refine ⟨after, more, called, kept, by omega, by omega, dead, fun entry member => ?_⟩
  obtain ⟨heap, -, result⟩ := Option.bind_eq_some_iff.mp called
  cases result
  obtain ⟨old, other⟩ := List.mem_filter.mp member
  obtain ⟨holder, holderOwn, -, holderPlace, room⟩ := inv.holds entry old
  have different : entry.1 ≠ pointer := bne_iff_ne.mp other
  have sides := inv.heap.tiles.disjoint own holderOwn (by omega)
  rw [Apart, size]
  omega

theorem LiveInv.forgotten {length : Nat} (inv : LiveInv state blocks) (positive : 0 < length)
    (old : Forgotten pointer length state) (allowed : NotReused pointer length (some state) call) :
    ∃ after more, KernelHeap.heapCall state call = some after ∧ LiveInv after more ∧
      Forgotten pointer length after := by
  obtain ⟨after, more, called, kept, traced⟩ := inv.heapCall allowed.1
  have apart : ∀ entry ∈ after.live, Apart pointer length entry := by
    intro entry member
    exact (allowed.2 after called entry member).elim (old.apart entry) id
  refine ⟨after, more, called, kept, old.headed, Nat.lt_of_lt_of_le old.inside traced.grows, fun magic => ?_, apart⟩
  have headed := old.headed
  have forty : headerSize = 40 := rfl
  rcases traced.magic _ old.inside magic with before | ⟨entry, member, own⟩ | ⟨entry, member, low, high⟩
  · exact old.dead before
  · rcases apart entry member with below | above
    · omega
    · omega
  · rcases old.apart entry member with below | above
    · omega
    · omega

theorem heapCall_positive {after : HeapState} (positive : ∀ entry ∈ state.live, 0 < entry.2)
    (called : heapCall state call = some after) : ∀ entry ∈ after.live, 0 < entry.2 := by
  cases call with
  | kmalloc size frames =>
    obtain ⟨⟨heap, pointer⟩, returned, result⟩ := Option.bind_eq_some_iff.mp called
    cases result
    by_cases zero : size = 0
    · rw [kmalloc, if_pos zero] at returned
      cases returned
      exact positive
    · dsimp only
      split
      · exact positive
      · exact List.forall_mem_cons.mpr ⟨Nat.pos_of_ne_zero zero, positive⟩
  | kfree pointer =>
    obtain ⟨heap, -, result⟩ := Option.bind_eq_some_iff.mp called
    cases result
    exact fun entry member => positive entry (List.mem_filter.mp member).1
  | store pointer offset value =>
    cases called
    exact positive

theorem double_free_harmless (frames : Frames) (mem : Memory) (before after : List HeapCall)
    (admissible : Admissible heapStep Allowed (heapStart frames mem) before)
    (reached : run heapStep (heapStart frames mem) before = some state) (live : (pointer, size) ∈ state.live)
    (notReused : Admissible heapStep (NotReused pointer (payloadSize state.heap.mem pointer))
      (heapStep (some state) (.kfree pointer)) after) :
    ∃ last, run heapStep (heapStep (some state) (.kfree pointer)) after = some last ∧
      kfree pointer last.heap = some last.heap := by
  have first := run_invariant_of_admissible heapStep Allowed
    (fun reached => ∃ state blocks, reached = some state ∧ LiveInv state blocks ∧ ∀ entry ∈ state.live, 0 < entry.2)
    (by
      rintro reached call allowed ⟨state, blocks, rfl, inv, positive⟩
      obtain ⟨after, more, called, kept, -⟩ := inv.heapCall allowed
      exact ⟨after, more, called, kept, heapCall_positive positive called⟩)
  obtain ⟨started, blocks, start, inv⟩ := @heapStart_live frames mem
  obtain ⟨heap, -, rfl⟩ := Option.map_eq_some_iff.mp start
  obtain ⟨here, more, found, live_, positive⟩ := first before _ ⟨_, blocks, start, inv, by simp⟩ admissible
  cases found.symm.trans reached
  obtain ⟨freed, rest, called, kept, forgotten⟩ := live_.forgets live
  have long := live_.integrity.long _ live
  have second := run_invariant_of_admissible heapStep (NotReused pointer (payloadSize state.heap.mem pointer))
    (fun reached => ∃ now blocks, reached = some now ∧ LiveInv now blocks ∧
      Forgotten pointer (payloadSize state.heap.mem pointer) now)
    (by
      rintro reached call allowed ⟨now, blocks, rfl, inv, old⟩
      exact inv.forgotten (Nat.lt_of_lt_of_le (positive _ live) long) old allowed)
  obtain ⟨last, _, ended, _, old⟩ := second after _ ⟨freed, rest, called, kept, forgotten⟩ notReused
  exact ⟨last, ended, old.kfree⟩

def twoBlocks : List HeapCall := [.kmalloc 24 zeroFrames, .kmalloc 100 zeroFrames]

theorem double_free_harmless_twoBlocks : ∃ state last,
    run heapStep (heapStart zeroFrames fun _ => 0) twoBlocks = some state ∧
      run heapStep (heapStep (some state) (.kfree (kernelHeapBase + 40))) [.kfree (kernelHeapBase + 112)] = some last ∧
      kfree (kernelHeapBase + 40) last.heap = some last.heap := by
  obtain ⟨last, ran, same⟩ := double_free_harmless zeroFrames (fun _ => 0) twoBlocks [.kfree (kernelHeapBase + 112)]
    ⟨trivial, trivial, trivial⟩ rfl (show (kernelHeapBase + 40, 24) ∈ _ by decide)
    ⟨⟨.inr ⟨100, by decide⟩, by rintro after ⟨rfl⟩ entry member; exact .inl (List.mem_filter.mp member).1⟩, trivial⟩
  exact ⟨_, last, rfl, ran, same⟩

end PhotonOS.KernelHeap
