/-!
A bounded ring buffer over a fixed storage list. `contents` is the queue the
ring stands for: a write appends to it and a read takes from its front.
-/

structure RingBuffer (α : Type) where
  data : List α
  capacity : Nat
  head : Nat
  tail : Nat
  used : Nat
  deriving DecidableEq, Repr

namespace RingBuffer

variable {α : Type}

/-- `source` copied over `data` from position `start` on. -/
def overlay (data : List α) (start : Nat) (source : List α) : List α :=
  data.take start ++ source ++ data.drop (start + source.length)

def freeSpace (ring : RingBuffer α) : Nat :=
  if ring.used ≥ ring.capacity then 0 else ring.capacity - ring.used

def write (ring : RingBuffer α) (source : List α) : RingBuffer α × Nat :=
  let toWrite := min source.length ring.freeSpace
  let firstChunk := ring.capacity - ring.tail
  if toWrite = 0 then (ring, 0)
  else if toWrite ≤ firstChunk then
    ({ ring with
        data := overlay ring.data ring.tail (source.take toWrite)
        tail := (ring.tail + toWrite) % ring.capacity
        used := ring.used + toWrite }, toWrite)
  else
    ({ ring with
        data := overlay (overlay ring.data ring.tail (source.take firstChunk)) 0
          ((source.drop firstChunk).take (toWrite - firstChunk))
        tail := toWrite - firstChunk
        used := ring.used + toWrite }, toWrite)

def read (ring : RingBuffer α) (length : Nat) : RingBuffer α × List α :=
  let toRead := min length ring.used
  let firstChunk := ring.capacity - ring.head
  if toRead = 0 then (ring, [])
  else if toRead ≤ firstChunk then
    ({ ring with head := (ring.head + toRead) % ring.capacity, used := ring.used - toRead },
      (ring.data.drop ring.head).take toRead)
  else
    ({ ring with head := toRead - firstChunk, used := ring.used - toRead },
      (ring.data.drop ring.head).take firstChunk ++ ring.data.take (toRead - firstChunk))

def contents (ring : RingBuffer α) : List α :=
  (ring.data.drop ring.head ++ ring.data.take ring.head).take ring.used

structure WellFormed (ring : RingBuffer α) : Prop where
  size : ring.data.length = ring.capacity
  positive : 0 < ring.capacity
  headBound : ring.head < ring.capacity
  usedBound : ring.used ≤ ring.capacity
  tailEq : ring.tail = (ring.head + ring.used) % ring.capacity

variable {start length : Nat} {source data : List α}

theorem overlay_length (fits : start + source.length ≤ data.length) :
    (overlay data start source).length = data.length := by
  simp only [overlay, List.length_append, List.length_take, List.length_drop]
  omega

theorem overlay_getElem? (fits : start + source.length ≤ data.length)
    {index : Nat} : (overlay data start source)[index]? = if index < start then data[index]?
      else if index < start + source.length then source[index - start]? else data[index]? := by
  have takeLength : (data.take start).length = start := by
    rw [List.length_take]
    omega
  rw [overlay, List.append_assoc]
  split
  next below => rw [List.getElem?_append_left (by omega), List.getElem?_take_of_lt below]
  rw [List.getElem?_append_right (by omega), takeLength]
  split
  · rw [List.getElem?_append_left (by omega)]
  · rw [List.getElem?_append_right (by omega), List.getElem?_drop]
    congr 1
    omega

theorem add_mod_two {left right modulus : Nat} (leftBound : left < modulus) (rightBound : right ≤ modulus) :
    (left + right) % modulus = if left + right < modulus then left + right else left + right - modulus := by
  split
  next below => exact Nat.mod_eq_of_lt below
  · rw [Nat.mod_eq_sub_mod (by omega), Nat.mod_eq_of_lt (by omega)]

section

variable (ring : RingBuffer α)
include ring

theorem contents_getElem? (wellFormed : ring.WellFormed) (index : Nat) : ring.contents[index]? =
      if index < ring.used then
        if ring.head + index < ring.capacity then ring.data[ring.head + index]?
        else ring.data[ring.head + index - ring.capacity]?
      else none := by
  obtain ⟨size, positive, headBound, usedBound, tailEq⟩ := wellFormed
  have dropLength : (ring.data.drop ring.head).length = ring.capacity - ring.head := by rw [List.length_drop, size]
  rw [contents]
  split
  next below =>
    rw [List.getElem?_take_of_lt below]
    split
    · rw [List.getElem?_append_left (by omega), List.getElem?_drop]
    · rw [List.getElem?_append_right (by omega), dropLength, List.getElem?_take_of_lt (by omega)]
      congr 1
      omega
  · rw [List.getElem?_take_eq_none (by omega)]

theorem contents_length (wellFormed : ring.WellFormed) : ring.contents.length = ring.used := by
  obtain ⟨size, positive, headBound, usedBound, tailEq⟩ := wellFormed
  simp only [contents, List.length_take, List.length_append, List.length_drop]
  omega

theorem freeSpace_add_used (wellFormed : ring.WellFormed) : ring.freeSpace + ring.used = ring.capacity := by
  have usedBound := wellFormed.usedBound
  rw [freeSpace]
  split <;> omega

theorem freeSpace_eq : ring.freeSpace = ring.capacity - ring.used := by
  rw [freeSpace]
  split <;> omega

theorem write_count (source : List α) : (ring.write source).2 = min source.length ring.freeSpace := by
  simp only [write]
  split
  next none => exact none.symm
  · split <;> rfl

theorem write_wellFormed (wellFormed : ring.WellFormed) : (ring.write source).1.WellFormed := by
  have space := freeSpace_add_used ring wellFormed
  obtain ⟨size, positive, headBound, usedBound, tailEq⟩ := wellFormed
  have tailSplit := add_mod_two headBound usedBound
  simp only [write]
  split
  · exact ⟨size, positive, headBound, usedBound, tailEq⟩
  have tailBound : ring.tail < ring.capacity := by
    rw [tailEq]
    exact Nat.mod_lt _ positive
  split
  · refine ⟨?_, positive, headBound, ?_, ?_⟩
    · rw [overlay_length (by rw [List.length_take]; omega), size]
    · change ring.used + _ ≤ ring.capacity
      omega
    · rw [tailEq, Nat.mod_add_mod, Nat.add_assoc]
  · have firstLength : (source.take (ring.capacity - ring.tail)).length = ring.capacity - ring.tail := by
      rw [List.length_take]
      omega
    have firstSize : (overlay ring.data ring.tail (source.take (ring.capacity - ring.tail))).length =
        ring.capacity := by
      rw [overlay_length (by omega), size]
    refine ⟨?_, positive, headBound, ?_, ?_⟩
    · rw [overlay_length (by rw [List.length_take, firstSize]; omega), firstSize]
    · change ring.used + _ ≤ ring.capacity
      omega
    change min source.length ring.freeSpace - (ring.capacity - ring.tail) =
      (ring.head + (ring.used + min source.length ring.freeSpace)) % ring.capacity
    rw [← Nat.add_assoc, ← Nat.mod_add_mod, ← tailEq, add_mod_two tailBound (by omega), if_neg (by omega)]
    omega

theorem write_used (source : List α) : (ring.write source).1.used = ring.used + (ring.write source).2 := by
  simp only [write]
  split
  · rfl
  · split <;> rfl

theorem write_frame (source : List α) :
    (ring.write source).1.head = ring.head ∧ (ring.write source).1.capacity = ring.capacity := by
  simp only [write]
  split
  · exact ⟨rfl, rfl⟩
  · split <;> exact ⟨rfl, rfl⟩

theorem write_space (source : List α) : (ring.write source).1.freeSpace + (ring.write source).2 = ring.freeSpace := by
  have used := write_used ring source
  have count := write_count ring source
  have capacity := (write_frame ring source).2
  rw [freeSpace_eq, freeSpace_eq] at *
  omega

/-- Storage after a write: the written bytes from the tail on, wrapping at the end. -/
theorem write_data_getElem? (wellFormed : ring.WellFormed) (source : List α) (position : Nat)
    (bound : position < ring.capacity) : (ring.write source).1.data[position]? =
      if ring.tail ≤ position ∧ position < ring.tail + (ring.write source).2 then
        source[position - ring.tail]?
      else if position + ring.capacity < ring.tail + (ring.write source).2 then
        source[position + ring.capacity - ring.tail]?
      else ring.data[position]? := by
  have space := freeSpace_add_used ring wellFormed
  obtain ⟨size, positive, headBound, usedBound, tailEq⟩ := wellFormed
  have tailBound : ring.tail < ring.capacity := by
    rw [tailEq]
    exact Nat.mod_lt _ positive
  simp only [write]
  split
  · rw [if_neg (by omega), if_neg (by omega)]
  split
  · have taken : (source.take (min source.length ring.freeSpace)).length = min source.length ring.freeSpace := by
      rw [List.length_take]
      omega
    rw [overlay_getElem? (by omega), taken]
    split
    · rw [if_neg (by omega), if_neg (by omega)]
    · split
      · rw [if_pos (by omega), List.getElem?_take_of_lt (by omega)]
      · rw [if_neg (by omega), if_neg (by omega)]
  · have firstLength : (source.take (ring.capacity - ring.tail)).length = ring.capacity - ring.tail := by
      rw [List.length_take]
      omega
    have restLength : ((source.drop (ring.capacity - ring.tail)).take
        (min source.length ring.freeSpace - (ring.capacity - ring.tail))).length =
        min source.length ring.freeSpace - (ring.capacity - ring.tail) := by
      rw [List.length_take, List.length_drop]
      omega
    have firstSize : (overlay ring.data ring.tail (source.take (ring.capacity - ring.tail))).length =
        ring.capacity := by
      rw [overlay_length (by omega), size]
    rw [overlay_getElem? (by omega), restLength, if_neg (by omega)]
    split
    · rw [if_neg (by omega), if_pos (by omega), List.getElem?_take_of_lt (by omega), List.getElem?_drop]
      congr 1
      omega
    · rw [overlay_getElem? (by omega), firstLength]
      split
      · rw [if_neg (by omega), if_neg (by omega)]
      · rw [if_pos (by omega), if_pos (by omega), List.getElem?_take_of_lt (by omega)]

theorem write_contents (wellFormed : ring.WellFormed) (source : List α) :
    (ring.write source).1.contents = ring.contents ++ source.take (ring.write source).2 := by
  have count := write_count ring source
  have space := freeSpace_add_used ring wellFormed
  have stored := write_data_getElem? ring wellFormed source
  obtain ⟨headKept, capacityKept⟩ := write_frame ring source
  apply List.ext_getElem?
  intro index
  rw [contents_getElem? _ (write_wellFormed ring wellFormed), List.getElem?_append,
    contents_length ring wellFormed, contents_getElem? ring wellFormed, write_used, headKept, capacityKept]
  obtain ⟨size, positive, headBound, usedBound, tailEq⟩ := wellFormed
  rw [add_mod_two headBound usedBound] at tailEq
  generalize (ring.write source).2 = written at *
  by_cases old : index < ring.used
  · rw [if_pos (by omega), if_pos old, if_pos old]
    split
    · rw [stored _ (by omega), if_neg (by split at tailEq <;> omega), if_neg (by split at tailEq <;> omega)]
    · rw [stored _ (by omega), if_neg (by split at tailEq <;> omega), if_neg (by split at tailEq <;> omega)]
  · rw [if_neg old]
    by_cases fresh : index < ring.used + written
    · rw [if_pos fresh, List.getElem?_take_of_lt (by omega)]
      split
      · rw [stored _ (by omega), if_pos (by split at tailEq <;> omega)]
        congr 1
        split at tailEq <;> omega
      rw [stored _ (by omega)]
      split
      · congr 1
        split at tailEq <;> omega
      · rw [if_pos (by split at tailEq <;> omega)]
        congr 1
        split at tailEq <;> omega
    · rw [if_neg fresh, List.getElem?_take_eq_none (by omega)]

theorem read_wellFormed (wellFormed : ring.WellFormed) : (ring.read length).1.WellFormed := by
  obtain ⟨size, positive, headBound, usedBound, tailEq⟩ := wellFormed
  simp only [read]
  split
  · exact ⟨size, positive, headBound, usedBound, tailEq⟩
  split
  · refine ⟨size, positive, Nat.mod_lt _ positive, ?_, ?_⟩
    · change ring.used - _ ≤ ring.capacity
      omega
    · change ring.tail = ((ring.head + _) % ring.capacity + (ring.used - _)) % ring.capacity
      rw [tailEq, Nat.mod_add_mod]
      congr 1
      omega
  · refine ⟨size, positive, ?_, ?_, ?_⟩
    · change min length ring.used - (ring.capacity - ring.head) < ring.capacity
      omega
    · change ring.used - _ ≤ ring.capacity
      omega
    change ring.tail = (min length ring.used - (ring.capacity - ring.head) +
      (ring.used - min length ring.used)) % ring.capacity
    rw [tailEq, Nat.mod_eq_sub_mod (by omega)]
    congr 1
    omega

theorem read_space :
    ring.freeSpace ≤ (ring.read length).1.freeSpace ∧ (ring.read length).1.capacity = ring.capacity := by
  rw [freeSpace_eq, freeSpace_eq]
  simp only [read]
  split
  · exact ⟨Nat.le_refl _, rfl⟩
  · split
    · exact ⟨by simp only; omega, rfl⟩
    · exact ⟨by simp only; omega, rfl⟩

variable (wellFormed : ring.WellFormed)
include wellFormed

theorem read_frame (length : Nat) :
    (ring.read length).1.data = ring.data ∧ (ring.read length).1.capacity = ring.capacity ∧
      (ring.read length).1.used = ring.used - min length ring.used ∧
      (ring.read length).1.head = (ring.head + min length ring.used) % ring.capacity := by
  obtain ⟨size, positive, headBound, usedBound, tailEq⟩ := wellFormed
  simp only [read]
  split
  next none =>
    rw [none]
    exact ⟨rfl, rfl, rfl, (Nat.mod_eq_of_lt headBound).symm⟩
  split
  · exact ⟨rfl, rfl, rfl, rfl⟩
  · refine ⟨rfl, rfl, rfl, ?_⟩
    change min length ring.used - (ring.capacity - ring.head) = _
    rw [add_mod_two headBound (by omega), if_neg (by omega)]
    omega

theorem read_bytes : (ring.read length).2 = ring.contents.take (min length ring.used) := by
  obtain ⟨size, positive, headBound, usedBound, tailEq⟩ := wellFormed
  rw [contents, List.take_take, Nat.min_eq_left (by omega)]
  simp only [read]
  have dropLength : (ring.data.drop ring.head).length = ring.capacity - ring.head := by rw [List.length_drop, size]
  split
  next none => rw [none, List.take_zero]
  split
  · rw [List.take_append_of_le_length (by omega)]
  have whole : ∀ count, ring.capacity - ring.head ≤ count →
      (ring.data.drop ring.head).take count = ring.data.drop ring.head := by
    intro count enough
    exact List.take_of_length_le (by omega)
  change (ring.data.drop ring.head).take (ring.capacity - ring.head) ++ _ = _
  rw [List.take_append, dropLength, whole _ (Nat.le_refl _), whole _ (by omega), List.take_take]
  congr 2
  omega

theorem read_contents (length : Nat) : (ring.read length).2 ++ (ring.read length).1.contents = ring.contents := by
  have remaining : (ring.read length).1.contents = ring.contents.drop (min length ring.used) := by
    obtain ⟨dataKept, capacityKept, usedNext, headNext⟩ := read_frame ring wellFormed length
    apply List.ext_getElem?
    intro index
    rw [List.getElem?_drop, contents_getElem? _ (read_wellFormed ring wellFormed),
      contents_getElem? _ wellFormed, dataKept, capacityKept, usedNext, headNext]
    obtain ⟨size, positive, headBound, usedBound, tailEq⟩ := wellFormed
    rw [add_mod_two headBound (by omega)]
    by_cases inside : index < ring.used - min length ring.used
    · rw [if_pos inside]
      by_cases straight : ring.head + min length ring.used < ring.capacity
      · rw [if_pos straight, if_pos (show min length ring.used + index < ring.used by omega), Nat.add_assoc]
      · rw [if_neg straight, if_pos (by omega),
          if_pos (show min length ring.used + index < ring.used by omega), if_neg (by omega)]
        congr 1
        omega
    · rw [if_neg inside, if_neg (show ¬min length ring.used + index < ring.used by omega)]
  rw [remaining, read_bytes ring wellFormed, List.take_append_drop]

end

end RingBuffer
