import Mathlib.Data.List.Basic

/-!
A queue in a ring of cells that is filled and emptied one cell at a time, with a
position for each end and a count. `contents` is the queue it stands for.
-/

structure RingQueue (α : Type) where
  data : Nat → α
  readPos : Nat
  writePos : Nat
  count : Nat

namespace RingQueue

variable {α : Type}

def push (capacity : Nat) (ring : RingQueue α) (item : α) : RingQueue α :=
  { ring with
    data := Function.update ring.data ring.writePos item
    writePos := (ring.writePos + 1) % capacity
    count := ring.count + 1 }

def pop (capacity : Nat) (ring : RingQueue α) : RingQueue α :=
  { ring with
    readPos := (ring.readPos + 1) % capacity
    count := ring.count - 1 }

def pushMany (capacity : Nat) : RingQueue α → List α → RingQueue α × Nat
  | ring, [] => (ring, 0)
  | ring, item :: items =>
    if ring.count < capacity then
      let (after, pushed) := pushMany capacity (ring.push capacity item) items
      (after, pushed + 1)
    else (ring, 0)

def popMany (capacity : Nat) : Nat → RingQueue α → RingQueue α × List α
  | 0, ring => (ring, [])
  | limit + 1, ring =>
    if 0 < ring.count then
      let (after, items) := popMany capacity limit (ring.pop capacity)
      (after, ring.data ring.readPos :: items)
    else (ring, [])

structure WellFormed (capacity : Nat) (ring : RingQueue α) : Prop where
  readPosBound : ring.readPos < capacity
  countBound : ring.count ≤ capacity
  writePosEq : ring.writePos = (ring.readPos + ring.count) % capacity

/-- The cells from `position` on, around the ring. -/
def cells (capacity : Nat) (data : Nat → α) : Nat → Nat → List α
  | _, 0 => []
  | position, count + 1 => data (position % capacity) :: cells capacity data (position + 1) count

def contents (capacity : Nat) (ring : RingQueue α) : List α := cells capacity ring.data ring.readPos ring.count

variable (capacity : Nat) {ring : RingQueue α} {data : Nat → α} {item : α}

theorem cells_length : ∀ count position, (cells capacity data position count).length = count := by
  intro count
  induction count with
  | zero => intro position; rfl
  | succ count ih => intro position; simp only [cells, List.length_cons, ih]

theorem cells_mod : ∀ count position,
    cells capacity data (position % capacity) count = cells capacity data position count := by
  intro count
  induction count with
  | zero => intro position; rfl
  | succ count ih =>
    intro position
    have next : cells capacity data (position % capacity + 1) count = cells capacity data (position + 1) count := by
      rw [← ih (position % capacity + 1), ← ih (position + 1), Nat.mod_add_mod]
    simp only [cells, Nat.mod_mod, next]

theorem cells_succ : ∀ count position,
    cells capacity data position (count + 1) = cells capacity data position count ++ [data ((position + count) % capacity)] := by
  intro count
  induction count with
  | zero => intro position; rfl
  | succ count ih =>
    intro position
    rw [cells, ih (position + 1), cells, show position + 1 + count = position + (count + 1) by omega]
    rfl

theorem cells_update (data : Nat → α) (item : α) : ∀ count position offset, count ≤ offset → offset < capacity →
      cells capacity (Function.update data ((position + offset) % capacity) item) position count =
        cells capacity data position count := by
  intro count
  induction count with
  | zero => intro position offset _ _; rfl
  | succ count ih =>
    intro position offset behind bound
    have different : position % capacity ≠ (position + offset) % capacity := by
      intro same
      have shifted := Nat.sub_mod_eq_zero_of_mod_eq same.symm
      rw [Nat.add_sub_cancel_left, Nat.mod_eq_of_lt bound] at shifted
      omega
    have rest := ih (position + 1) (offset - 1) (by omega) (by omega)
    rw [show position + 1 + (offset - 1) = position + offset by omega] at rest
    rw [cells, rest, Function.update_of_ne different, cells]

theorem contents_length (ring : RingQueue α) : (ring.contents capacity).length = ring.count :=
  cells_length capacity ring.count ring.readPos

theorem push_wellFormed {capacity : Nat} (wellFormed : ring.WellFormed capacity)
    (room : ring.count < capacity) : (ring.push capacity item).WellFormed capacity := by
  refine ⟨wellFormed.readPosBound, room, ?_⟩
  change (ring.writePos + 1) % capacity = (ring.readPos + (ring.count + 1)) % capacity
  rw [wellFormed.writePosEq, Nat.mod_add_mod]
  rfl

theorem push_contents {capacity : Nat} (wellFormed : ring.WellFormed capacity)
    (room : ring.count < capacity) :
    (ring.push capacity item).contents capacity = ring.contents capacity ++ [item] := by
  have kept := cells_update capacity ring.data item ring.count ring.readPos ring.count (Nat.le_refl _) room
  unfold contents
  simp only [push, cells_succ, wellFormed.writePosEq, kept, Function.update_self]

theorem pop_wellFormed {capacity : Nat} (wellFormed : ring.WellFormed capacity)
    (some : 0 < ring.count) : (ring.pop capacity).WellFormed capacity := by
  have bound := wellFormed.countBound
  refine ⟨Nat.mod_lt _ (Nat.zero_lt_of_lt wellFormed.readPosBound), ?_, ?_⟩
  · change ring.count - 1 ≤ capacity
    omega
  · change ring.writePos = ((ring.readPos + 1) % capacity + (ring.count - 1)) % capacity
    rw [wellFormed.writePosEq, Nat.mod_add_mod, show ring.readPos + 1 + (ring.count - 1) = ring.readPos + ring.count by omega]

theorem pop_contents {capacity : Nat} (wellFormed : ring.WellFormed capacity)
    (some : 0 < ring.count) :
    ring.data ring.readPos :: (ring.pop capacity).contents capacity = ring.contents capacity := by
  unfold contents
  obtain ⟨count, countEq⟩ : ∃ count, ring.count = count + 1 := ⟨ring.count - 1, by omega⟩
  simp only [pop, countEq, Nat.add_sub_cancel, cells_mod, cells, Nat.mod_eq_of_lt wellFormed.readPosBound]

theorem pushMany_spec {items : List α} : ∀ ring : RingQueue α, ring.WellFormed capacity →
    (pushMany capacity ring items).1.WellFormed capacity ∧ (pushMany capacity ring items).1.contents capacity =
        ring.contents capacity ++ items.take (pushMany capacity ring items).2 := by
  induction items with
  | nil => intro ring wellFormed; exact ⟨wellFormed, by simp [pushMany]⟩
  | cons item items ih =>
    intro ring wellFormed
    by_cases room : ring.count < capacity
    · obtain ⟨later, laterContents⟩ := ih (ring.push capacity item) (push_wellFormed wellFormed room)
      simp only [pushMany, if_pos room]
      refine ⟨later, ?_⟩
      rw [laterContents, push_contents wellFormed room, List.append_assoc]
      rfl
    · simp only [pushMany, if_neg room]
      exact ⟨wellFormed, by simp⟩

theorem popMany_spec : ∀ limit (ring : RingQueue α), ring.WellFormed capacity →
    (popMany capacity limit ring).1.WellFormed capacity ∧
      (popMany capacity limit ring).2 ++ (popMany capacity limit ring).1.contents capacity = ring.contents capacity ∧
      (popMany capacity limit ring).2.length = min limit ring.count := by
  intro limit
  induction limit with
  | zero => intro ring wellFormed; exact ⟨wellFormed, rfl, by simp [popMany]⟩
  | succ limit ih =>
    intro ring wellFormed
    by_cases some : 0 < ring.count
    · obtain ⟨later, laterContents, laterLength⟩ := ih (ring.pop capacity) (pop_wellFormed wellFormed some)
      simp only [popMany, if_pos some]
      refine ⟨later, ?_, ?_⟩
      · rw [List.cons_append, laterContents]
        exact pop_contents wellFormed some
      · rw [List.length_cons, laterLength]
        change min limit (ring.count - 1) + 1 = _
        omega
    · simp only [popMany, if_neg some]
      refine ⟨wellFormed, rfl, ?_⟩
      rw [List.length_nil]
      omega

end RingQueue
