import Mathlib.Data.List.Chain

/-!
Blocks that tile an interval of addresses. Every block is a header of fixed size
followed by its payload, and the next block begins where the payload ends.
-/

namespace Tiling

structure Block where
  addr : Nat
  size : Nat
  free : Bool
  deriving DecidableEq, Repr

variable {header : Nat}

def Tiles (header : Nat) : Nat → List Block → Nat → Prop
  | start, [], stop => start = stop
  | start, block :: blocks, stop => block.addr = start ∧ Tiles header (start + header + block.size) blocks stop

/-- No two adjacent blocks are both free. -/
def Separated (blocks : List Block) : Prop :=
  blocks.IsChain fun first second => ¬(first.free = true ∧ second.free = true)

/-- The address of the first block, or `after` when there is none. -/
def firstAddr (blocks : List Block) (after : Nat) : Nat :=
  match blocks with
  | [] => after
  | block :: _ => block.addr

/-- The address of the last block, or `before` when there is none. -/
def lastAddr (before : Nat) : List Block → Nat
  | [] => before
  | block :: blocks => lastAddr block.addr blocks

@[simp] theorem firstAddr_nil {after : Nat} : firstAddr [] after = after := rfl

@[simp] theorem firstAddr_cons (block : Block) (blocks : List Block) (after : Nat) :
    firstAddr (block :: blocks) after = block.addr := rfl

@[simp] theorem lastAddr_nil {before : Nat} : lastAddr before [] = before := rfl

@[simp] theorem lastAddr_cons {before : Nat} {block : Block} {blocks : List Block} : lastAddr before (block :: blocks) = lastAddr block.addr blocks := rfl

theorem firstAddr_append (first second : List Block) (after : Nat) :
    firstAddr (first ++ second) after = firstAddr first (firstAddr second after) := by
  cases first <;> rfl

theorem lastAddr_append (before : Nat) {first second : List Block} :
    lastAddr before (first ++ second) = lastAddr (lastAddr before first) second := by
  induction first generalizing before with
  | nil => rfl
  | cons block blocks ih => exact ih block.addr

@[simp] theorem lastAddr_concat {before : Nat} {blocks : List Block} {block : Block} : lastAddr before (blocks ++ [block]) = block.addr := by
  rw [lastAddr_append]
  rfl

theorem tiles_append {start stop : Nat} {first second : List Block} : Tiles header start (first ++ second) stop ↔
      ∃ middle, Tiles header start first middle ∧ Tiles header middle second stop := by
  induction first generalizing start with
  | nil =>
    constructor
    · intro tiles
      exact ⟨start, rfl, tiles⟩
    · rintro ⟨middle, rfl, tiles⟩
      exact tiles
  | cons block blocks ih =>
    constructor
    · rintro ⟨here, rest⟩
      obtain ⟨middle, left, right⟩ := ih.mp rest
      exact ⟨middle, ⟨here, left⟩, right⟩
    · rintro ⟨middle, ⟨here, left⟩, right⟩
      exact ⟨here, ih.mpr ⟨middle, left, right⟩⟩

variable {start stop : Nat} {blocks before after : List Block} {block : Block}

section

variable (tiles : Tiles header start blocks stop)
include tiles

theorem Tiles.length_le : start + blocks.length * header ≤ stop := by
  induction blocks generalizing start with
  | nil =>
    have same : start = stop := tiles
    rw [List.length_nil, Nat.zero_mul]
    omega
  | cons block blocks ih =>
    have rest := ih tiles.2
    rw [List.length_cons, Nat.add_one_mul]
    omega

theorem Tiles.start_le : start ≤ stop := by
  have length := tiles.length_le
  omega

theorem Tiles.bounds : ∀ block ∈ blocks, start ≤ block.addr ∧ block.addr + header + block.size ≤ stop := by
  induction blocks generalizing start with
  | nil => simp
  | cons first blocks ih =>
    intro block member
    obtain ⟨here, rest⟩ := tiles
    have after := rest.start_le
    rcases List.mem_cons.mp member with rfl | later
    · omega
    · have inside := ih rest block later
      omega

end

theorem Tiles.around (tiles : Tiles header start (before ++ block :: after) stop) :
    Tiles header start before block.addr ∧ Tiles header (block.addr + header + block.size) after stop := by
  obtain ⟨middle, left, here, right⟩ := tiles_append.mp tiles
  rw [here]
  exact ⟨left, right⟩

theorem Tiles.addr_ne (tiles : Tiles header start (before ++ block :: after) stop) (positive : 0 < header) :
    ∀ other ∈ before ++ after, other.addr ≠ block.addr := by
  obtain ⟨left, right⟩ := tiles.around
  intro other member
  rcases List.mem_append.mp member with early | late
  · have bounds := left.bounds other early
    omega
  · have bounds := right.bounds other late
    omega

theorem Tiles.disjoint {first second : Block} (tiles : Tiles header start blocks stop) (one : first ∈ blocks)
    (two : second ∈ blocks) (apart : first.addr ≠ second.addr) :
    first.addr + header + first.size ≤ second.addr ∨ second.addr + header + second.size ≤ first.addr := by
  obtain ⟨before, after, rfl⟩ := List.append_of_mem one
  obtain ⟨left, right⟩ := tiles.around
  rcases List.mem_append.mp two with early | late
  · exact .inr (left.bounds second early).2
  · rcases List.mem_cons.mp late with rfl | later
    · exact absurd rfl apart
    · exact .inl (right.bounds second later).1

end Tiling
