import PhotonOS.Lib.Bytes

/-!
Byte-addressed memory: stores of byte strings that do not overlap are all read
back, in whatever order they were made. Words are little-endian.
-/

namespace ByteMemory

abbrev Memory : Type := Nat → UInt8

structure Store where
  address : Nat
  bytes : List UInt8
  deriving DecidableEq, Repr

def Store.stop (item : Store) : Nat := item.address + item.bytes.length

def store (memory : Memory) (item : Store) : Memory := fun address =>
  if item.address ≤ address ∧ address < item.stop then item.bytes.getD (address - item.address) 0
  else memory address

def storeAll (memory : Memory) (items : List Store) : Memory := items.foldl store memory

def load (memory : Memory) (address count : Nat) : List UInt8 :=
  (List.range count).map fun index => memory (address + index)

def Apart (first second : Store) : Prop := first.stop ≤ second.address ∨ second.stop ≤ first.address

variable (memory : Memory)

@[simp] theorem load_length (address count : Nat) : (load memory address count).length = count := by
  simp [load]

variable {address count value : Nat} {item : Store} {items : List Store}

theorem load_congr {first second : Memory}
    (same : ∀ index < count, first (address + index) = second (address + index)) :
    load first address count = load second address count := by
  apply List.map_congr_left
  intro index member
  exact same index (List.mem_range.mp member)

theorem load_store_same : load (store memory item) item.address item.bytes.length = item.bytes := by
  apply List.ext_getElem
  · simp
  intro index _ bound
  have inside : item.address ≤ item.address + index ∧ item.address + index < item.stop := by
    constructor
    · omega
    · exact Nat.add_lt_add_left bound _
  simp only [load, List.getElem_map, List.getElem_range, store, if_pos inside, Nat.add_sub_cancel_left]
  exact (List.getElem_eq_getD 0).symm

theorem load_store_apart {kept : Store} (apart : Apart kept item) :
    load (store memory item) kept.address kept.bytes.length = load memory kept.address kept.bytes.length := by
  apply load_congr
  intro index bound
  have outside : ¬(item.address ≤ kept.address + index ∧ kept.address + index < item.stop) := by
    unfold Apart at apart
    unfold Store.stop at apart ⊢
    omega
  exact if_neg outside

theorem load_storeAll_apart : ∀ (memory : Memory) {kept : Store}, (∀ item ∈ items, Apart kept item) →
      load (storeAll memory items) kept.address kept.bytes.length = load memory kept.address kept.bytes.length := by
  induction items with
  | nil => intro memory kept _; rfl
  | cons item rest ih =>
    intro memory kept apart
    obtain ⟨first, later⟩ := List.forall_mem_cons.mp apart
    exact (ih (store memory item) later).trans (load_store_apart memory first)

theorem load_storeAll : ∀ (memory : Memory), items.Pairwise Apart → ∀ item ∈ items,
    load (storeAll memory items) item.address item.bytes.length = item.bytes := by
  induction items with
  | nil => intro memory _ item member; cases member
  | cons first rest ih =>
    intro memory apart item member
    obtain ⟨head, tail⟩ := List.pairwise_cons.mp apart
    rcases List.mem_cons.mp member with rfl | member
    · exact (load_storeAll_apart (store memory item) head).trans (load_store_same memory)
    · exact ih (store memory first) tail item member

def wordBytes (value : Nat) : List UInt8 := (Bytes.toBytes 8 value).reverse

def loadWord (memory : Memory) (address : Nat) : Nat := Bytes.ofBytes (load memory address 8).reverse

@[simp] theorem wordBytes_length : (wordBytes value).length = 8 := by
  simp [wordBytes]

theorem loadWord_of_load {memory : Memory} (loaded : load memory address 8 = wordBytes value)
    (fits : value < 2 ^ 64) : loadWord memory address = value := by
  rw [loadWord, loaded, wordBytes, List.reverse_reverse, Bytes.ofBytes_toBytes]
  exact Nat.mod_eq_of_lt fits

/-- A string at `address`, ended by its first NUL. -/
def IsString (memory : Memory) (address : Nat) (string : List UInt8) : Prop :=
  load memory address (string.length + 1) = string ++ [0] ∧ 0 ∉ string

theorem load_succ : load memory address (count + 1) = memory address :: load memory (address + 1) count := by
  simp only [load, List.range_succ_eq_map, List.map_cons, List.map_map, Nat.add_zero]
  congr 1
  apply List.map_congr_left
  intro index _
  exact congrArg memory (by omega)

theorem isString_nil {memory : Memory} : IsString memory address [] ↔ memory address = 0 := by
  simp [IsString, load]

theorem isString_cons {memory : Memory} {byte : UInt8} {string : List UInt8} :
    IsString memory address (byte :: string) ↔
      memory address = byte ∧ byte ≠ 0 ∧ IsString memory (address + 1) string := by
  simp only [IsString, List.length_cons, load_succ memory, List.cons_append, List.cons.injEq, List.mem_cons, not_or]
  constructor
  · rintro ⟨⟨first, rest⟩, nonzero, clean⟩
    exact ⟨first, Ne.symm nonzero, rest, clean⟩
  · rintro ⟨first, nonzero, rest, clean⟩
    exact ⟨⟨first, rest⟩, Ne.symm nonzero, clean⟩

end ByteMemory
