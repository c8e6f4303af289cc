import PhotonOS.Heap.Allocator
import PhotonOS.Lib.Tiling

/-!
The block list that the links in memory stand for, and what each function of the
heap does to it.
-/

namespace PhotonOS.KernelHeap

open Tiling

variable {value size word block : Nat} {free : Bool}

structure Header (mem : Memory) (block : Block) (prev next : Nat) : Prop where
  magic : blockMagic mem block.addr = if block.free then heapFreedMagic else heapMagic
  size : blockSize mem block.addr = block.size
  free : blockFree mem block.addr = if block.free then 1 else 0
  next : blockNext mem block.addr = next
  prev : blockPrev mem block.addr = prev

/-- `blocks` are linked in both directions, from the block at `prev` to the block at `after`. -/
def Linked (mem : Memory) : Nat → List Block → Nat → Prop
  | _, [], _ => True
  | prev, block :: blocks, after =>
    Header mem block prev (firstAddr blocks after) ∧ Linked mem block.addr blocks after

theorem linked_append {mem : Memory} {prev after : Nat} {first second : List Block} :
    Linked mem prev (first ++ second) after ↔
      Linked mem prev first (firstAddr second after) ∧ Linked mem (lastAddr prev first) second after := by
  induction first generalizing prev with
  | nil => simp [Linked]
  | cons block blocks ih => simp only [List.cons_append, Linked, firstAddr_append, lastAddr_cons, ih, and_assoc]

variable {mem other : Memory} {prev next start stop after address : Nat} {blocks : List Block}

theorem Header.congr {block : Block} (header : Header mem block prev next)
    (same : ∀ address, block.addr ≤ address → address < block.addr + headerSize → other address = mem address) :
    Header other block prev next := by
  have field : ∀ offset < headerSize, other (block.addr + offset) = mem (block.addr + offset) :=
    fun offset inside => same _ (Nat.le_add_right _ _) (Nat.add_lt_add_left inside _)
  obtain ⟨magic, size, free, next, prev⟩ := header
  exact ⟨(field 0 (by decide)).trans magic, (field 8 (by decide)).trans size, (field 16 (by decide)).trans free,
    (field 24 (by decide)).trans next, (field 32 (by decide)).trans prev⟩

section

variable (linked : Linked mem prev blocks after) (tiles : Tiles headerSize start blocks stop)
include linked tiles

theorem Linked.congr (same : ∀ address, start ≤ address → address < stop → other address = mem address) :
    Linked other prev blocks after := by
  induction blocks generalizing prev start with
  | nil => trivial
  | cons block blocks ih =>
    obtain ⟨here, rest⟩ := tiles
    have inside := rest.start_le
    refine ⟨linked.1.congr ?_, ih linked.2 rest ?_⟩
    · intro address low high
      exact same address (by omega) (by omega)
    · intro address low high
      exact same address (by omega) high

theorem Linked.relink {newPrev : Nat}
    (same : ∀ address, start ≤ address → address < stop → address ≠ start + 32 → other address = mem address)
    (linkedBack : blocks ≠ [] → blockPrev other start = newPrev) : Linked other newPrev blocks after := by
  cases blocks with
  | nil => trivial
  | cons block blocks =>
    obtain ⟨here, rest⟩ := tiles
    obtain ⟨⟨magic, size, free, next, -⟩, later⟩ := linked
    have inside := rest.start_le
    rw [headerSize] at inside
    refine ⟨⟨?_, ?_, ?_, ?_, ?_⟩, later.congr rest ?_⟩
    · rw [← magic]
      exact same _ (by omega) (by omega) (by omega)
    · rw [← size]
      exact same _ (by omega) (by omega) (by omega)
    · rw [← free]
      exact same _ (by omega) (by omega) (by omega)
    · rw [← next]
      exact same _ (by omega) (by omega) (by omega)
    · rw [here]
      exact linkedBack (by simp)
    · intro address low high
      rw [headerSize] at low
      exact same address (by omega) high (by omega)

end

section

variable {mem : Memory} {blocks : List Block}

theorem findBlock_linked (size : Nat) (linked : Linked mem prev blocks 0)
    (placed : ∀ block ∈ blocks, block.addr ≠ 0) :
    ∀ fuel, blocks.length < fuel → findBlock fuel mem (firstAddr blocks 0) size =
      some (((blocks.find? fun block => block.free && decide (size ≤ block.size)).map Block.addr).getD 0) := by
  induction blocks generalizing prev with
  | nil =>
    intro fuel enough
    obtain ⟨more, rfl⟩ := Nat.exists_eq_add_of_lt enough
    simp [findBlock]
  | cons block blocks ih =>
    intro fuel enough
    obtain ⟨more, rfl⟩ : ∃ more, fuel = more + 1 := ⟨fuel - 1, by omega⟩
    obtain ⟨⟨magic, sizeEq, free, next, -⟩, later⟩ := linked
    rw [firstAddr_cons, findBlock, if_neg (placed block List.mem_cons_self), List.find?_cons, magic, sizeEq, free,
      next]
    rw [List.length_cons] at enough
    cases kind : block.free with
    | false => exact ih later (fun other member => placed other (List.mem_cons_of_mem _ member)) more (by omega)
    | true =>
      by_cases fits : size ≤ block.size
      · simp [fits]
      · simp only [if_true, fits, decide_false, Bool.and_false]
        exact ih later (fun other member => placed other (List.mem_cons_of_mem _ member)) more (by omega)

variable (linked : Linked mem prev blocks 0) (placed : ∀ block ∈ blocks, block.addr ≠ 0)
include linked placed

theorem lastBlock_linked :
    ∀ fuel, blocks.length < fuel → lastBlock fuel mem (firstAddr blocks 0) = some (lastAddr 0 blocks) := by
  induction blocks generalizing prev with
  | nil =>
    intro fuel enough
    obtain ⟨more, rfl⟩ := Nat.exists_eq_add_of_lt enough
    simp [lastBlock]
  | cons block blocks ih =>
    intro fuel enough
    obtain ⟨more, rfl⟩ : ∃ more, fuel = more + 1 := ⟨fuel - 1, by omega⟩
    rw [List.length_cons] at enough
    obtain ⟨header, later⟩ := linked
    rw [firstAddr_cons, lastBlock, header.next]
    cases blocks with
    | nil => simp
    | cons second rest =>
      have next : second.addr ≠ 0 := placed second (by simp)
      rw [firstAddr_cons, if_pos ⟨placed block List.mem_cons_self, next⟩]
      exact ih later (fun other member => placed other (List.mem_cons_of_mem _ member)) more (by omega)

theorem validateFrom_linked :
    ∀ fuel, blocks.length < fuel → validateFrom fuel mem (firstAddr blocks 0) = some true := by
  induction blocks generalizing prev with
  | nil =>
    intro fuel enough
    obtain ⟨more, rfl⟩ := Nat.exists_eq_add_of_lt enough
    simp [validateFrom]
  | cons block blocks ih =>
    intro fuel enough
    obtain ⟨more, rfl⟩ : ∃ more, fuel = more + 1 := ⟨fuel - 1, by omega⟩
    rw [List.length_cons] at enough
    obtain ⟨header, later⟩ := linked
    have marked : ¬(blockMagic mem block.addr ≠ heapMagic ∧ blockMagic mem block.addr ≠ heapFreedMagic) := by
      rw [header.magic]
      cases block.free <;> simp
    have back : ¬(blockNext mem block.addr ≠ 0 ∧ blockPrev mem (blockNext mem block.addr) ≠ block.addr) := by
      rw [header.next]
      cases blocks with
      | nil => simp
      | cons second rest => simp [later.1.prev]
    rw [firstAddr_cons, validateFrom, if_neg (placed block List.mem_cons_self), if_neg marked, if_neg back,
      header.next]
    exact ih later (fun other member => placed other (List.mem_cons_of_mem _ member)) more (by omega)

end

section

variable {mem : Memory} {block : Block} {prev next : Nat}

theorem store_same : store mem address value address = value := if_pos rfl

theorem store_other {other : Nat} (apart : other ≠ address) :
    store mem address value other = mem other := if_neg apart

section

variable (header : Header mem block prev next)
include header

theorem Header.store (value : Nat) (apart : address < block.addr ∨ block.addr + headerSize ≤ address) :
    Header (store mem address value) block prev next :=
  header.congr fun _ low high => store_other (by omega)

theorem Header.setSize (value : Nat) :
    Header (setSize mem block.addr value) { block with size := value } prev next := by
  obtain ⟨magic, -, free, nextEq, prevEq⟩ := header
  refine ⟨?_, store_same, ?_, ?_, ?_⟩
  · simpa [blockMagic, KernelHeap.setSize, KernelHeap.store] using magic
  · simpa [blockFree, KernelHeap.setSize, KernelHeap.store] using free
  · simpa [blockNext, KernelHeap.setSize, KernelHeap.store] using nextEq
  · simpa [blockPrev, KernelHeap.setSize, KernelHeap.store] using prevEq

theorem Header.setNext (value : Nat) : Header (setNext mem block.addr value) block prev value := by
  obtain ⟨magic, size, free, -, prevEq⟩ := header
  refine ⟨?_, ?_, ?_, store_same, ?_⟩
  · simpa [blockMagic, KernelHeap.setNext, KernelHeap.store] using magic
  · simpa [blockSize, KernelHeap.setNext, KernelHeap.store] using size
  · simpa [blockFree, KernelHeap.setNext, KernelHeap.store] using free
  · simpa [blockPrev, KernelHeap.setNext, KernelHeap.store] using prevEq

theorem Header.mark : Header (setFree (setMagic mem block.addr (if free then heapFreedMagic else heapMagic)) block.addr
      (if free then 1 else 0)) { block with free := free } prev next := by
  obtain ⟨-, size, -, nextEq, prevEq⟩ := header
  refine ⟨?_, ?_, store_same, ?_, ?_⟩
  · simp [blockMagic, setFree, setMagic, KernelHeap.store]
  · simpa [blockSize, setFree, setMagic, KernelHeap.store] using size
  · simpa [blockNext, setFree, setMagic, KernelHeap.store] using nextEq
  · simpa [blockPrev, setFree, setMagic, KernelHeap.store] using prevEq

end

def writeFree (mem : Memory) (address size next prev : Nat) : Memory :=
  setPrev (KernelHeap.setNext (setFree (KernelHeap.setSize (setMagic mem address heapFreedMagic) address size)
    address 1) address next) address prev

theorem writeFree_header (mem : Memory) (address size next prev : Nat) :
    Header (writeFree mem address size next prev) { addr := address, size := size, free := true } prev next := by
  refine ⟨?_, ?_, ?_, ?_, store_same⟩
  all_goals simp [writeFree, blockMagic, blockSize, blockFree, blockNext, setPrev, KernelHeap.setNext, setFree,
    KernelHeap.setSize, setMagic, KernelHeap.store]

theorem writeFree_outside (outside : word < address ∨ address + headerSize ≤ word) :
    writeFree mem address size next prev word = mem word := by
  have forty : headerSize = 40 := rfl
  simp only [writeFree, setPrev, KernelHeap.setNext, setFree, KernelHeap.setSize, setMagic]
  rw [store_other (by omega), store_other (by omega), store_other (by omega),
    store_other (by omega), store_other (by omega)]

end

theorem Linked.replace {before old new : List Block} (linked : Linked mem prev (before ++ old) after)
    (tiles : Tiles headerSize start before address)
    (same : ∀ word, start ≤ word → word < address → other word = mem word)
    (first : firstAddr new after = firstAddr old after) (changed : Linked other (lastAddr prev before) new after) :
    Linked other prev (before ++ new) after := by
  obtain ⟨left, -⟩ := linked_append.mp linked
  refine linked_append.mpr ⟨?_, changed⟩
  rw [first]
  exact left.congr tiles same

def linkBack (mem : Memory) (next address : Nat) : Memory :=
  if next ≠ 0 then setPrev mem next address else mem

theorem linkBack_other (apart : next ≠ 0 → word ≠ next + 32) :
    linkBack mem next address word = mem word := by
  unfold linkBack
  split
  next linked => exact store_other (apart linked)
  · rfl

theorem Linked.linkBack (linked : Linked mem prev blocks 0) (tiles : Tiles headerSize start blocks stop)
    (placed : 0 < start) (address : Nat) : Linked (linkBack mem (firstAddr blocks 0) address) address blocks 0 := by
  cases blocks with
  | nil => trivial
  | cons block blocks =>
    obtain ⟨here, rest⟩ := tiles
    have set : KernelHeap.linkBack mem (firstAddr (block :: blocks) 0) address = setPrev mem block.addr address :=
      if_pos (by rw [firstAddr_cons]; omega)
    rw [set]
    refine linked.relink ⟨here, rest⟩ ?_ ?_
    · intro word _ _ apart
      exact store_other (by omega)
    · intro _
      rw [here]
      exact store_same

theorem heapSplitBlock_eq (large : ¬blockSize mem block < size + headerSize + heapMinSplit) :
    heapSplitBlock mem block size = setNext (setSize (linkBack (writeFree mem (block + headerSize + size)
        (blockSize mem block - size - headerSize) (blockNext mem block) block) (blockNext mem block)
          (block + headerSize + size)) block size) block (block + headerSize + size) := by
  have forty : headerSize = 40 := rfl
  rw [heapSplitBlock, if_neg large]
  generalize placed : block + headerSize + size = newBlock
  have sizeKept : blockSize (setMagic mem newBlock heapFreedMagic) block = blockSize mem block :=
    store_other (by omega)
  have nextKept : ∀ value, blockNext (setFree (setSize (setMagic mem newBlock heapFreedMagic) newBlock value)
      newBlock 1) block = blockNext mem block := by
    intro value
    simp only [blockNext, setFree, setSize, setMagic]
    rw [store_other (by omega), store_other (by omega), store_other (by omega)]
  have nextSet := (writeFree_header mem newBlock (blockSize mem block - size - headerSize)
    (blockNext mem block) block).next
  rw [writeFree] at nextSet ⊢
  simp only [sizeKept, nextKept, nextSet, linkBack]

theorem mergeNext_eq (joins : blockNext mem block ≠ 0 ∧ blockFree mem (blockNext mem block) ≠ 0)
    (apart : block + headerSize ≤ blockNext mem block) : mergeNext mem block =
      linkBack (setNext (setSize mem block (blockSize mem block + (headerSize + blockSize mem (blockNext mem block))))
        block (blockNext mem (blockNext mem block))) (blockNext mem (blockNext mem block)) block := by
  rw [mergeNext, if_pos joins]
  generalize blockNext mem block = next at apart
  have nextKept : ∀ value, blockNext (setSize mem block value) next = blockNext mem next :=
    fun _ => store_other (by omega)
  have nextSet : ∀ other value, blockNext (setNext other block value) block = value := fun _ _ => store_same
  simp only [nextKept, nextSet, linkBack]

section

variable {mem : Memory} {start stop : Nat} {before after : List Block} {block : Block}

def carve (block : Block) (size : Nat) : List Block :=
  if block.size < size + headerSize + heapMinSplit then [{ block with free := false }]
  else [{ block with size := size, free := false },
    { addr := block.addr + headerSize + size, size := block.size - size - headerSize, free := true }]

theorem mark_other {magic free : Nat} (outside : word < address ∨ address + headerSize ≤ word) :
    setFree (setMagic mem address magic) address free word = mem word := by
  have forty : headerSize = 40 := rfl
  exact Eq.trans (store_other (by omega)) (store_other (by omega))

theorem mark_linked (tiles : Tiles headerSize start (before ++ block :: after) stop)
    (linked : Linked mem 0 (before ++ block :: after) 0) (free : Bool) :
    Linked (setFree (setMagic mem block.addr (if free then heapFreedMagic else heapMagic)) block.addr
      (if free then 1 else 0)) 0 (before ++ { block with free := free } :: after) 0 := by
  obtain ⟨left, right⟩ := tiles.around
  obtain ⟨-, header, later⟩ := linked_append.mp linked
  refine linked.replace left ?_ rfl ⟨header.mark, later.congr right ?_⟩
  · intro word _ high
    exact mark_other (.inl high)
  · intro word low _
    exact mark_other (.inr (by omega))

variable {size : Nat}

section

variable (tiles : Tiles headerSize start (before ++ block :: after) stop)
include tiles

theorem split_linked (placed : 0 < start) (linked : Linked mem 0 (before ++ block :: after) 0)
    (large : ¬block.size < size + headerSize + heapMinSplit) :
    Linked (heapSplitBlock mem block.addr size) 0 (before ++ { block with size := size } ::
      { addr := block.addr + headerSize + size, size := block.size - size - headerSize, free := true } ::
        after) 0 := by
  have forty : headerSize = 40 := rfl
  have spare : heapMinSplit = 32 := rfl
  obtain ⟨left, right⟩ := tiles.around
  have low := left.start_le
  obtain ⟨-, header, later⟩ := linked_append.mp linked
  have beyond : firstAddr after 0 ≠ 0 → firstAddr after 0 = block.addr + headerSize + block.size := by
    cases after with
    | nil => intro absent; exact absurd rfl absent
    | cons second rest => intro _; exact right.1
  rw [heapSplitBlock_eq (by rwa [header.size]), header.size, header.next]
  generalize madeAt : block.addr + headerSize + size = newBlock
  generalize made : writeFree mem newBlock (block.size - size - headerSize) (firstAddr after 0) block.addr = wrote
  have outside : ∀ word, word < newBlock ∨ newBlock + headerSize ≤ word → wrote word = mem word := by
    intro word apart
    rw [← made]
    exact writeFree_outside apart
  have newHeader := writeFree_header mem newBlock (block.size - size - headerSize) (firstAddr after 0) block.addr
  rw [made] at newHeader
  have relinked := (later.congr right fun word far _ => outside word (by omega)).linkBack right (by omega) newBlock
  generalize back : linkBack wrote (firstAddr after 0) newBlock = backed at relinked
  have backedSame : ∀ word, word < block.addr + headerSize + block.size → backed word = wrote word := by
    intro word near
    rw [← back]
    exact linkBack_other fun some => by
      have position := beyond some
      omega
  -- From here on only the header of the block itself is written.
  have tail : ∀ word, word < block.addr ∨ block.addr + headerSize ≤ word →
      setNext (setSize backed block.addr size) block.addr newBlock word = backed word := by
    intro word apart
    exact Eq.trans (store_other (by omega)) (store_other (by omega))
  refine linked.replace left ?_ rfl ⟨?_, ?_, ?_⟩
  · intro word _ high
    rw [tail word (.inl high), backedSame word (by omega), outside word (by omega)]
  · have own : Header backed block (lastAddr 0 before) (firstAddr after 0) :=
      header.congr fun word _ high => by rw [backedSame word (by omega), outside word (by omega)]
    exact (own.setSize size).setNext newBlock
  · refine newHeader.congr fun word near far => ?_
    rw [tail word (.inr (by simp only at near; omega)), backedSame word (by simp only at far; omega)]
  · refine relinked.congr right fun word far _ => ?_
    exact tail word (.inr (by omega))

theorem split_tiles (large : ¬block.size < size + headerSize + heapMinSplit) :
    Tiles headerSize start (before ++ { addr := block.addr, size := size, free := free } ::
      { addr := block.addr + headerSize + size, size := block.size - size - headerSize, free := true } ::
        after) stop := by
  have spare : heapMinSplit = 32 := rfl
  obtain ⟨left, right⟩ := tiles.around
  refine tiles_append.mpr ⟨block.addr, left, rfl, rfl, ?_⟩
  have whole : block.addr + headerSize + size + headerSize + (block.size - size - headerSize) =
      block.addr + headerSize + block.size := by omega
  rw [whole]
  exact right

theorem allocate_linked (placed : 0 < start) (linked : Linked mem 0 (before ++ block :: after) 0) :
    Linked (setFree (setMagic (heapSplitBlock mem block.addr size) block.addr heapMagic) block.addr 0) 0
      (before ++ carve block size ++ after) 0 := by
  obtain ⟨-, header, -⟩ := linked_append.mp linked
  rw [carve]
  split
  · rw [heapSplitBlock, if_pos (by rwa [header.size]), List.append_assoc]
    exact mark_linked tiles linked false
  next large =>
    have parts := split_linked tiles placed linked large
    rw [List.append_assoc]
    exact mark_linked (split_tiles tiles large) parts false

theorem carve_tiles : Tiles headerSize start (before ++ carve block size ++ after) stop := by
  rw [carve, List.append_assoc]
  split
  · exact tiles_append.mpr ⟨block.addr, tiles.around.1, rfl, tiles.around.2⟩
  next large => exact split_tiles tiles large

end

def joined (block : Block) : List Block → Block × List Block
  | [] => (block, [])
  | next :: rest =>
    if next.free then ({ block with size := block.size + (headerSize + next.size) }, rest)
    else (block, next :: rest)

variable (tiles : Tiles headerSize start (before ++ block :: after) stop)
include tiles

theorem joined_tiles : Tiles headerSize start (before ++ (joined block after).1 :: (joined block after).2) stop := by
  cases after with
  | nil => exact tiles
  | cons next rest =>
    rw [joined]
    split
    · obtain ⟨left, here, right⟩ := tiles.around
      refine tiles_append.mpr ⟨block.addr, left, rfl, ?_⟩
      have whole : block.addr + headerSize + (block.size + (headerSize + next.size)) =
          block.addr + headerSize + block.size + headerSize + next.size := by omega
      rw [whole]
      exact right
    · exact tiles

theorem mergeNext_linked (linked : Linked mem 0 (before ++ block :: after) 0) :
    Linked (mergeNext mem block.addr) 0 (before ++ (joined block after).1 :: (joined block after).2) 0 := by
  have forty : headerSize = 40 := rfl
  obtain ⟨left, right⟩ := tiles.around
  obtain ⟨-, header, later⟩ := linked_append.mp linked
  cases after with
  | nil =>
    have alone : mergeNext mem block.addr = mem := by rw [mergeNext, if_neg (fun both => both.1 header.next)]
    rw [alone]
    exact linked
  | cons next rest =>
    obtain ⟨nextHeader, rest_⟩ := later
    obtain ⟨here, right⟩ := right
    rw [firstAddr_cons] at header
    rw [joined]
    cases kind : next.free with
    | false =>
      have refused : mergeNext mem block.addr = mem := by
        rw [mergeNext, if_neg]
        rw [header.next, nextHeader.free, kind]
        simp
      rw [refused]
      exact linked
    | true =>
      have joins : blockNext mem block.addr ≠ 0 ∧ blockFree mem (blockNext mem block.addr) ≠ 0 := by
        rw [header.next, nextHeader.free, kind]
        exact ⟨by omega, by simp⟩
      have beyond : firstAddr rest 0 ≠ 0 → block.addr + headerSize ≤ firstAddr rest 0 := by
        cases rest with
        | nil => intro absent; exact absurd rfl absent
        | cons third more =>
          intro _
          rw [firstAddr_cons, right.1]
          omega
      rw [mergeNext_eq joins (by rw [header.next]; omega), header.next, header.size, nextHeader.size, nextHeader.next]
      generalize wrote : setNext (setSize mem block.addr (block.size + (headerSize + next.size))) block.addr
        (firstAddr rest 0) = joinedMem
      have outside : ∀ word, word < block.addr ∨ block.addr + headerSize ≤ word → joinedMem word = mem word := by
        intro word apart
        rw [← wrote]
        exact Eq.trans (store_other (by omega)) (store_other (by omega))
      have own : Header joinedMem { block with size := block.size + (headerSize + next.size) }
          (lastAddr 0 before) (firstAddr rest 0) := by
        rw [← wrote]
        exact (header.setSize _).setNext _
      have relinked := (rest_.congr right fun word far _ => outside word (by omega)).linkBack right (by omega)
        block.addr
      refine linked.replace left ?_ rfl ⟨own.congr fun word _ high => ?_, relinked⟩
      · intro word _ high
        rw [linkBack_other fun some => by have := beyond some; omega, outside word (.inl high)]
      · exact linkBack_other fun some => by
          simp only at high
          omega

end

end PhotonOS.KernelHeap
