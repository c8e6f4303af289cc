import PhotonOS.Heap.BlockList

/-!
`kmalloc` and `kfree` on the block list. Each keeps a list in which no two
neighbours are free, keeps the blocks that are in use, and comes to an end.
-/

namespace PhotonOS.KernelHeap

open Tiling

variable {mem : Memory} {address value fuel : Nat}

/-- The heap is the list `blocks`. Alignment makes the words of two headers or payloads never overlap
partly. -/
structure Represents (heap : Heap) (blocks : List Block) : Prop where
  placed : 0 < heap.start
  tiles : Tiles headerSize heap.start blocks heap.stop
  linked : Linked heap.mem 0 blocks 0
  head : heap.head = firstAddr blocks 0
  aligned : ∀ block ∈ blocks, block.addr % 8 = 0 ∧ block.size % 8 = 0

def SameUsed (before after : List Block) : Prop :=
  ∀ block, block.free = false → (block ∈ after ↔ block ∈ before)

section

variable {heap : Heap} {blocks before after : List Block} {block : Block}

section

variable (rep : Represents heap blocks)
include rep

theorem Represents.addr_ne_zero : ∀ block ∈ blocks, block.addr ≠ 0 := by
  intro block member
  have inside := rep.tiles.bounds block member
  have placed := rep.placed
  omega

theorem Represents.length_lt_fuel : blocks.length < heap.fuel := by
  have length := rep.tiles.length_le
  rw [headerSize] at length
  rw [Heap.fuel, headerSize]
  omega

theorem Represents.validates : heapValidate heap = some true := by
  rw [heapValidate, rep.head]
  exact validateFrom_linked rep.linked rep.addr_ne_zero _ rep.length_lt_fuel

theorem Represents.change {changed : List Block}
    (tiles : Tiles headerSize heap.start changed heap.stop) (linked : Linked mem 0 changed 0)
    (head : firstAddr changed 0 = firstAddr blocks 0)
    (aligned : ∀ block ∈ changed, block.addr % 8 = 0 ∧ block.size % 8 = 0) :
    Represents { heap with mem := mem } changed :=
  ⟨rep.placed, tiles, linked, rep.head.trans head.symm, aligned⟩

end

theorem Represents.payload (rep : Represents heap (before ++ block :: after))
    (same : ∀ word, word < block.addr + headerSize ∨ block.addr + headerSize + block.size ≤ word →
      mem word = heap.mem word) : Represents { heap with mem := mem } (before ++ block :: after) := by
  obtain ⟨left, right⟩ := rep.tiles.around
  obtain ⟨leftLinked, header, rightLinked⟩ := linked_append.mp rep.linked
  refine rep.change rep.tiles (linked_append.mpr ⟨?_, ?_, ?_⟩) rfl rep.aligned
  · exact leftLinked.congr left fun word _ high => same word (by omega)
  · exact header.congr fun word _ high => same word (.inl high)
  · exact rightLinked.congr right fun word low _ => same word (.inr low)

theorem firstAddr_middle (before : List Block) (block other : Block) (after rest : List Block)
    (same : other.addr = block.addr) :
    firstAddr (before ++ other :: rest) 0 = firstAddr (before ++ block :: after) 0 := by
  rw [firstAddr_append, firstAddr_append, firstAddr_cons, firstAddr_cons, same]

end

section

variable {heap : Heap} {before after : List Block} {block : Block}

theorem joined_addr : (joined block after).1.addr = block.addr := by
  cases after with
  | nil => rfl
  | cons next rest =>
    rw [joined]
    split <;> rfl

theorem joined_free : (joined block after).1.free = block.free := by
  cases after with
  | nil => rfl
  | cons next rest =>
    rw [joined]
    split <;> rfl

theorem ne_of_used {used free : Block} (inUse : used.free = false) (isFree : free.free = true) : used ≠ free := by
  rintro rfl
  rw [isFree] at inUse
  cases inUse

theorem joined_used : SameUsed after (joined block after).2 := by
  intro other used
  cases after with
  | nil => exact Iff.rfl
  | cons next rest =>
    rw [joined]
    split
    next free =>
      constructor
      · exact List.mem_cons_of_mem _
      intro member
      exact (List.mem_cons.mp member).resolve_left (ne_of_used used free)
    · exact Iff.rfl

theorem joined_separated (block : Block) (separated : Separated after) :
    Separated ((joined block after).1 :: (joined block after).2) := by
  cases after with
  | nil => exact List.isChain_singleton _
  | cons next rest =>
    rw [joined]
    split
    next free =>
      cases rest with
      | nil => exact List.isChain_singleton _
      | cons third more =>
        obtain ⟨apart, later⟩ := List.isChain_cons_cons.mp separated
        refine List.isChain_cons_cons.mpr ⟨?_, later⟩
        rintro ⟨-, thirdFree⟩
        exact apart ⟨free, thirdFree⟩
    next used =>
      refine List.isChain_cons_cons.mpr ⟨?_, separated⟩
      rintro ⟨-, nextFree⟩
      exact used nextFree

theorem Represents.merge (rep : Represents heap (before ++ block :: after)) :
    Represents { heap with mem := mergeNext heap.mem block.addr }
      (before ++ (joined block after).1 :: (joined block after).2) := by
  refine rep.change (joined_tiles rep.tiles) (mergeNext_linked rep.tiles rep.linked)
    (firstAddr_middle _ _ _ _ _ joined_addr) ?_
  have aligned := rep.aligned
  cases after with
  | nil => exact aligned
  | cons next rest =>
    rw [joined]
    split
    · simp only [List.forall_mem_append, List.forall_mem_cons] at aligned ⊢
      obtain ⟨early, own, second, later⟩ := aligned
      have forty : headerSize = 40 := rfl
      exact ⟨early, ⟨own.1, by omega⟩, later⟩
    · exact aligned

/-- No word has become `HEAP_MAGIC`. -/
def Harmless (before after : Memory) : Prop := ∀ word, after word = heapMagic → before word = heapMagic

theorem Harmless.trans {first second third : Memory} (left : Harmless first second) (right : Harmless second third) :
    Harmless first third := fun word magic => left word (right word magic)

theorem harmless_store (other : value ≠ heapMagic) :
    Harmless mem (store mem address value) := by
  intro word magic
  rw [store] at magic
  split at magic
  · exact absurd magic other
  · exact magic

theorem harmless_linkBack {next : Nat} (other : address ≠ heapMagic) :
    Harmless mem (linkBack mem next address) := by
  rw [linkBack]
  split
  · exact harmless_store other
  · exact fun _ magic => magic

theorem ne_heapMagic (aligned : value % 8 = 0) : value ≠ heapMagic := by
  rintro rfl
  exact absurd aligned (by decide)

theorem Represents.firstAddr_aligned {blocks : List Block} (rep : Represents heap (before ++ blocks)) :
    firstAddr blocks 0 % 8 = 0 := by
  cases blocks with
  | nil => rfl
  | cons block rest => exact (rep.aligned block (by simp)).1

theorem Represents.merge_harmless (rep : Represents heap (before ++ block :: after)) :
    Harmless heap.mem (mergeNext heap.mem block.addr) := by
  obtain ⟨-, header, rest⟩ := linked_append.mp rep.linked
  by_cases joins : blockNext heap.mem block.addr ≠ 0 ∧ blockFree heap.mem (blockNext heap.mem block.addr) ≠ 0
  · cases after with
    | nil => exact absurd header.next joins.1
    | cons next tail =>
      have follows : blockNext heap.mem block.addr = next.addr := header.next
      have own := rep.aligned block (by simp)
      have second := rep.aligned next (by simp)
      have third : firstAddr tail 0 % 8 = 0 :=
        @Represents.firstAddr_aligned heap (before ++ [block, next]) tail (by simpa using rep)
      have forty : headerSize = 40 := rfl
      rw [mergeNext_eq joins (by have := rep.tiles.around.2; rw [follows]; have := this.1; omega), follows, header.size, rest.1.size, rest.1.next]
      exact ((harmless_store (ne_heapMagic (by omega))).trans (harmless_store (ne_heapMagic third))).trans
        (harmless_linkBack (ne_heapMagic own.1))
  · rw [mergeNext, if_neg joins]
    exact fun _ magic => magic

theorem Represents.coalesce_stops (rep : Represents heap (before ++ block :: after))
    (calm : ∀ last ∈ before.getLast?, last.free = false) :
    heapCoalesce (fuel + 1) heap.mem block.addr = some (mergeNext heap.mem block.addr) := by
  obtain ⟨left, header, -⟩ := linked_append.mp rep.merge.linked
  have prev := header.prev
  rw [joined_addr] at prev
  rw [heapCoalesce, prev, if_neg]
  rintro ⟨exists_, free⟩
  rcases List.eq_nil_or_concat' before with rfl | ⟨front, last, rfl⟩
  · exact exists_ rfl
  have used := calm last (by simp)
  rw [lastAddr_concat] at free
  obtain ⟨-, lastHeader, -⟩ := linked_append.mp left
  rw [lastHeader.free, used] at free
  exact free rfl

theorem separated_join {front rest : List Block} (left : Separated front) (right : Separated (block :: rest))
    (calm : ∀ last ∈ front.getLast?, last.free = false) : Separated (front ++ block :: rest) := by
  refine List.isChain_append.mpr ⟨left, right, ?_⟩
  rintro last member next - ⟨free, -⟩
  rw [calm last member] at free
  cases free

theorem merge_used (before after : List Block) (free : block.free = true) :
    SameUsed (before ++ block :: after) (before ++ (joined block after).1 :: (joined block after).2) := by
  intro other inUse
  have different : other ≠ (joined block after).1 := ne_of_used inUse (joined_free.trans free)
  have apart := ne_of_used inUse free
  simp only [List.mem_append, List.mem_cons, different, apart, false_or, joined_used other inUse]

variable (rep : Represents heap (before ++ block :: after))
include rep

theorem Represents.coalesce (free : block.free = true)
    (left : Separated before) (right : Separated after) (enough : (before ++ block :: after).length < fuel) :
    ∃ mem blocks, heapCoalesce fuel heap.mem block.addr = some mem ∧
      Represents { heap with mem := mem } blocks ∧ Separated blocks ∧
      SameUsed (before ++ block :: after) blocks ∧ Harmless heap.mem mem := by
  obtain ⟨more, rfl⟩ : ∃ more, fuel = more + 1 := ⟨fuel - 1, by omega⟩
  have merged := rep.merge
  have ownSeparated := joined_separated block right
  have used := merge_used before after free
  by_cases calm : ∀ last ∈ before.getLast?, last.free = false
  · exact ⟨_, _, rep.coalesce_stops calm, merged, separated_join left ownSeparated calm, used, rep.merge_harmless⟩
  -- The block before is free as well: the walk goes back to it and joins the two.
  obtain ⟨front, last, rfl, lastFree⟩ : ∃ front last, before = front ++ [last] ∧ last.free = true := by
    rcases List.eq_nil_or_concat' before with rfl | ⟨front, last, rfl⟩
    · exact absurd (by simp) calm
    · refine ⟨front, last, by simp, ?_⟩
      by_contra inUse
      exact calm (by simpa using inUse)
  rw [List.length_append, List.length_append, List.length_singleton, List.length_cons] at enough
  obtain ⟨rest, rfl⟩ : ∃ rest, more = rest + 1 := ⟨more - 1, by omega⟩
  obtain ⟨frontSeparated, -, lastApart⟩ := List.isChain_append.mp left
  have frontCalm : ∀ other ∈ front.getLast?, other.free = false := by
    intro other member
    by_contra inUse
    exact lastApart other member last (by simp) ⟨by simpa using inUse, lastFree⟩
  rw [List.append_assoc, List.singleton_append] at merged
  have goesBack : heapCoalesce (rest + 1 + 1) heap.mem block.addr =
      heapCoalesce (rest + 1) (mergeNext heap.mem block.addr) last.addr := by
    obtain ⟨-, lastHeader, header, -⟩ := linked_append.mp merged.linked
    have prev := header.prev
    rw [joined_addr] at prev
    rw [heapCoalesce, prev, if_pos]
    refine ⟨merged.addr_ne_zero last (by simp), ?_⟩
    rw [lastHeader.free, lastFree]
    simp
  refine ⟨_, _, goesBack.trans (merged.coalesce_stops frontCalm), merged.merge,
    separated_join frontSeparated (joined_separated last ownSeparated) frontCalm, ?_,
    rep.merge_harmless.trans merged.merge_harmless⟩
  intro other inUse
  rw [merge_used front _ lastFree other inUse, ← used other inUse, List.append_assoc, List.singleton_append]

theorem Represents.kfree (used : block.free = false) (separated : Separated (before ++ block :: after)) :
    ∃ mem blocks, KernelHeap.kfree (block.addr + headerSize) heap = some { heap with mem := mem } ∧
      Represents { heap with mem := mem } blocks ∧ Separated blocks ∧ SameUsed (before ++ after) blocks ∧
      ∀ word, mem word = heapMagic → heap.mem word = heapMagic ∧ word ≠ block.addr := by
  have forty : headerSize = 40 := rfl
  obtain ⟨left, right⟩ := rep.tiles.around
  have inside := rep.tiles.bounds block (by simp)
  obtain ⟨-, header, -⟩ := linked_append.mp rep.linked
  obtain ⟨leftSeparated, rightSeparated, -⟩ := List.isChain_append.mp separated
  have poisoned : Represents { heap with mem := poison heap.mem (block.addr + headerSize) block.size }
      (before ++ block :: after) := rep.payload fun word outside => if_neg (by omega)
  generalize lost : poison heap.mem (block.addr + headerSize) block.size = payloadLost at poisoned
  have marked : Represents { heap with mem := setFree (setMagic payloadLost block.addr heapFreedMagic) block.addr 1 }
      (before ++ { block with free := true } :: after) := by
    refine rep.change ?_ (mark_linked poisoned.tiles poisoned.linked true) (firstAddr_middle _ _ _ _ _ rfl) ?_
    · exact tiles_append.mpr ⟨block.addr, left, rfl, right⟩
    have aligned := rep.aligned
    simp only [List.forall_mem_append, List.forall_mem_cons] at aligned ⊢
    exact aligned
  obtain ⟨mem, blocks, coalesced, represents, apart, same, harmless⟩ :=
    marked.coalesce rfl leftSeparated rightSeparated.tail marked.length_lt_fuel
  refine ⟨mem, blocks, ?_, represents, apart, ?_, ?_⟩
  · have start : block.addr + headerSize - headerSize = block.addr := by omega
    rw [KernelHeap.kfree, if_neg (by omega)]
    simp only [start]
    rw [if_neg (by omega), if_neg, if_neg, header.size, lost]
    · exact congrArg (Option.bind · _) coalesced
    · rw [header.magic, used]
      simp
    · rw [header.magic, header.free, used]
      simp [heapMagic, heapFreedMagic]
  · intro other inUse
    have different : other ≠ { block with free := true } := ne_of_used inUse rfl
    rw [same other inUse]
    simp only [List.mem_append, List.mem_cons, different, false_or]
  · intro word magic
    have marked := harmless_store (by decide) word (harmless word magic)
    have apart : word ≠ block.addr := by
      rintro rfl
      exact absurd (store_same.symm.trans marked) (by decide)
    rw [setMagic, store_other apart, ← lost] at marked
    refine ⟨?_, apart⟩
    rw [poison] at marked
    split at marked
    · exact absurd marked (by decide)
    · exact marked

end

structure HeapInv (heap : Heap) (blocks : List Block) : Prop extends Represents heap blocks where
  separated : Separated blocks
  page : heap.stop % pmmPageSize = 0

section

variable {heap : Heap} {blocks : List Block}

theorem mapPages_below (frames : Frames) (round : Nat) :
    ∀ count page mem word, word < page → (mapPages frames round count page mem).1 word = mem word := by
  intro count
  induction count with
  | zero => intro page mem word below; rfl
  | succ count ih =>
    intro page mem word below
    rw [mapPages]
    split
    · rw [ih _ _ _ (by omega), if_neg (by omega)]
    · rfl

theorem word_of_page (page : address % pmmPageSize = 0) : address % 8 = 0 := by
  rw [pmmPageSize] at page
  omega

variable {front : List Block} {last : Block} {newEnd : Nat}

theorem aligned_concat {block : Block} (aligned : ∀ block ∈ front, block.addr % 8 = 0 ∧ block.size % 8 = 0)
    (own : block.addr % 8 = 0 ∧ block.size % 8 = 0) :
    ∀ other ∈ front ++ [block], other.addr % 8 = 0 ∧ other.size % 8 = 0 := by
  simp only [List.forall_mem_append, List.forall_mem_singleton]
  exact ⟨aligned, own⟩

theorem HeapInv.grow (inv : HeapInv heap (front ++ [last])) (later : heap.stop ≤ newEnd)
    (page : newEnd % pmmPageSize = 0) :
    HeapInv { heap with mem := setSize heap.mem last.addr (last.size + (newEnd - heap.stop)), stop := newEnd }
      (front ++ [{ last with size := last.size + (newEnd - heap.stop) }]) := by
  have oldWord := word_of_page inv.page
  have newWord := word_of_page page
  obtain ⟨left, right⟩ := inv.tiles.around
  have ends : last.addr + headerSize + last.size = heap.stop := right
  obtain ⟨-, header, -⟩ := linked_append.mp inv.linked
  have aligned := inv.aligned last (by simp)
  refine ⟨⟨inv.placed, ?_, ?_, ?_, ?_⟩, ?_, page⟩
  · refine tiles_append.mpr ⟨last.addr, left, rfl, ?_⟩
    show last.addr + headerSize + (last.size + (newEnd - heap.stop)) = newEnd
    omega
  · refine inv.linked.replace left ?_ rfl ⟨header.setSize _, trivial⟩
    intro word _ high
    exact store_other (by omega)
  · rw [inv.head]
    exact firstAddr_middle _ _ _ _ _ rfl
  · refine aligned_concat (fun block member => inv.aligned block (by simp [member])) ?_
    exact ⟨aligned.1, by simp only; omega⟩
  · obtain ⟨frontSeparated, -, apart⟩ := List.isChain_append.mp inv.separated
    refine List.isChain_append.mpr ⟨frontSeparated, List.isChain_singleton _, ?_⟩
    rintro other member next ⟨⟩ ⟨free, lastFree⟩
    exact apart other member last (by simp) ⟨free, lastFree⟩

theorem HeapInv.extend (inv : HeapInv heap (front ++ [last])) (used : last.free = false)
    (room : heap.stop + headerSize ≤ newEnd) (page : newEnd % pmmPageSize = 0) : HeapInv { heap with
      mem := setNext (writeFree heap.mem heap.stop (newEnd - heap.stop - headerSize) 0 last.addr) last.addr heap.stop
      stop := newEnd }
      (front ++ [last] ++ [{ addr := heap.stop, size := newEnd - heap.stop - headerSize, free := true }]) := by
  have forty : headerSize = 40 := rfl
  have oldWord := word_of_page inv.page
  have newWord := word_of_page page
  obtain ⟨left, right⟩ := inv.tiles.around
  have ends : last.addr + headerSize + last.size = heap.stop := right
  obtain ⟨-, header, -⟩ := linked_append.mp inv.linked
  refine ⟨⟨inv.placed, ?_, ?_, ?_, ?_⟩, ?_, page⟩
  · refine tiles_append.mpr ⟨heap.stop, inv.tiles, rfl, ?_⟩
    show heap.stop + headerSize + (newEnd - heap.stop - headerSize) = newEnd
    omega
  · rw [List.append_assoc]
    refine inv.linked.replace left ?_ rfl ⟨?_, ?_, trivial⟩
    · intro word _ high
      refine Eq.trans (store_other (by omega)) ?_
      exact writeFree_outside (.inl (by omega))
    · have kept : Header (writeFree heap.mem heap.stop (newEnd - heap.stop - headerSize) 0 last.addr) last
          (lastAddr 0 front) 0 :=
        header.congr fun word _ high => writeFree_outside (.inl (by omega))
      exact kept.setNext heap.stop
    · exact (writeFree_header _ _ _ _ _).store _ (.inl (by simp only; omega))
  · rw [inv.head, firstAddr_append, firstAddr_append, firstAddr_append]
    rfl
  · refine aligned_concat inv.aligned ?_
    exact ⟨by simp only; omega, by simp only; omega⟩
  refine separated_join inv.separated (List.isChain_singleton _) ?_
  intro other member
  rw [List.getLast?_concat] at member
  cases member
  exact used

theorem HeapInv.begin (inv : HeapInv heap []) (room : heap.stop + headerSize ≤ newEnd)
    (page : newEnd % pmmPageSize = 0) : HeapInv { heap with
      mem := writeFree heap.mem heap.stop (newEnd - heap.stop - headerSize) 0 0
      head := heap.stop
      stop := newEnd } [{ addr := heap.stop, size := newEnd - heap.stop - headerSize, free := true }] := by
  have forty : headerSize = 40 := rfl
  have oldWord := word_of_page inv.page
  have newWord := word_of_page page
  have empty : heap.start = heap.stop := inv.tiles
  refine ⟨⟨inv.placed, ⟨empty.symm, ?_⟩, ⟨writeFree_header _ _ _ _ _, trivial⟩, rfl, ?_⟩, List.isChain_singleton _, page⟩
  · show heap.start + headerSize + (newEnd - heap.stop - headerSize) = newEnd
    omega
  · intro other member
    rw [List.mem_singleton.mp member]
    exact ⟨by simp only; omega, by simp only; omega⟩

theorem alignUp_page (value : Nat) :
    value ≤ alignUp value pmmPageSize ∧ alignUp value pmmPageSize % pmmPageSize = 0 := by
  rw [alignUp, pmmPageSize]
  omega

theorem HeapInv.expand (inv : HeapInv heap blocks) (frames : Frames) (round : Nat) {required : Nat}
    (big : headerSize ≤ required) :
    ∃ after ok more, heapExpand frames round required heap = some (after, ok) ∧ HeapInv after more ∧
      SameUsed blocks more ∧ (ok = true → ∃ block ∈ more, block.free = true ∧ required ≤ block.size + headerSize) ∧
      heap.stop ≤ after.stop ∧ ∀ word < heap.stop, after.mem word = heapMagic → heap.mem word = heapMagic := by
  obtain ⟨reaches, page⟩ := alignUp_page (heap.stop + required)
  rw [heapExpand]
  generalize alignUp (heap.stop + required) pmmPageSize = newEnd at reaches page
  have grows : heap.stop ≤ newEnd := by omega
  simp only
  split
  · exact ⟨heap, false, blocks, rfl, inv, fun _ _ => Iff.rfl, by simp, Nat.le_refl _, fun _ _ magic => magic⟩
  have below := mapPages_below frames round ((newEnd - heap.stop) / pmmPageSize) heap.stop heap.mem
  generalize mapPages frames round ((newEnd - heap.stop) / pmmPageSize) heap.stop heap.mem = mapped at below
  obtain ⟨mem, ok⟩ := mapped
  have remapped : HeapInv { heap with mem := mem } blocks := 
    ⟨inv.change inv.tiles (inv.linked.congr inv.tiles fun word _ high => below word high) rfl inv.aligned, inv.separated,
      inv.page⟩
  have old : ∀ word < heap.stop, mem word = heapMagic → heap.mem word = heapMagic :=
    fun word low magic => (below word low).symm.trans magic
  cases ok with
  | false => exact ⟨_, false, blocks, rfl, remapped, fun _ _ => Iff.rfl, by simp, Nat.le_refl _, old⟩
  | true =>
    have walked := lastBlock_linked remapped.linked remapped.addr_ne_zero heap.fuel inv.length_lt_fuel
    rw [← inv.head] at walked
    rw [walked]
    simp only [Option.bind_eq_bind, Option.bind_some]
    rcases List.eq_nil_or_concat' blocks with rfl | ⟨front, last, rfl⟩
    · refine ⟨_, true, _, rfl, remapped.begin (by simp only; omega) page, ?_, ?_, grows, ?_⟩
      · intro other used
        constructor
        · intro member
          rw [List.mem_singleton.mp member] at used
          cases used
        · intro member
          cases member
      · intro _
        exact ⟨_, List.mem_singleton_self _, rfl, by simp only; omega⟩
      · exact fun word low magic => old word low ((writeFree_outside (Or.inl low)).symm.trans magic)
    · have tail : lastAddr 0 (front ++ [last]) = last.addr := lastAddr_concat
      have present : last.addr ≠ 0 := remapped.addr_ne_zero last (by simp)
      obtain ⟨-, header, -⟩ := linked_append.mp remapped.linked
      rw [tail]
      cases kind : last.free with
      | true =>
        have free : last.addr ≠ 0 ∧ blockFree mem last.addr ≠ 0 := by
          refine ⟨present, ?_⟩
          rw [header.free, kind]
          simp
        have size : blockSize mem last.addr = last.size := header.size
        rw [if_pos free, size]
        refine ⟨_, true, _, rfl, remapped.grow (by simp only; omega) page, ?_, ?_, grows, ?_⟩
        · intro other used
          have apart : other ≠ { last with size := last.size + (newEnd - heap.stop) } := ne_of_used used kind
          simp [ne_of_used used kind, apart]
        · intro _
          exact ⟨_, List.mem_append_right _ (List.mem_singleton_self _), kind, by simp only; omega⟩
        · have aligned := (inv.aligned last (by simp)).2
          have oldWord := word_of_page inv.page
          have newWord := word_of_page page
          exact fun word low magic => old word low (harmless_store (ne_heapMagic (by omega)) word magic)
      | false =>
        have used : ¬(last.addr ≠ 0 ∧ blockFree mem last.addr ≠ 0) := by
          rintro ⟨-, free⟩
          rw [header.free, kind] at free
          exact free rfl
        rw [if_neg used, if_pos present]
        refine ⟨_, true, _, rfl, remapped.extend kind (by simp only; omega) page, ?_, ?_, grows, ?_⟩
        · intro other inUse
          have apart : other ≠ { addr := heap.stop, size := newEnd - heap.stop - headerSize, free := true } :=
            ne_of_used inUse rfl
          simp [apart]
        · intro _
          exact ⟨_, List.mem_append_right _ (List.mem_singleton_self _), rfl, by simp only; omega⟩
        · intro word low magic
          have wrote := harmless_store (ne_heapMagic (word_of_page inv.page)) word magic
          exact old word low ((writeFree_outside (Or.inl low)).symm.trans wrote)

end

section

variable {heap : Heap} {blocks before after : List Block} {block : Block} {size : Nat} {frames : Frames}

theorem carve_separated (separated : Separated (before ++ block :: after)) (free : block.free = true) :
    Separated (before ++ carve block size ++ after) := by
  obtain ⟨left, right, apart⟩ := List.isChain_append.mp separated
  have calm : ∀ last ∈ before.getLast?, last.free = false := by
    intro last member
    by_contra inUse
    exact apart last member block (by simp) ⟨by simpa using inUse, free⟩
  have used : ∀ next ∈ after.head?, next.free = false := by
    intro next member
    cases after with
    | nil => cases member
    | cons first rest =>
      cases member
      by_contra inUse
      exact (List.isChain_cons_cons.mp right).1 ⟨free, by simpa using inUse⟩
  have own : Separated (carve block size ++ after) := by
    refine List.isChain_append.mpr ⟨?_, right.tail, ?_⟩
    · rw [carve]
      split
      · exact List.isChain_singleton _
      · simp
    · rintro last - next member ⟨-, nextFree⟩
      rw [used next member] at nextFree
      cases nextFree
  rw [List.append_assoc]
  refine List.isChain_append.mpr ⟨left, own, ?_⟩
  rintro last member next - ⟨lastFree, -⟩
  rw [calm last member] at lastFree
  cases lastFree

theorem carve_aligned (even : size % 8 = 0) (aligned : block.addr % 8 = 0 ∧ block.size % 8 = 0) :
    ∀ part ∈ carve block size, part.addr % 8 = 0 ∧ part.size % 8 = 0 := by
  have forty : headerSize = 40 := rfl
  intro part member
  rw [carve] at member
  split at member
  · rw [List.mem_singleton.mp member]
    exact aligned
  · rcases List.mem_cons.mp member with rfl | second
    · exact ⟨aligned.1, even⟩
    · rw [List.mem_singleton.mp second]
      exact ⟨by simp only; omega, by simp only; omega⟩

theorem carve_first (fits : size ≤ block.size) :
    ∃ part ∈ carve block size, part.free = false ∧ part.addr = block.addr ∧ size ≤ part.size := by
  rw [carve]
  split
  · exact ⟨_, List.mem_singleton_self _, rfl, rfl, fits⟩
  · exact ⟨_, List.mem_cons_self, rfl, rfl, Nat.le_refl _⟩

theorem carve_used {part : Block} (member : part ∈ carve block size) (used : part.free = false) :
    part.addr = block.addr := by
  rw [carve] at member
  split at member
  · rw [List.mem_singleton.mp member]
  · rcases List.mem_cons.mp member with rfl | second
    · rfl
    · rw [List.mem_singleton.mp second] at used
      cases used

theorem HeapInv.allocate (inv : HeapInv heap (before ++ block :: after)) (free : block.free = true)
    (even : size % 8 = 0) : HeapInv { heap with
      mem := setFree (setMagic (heapSplitBlock heap.mem block.addr size) block.addr heapMagic) block.addr 0 }
      (before ++ carve block size ++ after) := by
  refine ⟨inv.toRepresents.change (carve_tiles inv.tiles) (allocate_linked inv.tiles inv.placed inv.linked) ?_ ?_,
    carve_separated inv.separated free, inv.page⟩
  · have first : ∀ next, firstAddr (carve block size) next = block.addr := by
      intro next
      rw [carve]
      split <;> rfl
    rw [List.append_assoc, firstAddr_append, firstAddr_append, first, firstAddr_append, firstAddr_cons]
  · have aligned := inv.aligned
    simp only [List.forall_mem_append, List.forall_mem_cons] at aligned ⊢
    exact ⟨⟨aligned.1, carve_aligned even aligned.2.1⟩, aligned.2.2⟩

theorem Represents.split_harmless (rep : Represents heap (before ++ block :: after)) (even : size % 8 = 0) :
    Harmless heap.mem (heapSplitBlock heap.mem block.addr size) := by
  obtain ⟨-, header, -⟩ := linked_append.mp rep.linked
  have own := rep.aligned block (by simp)
  have next : firstAddr after 0 % 8 = 0 :=
    @Represents.firstAddr_aligned heap (before ++ [block]) after (by simpa using rep)
  have forty : headerSize = 40 := rfl
  by_cases small : blockSize heap.mem block.addr < size + headerSize + heapMinSplit
  · rw [heapSplitBlock, if_pos small]
    exact fun _ magic => magic
  rw [heapSplitBlock_eq small, header.next, header.size, writeFree]
  have place : (block.addr + headerSize + size) % 8 = 0 := by omega
  have rest : (block.size - size - headerSize) % 8 = 0 := by omega
  exact (((((((harmless_store (by decide)).trans (harmless_store (ne_heapMagic rest))).trans
    (harmless_store (by decide))).trans (harmless_store (ne_heapMagic next))).trans
    (harmless_store (ne_heapMagic own.1))).trans (harmless_linkBack (ne_heapMagic place))).trans
    (harmless_store (ne_heapMagic even))).trans (harmless_store (ne_heapMagic place))

def HandsOut (size pointer : Nat) (before after : List Block) : Prop :=
  (∃ block ∈ after, block.free = false ∧ pointer = block.addr + headerSize ∧ size ≤ block.size) ∧
    ∀ block ∈ before, block.free = false → block.addr + headerSize ≠ pointer

theorem HeapInv.finds (inv : HeapInv heap blocks) (size : Nat) :
    (∃ block ∈ blocks, block.free = true ∧ size ≤ block.size ∧
      findBlock heap.fuel heap.mem heap.head size = some block.addr) ∨
    (¬∃ block ∈ blocks, block.free = true ∧ size ≤ block.size) ∧
      findBlock heap.fuel heap.mem heap.head size = some 0 := by
  have walked := findBlock_linked size inv.linked inv.addr_ne_zero heap.fuel inv.length_lt_fuel
  rw [← inv.head] at walked
  cases found : blocks.find? fun block => block.free && decide (size ≤ block.size) with
  | none =>
    rw [found] at walked
    refine Or.inr ⟨?_, walked⟩
    rintro ⟨block, member, free, large⟩
    have refused := List.find?_eq_none.mp found block member
    simp [free, large] at refused
  | some block =>
    have chosen := List.find?_some found
    simp only [Bool.and_eq_true, decide_eq_true_eq] at chosen
    rw [found] at walked
    exact Or.inl ⟨block, List.mem_of_find?_eq_some found, chosen.1, chosen.2, walked⟩

theorem HeapInv.found (inv : HeapInv heap blocks) (even : size % 8 = 0)
    (fits : ∃ block ∈ blocks, block.free = true ∧ size ≤ block.size) (frames : Frames) (rounds round : Nat) :
    ∃ after pointer more, kmallocLoop frames size (rounds + 1) round heap = some (after, pointer) ∧
      HeapInv after more ∧ (∀ block ∈ blocks, block.free = false → block ∈ more) ∧
      (∀ block ∈ more, block.free = false → block ∈ blocks ∨ block.addr + headerSize = pointer) ∧
      HandsOut size pointer blocks more ∧ after.stop = heap.stop ∧
      ∀ word, after.mem word = heapMagic → heap.mem word = heapMagic ∨ word + headerSize = pointer := by
  rcases inv.finds size with ⟨block, member, free, large, walked⟩ | ⟨none, -⟩
  · obtain ⟨before, after, rfl⟩ := List.append_of_mem member
    have present : block.addr ≠ 0 := inv.addr_ne_zero block member
    have different : ∀ other : Block, other.free = false → other ≠ block := fun other used => ne_of_used used free
    refine ⟨_, block.addr + headerSize, _, ?_, inv.allocate free even, ?_, ?_, ⟨?_, ?_⟩, rfl, ?_⟩
    · rw [kmallocLoop, walked]
      simp only [Option.bind_eq_bind, Option.bind_some]
      rw [if_pos present]
      rfl
    · intro other member used
      simp only [List.mem_append, List.mem_cons, different other used, false_or] at member
      rcases member with early | late
      · exact List.mem_append_left _ (List.mem_append_left _ early)
      · exact List.mem_append_right _ late
    · intro other member used
      rcases List.mem_append.mp member with early | late
      · rcases List.mem_append.mp early with earlier | own
        · exact Or.inl (List.mem_append_left _ earlier)
        · rw [carve_used own used]
          exact Or.inr rfl
      · exact Or.inl (List.mem_append_right _ (List.mem_cons_of_mem _ late))
    · obtain ⟨part, member, used, place, large⟩ := carve_first large
      refine ⟨part, ?_, used, by rw [place], large⟩
      exact List.mem_append_left _ (List.mem_append_right _ member)
    · intro other member used same
      simp only [List.mem_append, List.mem_cons, different other used, false_or] at member
      exact inv.tiles.addr_ne (by decide) other (List.mem_append.mpr member) (by omega)
    intro word magic
    by_cases own : word = block.addr
    · exact Or.inr (by rw [own])
    · have marked := harmless_store (by decide) word magic
      rw [setMagic, store_other own] at marked
      exact Or.inl (inv.toRepresents.split_harmless even word marked)
  · exact absurd fits none

theorem alignUp_word (size : Nat) : size ≤ alignUp size 16 ∧ alignUp size 16 % 8 = 0 := by
  rw [alignUp]
  omega

variable (inv : HeapInv heap blocks)
include inv

theorem HeapInv.kmalloc (frames : Frames) (size : Nat) :
    ∃ after pointer more, KernelHeap.kmalloc frames size heap = some (after, pointer) ∧ HeapInv after more ∧
      (∀ block ∈ blocks, block.free = false → block ∈ more) ∧
      (∀ block ∈ more, block.free = false → block ∈ blocks ∨ block.addr + headerSize = pointer) ∧
      (pointer ≠ 0 → HandsOut size pointer blocks more) ∧ heap.stop ≤ after.stop ∧
      ∀ word < heap.stop, after.mem word = heapMagic → heap.mem word = heapMagic ∨ word + headerSize = pointer := by
  rw [KernelHeap.kmalloc]
  split
  · exact ⟨heap, 0, blocks, rfl, inv, fun _ member _ => member, fun _ member _ => Or.inl member, by simp,
      Nat.le_refl _, fun _ _ magic => Or.inl magic⟩
  obtain ⟨large, even⟩ := alignUp_word size
  have narrow : ∀ {pointer : Nat} {old more : List Block}, HandsOut (alignUp size 16) pointer old more →
      HandsOut size pointer old more := by
    rintro pointer old more ⟨⟨block, member, used, place, room⟩, fresh⟩
    exact ⟨⟨block, member, used, place, by omega⟩, fresh⟩
  rcases inv.finds (alignUp size 16) with ⟨block, member, free, fits, -⟩ | ⟨-, walked⟩
  · obtain ⟨after, pointer, more, returned, kept, used, only, hands, unmoved, harmless⟩ :=
      inv.found even ⟨block, member, free, fits⟩ frames 1 0
    exact ⟨after, pointer, more, returned, kept, used, only, fun _ => narrow hands, unmoved.ge,
      fun word _ => harmless word⟩
  · obtain ⟨grown, ok, wider, expanded, expandedInv, same, room, grows, old⟩ := inv.expand frames 0
      (Nat.le_add_left headerSize (alignUp size 16))
    rw [kmallocLoop, walked]
    simp only [Option.bind_eq_bind, Option.bind_some, ne_eq, not_true, if_false, expanded]
    cases ok with
    | false =>
      refine ⟨grown, 0, wider, rfl, expandedInv, ?_, ?_, by simp, grows,
        fun word low magic => Or.inl (old word low magic)⟩
      · intro block member used
        exact (same block used).mpr member
      · intro block member used
        exact Or.inl ((same block used).mp member)
    | true =>
      obtain ⟨block, member, free, size_⟩ := room rfl
      obtain ⟨after, pointer, more, returned, kept, used, only, hands, unmoved, harmless⟩ := expandedInv.found even
        ⟨block, member, free, by omega⟩ frames 0 1
      refine ⟨after, pointer, more, returned, kept, ?_, ?_, ?_, grows.trans unmoved.ge,
        fun word low magic => (harmless word magic).imp_left (old word low)⟩
      · intro other old inUse
        exact used other ((same other inUse).mpr old) inUse
      · intro other new inUse
        exact (only other new inUse).imp_left (same other inUse).mp
      · intro _
        obtain ⟨out, fresh⟩ := narrow hands
        exact ⟨out, fun other old inUse => fresh other ((same other inUse).mpr old) inUse⟩

theorem HeapInv.borrow (frames : Frames) (size : Nat) :
    ∃ after pointer, KernelHeap.kmalloc frames size heap = some (after, pointer) ∧
      ∃ returned more, KernelHeap.kfree pointer after = some returned ∧ HeapInv returned more ∧
        SameUsed blocks more := by
  obtain ⟨after, pointer, more, allocated, kept, used, only, hands, -⟩ := inv.kmalloc frames size
  refine ⟨after, pointer, allocated, ?_⟩
  by_cases null : pointer = 0
  · refine ⟨after, more, if_pos null, kept, ?_⟩
    intro block inUse
    refine ⟨fun member => (only block member inUse).resolve_right ?_, fun member => used block member inUse⟩
    rw [null, headerSize]
    omega
  · obtain ⟨⟨block, own, inUse, place, _⟩, fresh⟩ := hands null
    obtain ⟨front, rest, rfl⟩ := List.append_of_mem own
    obtain ⟨mem, left, freed, represents, separated, same, -⟩ := kept.toRepresents.kfree inUse kept.separated
    rw [place]
    refine ⟨_, left, freed, ⟨represents, separated, kept.page⟩, ?_⟩
    intro other otherUsed
    rw [same other otherUsed]
    constructor
    · intro member
      have apart := kept.tiles.addr_ne (by decide) other member
      exact (only other (by simp at member ⊢; tauto) otherUsed).resolve_right (by omega)
    intro member
    have different : other ≠ block := by
      rintro rfl
      exact fresh other member otherUsed place.symm
    have kept := used other member otherUsed
    simpa only [List.mem_append, List.mem_cons, different, false_or] using kept

theorem HeapInv.heapExpand_refused (refused : frames.maps 0 heap.stop = false)
    (required : Nat) (positive : 0 < required) :
    ∃ grown, heapExpand frames 0 required heap = some (grown, false) := by
  obtain ⟨later, page⟩ := alignUp_page (heap.stop + required)
  rw [heapExpand]
  generalize alignUp (heap.stop + required) pmmPageSize = newEnd at *
  split
  · exact ⟨_, rfl⟩
  have pages : (newEnd - heap.stop) / pmmPageSize = (newEnd - heap.stop) / pmmPageSize - 1 + 1 := by
    have aligned := inv.page
    rw [pmmPageSize] at aligned page ⊢
    omega
  rw [pages, mapPages, refused]
  simp

theorem HeapInv.kmalloc_null_iff (refused : frames.maps 0 heap.stop = false)
    {pointer : Nat} (positive : size ≠ 0) {heapAfter : Heap}
    (returned : KernelHeap.kmalloc frames size heap = some (heapAfter, pointer)) :
    pointer = 0 ↔ findBlock heap.fuel heap.mem heap.head (alignUp size 16) = some 0 := by
  have walked := findBlock_linked (alignUp size 16) inv.linked inv.addr_ne_zero heap.fuel inv.length_lt_fuel
  rw [← inv.head] at walked
  obtain ⟨grown, expanded⟩ := inv.heapExpand_refused refused (alignUp size 16 + headerSize)
    (Nat.add_pos_right _ (by decide))
  rw [KernelHeap.kmalloc, if_neg positive, kmallocLoop, walked] at returned
  rw [walked, Option.some.injEq]
  simp only [Option.bind_eq_bind, Option.bind_some] at returned
  split at returned
  · simp only [Option.pure_def, Option.some.injEq, Prod.mk.injEq] at returned
    omega
  · simp only [expanded, Option.bind_some, Bool.not_false, if_true, Option.pure_def, Option.some.injEq,
      Prod.mk.injEq] at returned
    omega

end

end PhotonOS.KernelHeap
