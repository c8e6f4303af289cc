import PhotonOS.Lib.Transition

/-!
The kernel heap. Its blocks are a doubly linked list inside the heap itself: a
header of five 8-byte words, then the payload. Memory is modelled word by word;
block addresses and sizes are multiples of 8, so no two words overlap partly.
-/

namespace PhotonOS.KernelHeap

def kernelHeapBase : Nat := 0xFFFFFFFF90000000
def kernelHeapInitialPages : Nat := 4
def kernelHeapMaxPages : Nat := 256
def pmmPageSize : Nat := 4096
def heapMagic : Nat := 0x48454150424C4B31
def heapFreedMagic : Nat := 0xDEADBEEF48454150
def heapMinSplit : Nat := 32

def heapPoisonWord : Nat := 0xDDDDDDDDDDDDDDDD

def headerSize : Nat := 40

abbrev Memory := Nat → Nat

def store (mem : Memory) (address value : Nat) : Memory :=
  fun other => if other = address then value else mem other

section

variable (mem : Memory) (block : Nat)

def blockMagic : Nat := mem block
def blockSize : Nat := mem (block + 8)
def blockFree : Nat := mem (block + 16)
def blockNext : Nat := mem (block + 24)
def blockPrev : Nat := mem (block + 32)

def setMagic (value : Nat) : Memory := store mem block value
def setSize (value : Nat) : Memory := store mem (block + 8) value
def setFree (value : Nat) : Memory := store mem (block + 16) value
def setNext (value : Nat) : Memory := store mem (block + 24) value
def setPrev (value : Nat) : Memory := store mem (block + 32) value

end

structure Heap where
  mem : Memory
  head : Nat
  start : Nat
  stop : Nat
  limit : Nat

def Heap.fuel (heap : Heap) : Nat := (heap.stop - heap.start) / headerSize + 1

/-- What `pmm_alloc` and `vmm_map` do in a call: whether page `page` can be mapped in a given round, and
what the frame then holds. -/
structure Frames where
  maps : Nat → Nat → Bool
  contents : Nat → Nat → Nat

def alignUp (value alignment : Nat) : Nat := (value + alignment - 1) / alignment * alignment

def mapPages (frames : Frames) (round : Nat) : Nat → Nat → Memory → Memory × Bool
  | 0, _, mem => (mem, true)
  | count + 1, page, mem =>
    if frames.maps round page then
      mapPages frames round count (page + pmmPageSize) fun address =>
        if page ≤ address ∧ address < page + pmmPageSize then frames.contents round address else mem address
    else (mem, false)

def lastBlock : Nat → Memory → Nat → Option Nat
  | 0, _, _ => none
  | fuel + 1, mem, tail =>
    if tail ≠ 0 ∧ blockNext mem tail ≠ 0 then lastBlock fuel mem (blockNext mem tail) else some tail

def heapExpand (frames : Frames) (round required : Nat) (heap : Heap) : Option (Heap × Bool) :=
  let newEnd := alignUp (heap.stop + required) pmmPageSize
  if newEnd > heap.limit then some (heap, false)
  else
    let (mem, mapped) := mapPages frames round ((newEnd - heap.stop) / pmmPageSize) heap.stop heap.mem
    if !mapped then some ({ heap with mem := mem }, false)
    else do
      let added := newEnd - heap.stop
      let tail ← lastBlock heap.fuel mem heap.head
      if tail ≠ 0 ∧ blockFree mem tail ≠ 0 then
        return ({ heap with mem := setSize mem tail (blockSize mem tail + added), stop := newEnd }, true)
      else
        let block := heap.stop
        let mem := setMagic mem block heapFreedMagic
        let mem := setSize mem block (added - headerSize)
        let mem := setFree mem block 1
        let mem := setNext mem block 0
        let mem := setPrev mem block tail
        if tail ≠ 0 then return ({ heap with mem := setNext mem tail block, stop := newEnd }, true)
        else return ({ heap with mem := mem, head := block, stop := newEnd }, true)

def heapSplitBlock (mem : Memory) (block size : Nat) : Memory :=
  if blockSize mem block < size + headerSize + heapMinSplit then mem
  else
    let newBlock := block + headerSize + size
    let mem := setMagic mem newBlock heapFreedMagic
    let mem := setSize mem newBlock (blockSize mem block - size - headerSize)
    let mem := setFree mem newBlock 1
    let mem := setNext mem newBlock (blockNext mem block)
    let mem := setPrev mem newBlock block
    let mem := if blockNext mem newBlock ≠ 0 then setPrev mem (blockNext mem newBlock) newBlock else mem
    let mem := setSize mem block size
    setNext mem block newBlock

def mergeNext (mem : Memory) (block : Nat) : Memory :=
  let next := blockNext mem block
  if next ≠ 0 ∧ blockFree mem next ≠ 0 then
    let mem := setSize mem block (blockSize mem block + (headerSize + blockSize mem next))
    let mem := setNext mem block (blockNext mem next)
    if blockNext mem block ≠ 0 then setPrev mem (blockNext mem block) block else mem
  else mem

def heapCoalesce : Nat → Memory → Nat → Option Memory
  | 0, _, _ => none
  | fuel + 1, mem, block =>
    let mem := mergeNext mem block
    let prev := blockPrev mem block
    if prev ≠ 0 ∧ blockFree mem prev ≠ 0 then heapCoalesce fuel mem prev else some mem

def validateFrom : Nat → Memory → Nat → Option Bool
  | 0, _, _ => none
  | fuel + 1, mem, curr =>
    if curr = 0 then some true
    else if blockMagic mem curr ≠ heapMagic ∧ blockMagic mem curr ≠ heapFreedMagic then some false
    else if blockNext mem curr ≠ 0 ∧ blockPrev mem (blockNext mem curr) ≠ curr then some false
    else validateFrom fuel mem (blockNext mem curr)

def heapValidate (heap : Heap) : Option Bool := validateFrom heap.fuel heap.mem heap.head

def heapInit (frames : Frames) (mem : Memory) : Option Heap := do
  let heap : Heap := {
    mem := mem
    head := 0
    start := kernelHeapBase
    stop := kernelHeapBase
    limit := kernelHeapBase + kernelHeapMaxPages * pmmPageSize }
  let (heap, _) ← heapExpand frames 0 (kernelHeapInitialPages * pmmPageSize) heap
  return heap

def findBlock : Nat → Memory → Nat → Nat → Option Nat
  | 0, _, _, _ => none
  | fuel + 1, mem, block, size =>
    if block = 0 then some 0
    else if (blockMagic mem block = heapMagic ∨ blockMagic mem block = heapFreedMagic) ∧
        blockFree mem block ≠ 0 ∧ blockSize mem block ≥ size then some block
    else findBlock fuel mem (blockNext mem block) size

def kmallocLoop (frames : Frames) (size : Nat) : Nat → Nat → Heap → Option (Heap × Nat)
  | 0, _, _ => none
  | rounds + 1, round, heap => do
      let block ← findBlock heap.fuel heap.mem heap.head size
      if block ≠ 0 then
        let mem := heapSplitBlock heap.mem block size
        let mem := setMagic mem block heapMagic
        return ({ heap with mem := setFree mem block 0 }, block + headerSize)
      else
        let (heap, expanded) ← heapExpand frames round (size + headerSize) heap
        if !expanded then return (heap, 0)
        else kmallocLoop frames size rounds (round + 1) heap

/-- `kmalloc`; the result 0 is the null pointer. The second round always finds a block. -/
def kmalloc (frames : Frames) (size : Nat) (heap : Heap) : Option (Heap × Nat) :=
  if size = 0 then some (heap, 0) else kmallocLoop frames (alignUp size 16) 2 0 heap

def poison (mem : Memory) (payload size : Nat) : Memory :=
  fun address => if payload ≤ address ∧ address < payload + size then heapPoisonWord else mem address

def kfree (pointer : Nat) (heap : Heap) : Option Heap :=
  if pointer = 0 then some heap
  else
    let block := pointer - headerSize
    if block < heap.start ∨ block ≥ heap.stop then some heap
    else if blockMagic heap.mem block = heapFreedMagic ∨ blockFree heap.mem block ≠ 0 then some heap
    else if blockMagic heap.mem block ≠ heapMagic then some heap
    else do
      let mem := poison heap.mem (block + headerSize) (blockSize heap.mem block)
      let mem := setMagic mem block heapFreedMagic
      let mem := setFree mem block 1
      let mem ← heapCoalesce heap.fuel mem block
      return { heap with mem := mem }

structure HeapState where
  heap : Heap
  live : List (Nat × Nat)

/-- `store` is a write of the owner into its payload. -/
inductive HeapCall where
  | kmalloc (size : Nat) (frames : Frames)
  | kfree (pointer : Nat)
  | store (pointer offset value : Nat)

def heapCall (state : HeapState) : HeapCall → Option HeapState
  | .kmalloc size frames => do
      let (heap, pointer) ← kmalloc frames size state.heap
      return { heap := heap, live := if pointer = 0 then state.live else (pointer, size) :: state.live }
  | .kfree pointer => do
      let heap ← kfree pointer state.heap
      return { heap := heap, live := state.live.filter (·.1 != pointer) }
  | .store pointer offset value =>
    some { state with heap := { state.heap with mem := store state.heap.mem (pointer + offset) value } }

/-- A run that has met a walk without end stays there. -/
def heapStep (state : Option HeapState) (call : HeapCall) : Option HeapState := state.bind (heapCall · call)

def heapStart (frames : Frames) (mem : Memory) : Option HeapState :=
  (heapInit frames mem).map fun heap => { heap := heap, live := [] }

end PhotonOS.KernelHeap
