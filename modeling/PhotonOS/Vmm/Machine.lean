import Mathlib.Algebra.Group.Nat.Defs

/-!
Physical memory and the frame allocator of `memory.c`. A frame is 512 words; an
address is the 64-bit pointer of the source, which reaches memory through the
identity map.
-/

namespace PhotonOS

def pmmPageSize : Nat := 4096
def pmmMaxBlocks : Nat := 32768
def pmmReservedEnd : Nat := 0x100000

/-- The bitmap and the reference counts. `exhausted` records that some `pmm_alloc` returned `NULL`. -/
structure Pmm where
  bitmap : Nat → Bool
  refcounts : Nat → BitVec 32
  total : Nat
  reserved : Nat
  exhausted : Bool

structure Machine where
  mem : Nat → Nat → BitVec 64
  pmm : Pmm
  kernelPml4 : BitVec 64

def alignUp (value : Nat) : Nat := (value + (pmmPageSize - 1)) / pmmPageSize * pmmPageSize

def pmmInit (kernelEnd : Nat) : Pmm :=
  let reserved := min (max (alignUp pmmReservedEnd) (alignUp kernelEnd) / pmmPageSize) pmmMaxBlocks
  { bitmap := fun block => decide (block < reserved)
    refcounts := fun block => if block < reserved then 1 else 0
    total := pmmMaxBlocks
    reserved := reserved
    exhausted := false }

def frameAddress (frame : Nat) : BitVec 64 := BitVec.ofNat 64 (frame * pmmPageSize)

def frameOf (address : BitVec 64) : Nat := address.toNat / pmmPageSize

namespace Machine

def read (machine : Machine) (table : BitVec 64) (index : Nat) : BitVec 64 :=
  machine.mem (frameOf table) index

def write (machine : Machine) (table : BitVec 64) (index : Nat) (value : BitVec 64) : Machine :=
  { machine with mem := fun frame position =>
      if frame = frameOf table ∧ position = index then value else machine.mem frame position }

def fill (machine : Machine) (page : BitVec 64) (words : Nat → BitVec 64) : Machine :=
  { machine with mem := fun frame position =>
      if frame = frameOf page then words position else machine.mem frame position }

def clearPage (machine : Machine) (page : BitVec 64) : Machine := machine.fill page fun _ => 0

def copyPage (machine : Machine) (dest source : BitVec 64) : Machine := machine.fill dest (machine.read source)

end Machine

/-- `pmm_alloc`: the first clear bit, or the null pointer. -/
def pmmAlloc (machine : Machine) : Machine × BitVec 64 :=
  match (List.range machine.pmm.total).find? fun block => !machine.pmm.bitmap block with
  | none => ({ machine with pmm := { machine.pmm with exhausted := true } }, 0)
  | some block =>
    ({ machine with pmm := { machine.pmm with
        bitmap := fun other => if other = block then true else machine.pmm.bitmap other
        refcounts := fun other => if other = block then 1 else machine.pmm.refcounts other } }, frameAddress block)

def pmmFree (machine : Machine) (address : BitVec 64) : Machine :=
  let block := frameOf address
  if address.toNat % pmmPageSize ≠ 0 ∨ block ≥ machine.pmm.total ∨ block < machine.pmm.reserved then machine
  else if machine.pmm.refcounts block = 0 then machine
  else
    let count := machine.pmm.refcounts block - 1
    { machine with pmm := { machine.pmm with
        bitmap := fun other => if other = block ∧ count = 0 then false else machine.pmm.bitmap other
        refcounts := fun other => if other = block then count else machine.pmm.refcounts other } }

def pmmRefInc (machine : Machine) (address : BitVec 64) : Machine :=
  let block := frameOf address
  if address.toNat % pmmPageSize ≠ 0 ∨ block ≥ machine.pmm.total then machine
  else
    { machine with pmm := { machine.pmm with
        refcounts := fun other =>
          if other = block then machine.pmm.refcounts block + 1 else machine.pmm.refcounts other } }

def pmmRefGet (machine : Machine) (address : BitVec 64) : BitVec 32 :=
  let block := frameOf address
  if address.toNat % pmmPageSize ≠ 0 ∨ block ≥ machine.pmm.total then 0 else machine.pmm.refcounts block

end PhotonOS
