import PhotonOS.Vmm.Machine

/-!
The four-level page tables of `vmm.c`: mapping, cloning with copy-on-write, the
page-fault handler and the pointer checks. The index order is PML4, page
directory pointer table, page directory, page table.
-/

namespace PhotonOS

def vmmPageMask : BitVec 64 := 0xFFFFFFFFFFFFF000
def vmmEntryAddrMask : BitVec 64 := 0x000FFFFFFFFFF000
def vmmEntryFlagsMask : BitVec 64 := 0x8000000000000FFF
def vmmTableEntries : Nat := 512
def vmmUserBase : BitVec 64 := 0x1000
def vmmUserLimit : BitVec 64 := 0x0000800000000000

def pagePresent : BitVec 64 := 0x1
def pageWritable : BitVec 64 := 0x2
def pageUser : BitVec 64 := 0x4
def pageCow : BitVec 64 := 0x200
def pageNx : BitVec 64 := 0x8000000000000000

def pfErrorPresent : BitVec 64 := 0x1
def pfErrorWrite : BitVec 64 := 0x2

def hasFlag (entry flag : BitVec 64) : Bool := entry &&& flag != 0

def tableFlags (flags : BitVec 64) : BitVec 64 := pagePresent ||| pageWritable ||| (flags &&& pageUser)

def entryTable (entry : BitVec 64) : BitVec 64 := entry &&& vmmEntryAddrMask

def validTablePointer (table : BitVec 64) : Bool := table != 0 && table &&& 0xFFF#64 == 0

def validTableEntry (entry : BitVec 64) : Bool := validTablePointer (entry &&& vmmEntryAddrMask)

structure Indices where
  pml4 : Nat
  pdpt : Nat
  pd : Nat
  pt : Nat
  deriving DecidableEq, Repr

def indexAt (address : BitVec 64) (shift : Nat) : Nat := ((address >>> shift) &&& 0x1FF#64).toNat

def indicesOf (address : BitVec 64) : Indices where
  pml4 := indexAt address 39
  pdpt := indexAt address 30
  pd := indexAt address 21
  pt := indexAt address 12

def linkTable (machine : Machine) (table : BitVec 64) (index : Nat) (flags : BitVec 64)
    (words : Nat → BitVec 64) : Machine × BitVec 64 :=
  let (allocated, fresh) := pmmAlloc machine
  if fresh = 0 then (allocated, 0)
  else ((allocated.fill fresh words).write table index ((fresh &&& vmmEntryAddrMask) ||| tableFlags flags), fresh)

/-- `ensure_next_table`; the null pointer is its error return. -/
def ensureNextTable (machine : Machine) (table : BitVec 64) (index : Nat) (flags : BitVec 64) : Machine × BitVec 64 :=
  if !validTablePointer table || decide (index ≥ vmmTableEntries) then (machine, 0)
  else
    let machine :=
      if hasFlag (machine.read table index) pagePresent && !validTableEntry (machine.read table index) then
        machine.write table index 0
      else machine
    let entry := machine.read table index
    let (machine, linked) :=
      if !hasFlag entry pagePresent then linkTable machine table index flags fun _ => 0
      -- a kernel table on the path of a user page is replaced by a copy
      else if hasFlag flags pageUser && !hasFlag entry pageUser then
        linkTable machine table index flags (machine.read (entryTable entry))
      else (machine, entryTable entry)
    if linked = 0 then (machine, 0)
    else
      let next := entryTable (machine.read table index)
      if !validTablePointer next then linkTable machine table index flags fun _ => 0 else (machine, next)

def mapInPml4 (machine : Machine) (pml4 virtualAddr physicalAddr flags : BitVec 64) : Machine :=
  let indices := indicesOf (virtualAddr &&& vmmPageMask)
  let physical := physicalAddr &&& vmmPageMask
  let (machine, pdpt) := ensureNextTable machine pml4 indices.pml4 flags
  if pdpt = 0 then machine
  else
    let (machine, pd) := ensureNextTable machine pdpt indices.pdpt flags
    if pd = 0 then machine
    else
      let (machine, pt) := ensureNextTable machine pd indices.pd flags
      if pt = 0 then machine
      else machine.write pt indices.pt
        ((physical &&& vmmEntryAddrMask) ||| (flags &&& vmmEntryFlagsMask))

def vmmMapInSpace (machine : Machine) (pml4 virtualAddr physicalAddr flags : BitVec 64) : Machine :=
  if pml4 = 0 then machine else mapInPml4 machine pml4 virtualAddr physicalAddr flags

/-- `vmm_create_address_space`: entry 0 and the upper half come from the kernel. -/
def vmmCreateAddressSpace (machine : Machine) : Machine × BitVec 64 :=
  let (machine, pml4) := pmmAlloc machine
  if pml4 = 0 then (machine, 0)
  else
    let machine := machine.clearPage pml4
    (machine.fill pml4 (fun index =>
      if index = 0 ∨ 256 ≤ index ∧ index < 512 then machine.read machine.kernelPml4 index
      else machine.read pml4 index), pml4)

def clonable (entry : BitVec 64) : Bool :=
  hasFlag entry pagePresent && hasFlag entry pageUser && validTableEntry entry

def virtualAddress (indices : Indices) : BitVec 64 :=
  (BitVec.ofNat 64 indices.pml4 <<< 39) ||| (BitVec.ofNat 64 indices.pdpt <<< 30) |||
    (BitVec.ofNat 64 indices.pd <<< 21) ||| (BitVec.ofNat 64 indices.pt <<< 12)

def cowFlags (flags : BitVec 64) : BitVec 64 :=
  if hasFlag flags pageWritable then (flags &&& ~~~pageWritable) ||| pageCow else flags

def clonePage (child pt : BitVec 64) (pml4Index pdptIndex pdIndex : Nat) (machine : Machine) (index : Nat) :
    Machine :=
  let entry := machine.read pt index
  if !hasFlag entry pagePresent then machine
  else
    let physical := entry &&& vmmEntryAddrMask
    let flags := entry &&& vmmEntryFlagsMask
    let machine :=
      if hasFlag flags pageWritable then machine.write pt index (physical ||| cowFlags flags) else machine
    let machine := mapInPml4 machine child (virtualAddress ⟨pml4Index, pdptIndex, pdIndex, index⟩) physical
      (cowFlags flags)
    pmmRefInc machine physical

def clonePt (child pd : BitVec 64) (pml4Index pdptIndex : Nat) (machine : Machine) (index : Nat) : Machine :=
  let entry := machine.read pd index
  if clonable entry then
    (List.range vmmTableEntries).foldl (clonePage child (entryTable entry) pml4Index pdptIndex index) machine
  else machine

def clonePd (child pdpt : BitVec 64) (pml4Index : Nat) (machine : Machine) (index : Nat) : Machine :=
  let entry := machine.read pdpt index
  if clonable entry then
    (List.range vmmTableEntries).foldl (clonePt child (entryTable entry) pml4Index index) machine
  else machine

def clonePdpt (child parent : BitVec 64) (machine : Machine) (index : Nat) : Machine :=
  let entry := machine.read parent index
  if clonable entry then
    (List.range vmmTableEntries).foldl (clonePd child (entryTable entry) index) machine
  else machine

def vmmCloneAddressSpace (machine : Machine) (parent : BitVec 64) : Machine × BitVec 64 :=
  if !validTablePointer parent then (machine, 0)
  else
    let (machine, child) := pmmAlloc machine
    if child = 0 then (machine, 0)
    else
      let machine := machine.clearPage child
      let machine := machine.fill child (fun index =>
        if index = 0 ∨ 256 ≤ index ∧ index < 512 then machine.read parent index
        else machine.read child index)
      ((List.range' 1 255).foldl (clonePdpt child parent) machine, child)

/-- The walk of the page-fault handler: the page table and its entry for `address`. -/
def faultWalk (machine : Machine) (pml4 address : BitVec 64) : Option (BitVec 64 × BitVec 64) :=
  let indices := indicesOf address
  if !validTablePointer pml4 || !hasFlag (machine.read pml4 indices.pml4) pagePresent then none
  else
    let pdpt := entryTable (machine.read pml4 indices.pml4)
    if !validTablePointer pdpt || !hasFlag (machine.read pdpt indices.pdpt) pagePresent then none
    else
      let pd := entryTable (machine.read pdpt indices.pdpt)
      if !validTablePointer pd || !hasFlag (machine.read pd indices.pd) pagePresent then none
      else
        let pt := entryTable (machine.read pd indices.pd)
        if !validTablePointer pt || !hasFlag (machine.read pt indices.pt) pagePresent then none
        else some (pt, machine.read pt indices.pt)

def resolvedFlags (entry : BitVec 64) : BitVec 64 :=
  ((entry &&& vmmEntryFlagsMask) &&& ~~~pageCow) ||| pageWritable

/-- `vmm_page_fault_handler`; the flag says whether the fault was resolved. -/
def vmmPageFaultHandler (machine : Machine) (cr3 errorCode address : BitVec 64) : Machine × Bool :=
  match faultWalk machine (cr3 &&& vmmEntryAddrMask) address with
  | none => (machine, false)
  | some (pt, entry) =>
    let mask := pfErrorPresent ||| pfErrorWrite
    if errorCode &&& mask = mask ∧ hasFlag entry pageCow then
      let old := entry &&& vmmEntryAddrMask
      let index := indexAt address 12
      if pmmRefGet machine old > 1 then
        let (allocated, fresh) := pmmAlloc machine
        if fresh = 0 then (allocated, false)
        else
          let copied := allocated.copyPage fresh old
          let mapped := copied.write pt index ((fresh &&& vmmEntryAddrMask) ||| resolvedFlags entry)
          (pmmFree mapped old, true)
      else (machine.write pt index (old ||| resolvedFlags entry), true)
    else (machine, false)

def vmmIsMapped (machine : Machine) (pml4 virtualAddr : BitVec 64) : Bool :=
  let indices := indicesOf (virtualAddr &&& vmmPageMask)
  let linked := fun entry => hasFlag entry pagePresent && validTableEntry entry
  if !validTablePointer pml4 || !linked (machine.read pml4 indices.pml4) then false
  else
    let pdpt := entryTable (machine.read pml4 indices.pml4)
    if !linked (machine.read pdpt indices.pdpt) then false
    else
      let pd := entryTable (machine.read pdpt indices.pdpt)
      if !linked (machine.read pd indices.pd) then false
      else
        let pt := entryTable (machine.read pd indices.pd)
        validTablePointer pt && hasFlag (machine.read pt indices.pt) pagePresent

end PhotonOS
