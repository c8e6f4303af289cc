import PhotonOS.Lib.Transition
import PhotonOS.Vmm.TableTree

/-!
User programs on top of the page tables. An address space is created or cloned,
pages are mapped into it, and its program stores words; the abstract counterpart
gives every program a memory of its own.
-/

namespace PhotonOS

def pfErrorUser : BitVec 64 := 0x4

def userTranslate (machine : Machine) (pml4 address : BitVec 64) : Option (BitVec 64 × Bool) :=
  let indices := indicesOf address
  let allowed := fun entry => hasFlag entry pagePresent && hasFlag entry pageUser
  let first := machine.read pml4 indices.pml4
  if !allowed first then none
  else
    let second := machine.read (entryTable first) indices.pdpt
    if !allowed second then none
    else
      let third := machine.read (entryTable second) indices.pd
      if !allowed third then none
      else
        let entry := machine.read (entryTable third) indices.pt
        if !allowed entry then none
        else some (entry, hasFlag first pageWritable && hasFlag second pageWritable &&
          hasFlag third pageWritable && hasFlag entry pageWritable)

def wordIndex (address : BitVec 64) : Nat := address.toNat % pmmPageSize / 8

def userRead (machine : Machine) (pml4 address : BitVec 64) : Option (BitVec 64) :=
  (userTranslate machine pml4 address).map fun (entry, _) => machine.read (entryTable entry) (wordIndex address)

def storeWord (machine : Machine) (pml4 address value : BitVec 64) : Option Machine :=
  match userTranslate machine pml4 address with
  | some (entry, true) => some (machine.write (entryTable entry) (wordIndex address) value)
  | _ => none

def userStore (machine : Machine) (pml4 address value : BitVec 64) : Machine :=
  match storeWord machine pml4 address value with
  | some stored => stored
  | none =>
    let present := if (faultWalk machine pml4 address).isSome then pfErrorPresent else 0
    let (handled, resolved) := vmmPageFaultHandler machine pml4 (present ||| pfErrorWrite ||| pfErrorUser) address
    if resolved then (storeWord handled pml4 address value).getD handled else handled

structure Vm where
  machine : Machine
  spaces : List (BitVec 64)

inductive VmEvent where
  | create
  | map (space : Nat) (address flags : BitVec 64) (words : Nat → BitVec 64)
  | clone (space : Nat)
  | write (space : Nat) (address value : BitVec 64)

def UserAddress (address : BitVec 64) : Prop :=
  1 ≤ (indicesOf address).pml4 ∧ (indicesOf address).pml4 ≤ 255

instance (address : BitVec 64) : Decidable (UserAddress address) := inferInstanceAs (Decidable (_ ∧ _))

def mappable (machine : Machine) (pml4 address flags : BitVec 64) : Bool :=
  decide (UserAddress address) && hasFlag flags pagePresent && hasFlag flags pageUser &&
    !vmmIsMapped machine pml4 address

/-- The loader's way to a new page: a frame from `pmm_alloc`, its contents, its mapping. -/
def mapPage (machine : Machine) (pml4 address flags : BitVec 64) (words : Nat → BitVec 64) : Machine :=
  let (machine, physical) := pmmAlloc machine
  if physical = 0 then machine
  else vmmMapInSpace (machine.fill physical words) pml4 address physical flags

def Vm.join (vm : Vm) (result : Machine × BitVec 64) : Vm :=
  { machine := result.1
    spaces := if result.2 = 0 then vm.spaces else vm.spaces ++ [result.2] }

def vmStep (vm : Vm) : VmEvent → Vm
  | .create => vm.join (vmmCreateAddressSpace vm.machine)
  | .map space address flags words =>
    match vm.spaces[space]? with
    | none => vm
    | some pml4 =>
      if mappable vm.machine pml4 address flags then
        { vm with machine := mapPage vm.machine pml4 address flags words }
      else vm
  | .clone space =>
    match vm.spaces[space]? with
    | none => vm
    | some pml4 => vm.join (vmmCloneAddressSpace vm.machine pml4)
  | .write space address value =>
    match vm.spaces[space]? with
    | none => vm
    | some pml4 => if UserAddress address then { vm with machine := userStore vm.machine pml4 address value } else vm

def Vm.boot (mem : Nat → Nat → BitVec 64) (kernelPml4 : BitVec 64) (kernelEnd : Nat) : Vm where
  machine := { mem := mem, pmm := pmmInit kernelEnd, kernelPml4 := kernelPml4 }
  spaces := []

/-! The abstract memories. -/

structure UserPage where
  writable : Bool
  words : Nat → BitVec 64

abbrev UserMemory : Type := Indices → Option UserPage

def UserMemory.empty : UserMemory := fun _ => none

def UserMemory.map (memory : UserMemory) (indices : Indices) (page : UserPage) : UserMemory :=
  fun other => if other = indices ∧ memory indices = none then some page else memory other

def UserPage.store (page : UserPage) (index : Nat) (value : BitVec 64) : UserPage :=
  if page.writable then { page with words := fun other => if other = index then value else page.words other }
  else page

def UserMemory.store (memory : UserMemory) (indices : Indices) (index : Nat) (value : BitVec 64) : UserMemory :=
  fun other => if other = indices then (memory other).map (·.store index value) else memory other

def UserMemory.read (memory : UserMemory) (address : BitVec 64) : Option (BitVec 64) :=
  (memory (indicesOf address)).map (·.words (wordIndex address))

def memoryStep (memories : List UserMemory) : VmEvent → List UserMemory
  | .create => memories ++ [UserMemory.empty]
  | .map space address flags words =>
    if UserAddress address ∧ hasFlag flags pagePresent ∧ hasFlag flags pageUser then
      memories.modify space fun memory => memory.map (indicesOf address)
        { writable := hasFlag flags pageWritable || hasFlag flags pageCow, words := words }
    else memories
  | .clone space => memories ++ memories[space]?.toList
  | .write space address value =>
    if UserAddress address then
      memories.modify space fun memory => memory.store (indicesOf address) (wordIndex address) value
    else memories

end PhotonOS
