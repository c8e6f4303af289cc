import PhotonOS.Exec.Arguments
import PhotonOS.Signal.Delivery

/-!
The ELF loader of `elf.c`: the checks on headers and segments, the pages of
segments, stack and trampoline in a new address space, and the release of an
address space.
-/

namespace PhotonOS.Exec

open ByteMemory

/-- A VFS node as the loader sees it; `read` is `vfs_read`, with `none` for an error. -/
structure FileNode where
  isFile : Bool
  size : Nat
  read : Nat → Nat → Option (List UInt8)

def FileNode.readExact (node : FileNode) (offset count : Nat) : Option (List UInt8) :=
  (node.read offset count).filter (·.length = count)

def fieldAt (bytes : List UInt8) (offset count : Nat) : Nat := Bytes.ofBytes ((bytes.drop offset).take count).reverse

structure ElfHeader where
  ident : List UInt8
  type : Nat
  machine : Nat
  version : Nat
  entry : Nat
  phoff : Nat
  ehsize : Nat
  phentsize : Nat
  phnum : Nat
  deriving DecidableEq, Repr

def elfHeaderSize : Nat := 64

def parseElfHeader (bytes : List UInt8) : ElfHeader where
  ident := bytes.take 16
  type := fieldAt bytes 16 2
  machine := fieldAt bytes 18 2
  version := fieldAt bytes 20 4
  entry := fieldAt bytes 24 8
  phoff := fieldAt bytes 32 8
  ehsize := fieldAt bytes 52 2
  phentsize := fieldAt bytes 54 2
  phnum := fieldAt bytes 56 2

structure ProgramHeader where
  type : Nat
  flags : Nat
  offset : Nat
  vaddr : Nat
  filesz : Nat
  memsz : Nat
  align : Nat
  deriving DecidableEq, Repr

def programHeaderSize : Nat := 56

def parseProgramHeader (bytes : List UInt8) : ProgramHeader where
  type := fieldAt bytes 0 4
  flags := fieldAt bytes 4 4
  offset := fieldAt bytes 8 8
  vaddr := fieldAt bytes 16 8
  filesz := fieldAt bytes 32 8
  memsz := fieldAt bytes 40 8
  align := fieldAt bytes 48 8

def ptLoad : Nat := 1

def ProgramHeader.executable (header : ProgramHeader) : Bool := header.flags.testBit 0
def ProgramHeader.writable (header : ProgramHeader) : Bool := header.flags.testBit 1

def elfIdent : List UInt8 := [0x7F, 69, 76, 70, 2, 1, 1]

def elfValidate (header : ElfHeader) : Bool :=
  header.ident.take 7 == elfIdent && header.type == 2 && header.version == 1 &&
    header.ehsize == elfHeaderSize && header.machine == 62 && header.phentsize == programHeaderSize

def readElfHeader (node : FileNode) : Option ElfHeader :=
  if node.size < elfHeaderSize then none
  else (node.readExact 0 elfHeaderSize).bind fun bytes =>
    let header := parseElfHeader bytes
    if !elfValidate header || header.phnum == 0 || decide (header.phnum > 64) ||
        decide (header.phoff > node.size) || decide (header.phnum * header.phentsize > node.size - header.phoff) then none
    else some header

def openExecutable (find : List UInt8 → Option FileNode) (path : List UInt8) : Option (FileNode × ElfHeader) := do
  let node ← find path
  if !node.isFile then none
  else return (node, ← readElfHeader node)

def readProgramHeader (node : FileNode) (header : ElfHeader) (index : Nat) : Option ProgramHeader :=
  (node.readExact (header.phoff + index * header.phentsize) programHeaderSize).map parseProgramHeader

def segmentPageFlags (header : ProgramHeader) : BitVec 64 :=
  let flags := pagePresent ||| pageUser
  let flags := if header.writable then flags ||| pageWritable else flags
  if !header.executable then flags ||| pageNx else flags

def alignDown (value : Nat) : Nat := value / pageSize * pageSize
def alignUp (value : Nat) : Nat := (value + (pageSize - 1)) / pageSize * pageSize

structure Loading where
  machine : Machine
  pages : List (BitVec 64)

def taskPageLimit : Nat := 128

def pageWords (offset : Nat) (bytes : List UInt8) (index : Nat) : BitVec 64 :=
  BitVec.ofNat 64 (loadWord (store (fun _ => 0) ⟨offset, bytes⟩) (8 * index))

/-- The steps that all user pages share: a frame, its entry in the task's inventory, its contents and its
mapping. `none` stands for contents that could not be read. -/
def mapUserPage (state : Loading) (pml4 page flags : BitVec 64) (contents : Option (Nat → BitVec 64)) :
    Loading × Bool :=
  let (machine, physical) := pmmAlloc state.machine
  if physical = 0 then ({ state with machine := machine }, false)
  else if state.pages.length ≥ taskPageLimit then ({ state with machine := pmmFree machine physical }, false)
  else
    match contents with
    | none => ({ state with machine := pmmFree (machine.clearPage physical) physical }, false)
    | some words =>
      let machine := vmmMapInSpace (machine.fill physical words) pml4 page physical flags
      if !vmmIsMapped machine pml4 page then ({ state with machine := pmmFree machine physical }, false)
      else ({ machine := machine, pages := state.pages ++ [physical] }, true)

def segmentWords (node : FileNode) (header : ProgramHeader) (page : Nat) : Option (Nat → BitVec 64) :=
  if page + pageSize > header.vaddr ∧ page < header.vaddr + header.filesz then
    let start := max page header.vaddr
    let stop := min (page + pageSize) (header.vaddr + header.filesz)
    (node.readExact (header.offset + (start - header.vaddr)) (stop - start)).map (pageWords (start - page))
  else some fun _ => 0

def mapSegmentPages (node : FileNode) (pml4 : BitVec 64) (header : ProgramHeader) : Nat → Nat → Loading → Loading × Bool
  | 0, _, state => (state, true)
  | count + 1, page, state =>
    if vmmIsMapped state.machine pml4 (BitVec.ofNat 64 page) then (state, false)
    else
      match mapUserPage state pml4 (BitVec.ofNat 64 page) (segmentPageFlags header)
          (segmentWords node header page) with
      | (state, false) => (state, false)
      | (state, true) => mapSegmentPages node pml4 header count (page + pageSize) state

def segmentAccepted (node : FileNode) (header : ProgramHeader) : Bool :=
  !(decide (header.filesz > header.memsz) || decide (header.offset > node.size) ||
      decide (header.filesz > node.size - header.offset) || decide (header.vaddr > 2 ^ 64 - 1 - header.memsz) ||
      header.memsz == 0 || decide (header.vaddr < userBase) || decide (header.vaddr + header.memsz > userLimit) ||
      decide (header.vaddr + header.memsz > 2 ^ 64 - 1 - (pageSize - 1))) &&
    !(decide (header.align > 1) &&
      (header.align &&& (header.align - 1) != 0 || header.vaddr % header.align != header.offset % header.align))

def segmentPages (header : ProgramHeader) : Nat :=
  (alignUp (header.vaddr + header.memsz) - alignDown header.vaddr) / pageSize

def mapSegment (node : FileNode) (pml4 : BitVec 64) (header : ProgramHeader) (state : Loading) : Loading × Bool :=
  if !segmentAccepted node header then (state, false)
  else mapSegmentPages node pml4 header (segmentPages header) (alignDown header.vaddr) state

/-- The loop over the program headers that both loaders have. `step` takes a `PT_LOAD` segment; `none` is a failure. -/
def forSegments {Scan : Type} (node : FileNode) (header : ElfHeader)
    (step : ProgramHeader → Scan → Loading → Loading × Option Scan) : Nat → Nat → Scan → Loading → Loading × Option Scan
  | 0, _, scan, state => (state, some scan)
  | count + 1, index, scan, state =>
    match readProgramHeader node header index with
    | none => (state, none)
    | some segment =>
      let result := if segment.type ≠ ptLoad then (state, some scan) else step segment scan state
      match result with
      | (state, none) => (state, none)
      | (state, some scan) => forSegments node header step count (index + 1) scan state

def stackFlags : BitVec 64 := pagePresent ||| pageWritable ||| pageUser

def mapStackPages (pml4 : BitVec 64) : Nat → Nat → Loading → Loading × Bool
  | 0, _, state => (state, true)
  | count + 1, page, state =>
    match mapUserPage state pml4 (BitVec.ofNat 64 page) stackFlags (some fun _ => 0) with
    | (state, false) => (state, false)
    | (state, true) => mapStackPages pml4 count (page + pageSize) state

def mapUserStack (pml4 : BitVec 64) (argument : Option (List UInt8)) (state : Loading) : Loading × Bool :=
  match mapStackPages pml4 elfUserStackPages stackBottom state with
  | (state, false) => (state, false)
  | (state, true) =>
    match argument, state.pages.getLast? with
    | some bytes, some top =>
      ({ state with machine := state.machine.fill top (pageWords (pageSize - 256) (bytes.take 255 ++ [0])) }, true)
    | _, _ => (state, true)

def signalTrampolineCode : List UInt8 :=
  [0x48, 0xC7, 0xC0, 0x0C, 0x00, 0x00, 0x00, 0x0F, 0x05, 0xF3, 0x90, 0xEB, 0xFC]

def trampolineFlags : BitVec 64 := pagePresent ||| pageUser

def mapSignalTrampoline (pml4 : BitVec 64) (state : Loading) : Loading × Bool :=
  mapUserPage state pml4 signalTrampolineAddr trampolineFlags (some (pageWords 0 signalTrampolineCode))

def userPresent (entry : BitVec 64) : Bool := hasFlag entry pagePresent && hasFlag entry pageUser

def destroyPd (pd : BitVec 64) (machine : Machine) : Machine :=
  (List.range vmmTableEntries).foldl (fun machine index =>
    if userPresent (machine.read pd index) then pmmFree machine (entryTable (machine.read pd index)) else machine)
    machine

def destroyPdpt (pdpt : BitVec 64) (machine : Machine) : Machine :=
  (List.range vmmTableEntries).foldl (fun machine index =>
    if userPresent (machine.read pdpt index) then
      pmmFree (destroyPd (entryTable (machine.read pdpt index)) machine) (entryTable (machine.read pdpt index))
    else machine)
    machine

def vmmDestroyAddressSpace (pml4 : BitVec 64) (machine : Machine) : Machine :=
  if pml4 = 0 ∨ pml4 = machine.kernelPml4 then machine
  else pmmFree ((List.range vmmTableEntries).foldl (fun machine index =>
    if userPresent (machine.read pml4 index) then
      pmmFree (destroyPdpt (entryTable (machine.read pml4 index)) machine) (entryTable (machine.read pml4 index))
    else machine)
    machine) pml4

end PhotonOS.Exec
