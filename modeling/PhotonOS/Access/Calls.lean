import PhotonOS.Files.TaskFiles

/-!
The calls of a task that open, change or truncate files or change their modes
and owners. Nodes carry an owner, a group and a mode; what `vfs_write` and
`vfs_truncate` do to a file is left to its file system.
-/

namespace PhotonOS.Access

open Files (Kernel NodeOps fdAt freeFd dupFrom)
open Function

inductive NodeType where
  | file
  | directory
  | device
  | pipe
  | socket
  | symlink
deriving DecidableEq

/-- The fields of `vfs_node_t` that the calls look at; `writes` says that `node->write` is not null. -/
structure Node (File : Type) where
  type : NodeType
  uid : BitVec 32
  gid : BitVec 32
  mode : BitVec 32
  writes : Bool
  file : File

structure Credentials where
  uid : BitVec 32
  gid : BitVec 32
  umask : BitVec 32

def vfsCheckPermission {File : Type} (node : Node File) (mask uid gid : BitVec 32) : Bool :=
  if uid = 0 then true
  else if node.uid = uid then ((node.mode >>> 6) &&& mask) == mask
  else if node.gid = gid then ((node.mode >>> 3) &&& mask) == mask
  else (node.mode &&& mask) == mask

/-- What `node->write` and `node->truncate` do to a file, with what they return. -/
structure FileOps (File Content : Type) where
  write : Node File → Content → BitVec 64 → List UInt8 → Content × Nat
  truncate : Node File → Content → Nat → Content × Bool

/-- The descriptors with the flags and offsets of their descriptions, the nodes by path, and the files. -/
structure System (Path NodeId File Content World : Type) where
  kernel : Kernel NodeId World
  flags : Nat → BitVec 32
  offset : Nat → BitVec 64
  find : Path → Option NodeId
  nodes : NodeId → Option (Node File)
  contents : File → Content

inductive FcntlCommand where
  | dupFd (minFd : Nat)
  | getFd
  | setFd
  | getFl
  | setFl (flags : BitVec 32)
  | other

/-- The calls, with paths that are resolved already. `created` is the outcome of `fat16_vfs_create`: a new node for a
new file or for one that is there. `allocated`, `opens` and `mapped` are the outcomes of `kmalloc`, `node->open` and
the tests of the user's buffer. -/
inductive AccessCall (Path NodeId File : Type) where
  | openPath (path : Path) (flags : BitVec 32) (created : Option (NodeId × File)) (allocated opens : Bool)
  | write (fd : Nat) (bytes : List UInt8) (mapped allocated : Bool)
  | ftruncate (fd length : Nat)
  | truncate (path : Path) (length : Nat)
  | fcntl (fd : Nat) (command : FcntlCommand)
  | dup (fd : Nat)
  | chmod (path : Path) (mode : BitVec 32)
  | chown (path : Path) (uid gid : BitVec 32)

def Writing (flags : BitVec 32) : Prop := flags &&& 3 = 1 ∨ flags &&& 3 = 2

def mayOpen {File : Type} (node : Node File) (flags : BitVec 32) (who : Credentials) : Bool :=
  let accessMode := flags &&& 3
  (if accessMode = 0 ∨ accessMode = 2 then vfsCheckPermission node 4 who.uid who.gid else true) &&
    (if accessMode = 1 ∨ accessMode = 2 then vfsCheckPermission node 2 who.uid who.gid else true)

section

variable {Path NodeId File Content World : Type} [DecidableEq Path] [DecidableEq NodeId] [DecidableEq File]
  (ops : NodeOps NodeId World) (fileOps : FileOps File Content) (task : Nat) (who : Credentials)
  (system : System Path NodeId File Content World)

/-- `mount_file` for a directory entry, and the owner and mode that `fat16_vfs_create` gives to the node. -/
def fat16VfsCreate (path : Path) : Option (NodeId × File) → System Path NodeId File Content World
  | none => system
  | some (node, file) =>
    if (system.nodes node).isNone then
      { system with
        find := update system.find path (some node)
        nodes := update system.nodes node (some {
          type := .file
          uid := who.uid
          gid := who.gid
          mode := (0o666 &&& ~~~who.umask) &&& 0o777
          writes := true
          file := file }) }
    else system

def openNode (node : NodeId) (flags : BitVec 32) (allocated opens : Bool) :
    System Path NodeId File Content World × Option Nat :=
  if !allocated then (system, none)
  else
    let id := system.kernel.files.next
    ({ system with
       kernel := Files.sysOpen ops system.kernel task node true opens
       flags := update system.flags id flags
       offset := update system.offset id 0 }, if opens then freeFd system.kernel.files task 3 else none)

def sysOpen (path : Path) (flags : BitVec 32) (created : Option (NodeId × File)) (allocated opens : Bool) :
    System Path NodeId File Content World × Option Nat :=
  let system := if (system.find path).isNone ∧ flags &&& 0o100 ≠ 0 then fat16VfsCreate who system path created else system
  match system.find path with
  | none => (system, none)
  | some id =>
    match system.nodes id with
    | none => (system, none)
    | some node =>
      if (node.type = .file ∨ node.type = .directory) ∧ mayOpen node flags who = true then
        openNode ops task system id flags allocated opens
      else (system, none)

def System.nodeOf (system : System Path NodeId File Content World) (id : Nat) : Option (Node File) :=
  (system.kernel.files.descriptions id).bind fun description => system.nodes description.node

/-- `sys_write`. A task without standard descriptors writes to the console all the same. -/
def sysWrite (fd : Nat) (bytes : List UInt8) (mapped allocated : Bool) :
    System Path NodeId File Content World × Option Nat :=
  match fdAt system.kernel.files task fd with
  | none => (system, if (fd = 1 ∨ fd = 2) ∧ mapped = true then some bytes.length else none)
  | some id =>
    match system.nodeOf id with
    | none => (system, none)
    | some node =>
      if !node.writes || !mapped then (system, none)
      else if bytes = [] then (system, some 0)
      else if !allocated then (system, none)
      else
        let (content, count) := fileOps.write node (system.contents node.file) (system.offset id) (bytes.take 4096)
        ({ system with
           contents := update system.contents node.file content
           offset := if count > 0 ∧ node.type ≠ .pipe then
               update system.offset id (system.offset id + BitVec.ofNat 64 count)
             else system.offset }, some count)

def vfsTruncate (node : Node File) (length : Nat) : System Path NodeId File Content World × Option Nat :=
  if node.type = .file then
    let (content, done) := fileOps.truncate node (system.contents node.file) length
    ({ system with contents := update system.contents node.file content }, if done then some 0 else none)
  else (system, none)

def sysFtruncate (fd length : Nat) : System Path NodeId File Content World × Option Nat :=
  match (fdAt system.kernel.files task fd).bind system.nodeOf with
  | none => (system, none)
  | some node => vfsTruncate fileOps system node length

def sysTruncate (path : Path) (length : Nat) : System Path NodeId File Content World × Option Nat :=
  match (system.find path).bind system.nodes with
  | none => (system, none)
  | some node => vfsTruncate fileOps system node length

def changeNode (path : Path) (change : Node File → Node File) : System Path NodeId File Content World × Option Nat :=
  match system.find path with
  | none => (system, none)
  | some id => ({ system with nodes := update system.nodes id ((system.nodes id).map change) }, some 0)

def sysChmod (path : Path) (mode : BitVec 32) : System Path NodeId File Content World × Option Nat :=
  changeNode system path fun node => { node with mode := mode &&& 0o777 }

def sysChown (path : Path) (uid gid : BitVec 32) : System Path NodeId File Content World × Option Nat :=
  changeNode system path fun node => { node with uid := uid, gid := gid }

def dupFd (fd start : Nat) : System Path NodeId File Content World × Option Nat :=
  let (kernel, result) := dupFrom system.kernel task fd start
  ({ system with kernel := kernel }, result)

def sysFcntl (fd : Nat) (command : FcntlCommand) : System Path NodeId File Content World × Option Nat :=
  match fdAt system.kernel.files task fd with
  | none => (system, none)
  | some id =>
    match command with
    | .dupFd minFd => dupFd task system fd minFd
    | .getFd | .setFd => (system, some 0)
    | .getFl => (system, some (system.flags id).toNat)
    | .setFl flags => ({ system with flags := update system.flags id flags }, some 0)
    | .other => (system, none)

def accessCall : AccessCall Path NodeId File → System Path NodeId File Content World × Option Nat
  | .openPath path flags created allocated opens => sysOpen ops task who system path flags created allocated opens
  | .write fd bytes mapped allocated => sysWrite fileOps task system fd bytes mapped allocated
  | .ftruncate fd length => sysFtruncate fileOps task system fd length
  | .truncate path length => sysTruncate fileOps system path length
  | .fcntl fd command => sysFcntl task system fd command
  | .dup fd => dupFd task system fd 0
  | .chmod path mode => sysChmod system path mode
  | .chown path uid gid => sysChown system path uid gid

def accessStep (system : System Path NodeId File Content World) (call : AccessCall Path NodeId File) :
    System Path NodeId File Content World := (accessCall ops fileOps task who system call).1

end

end PhotonOS.Access
