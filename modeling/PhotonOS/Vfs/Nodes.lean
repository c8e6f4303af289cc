import PhotonOS.Files.Descriptors

/-!
The in-memory nodes of `vfs.c`: the tree with its mounts, hard links that share a
data block, and the three places that release nodes. Addresses are numbers; a
released node keeps its contents, and `released` lists every `kfree`.
-/

namespace PhotonOS.Vfs

open Files

def vfsNameMax : Nat := 64

inductive NodeKind where
  | file | directory | device | pipe | socket | symlink
  deriving DecidableEq, Repr

/-- `child` is the list that starts at `node->child` and goes on with the siblings. -/
structure VfsNode where
  name : List Char
  kind : NodeKind
  nlink : Nat
  refCount : Nat
  data : Option Nat
  parent : Option Nat
  child : List Nat
  mountedHere : Option Nat
  deriving DecidableEq

structure VfsMount where
  mountPoint : List Char
  rootNode : Nat
  mountOver : Nat
  deriving DecidableEq

inductive Block where
  | node (id : Nat)
  | data (id : Nat)
  deriving DecidableEq, Repr

/-- `next` and `nextData` have not been given out yet. -/
structure FileSystem where
  nodes : Nat → VfsNode
  next : Nat
  nextData : Nat
  mounts : List VfsMount
  released : List Block

def vfsRoot : Nat := 0

def FileSystem.modify (fs : FileSystem) (id : Nat) (change : VfsNode → VfsNode) : FileSystem :=
  { fs with nodes := Function.update fs.nodes id (change (fs.nodes id)) }

def copyName (name : List Char) : List Char := name.take (vfsNameMax - 1)

def blankNode : VfsNode where
  name := []
  kind := .file
  nlink := 0
  refCount := 0
  data := none
  parent := none
  child := []
  mountedHere := none

def vfsCreateNode (fs : FileSystem) (parent : Option Nat) (name : List Char) (kind : NodeKind) : FileSystem :=
  let created := { fs with
    nodes := Function.update fs.nodes fs.next
      { blankNode with name := copyName name, kind := kind, nlink := 1, parent := parent }
    next := fs.next + 1 }
  match parent with
  | none => created
  | some directory => created.modify directory fun node => { node with child := fs.next :: node.child }

def findChild (fs : FileSystem) (parent : Nat) (name : List Char) : Option Nat :=
  ((fs.nodes parent).child.find? fun id => (fs.nodes id).name == name).map fun id => (fs.nodes id).mountedHere.getD id

def walk (fs : FileSystem) : Nat → List (List Char) → Option Nat
  | current, [] => some current
  | current, component :: rest =>
    if (fs.nodes current).kind ≠ .directory then none
    else if component = ['.'] then walk fs current rest
    else if component = ['.', '.'] then walk fs ((fs.nodes current).parent.getD current) rest
    else
      match findChild fs current component with
      | none => none
      | some next => walk fs next rest

def components (path : List Char) : List (List Char) := (path.splitOn '/').filter (· ≠ [])

def vfsFind (fs : FileSystem) (path : List Char) : Option Nat :=
  if path = [] then none else walk fs vfsRoot (components path)

/-- The search for the last `/` that `vfs_link` makes in the first 63 characters. -/
def lastSlash (path : List Char) : Nat :=
  ((List.range (min path.length (vfsNameMax - 1))).filter fun index => path[index]? == some '/').getLastD 0

def splitPath (path : List Char) : List Char × List Char :=
  let last := lastSlash path
  if last = 0 then (['/'], copyName (if path.head? = some '/' then path.tail else path))
  else (path.take last, copyName (path.drop (last + 1)))

/-- `if (node->data != 0) { kfree(node->data); node->data = 0; } kfree(node);` -/
def FileSystem.release (fs : FileSystem) (id : Nat) : FileSystem :=
  { fs.modify id fun node => { node with data := none } with
    released := fs.released ++ (fs.nodes id).data.toList.map .data ++ [.node id] }

def vfsNodeRef (fs : FileSystem) (id : Nat) : FileSystem :=
  fs.modify id fun node => { node with refCount := node.refCount + 1 }

def vfsNodeUnref (fs : FileSystem) (id : Nat) : FileSystem :=
  let fs := fs.modify id fun node => { node with refCount := node.refCount - 1 }
  if (fs.nodes id).refCount = 0 ∧ (fs.nodes id).parent = none ∧ id ≠ vfsRoot then fs.release id else fs

def FileSystem.detach (fs : FileSystem) (id : Nat) : FileSystem :=
  match (fs.nodes id).parent with
  | none => fs
  | some directory =>
    (fs.modify directory fun node => { node with child := node.child.erase id }).modify id fun node =>
      { node with parent := none }

def vfsLink (fs : FileSystem) (oldPath newPath : List Char) : FileSystem :=
  match vfsFind fs oldPath with
  | none => fs
  | some old =>
    if (fs.nodes old).kind = .directory then fs
    else
      match vfsFind fs (splitPath newPath).1 with
      | none => fs
      | some parent =>
        if (fs.nodes parent).kind ≠ .directory then fs
        else
          let created := vfsCreateNode fs (some parent) (splitPath newPath).2 (fs.nodes old).kind
          let linked := created.modify old fun node => { node with nlink := node.nlink + 1 }
          linked.modify fs.next fun node =>
            { node with data := (linked.nodes old).data, nlink := (linked.nodes old).nlink }

def vfsUnlink (fs : FileSystem) (path : List Char) : FileSystem :=
  match vfsFind fs path with
  | none => fs
  | some id =>
    if (fs.nodes id).kind = .directory then fs
    else
      let fs := (fs.modify id fun node => { node with nlink := node.nlink - 1 }).detach id
      if (fs.nodes id).refCount = 0 ∧ (fs.nodes id).nlink = 0 then fs.release id else fs

def vfsRmdir (fs : FileSystem) (path : List Char) : FileSystem :=
  match vfsFind fs path with
  | none => fs
  | some id =>
    if (fs.nodes id).kind ≠ .directory ∨ id = vfsRoot ∨ (fs.nodes id).child ≠ [] then fs
    else
      let fs := fs.detach id
      if (fs.nodes id).refCount = 0 then fs.release id else fs

def vfsMount (fs : FileSystem) (target : List Char) : FileSystem :=
  match vfsFind fs target with
  | none => fs
  | some covered =>
    if (fs.nodes covered).kind ≠ .directory then fs
    else
      let created := vfsCreateNode fs none (fs.nodes covered).name .directory
      { created.modify covered fun node => { node with mountedHere := some fs.next } with
        mounts := { mountPoint := copyName target, rootNode := fs.next, mountOver := covered } :: fs.mounts }

def vfsUmount (fs : FileSystem) (target : List Char) : FileSystem :=
  match fs.mounts.find? fun mount => mount.mountPoint == target with
  | none => fs
  | some mount =>
    { fs.modify mount.mountOver fun node => { node with mountedHere := none } with
      mounts := fs.mounts.erase mount }

/-- A new node below the directory that `parentPath` names; only files are given data. -/
def makeNode (fs : FileSystem) (parentPath name : List Char) (kind : NodeKind) (content : Bool) : FileSystem :=
  match vfsFind fs parentPath with
  | none => fs
  | some parent =>
    if (fs.nodes parent).kind ≠ .directory then fs
    else
      let created := vfsCreateNode fs (some parent) name kind
      if content ∧ kind = .file then
        { created.modify fs.next fun node => { node with data := some fs.nextData } with
          nextData := fs.nextData + 1 }
      else created

def nodeOps : NodeOps Nat FileSystem where
  ref := vfsNodeRef
  close := vfsNodeUnref

abbrev VfsKernel := Kernel Nat FileSystem

def sysOpen (kernel : VfsKernel) (task : Nat) (path : List Char) (allocated : Bool) : VfsKernel :=
  match vfsFind kernel.world path with
  | none => kernel
  | some id =>
    if (kernel.world.nodes id).kind ≠ .file ∧ (kernel.world.nodes id).kind ≠ .directory then kernel
    else (taskAllocFd nodeOps kernel task id allocated).1

end PhotonOS.Vfs
