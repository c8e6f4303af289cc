import PhotonOS.Vfs.Lifetime

/-!
`vfs_chdir`: the path that `vfs_build_path` makes of its argument, the lookup and
the permission check on the directory found.
-/

namespace PhotonOS.Vfs

/-- Entries of `comp_ptrs` and `comp_lens`. -/
def componentMax : Nat := 32

/-- A component that finds the table full is skipped. -/
def scanStep (table : List (List Char)) (component : List Char) : List (List Char) :=
  if component = ['.'] then table
  else if component = ['.', '.'] then table.dropLast
  else if table.length < componentMax then table ++ [component]
  else table

/-- The scanning loop: `word` is the text between `start` and the index, empty between two components. -/
def scan : List Char → List Char → List (List Char) → List (List Char)
  | word, [], table => if word = [] then table else scanStep table word
  | word, letter :: rest, table =>
    if letter = '/' then scan [] rest (if word = [] then table else scanStep table word)
    else scan (word ++ [letter]) rest table

def writePath (capacity : Nat) : List (List Char) → List Char → Option (List Char)
  | [], out => some out
  | component :: rest, out =>
    if capacity ≤ out.length + 1 + component.length then none
    else writePath capacity rest (out ++ '/' :: component)

/-- A null `base_cwd` is the empty text. -/
def vfsBuildPath (cwd input : List Char) (capacity : Nat) : Option (List Char) :=
  if capacity < 2 then none
  else
    let cwd := if cwd = [] then ['/'] else cwd
    let base := if input.head? = some '/' then [] else scan [] cwd []
    let table := scan [] input base
    if table = [] then some ['/'] else writePath capacity table []

structure Attributes where
  mode : Nat
  uid : Nat
  gid : Nat

structure Caller where
  cwd : List Char
  uid : Nat
  gid : Nat

/-- `S_IXUSR`, octal 0100. -/
def sIxusr : Nat := 64

def cwdSize : Nat := 64

def vfsCheckPermission (node : Attributes) (mask uid gid : Nat) : Bool :=
  if uid = 0 then true
  else if node.uid = uid then (node.mode >>> 6) &&& mask == mask
  else if node.gid = gid then (node.mode >>> 3) &&& mask == mask
  else node.mode &&& mask == mask

/-- The caller with its new `cwd`; `none` is the result -1. -/
def vfsChdir (fs : FileSystem) (attributes : Nat → Attributes) (task : Caller) (path : List Char) : Option Caller :=
  match vfsBuildPath task.cwd path cwdSize with
  | none => none
  | some target =>
    match vfsFind fs target with
    | none => none
    | some id =>
      if (fs.nodes id).kind ≠ .directory then none
      else if vfsCheckPermission (attributes id) sIxusr task.uid task.gid = false then none
      else if cwdSize ≤ target.length then none
      else some { task with cwd := target }

/-- The execute bit of the class that applies. -/
def searchable (node : Attributes) (uid gid : Nat) : Bool :=
  node.mode.testBit (if node.uid = uid then 6 else if node.gid = gid then 3 else 0)

/-- Owner and group have no search permission; for the others it is the owner's. -/
def SearchesAlike (node : Attributes) (uid gid : Nat) : Prop :=
  if node.uid = uid ∨ node.gid = gid then searchable node uid gid = false
  else node.mode.testBit 0 = node.mode.testBit 6

def Names (fs : FileSystem) (task : Caller) (path : List Char) (directory : Nat) : Prop :=
  ∃ target, vfsBuildPath task.cwd path cwdSize = some target ∧ vfsFind fs target = some directory ∧
    target.length < cwdSize

theorem mask_bits : ∀ mode ≤ 511, ((mode >>> 6) &&& sIxusr == sIxusr) = false ∧ ((mode >>> 3) &&& sIxusr == sIxusr) = false ∧
    (mode &&& sIxusr == sIxusr) = mode.testBit 6 := by
  decide +kernel

theorem chdir_searchable_iff (fs : FileSystem) (attributes : Nat → Attributes) (task : Caller) (path : List Char)
    (directory : Nat) (names : Names fs task path directory) (kind : (fs.nodes directory).kind = .directory)
    (mode : (attributes directory).mode ≤ 511) (user : task.uid ≠ 0) :
    (vfsChdir fs attributes task path).isSome = searchable (attributes directory) task.uid task.gid ↔
      SearchesAlike (attributes directory) task.uid task.gid := by
  obtain ⟨owner, group, other⟩ := mask_bits _ mode
  obtain ⟨target, built, found, short⟩ := names
  have enters : (vfsChdir fs attributes task path).isSome =
      vfsCheckPermission (attributes directory) sIxusr task.uid task.gid := by
    simp only [vfsChdir, built, found, kind, Nat.not_le.mpr short, ne_eq, not_true, if_false]
    cases vfsCheckPermission (attributes directory) sIxusr task.uid task.gid with
    | false => rfl
    | true => rfl
  rw [enters, vfsCheckPermission, if_neg user, SearchesAlike, owner, group, other]
  by_cases own : (attributes directory).uid = task.uid
  · rw [if_pos own, if_pos (Or.inl own)]
    exact eq_comm
  by_cases shared : (attributes directory).gid = task.gid
  · rw [if_neg own, if_pos shared, if_pos (Or.inr shared)]
    exact eq_comm
  · rw [if_neg own, if_neg shared, if_neg (not_or.mpr ⟨own, shared⟩), searchable, if_neg own, if_neg shared]
    exact eq_comm

/-- The root directory with mode 0755, owned by user 0, and user 7 at it. -/
def rootMode : Attributes := ⟨493, 0, 0⟩

theorem chdir_searchable_root : (vfsChdir vfsInit.world (fun _ => rootMode) ⟨['/'], 7, 7⟩ ['/']).isSome =
    searchable rootMode 7 7 ↔ SearchesAlike rootMode 7 7 :=
  chdir_searchable_iff vfsInit.world (fun _ => rootMode) ⟨['/'], 7, 7⟩ ['/'] vfsRoot ⟨['/'], by decide, by decide, by decide⟩
    rfl (by decide) (by decide)

/-- The owner of a directory with mode 0700 cannot enter it. -/
theorem owner_refused : searchable ⟨448, 7, 7⟩ 7 7 = true ∧
    (vfsChdir vfsInit.world (fun _ => ⟨448, 7, 7⟩) ⟨['/'], 7, 7⟩ ['/']).isSome = false := by
  decide

end PhotonOS.Vfs
