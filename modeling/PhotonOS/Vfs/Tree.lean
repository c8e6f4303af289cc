import PhotonOS.Vfs.Nodes

/-!
What is reachable, and the invariant that ties the tree, the mount table, the
link counts and the released blocks together.
-/

namespace PhotonOS.Vfs

variable {nodes : Nat → VfsNode} {id : Nat} {counts : Nat → Nat}

def InMounts (mounts : List VfsMount) (id : Nat) : Prop :=
  ∃ mount ∈ mounts, mount.rootNode = id ∨ mount.mountOver = id

inductive Reach (nodes : Nat → VfsNode) (mounts : List VfsMount) (counts : Nat → Nat) : Nat → Prop
  | root : Reach nodes mounts counts vfsRoot
  | child {parent id : Nat} : Reach nodes mounts counts parent → id ∈ (nodes parent).child → Reach nodes mounts counts id
  | mounted {id top : Nat} : Reach nodes mounts counts id → (nodes id).mountedHere = some top →
      Reach nodes mounts counts top
  | entry {id : Nat} : InMounts mounts id → Reach nodes mounts counts id
  | opened {id : Nat} : 0 < counts id → Reach nodes mounts counts id

inductive Visible (nodes : Nat → VfsNode) : Nat → Prop
  | root : Visible nodes vfsRoot
  | child {parent id : Nat} : Visible nodes parent → id ∈ (nodes parent).child → (nodes id).mountedHere = none →
      Visible nodes id
  | mounted {parent id top : Nat} : Visible nodes parent → id ∈ (nodes parent).child →
      (nodes id).mountedHere = some top → Visible nodes top

theorem Visible.reach (visible : Visible nodes id) (mounts : List VfsMount) (counts : Nat → Nat) :
    Reach nodes mounts counts id := by
  induction visible with
  | root => exact .root
  | child _ member _ ih => exact ih.child member
  | mounted _ member here ih => exact (ih.child member).mounted here

theorem Reach.before {after : Nat → VfsNode} {mounts mountsAfter : List VfsMount} {countsAfter : Nat → Nat}
    (New : Nat → Prop)
    (children : ∀ parent id, id ∈ (after parent).child → (¬ New parent ∧ id ∈ (nodes parent).child) ∨ New id)
    (mounted : ∀ id top, (after id).mountedHere = some top → (¬ New id ∧ (nodes id).mountedHere = some top) ∨ New top)
    (entries : ∀ id, InMounts mountsAfter id → Reach nodes mounts counts id ∨ New id)
    (opened : ∀ id, 0 < countsAfter id → Reach nodes mounts counts id ∨ New id)
    (reach : Reach after mountsAfter countsAfter id) : Reach nodes mounts counts id ∨ New id := by
  induction reach with
  | root => exact Or.inl .root
  | @child parent id _ member ih =>
    rcases children parent id member with ⟨old, before⟩ | fresh
    · exact Or.inl ((ih.resolve_right old).child before)
    · exact Or.inr fresh
  | @mounted id top _ here ih =>
    rcases mounted id top here with ⟨old, before⟩ | fresh
    · exact Or.inl ((ih.resolve_right old).mounted before)
    · exact Or.inr fresh
  | entry member => exact entries _ member
  | opened positive => exact opened _ positive

structure TreeInv (nodes : Nat → VfsNode) (next : Nat) : Prop where
  rootParent : (nodes vfsRoot).parent = none
  rootKind : (nodes vfsRoot).kind = .directory
  rootMade : vfsRoot < next
  parentOf : ∀ parent id, id ∈ (nodes parent).child → (nodes id).parent = some parent
  listed : ∀ parent id, (nodes id).parent = some parent → id ∈ (nodes parent).child
  distinct : ∀ parent, (nodes parent).child.Nodup
  leaf : ∀ id, (nodes id).kind ≠ .directory → (nodes id).child = []
  unmade : ∀ id, next ≤ id → nodes id = blankNode

structure MountInv (nodes : Nat → VfsNode) (next : Nat) (mounts : List VfsMount) : Prop where
  top : ∀ mount ∈ mounts, (nodes mount.rootNode).parent = none ∧ mount.rootNode ≠ vfsRoot
  kinds : ∀ id, InMounts mounts id → (nodes id).kind = .directory ∧ id < next
  hidden : ∀ mount ∈ mounts, (nodes mount.mountOver).parent ≠ none → (nodes mount.mountOver).mountedHere ≠ none
  entry : ∀ id top, (nodes id).mountedHere = some top → ∃ mount ∈ mounts, mount.mountOver = id ∧ mount.rootNode = top
  alone : mounts.Pairwise fun first second =>
    first.mountOver = second.mountOver → (nodes first.mountOver).parent = none

structure DataInv (nodes : Nat → VfsNode) (nextData : Nat) : Prop where
  plain : ∀ id, (nodes id).kind = .directory → (nodes id).data = none
  made : ∀ id data, (nodes id).data = some data → data < nextData
  linked : ∀ id, (nodes id).parent ≠ none → 1 ≤ (nodes id).nlink
  shared : ∀ first second data, first ≠ second → (nodes first).data = some data → (nodes second).data = some data →
    (nodes first).parent ≠ none → 2 ≤ (nodes first).nlink

structure ReleaseInv (fs : FileSystem) (counts : Nat → Nat) : Prop where
  node : ∀ id, .node id ∈ fs.released → (fs.nodes id).parent = none ∧ counts id = 0 ∧ id ≠ vfsRoot ∧ id < fs.next ∧
    ¬ InMounts fs.mounts id
  data : ∀ data, .data data ∈ fs.released → data < fs.nextData ∧
    ∀ id, Reach fs.nodes fs.mounts counts id → (fs.nodes id).data ≠ some data
  once : fs.released.Nodup

structure Sound (fs : FileSystem) (counts : Nat → Nat) : Prop where
  tree : TreeInv fs.nodes fs.next
  mounts : MountInv fs.nodes fs.next fs.mounts
  data : DataInv fs.nodes fs.nextData
  release : ReleaseInv fs counts
  counted : ∀ id, (fs.nodes id).refCount = counts id

structure Intact (fs : FileSystem) (counts : Nat → Nat) : Prop where
  nodes : ∀ id, Reach fs.nodes fs.mounts counts id → .node id ∉ fs.released
  data : ∀ id data, Reach fs.nodes fs.mounts counts id → (fs.nodes id).data = some data → .data data ∉ fs.released
  once : fs.released.Nodup

section

variable {nodes : Nat → VfsNode} {next : Nat} {mounts : List VfsMount}

theorem MountInv.inMounts (inv : MountInv nodes next mounts) {top : Nat} (here : (nodes id).mountedHere = some top) :
    InMounts mounts top := by
  obtain ⟨mount, member, _, root⟩ := inv.entry id top here
  exact ⟨mount, member, Or.inl root⟩

theorem TreeInv.made (tree : TreeInv nodes next) (used : nodes id ≠ blankNode) : id < next := by
  by_contra beyond
  exact used (tree.unmade id (by omega))

theorem TreeInv.made_of_parent (tree : TreeInv nodes next) (above : (nodes id).parent ≠ none) : id < next := by
  apply tree.made
  intro blank
  rw [blank] at above
  exact above rfl

end

section

variable {fs : FileSystem} {counts : Nat → Nat} (sound : Sound fs counts) {id : Nat}
  (reach : Reach fs.nodes fs.mounts counts id)

include sound reach

theorem Sound.not_released : .node id ∉ fs.released := by
  intro released
  obtain ⟨orphan, closed, notRoot, _, outside⟩ := sound.release.node id released
  cases reach with
  | root => exact notRoot rfl
  | child _ member =>
    rw [sound.tree.parentOf _ _ member] at orphan
    cases orphan
  | mounted _ here => exact outside (sound.mounts.inMounts here)
  | entry member => exact outside member
  | opened positive => omega

theorem Sound.reach_made : id < fs.next := by
  cases reach with
  | root => exact sound.tree.rootMade
  | child _ member => exact sound.tree.made_of_parent (by simp [sound.tree.parentOf _ _ member])
  | mounted _ here => exact (sound.mounts.kinds _ (sound.mounts.inMounts here)).2
  | entry member => exact (sound.mounts.kinds _ member).2
  | opened positive =>
    apply sound.tree.made
    intro blank
    have count := sound.counted id
    rw [blank] at count
    have zero : blankNode.refCount = 0 := rfl
    omega

end

theorem Sound.intact {fs : FileSystem} (sound : Sound fs counts) : Intact fs counts := by
  refine ⟨fun id reach => sound.not_released reach, ?_, sound.release.once⟩
  intro id data reach present released
  exact (sound.release.data data released).2 id reach present

/-! Paths. -/

section

variable {fs : FileSystem} {next : Nat} {mounts : List VfsMount} (tree : TreeInv fs.nodes next)
  (inv : MountInv fs.nodes next mounts)

include tree inv

theorem Visible.parent {parent : Nat} (visible : Visible fs.nodes id) (above : (fs.nodes id).parent = some parent) :
    Visible fs.nodes parent ∧ (fs.nodes id).mountedHere = none := by
  cases visible with
  | root =>
    rw [tree.rootParent] at above
    cases above
  | child up member here =>
    rw [tree.parentOf _ _ member, Option.some.injEq] at above
    exact ⟨above ▸ up, here⟩
  | mounted _ _ here =>
    obtain ⟨mount, member, _, root⟩ := inv.entry _ _ here
    rw [← root, (inv.top mount member).1] at above
    cases above

theorem Visible.orphan (visible : Visible fs.nodes id) (orphan : (fs.nodes id).parent = none) :
    id = vfsRoot ∨ ∃ mount ∈ mounts, mount.rootNode = id := by
  cases visible with
  | root => exact Or.inl rfl
  | child _ member _ =>
    rw [tree.parentOf _ _ member] at orphan
    cases orphan
  | mounted _ _ here =>
    obtain ⟨mount, member, _, root⟩ := inv.entry _ _ here
    exact Or.inr ⟨mount, member, root⟩

omit tree inv in
theorem findChild_visible {parent : Nat} {name : List Char} (visible : Visible fs.nodes parent)
    (found : findChild fs parent name = some id) : Visible fs.nodes id := by
  obtain ⟨entry, search, target⟩ := Option.map_eq_some_iff.mp found
  have member := List.mem_of_find?_eq_some search
  cases here : (fs.nodes entry).mountedHere with
  | none =>
    rw [here, Option.getD_none] at target
    exact target ▸ visible.child member here
  | some top =>
    rw [here, Option.getD_some] at target
    exact target ▸ visible.mounted member here

theorem walk_visible : ∀ path current id, Visible fs.nodes current → walk fs current path = some id →
    Visible fs.nodes id := by
  intro path
  induction path with
  | nil =>
    intro current id visible found
    cases found
    exact visible
  | cons component rest ih =>
    intro current id visible found
    simp only [walk] at found
    split at found
    · cases found
    split at found
    · exact ih current id visible found
    split at found
    · refine ih _ id ?_ found
      cases above : (fs.nodes current).parent with
      | none => exact visible
      | some parent => exact (visible.parent tree inv above).1
    split at found
    · cases found
    next next step => exact ih next id (findChild_visible visible step) found

theorem vfsFind_visible {path : List Char} (found : vfsFind fs path = some id) : Visible fs.nodes id := by
  unfold vfsFind at found
  split at found
  · cases found
  · exact walk_visible tree inv _ _ id .root found

end

end PhotonOS.Vfs
