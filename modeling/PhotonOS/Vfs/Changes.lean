import PhotonOS.Vfs.Tree

/-!
The small changes that the calls of `vfs.c` are made of, and that each keeps the
invariant.
-/

namespace PhotonOS.Vfs

open Function

variable {counts : Nat → Nat} {other id : Nat} {mount : VfsMount} {mounts : List VfsMount}

section

structure InPlace (before after : VfsNode) : Prop where
  kind : after.kind = before.kind
  parent : after.parent = before.parent
  child : after.child = before.child
  mountedHere : after.mountedHere = before.mountedHere
  data : after.data = before.data ∨ after.data = none
  nlink : before.nlink ≤ after.nlink

variable {nodes : Nat → VfsNode} {next nextData : Nat} {mounts : List VfsMount} {id : Nat} {node : VfsNode}
  (place : InPlace (nodes id) node)

include place

theorem TreeInv.inPlace (tree : TreeInv nodes next) (made : id < next) : TreeInv (update nodes id node) next := by
  obtain ⟨kind, parent, child, _, _, _⟩ := place
  obtain ⟨rootParent, rootKind, rootMade, parentOf, listed, distinct, leaf, unmade⟩ := tree
  refine ⟨?_, ?_, rootMade, ?_, ?_, ?_, ?_, ?_⟩ <;> simp only [update_apply] <;> grind

theorem MountInv.inPlace (inv : MountInv nodes next mounts) : MountInv (update nodes id node) next mounts := by
  obtain ⟨kind, parent, _, mountedHere, _, _⟩ := place
  have parents : ∀ other, (update nodes id node other).parent = (nodes other).parent := by grind
  obtain ⟨top, kinds, hidden, entry, alone⟩ := inv
  refine ⟨?_, ?_, ?_, ?_, ?_⟩
  · simpa only [parents] using top
  · grind
  · grind
  · grind
  · simpa only [parents] using alone

theorem DataInv.inPlace (inv : DataInv nodes nextData) : DataInv (update nodes id node) nextData := by
  obtain ⟨kind, parent, _, _, data, nlink⟩ := place
  obtain ⟨plain, made, linked, shared⟩ := inv
  constructor <;> simp only [update_apply] <;> grind

theorem Reach.inPlace {countsAfter : Nat → Nat}
    (opened : ∀ other, 0 < countsAfter other → Reach nodes mounts counts other)
    (reach : Reach (update nodes id node) mounts countsAfter other) : Reach nodes mounts counts other := by
  obtain ⟨_, _, child, mountedHere, _, _⟩ := place
  refine (Reach.before (fun _ => False) ?_ ?_ ?_ ?_ reach).resolve_right not_false
  · grind
  · grind
  · exact fun _ member => Or.inl (.entry member)
  · exact fun _ positive => Or.inl (opened _ positive)

end

section

variable {fs : FileSystem} {counts countsAfter : Nat → Nat} (sound : Sound fs counts) {id : Nat}

include sound

theorem Sound.inPlace {change : VfsNode → VfsNode} (made : id < fs.next)
    (place : InPlace (fs.nodes id) (change (fs.nodes id)))
    (counted : ∀ other, ((fs.modify id change).nodes other).refCount = countsAfter other)
    (opened : ∀ other, 0 < countsAfter other → Reach fs.nodes fs.mounts counts other) :
    Sound (fs.modify id change) countsAfter := by
  refine ⟨sound.tree.inPlace place made, sound.mounts.inPlace place, sound.data.inPlace place, ⟨?_, ?_, ?_⟩, counted⟩
  · intro other released
    obtain ⟨orphan, closed, notRoot, small, outside⟩ := sound.release.node other released
    refine ⟨?_, ?_, notRoot, small, outside⟩
    · simp only [FileSystem.modify, update_apply]
      have same := place.parent
      grind
    · by_contra positive
      exact sound.not_released (opened other (Nat.pos_of_ne_zero positive)) released
  · intro data released
    obtain ⟨small, absent⟩ := sound.release.data data released
    refine ⟨small, fun other reach => ?_⟩
    have before := absent other (Reach.inPlace place opened reach)
    simp only [FileSystem.modify, update_apply]
    have kept := place.data
    grind
  · exact sound.release.once

theorem Sound.kfree (orphan : (fs.nodes id).parent = none) (closed : counts id = 0) (notRoot : id ≠ vfsRoot)
    (made : id < fs.next) (outside : ¬ InMounts fs.mounts id) (held : .node id ∉ fs.released)
    (fresh : ∀ data, (fs.nodes id).data = some data → .data data ∉ fs.released)
    (unshared : ∀ data, (fs.nodes id).data = some data →
      ∀ other, other ≠ id → Reach fs.nodes fs.mounts counts other → (fs.nodes other).data ≠ some data) :
    Sound (fs.release id) counts := by
  have place : InPlace (fs.nodes id) { fs.nodes id with data := none } :=
    ⟨rfl, rfl, rfl, rfl, Or.inr rfl, Nat.le_refl _⟩
  have emptied : Sound (fs.modify id fun node => { node with data := none }) counts := by
    apply sound.inPlace made place
    · intro other
      rw [← sound.counted other]
      simp only [FileSystem.modify, update_apply]
      grind
    · exact fun other positive => .opened positive
  refine ⟨emptied.tree, emptied.mounts, emptied.data, ⟨?_, ?_, ?_⟩, emptied.counted⟩
  · intro other released
    simp only [FileSystem.release, List.mem_append, List.mem_map, List.mem_singleton, Block.node.injEq] at released
    rcases released with (before | ⟨data, _, same⟩) | rfl
    · exact emptied.release.node other before
    · cases same
    · refine ⟨?_, closed, notRoot, made, outside⟩
      simp only [FileSystem.release, FileSystem.modify, update_self]
      exact orphan
  · intro data released
    simp only [FileSystem.release, List.mem_append, List.mem_map, List.mem_singleton, Option.mem_toList] at released
    rcases released with (before | ⟨given, own, same⟩) | same
    · exact emptied.release.data data before
    · cases same
      refine ⟨sound.data.made id data own, ?_⟩
      intro other reach
      have before := Reach.inPlace place (fun _ positive => Reach.opened positive) reach
      simp only [FileSystem.release, FileSystem.modify, update_apply]
      split
      · simp
      next different => exact unshared data own other different before
    · cases same
  · have own : ((fs.nodes id).data.toList.map Block.data).Nodup := by
      cases (fs.nodes id).data <;> simp
    simp only [FileSystem.release, List.nodup_append, List.mem_append, List.mem_map, Option.mem_toList,
      List.mem_singleton]
    refine ⟨⟨sound.release.once, own, ?_⟩, List.nodup_singleton _, ?_⟩
    · rintro block before _ ⟨data, present, rfl⟩ rfl
      exact fresh data present before
    · rintro block (before | ⟨data, _, rfl⟩) _ rfl
      · rintro rfl
        exact held before
      · exact fun impossible => Block.noConfusion impossible

end

theorem blankNode_fields : blankNode.parent = none ∧ blankNode.child = [] ∧ blankNode.mountedHere = none ∧
    blankNode.data = none ∧ blankNode.refCount = 0 := ⟨rfl, rfl, rfl, rfl, rfl⟩

theorem Sound.next_unused {fs : FileSystem} (sound : Sound fs counts) :
    fs.nodes fs.next = blankNode ∧ ¬ InMounts fs.mounts fs.next := by
  refine ⟨sound.tree.unmade fs.next (Nat.le_refl _), ?_⟩
  intro member
  exact absurd (sound.mounts.kinds _ member).2 (Nat.lt_irrefl _)

section

def FileSystem.insertChild (fs : FileSystem) (parent : Nat) (node : VfsNode) : FileSystem :=
  { fs with
    nodes := update (update fs.nodes fs.next node) parent
      { fs.nodes parent with child := fs.next :: (fs.nodes parent).child }
    next := fs.next + 1 }

structure NewChild (fs : FileSystem) (parent : Nat) (node : VfsNode) : Prop where
  made : parent < fs.next
  directory : (fs.nodes parent).kind = .directory
  above : node.parent = some parent
  empty : node.child = []
  unmounted : node.mountedHere = none
  closed : node.refCount = 0
  links : 1 ≤ node.nlink
  plain : node.kind = .directory → node.data = none
  known : ∀ data, node.data = some data → data < fs.nextData ∧ .data data ∉ fs.released
  shared : ∀ data other, node.data = some data → (fs.nodes other).data = some data →
    2 ≤ node.nlink ∧ ((fs.nodes other).parent ≠ none → 2 ≤ (fs.nodes other).nlink)

variable {fs : FileSystem} {counts : Nat → Nat} (sound : Sound fs counts) {parent : Nat} {node : VfsNode}
  (new : NewChild fs parent node)

include sound new

theorem TreeInv.insertChild : TreeInv (fs.insertChild parent node).nodes (fs.insertChild parent node).next := by
  have fields := blankNode_fields
  obtain ⟨made, directory, above, empty, _, _, _, _, _, _⟩ := new
  obtain ⟨rootParent, rootKind, rootMade, parentOf, listed, distinct, leaf, unmade⟩ := sound.tree
  constructor <;> simp only [FileSystem.insertChild, update_apply] <;> grind

theorem MountInv.insertChild :
    MountInv (fs.insertChild parent node).nodes (fs.insertChild parent node).next (fs.insertChild parent node).mounts := by
  obtain ⟨made, directory, _, _, unmounted, _, _, _, _, _⟩ := new
  obtain ⟨top, kinds, hidden, entry, alone⟩ := sound.mounts
  refine ⟨?_, ?_, ?_, ?_, ?_⟩
  · simp only [FileSystem.insertChild, update_apply]
    grind [InMounts]
  · simp only [FileSystem.insertChild, update_apply]
    grind
  · simp only [FileSystem.insertChild, update_apply]
    grind [InMounts]
  · simp only [FileSystem.insertChild, update_apply]
    grind
  refine alone.imp_of_mem ?_
  intro first second firstMember _ lone same
  have member : InMounts fs.mounts first.mountOver := ⟨first, firstMember, Or.inr rfl⟩
  simp only [FileSystem.insertChild, update_apply]
  grind

theorem DataInv.insertChild : DataInv (fs.insertChild parent node).nodes (fs.insertChild parent node).nextData := by
  obtain ⟨made, _, _, _, _, _, links, plain, known, shared⟩ := new
  obtain ⟨plainBefore, madeBefore, linked, sharedBefore⟩ := sound.data
  constructor <;> simp only [FileSystem.insertChild, update_apply] <;> grind

theorem Sound.insertChild : Sound (fs.insertChild parent node) counts := by
  have blank := sound.next_unused.1
  have fields := blankNode_fields
  refine ⟨TreeInv.insertChild sound new, MountInv.insertChild sound new, DataInv.insertChild sound new,
    ⟨?_, ?_, sound.release.once⟩, ?_⟩
  · intro id released
    obtain ⟨orphan, unreferenced, notRoot, small, outside⟩ := sound.release.node id released
    simp only [FileSystem.insertChild, update_apply]
    grind
  · obtain ⟨made, _, _, empty, unmounted, _, _, _, known, _⟩ := new
    intro data (released : .data data ∈ fs.released)
    obtain ⟨small, absent⟩ := sound.release.data data released
    refine ⟨small, fun id reach => ?_⟩
    have before : Reach fs.nodes fs.mounts counts id ∨ id = fs.next := by
      refine Reach.before (· = fs.next) ?_ ?_ ?_ ?_ reach
      · simp only [FileSystem.insertChild, update_apply]
        grind
      · simp only [FileSystem.insertChild, update_apply]
        grind
      · exact fun id member => Or.inl (.entry member)
      · exact fun id positive => Or.inl (.opened positive)
    simp only [FileSystem.insertChild, update_apply]
    grind
  · intro id
    have count := sound.counted id
    have closed := new.closed
    simp only [FileSystem.insertChild, update_apply]
    grind

end

section

variable {fs : FileSystem} {counts : Nat → Nat} (sound : Sound fs counts) {parent id : Nat}

def FileSystem.removeChild (fs : FileSystem) (parent id links : Nat) : FileSystem :=
  { fs with
    nodes := update (update fs.nodes parent
      { fs.nodes parent with child := (fs.nodes parent).child.erase id }) id
      { fs.nodes id with parent := none, nlink := links } }

variable (above : (fs.nodes id).parent = some parent) (apart : id ≠ parent)

include sound above apart

variable (links : Nat)

theorem TreeInv.removeChild : TreeInv (fs.removeChild parent id links).nodes fs.next := by
  have made := sound.tree.made_of_parent (show (fs.nodes id).parent ≠ none by rw [above]; simp)
  have parentMade : parent < fs.next := by
    apply sound.tree.made
    intro blank
    have member := sound.tree.listed _ _ above
    rw [blank] at member
    cases member
  obtain ⟨rootParent, rootKind, rootMade, parentOf, listed, distinct, leaf, unmade⟩ := sound.tree
  refine ⟨?_, ?_, rootMade, ?_, ?_, ?_, ?_, ?_⟩ <;> simp only [FileSystem.removeChild, update_apply]
  · grind
  · grind
  · grind [List.Nodup.mem_erase_iff]
  · grind [List.Nodup.mem_erase_iff]
  · grind [List.Nodup.erase]
  · grind
  · grind

omit above apart in
theorem MountInv.removeChild : MountInv (fs.removeChild parent id links).nodes fs.next fs.mounts := by
  obtain ⟨top, kinds, hidden, entry, alone⟩ := sound.mounts
  refine ⟨?_, ?_, ?_, ?_, ?_⟩
  · simp only [FileSystem.removeChild, update_apply]
    grind
  · simp only [FileSystem.removeChild, update_apply]
    grind
  · simp only [FileSystem.removeChild, update_apply]
    grind
  · simp only [FileSystem.removeChild, update_apply]
    grind
  · refine alone.imp ?_
    intro first second lone same
    simp only [FileSystem.removeChild, update_apply]
    grind

omit above in
theorem DataInv.removeChild : DataInv (fs.removeChild parent id links).nodes fs.nextData := by
  obtain ⟨plain, dataMade, linked, shared⟩ := sound.data
  constructor <;> simp only [FileSystem.removeChild, update_apply] <;> grind

omit sound above apart in
theorem Reach.removeChild {links : Nat} (reach : Reach (fs.removeChild parent id links).nodes fs.mounts counts other) :
    Reach fs.nodes fs.mounts counts other := by
  refine (Reach.before (fun _ => False) ?_ ?_ ?_ ?_ reach).resolve_right not_false
  · simp only [FileSystem.removeChild, update_apply]
    grind [List.mem_of_mem_erase]
  · simp only [FileSystem.removeChild, update_apply]
    grind
  · exact fun _ member => Or.inl (.entry member)
  · exact fun _ positive => Or.inl (.opened positive)

theorem Sound.removeChild : Sound (fs.removeChild parent id links) counts := by
  refine ⟨TreeInv.removeChild sound above apart links, MountInv.removeChild sound links,
    DataInv.removeChild sound apart links, ⟨?_, ?_, sound.release.once⟩, ?_⟩
  · intro other released
    obtain ⟨orphan, rest⟩ := sound.release.node other released
    simp only [FileSystem.removeChild, update_apply]
    grind
  · intro data released
    obtain ⟨small, absent⟩ := sound.release.data data released
    refine ⟨small, fun other reach => ?_⟩
    have before := absent other (Reach.removeChild reach)
    simp only [FileSystem.removeChild, update_apply]
    grind
  · intro other
    have count := sound.counted other
    simp only [FileSystem.removeChild, update_apply]
    grind

end

section

variable {fs : FileSystem} {counts : Nat → Nat} (sound : Sound fs counts)

def FileSystem.putMount (fs : FileSystem) (covered : Nat) (name point : List Char) : FileSystem :=
  { fs with
    nodes := update (update fs.nodes fs.next
      { blankNode with name := name, kind := .directory, nlink := 1 }) covered
      { fs.nodes covered with mountedHere := some fs.next }
    next := fs.next + 1
    mounts := { mountPoint := point, rootNode := fs.next, mountOver := covered } :: fs.mounts }

def FileSystem.takeMount (fs : FileSystem) (mount : VfsMount) : FileSystem :=
  { fs.modify mount.mountOver fun node => { node with mountedHere := none } with mounts := fs.mounts.erase mount }

theorem inMounts_cons :
    InMounts (mount :: mounts) id ↔ id = mount.rootNode ∨ id = mount.mountOver ∨ InMounts mounts id := by
  simp only [InMounts, List.mem_cons, exists_eq_or_imp, @eq_comm _ id, or_assoc]

theorem inMounts_erase (member : InMounts (mounts.erase mount) id) :
    InMounts mounts id := by
  obtain ⟨other, inside, refers⟩ := member
  exact ⟨other, List.mem_of_mem_erase inside, refers⟩

include sound

section

variable {covered : Nat} (visible : Visible fs.nodes covered) (directory : (fs.nodes covered).kind = .directory)
  (name point : List Char)

include visible directory

theorem TreeInv.putMount : TreeInv (fs.putMount covered name point).nodes (fs.putMount covered name point).next := by
  have fields := blankNode_fields
  have made := sound.reach_made (visible.reach fs.mounts counts)
  obtain ⟨rootParent, rootKind, rootMade, parentOf, listed, distinct, leaf, unmade⟩ := sound.tree
  constructor <;> simp only [FileSystem.putMount, update_apply] <;> grind

theorem MountInv.putMount : MountInv (fs.putMount covered name point).nodes (fs.putMount covered name point).next
      (fs.putMount covered name point).mounts := by
  have fields := blankNode_fields
  have made := sound.reach_made (visible.reach fs.mounts counts)
  -- a directory that is mounted on and has a parent is not visible
  have shown : (fs.nodes covered).parent ≠ none → (fs.nodes covered).mountedHere = none := by
    intro attached
    obtain ⟨parent, above⟩ := Option.ne_none_iff_exists'.mp attached
    exact (visible.parent sound.tree sound.mounts above).2
  obtain ⟨top, kinds, hidden, entry, alone⟩ := sound.mounts
  have rootMade := sound.tree.rootMade
  refine ⟨?_, ?_, ?_, ?_, ?_⟩
  · simp only [FileSystem.putMount, update_apply]
    grind [InMounts]
  · simp only [FileSystem.putMount, update_apply, inMounts_cons]
    grind
  · simp only [FileSystem.putMount, update_apply]
    grind [InMounts]
  · intro id top here
    simp only [FileSystem.putMount, update_apply] at here ⊢
    split at here
    next same => exact ⟨_, List.mem_cons_self, same.symm, Option.some.inj here⟩
    next =>
      split at here
      · cases here
      · obtain ⟨mount, member, covers, root⟩ := entry id top here
        exact ⟨mount, List.mem_cons_of_mem _ member, covers, root⟩
  · refine List.pairwise_cons.mpr ⟨?_, alone.imp_of_mem ?_⟩
    · intro other member same
      simp only [FileSystem.putMount, update_apply] at same ⊢
      grind
    · intro first second firstMember _ lone same
      simp only [FileSystem.putMount, update_apply]
      grind

omit visible in
theorem DataInv.putMount :
    DataInv (fs.putMount covered name point).nodes (fs.putMount covered name point).nextData := by
  have fields := blankNode_fields
  obtain ⟨plain, dataMade, linked, shared⟩ := sound.data
  constructor <;> simp only [FileSystem.putMount, update_apply] <;> grind

omit directory in
theorem Reach.putMount
    (after : Reach (fs.putMount covered name point).nodes (fs.putMount covered name point).mounts counts id) :
    Reach fs.nodes fs.mounts counts id ∨ id = fs.next := by
  have made := sound.reach_made (visible.reach fs.mounts counts)
  refine Reach.before (· = fs.next) ?_ ?_ ?_ ?_ after
  · simp only [FileSystem.putMount, update_apply]
    grind [blankNode_fields]
  · simp only [FileSystem.putMount, update_apply]
    grind [blankNode_fields, Sound.next_unused]
  · intro id member
    simp only [FileSystem.putMount, inMounts_cons] at member
    rcases member with top | here | old
    · exact Or.inr top
    · exact Or.inl (here ▸ visible.reach fs.mounts counts)
    · exact Or.inl (.entry old)
  · exact fun id positive => Or.inl (.opened positive)

theorem Sound.putMount : Sound (fs.putMount covered name point) counts := by
  obtain ⟨blank, unlisted⟩ := sound.next_unused
  have fields := blankNode_fields
  have held := sound.not_released (visible.reach fs.mounts counts)
  refine ⟨TreeInv.putMount sound visible directory name point, MountInv.putMount sound visible directory name point,
    DataInv.putMount sound directory name point, ⟨?_, ?_, sound.release.once⟩, ?_⟩
  · intro id released
    obtain ⟨orphan, unreferenced, notRoot, small, outside⟩ := sound.release.node id released
    have other : id ≠ covered := fun same => held (same ▸ released)
    refine ⟨?_, unreferenced, notRoot, Nat.lt_succ_of_lt small, ?_⟩
    · simp only [FileSystem.putMount, update_apply]
      grind
    · simp only [FileSystem.putMount, inMounts_cons]
      grind
  · intro data released
    obtain ⟨small, absent⟩ := sound.release.data data released
    refine ⟨small, fun id after => ?_⟩
    have before := Reach.putMount sound visible name point after
    simp only [FileSystem.putMount, update_apply]
    grind
  · intro id
    have count := sound.counted id
    simp only [FileSystem.putMount, update_apply]
    grind

end

section

variable {mount : VfsMount} (member : mount ∈ fs.mounts)

include member

theorem TreeInv.takeMount : TreeInv (fs.takeMount mount).nodes fs.next := by
  have made := (sound.mounts.kinds mount.mountOver ⟨mount, member, Or.inr rfl⟩).2
  obtain ⟨rootParent, rootKind, rootMade, parentOf, listed, distinct, leaf, unmade⟩ := sound.tree
  refine ⟨?_, ?_, rootMade, ?_, ?_, ?_, ?_, ?_⟩ <;>
    simp only [FileSystem.takeMount, FileSystem.modify, update_apply] <;> grind

theorem Sound.covered_once : ∀ other ∈ fs.mounts.erase mount, mount.mountOver = other.mountOver →
    (fs.nodes mount.mountOver).parent = none := by
  have symmetric : ∀ first second : VfsMount,
      (first.mountOver = second.mountOver → (fs.nodes first.mountOver).parent = none) →
      second.mountOver = first.mountOver → (fs.nodes second.mountOver).parent = none := by
    intro first second lone same
    rw [same]
    exact lone same.symm
  have moved := (List.perm_cons_erase member).pairwise_iff (fun {first second} => symmetric first second)
  exact (List.pairwise_cons.mp (moved.mp sound.mounts.alone)).1

theorem MountInv.takeMount : MountInv (fs.takeMount mount).nodes fs.next (fs.takeMount mount).mounts := by
  have others := sound.covered_once member
  obtain ⟨top, kinds, hidden, entry, alone⟩ := sound.mounts
  refine ⟨?_, ?_, ?_, ?_, ?_⟩
  · simp only [FileSystem.takeMount, FileSystem.modify, update_apply]
    grind
  · intro id inside
    have before := kinds id (inMounts_erase inside)
    simp only [FileSystem.takeMount, FileSystem.modify, update_apply]
    grind
  · simp only [FileSystem.takeMount, FileSystem.modify, update_apply]
    grind
  · intro id top here
    simp only [FileSystem.takeMount, FileSystem.modify, update_apply] at here ⊢
    split at here
    · cases here
    next different =>
      obtain ⟨other, inside, covers, root⟩ := entry id top here
      refine ⟨other, (List.mem_erase_of_ne ?_).mpr inside, covers, root⟩
      rintro rfl
      exact different covers.symm
  · refine (alone.sublist List.erase_sublist).imp ?_
    intro first second lone same
    simp only [FileSystem.takeMount, FileSystem.modify, update_apply]
    grind

omit member in
theorem DataInv.takeMount : DataInv (fs.takeMount mount).nodes fs.nextData := by
  obtain ⟨plain, dataMade, linked, shared⟩ := sound.data
  constructor <;> simp only [FileSystem.takeMount, FileSystem.modify, update_apply] <;> grind

omit sound member in
theorem Reach.takeMount (after : Reach (fs.takeMount mount).nodes (fs.takeMount mount).mounts counts id) :
    Reach fs.nodes fs.mounts counts id := by
  refine (Reach.before (fun _ => False) ?_ ?_ ?_ ?_ after).resolve_right not_false
  · simp only [FileSystem.takeMount, FileSystem.modify, update_apply]
    grind
  · simp only [FileSystem.takeMount, FileSystem.modify, update_apply]
    grind
  · exact fun _ inside => Or.inl (.entry (inMounts_erase inside))
  · exact fun _ positive => Or.inl (.opened positive)

theorem Sound.takeMount : Sound (fs.takeMount mount) counts := by
  refine ⟨TreeInv.takeMount sound member, MountInv.takeMount sound member, DataInv.takeMount sound,
    ⟨?_, ?_, sound.release.once⟩, ?_⟩
  · intro id released
    obtain ⟨orphan, unreferenced, notRoot, small, outside⟩ := sound.release.node id released
    refine ⟨?_, unreferenced, notRoot, small, fun inside => outside (inMounts_erase inside)⟩
    simp only [FileSystem.takeMount, FileSystem.modify, update_apply]
    grind
  · intro data released
    obtain ⟨small, absent⟩ := sound.release.data data released
    refine ⟨small, fun id after => ?_⟩
    have before := absent id (Reach.takeMount after)
    simp only [FileSystem.takeMount, FileSystem.modify, update_apply]
    grind
  · intro id
    have count := sound.counted id
    simp only [FileSystem.takeMount, FileSystem.modify, update_apply]
    grind

end

end

end PhotonOS.Vfs
