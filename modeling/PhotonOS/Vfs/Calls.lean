import PhotonOS.Vfs.Changes

/-!
The calls of `vfs.c` keep the invariant, and the two that can release a node in
use say when they do.
-/

namespace PhotonOS.Vfs

open Function

section

variable {fs : FileSystem} {counts : Nat → Nat} (sound : Sound fs counts)

include sound

variable {path : List Char} {id parent old other links : Nat}

theorem Sound.find (found : vfsFind fs path = some id) :
    Visible fs.nodes id ∧ Reach fs.nodes fs.mounts counts id ∧ id < fs.next := by
  have visible := vfsFind_visible sound.tree sound.mounts found
  have reach := visible.reach fs.mounts counts
  exact ⟨visible, reach, sound.reach_made reach⟩

theorem Sound.find_parent (visible : Visible fs.nodes id) (notDirectory : (fs.nodes id).kind ≠ .directory) :
    ∃ parent, (fs.nodes id).parent = some parent ∧ id ≠ parent := by
  cases above : (fs.nodes id).parent with
  | none =>
    rcases visible.orphan sound.tree sound.mounts above with rfl | ⟨mount, member, root⟩
    · exact absurd sound.tree.rootKind notDirectory
    · exact absurd (sound.mounts.kinds id ⟨mount, member, Or.inl root⟩).1 notDirectory
  | some parent =>
    refine ⟨parent, rfl, ?_⟩
    rintro rfl
    have member := sound.tree.listed _ _ above
    rw [sound.tree.leaf id notDirectory] at member
    cases member

/-! Making nodes. -/

omit sound in
theorem vfsCreateNode_eq (made : parent < fs.next) (name : List Char) (kind : NodeKind) :
    vfsCreateNode fs (some parent) name kind = fs.insertChild parent
      { blankNode with name := copyName name, kind := kind, nlink := 1, parent := some parent } := by
  have different : parent ≠ fs.next := Nat.ne_of_lt made
  simp only [vfsCreateNode, FileSystem.modify, FileSystem.insertChild, update_of_ne different]

omit sound in
theorem insertChild_modify_new (made : parent < fs.next) (node : VfsNode) (change : VfsNode → VfsNode) :
    (fs.insertChild parent node).modify fs.next change = fs.insertChild parent (change node) := by
  have different : fs.next ≠ parent := Ne.symm (Nat.ne_of_lt made)
  simp only [FileSystem.insertChild, FileSystem.modify, update_of_ne different, update_self]
  rw [update_comm (Ne.symm different), update_idem]

omit sound in
theorem insertChild_modify_old (apart : old ≠ parent) (made : old < fs.next) {node : VfsNode}
    {change : VfsNode → VfsNode} :
    (fs.insertChild parent node).modify old change = (fs.modify old change).insertChild parent node := by
  have different : old ≠ fs.next := Nat.ne_of_lt made
  simp only [FileSystem.insertChild, FileSystem.modify, update_of_ne apart, update_of_ne different,
    update_of_ne (Ne.symm apart)]
  rw [update_comm (Ne.symm apart), update_comm (Ne.symm different)]

theorem Sound.moreData : Sound { fs with nextData := fs.nextData + 1 } counts := by
  refine ⟨sound.tree, sound.mounts, ?_, ⟨sound.release.node, ?_, sound.release.once⟩, sound.counted⟩
  · exact ⟨sound.data.plain, fun id data present => Nat.lt_succ_of_lt (sound.data.made id data present),
      sound.data.linked, sound.data.shared⟩
  · intro data released
    obtain ⟨small, absent⟩ := sound.release.data data released
    exact ⟨Nat.lt_succ_of_lt small, absent⟩

theorem Sound.makeNode (parentPath name : List Char) (kind : NodeKind) (content : Bool) :
    Sound (makeNode fs parentPath name kind content) counts := by
  unfold Vfs.makeNode
  cases found : vfsFind fs parentPath with
  | none => exact sound
  | some parent =>
    dsimp only
    split
    · exact sound
    next directory =>
      obtain ⟨_, _, made⟩ := sound.find found
      rw [ne_eq, not_not] at directory
      split
      next filled =>
        have inserted : NewChild { fs with nextData := fs.nextData + 1 } parent
            { blankNode with
              name := copyName name, kind := kind, nlink := 1, parent := some parent, data := some fs.nextData } := by
          refine ⟨made, directory, rfl, rfl, rfl, rfl, Nat.le_refl _, ?_, ?_, ?_⟩
          · intro dir
            rw [filled.2] at dir
            cases dir
          · rintro data ⟨⟩
            refine ⟨Nat.lt_succ_self _, fun released => ?_⟩
            exact absurd (sound.release.data _ released).1 (Nat.lt_irrefl _)
          · rintro data other ⟨⟩ present
            exact absurd (sound.data.made other _ present) (Nat.lt_irrefl _)
        rw [vfsCreateNode_eq made, insertChild_modify_new made]
        exact sound.moreData.insertChild inserted
      next =>
        rw [vfsCreateNode_eq made]
        refine sound.insertChild ⟨made, directory, rfl, rfl, rfl, rfl, Nat.le_refl _, fun _ => rfl, ?_, ?_⟩
        · rintro data ⟨⟩
        · rintro data other ⟨⟩

def VfsNode.linkedTo (node : VfsNode) : VfsNode := { node with nlink := node.nlink + 1 }

def linkNode (old : VfsNode) (parent : Nat) (name : List Char) : VfsNode :=
  { blankNode with
    name := copyName name
    kind := old.kind
    nlink := old.nlink + 1
    parent := some parent
    data := old.data }

omit sound in
theorem linked_eq (apart : old ≠ parent) (oldMade : old < fs.next) (made : parent < fs.next) (name : List Char) :
    let linked := (vfsCreateNode fs (some parent) name (fs.nodes old).kind).modify old VfsNode.linkedTo
    linked.modify fs.next (fun node => { node with data := (linked.nodes old).data, nlink := (linked.nodes old).nlink }) =
      (fs.modify old VfsNode.linkedTo).insertChild parent (linkNode (fs.nodes old) parent name) := by
  have node : ((vfsCreateNode fs (some parent) name (fs.nodes old).kind).modify old VfsNode.linkedTo).nodes old =
      (fs.nodes old).linkedTo := by
    rw [vfsCreateNode_eq made, insertChild_modify_old apart oldMade]
    simp only [FileSystem.insertChild, FileSystem.modify, update_of_ne apart,
      update_of_ne (Nat.ne_of_lt oldMade), update_self]
  have madeAfter : parent < (fs.modify old VfsNode.linkedTo).next := made
  dsimp only
  rw [node, vfsCreateNode_eq made, insertChild_modify_old apart oldMade]
  exact insertChild_modify_new madeAfter _ _

theorem Sound.linkedTo (made : old < fs.next) : Sound (fs.modify old VfsNode.linkedTo) counts := by
  apply sound.inPlace made ⟨rfl, rfl, rfl, rfl, Or.inl rfl, Nat.le_succ _⟩
  · intro other
    have count := sound.counted other
    simp only [FileSystem.modify, update_apply, VfsNode.linkedTo]
    grind
  · exact fun other positive => .opened positive

theorem Sound.newLink (visible : Visible fs.nodes old) (notDirectory : (fs.nodes old).kind ≠ .directory)
    (made : parent < fs.next) (directory : (fs.nodes parent).kind = .directory) (name : List Char) :
    NewChild (fs.modify old VfsNode.linkedTo) parent (linkNode (fs.nodes old) parent name) := by
  obtain ⟨above, attached, _⟩ := sound.find_parent visible notDirectory
  have linked := sound.data.linked old (by rw [attached]; simp)
  have apart : parent ≠ old := by
    rintro rfl
    exact notDirectory directory
  refine ⟨made, ?_, rfl, rfl, rfl, rfl, Nat.succ_pos _, fun dir => absurd dir notDirectory, ?_, ?_⟩
  · simp only [FileSystem.modify, update_of_ne apart]
    exact directory
  · intro data present
    exact ⟨sound.data.made old data present, sound.intact.data old data (visible.reach _ _) present⟩
  intro data other (present : (fs.nodes old).data = some data) shared
  refine ⟨Nat.succ_le_succ linked, fun inTree => ?_⟩
  have both := sound.data.shared other old data
  simp only [FileSystem.modify, update_apply, VfsNode.linkedTo] at shared inTree ⊢
  grind

theorem Sound.vfsLink (oldPath newPath : List Char) : Sound (vfsLink fs oldPath newPath) counts := by
  unfold Vfs.vfsLink
  cases foundOld : vfsFind fs oldPath with
  | none => exact sound
  | some old =>
    dsimp only
    split
    · exact sound
    next notDirectory =>
      cases foundParent : vfsFind fs (splitPath newPath).1 with
      | none => exact sound
      | some parent =>
        dsimp only
        split
        · exact sound
        next directory =>
          rw [ne_eq, not_not] at directory
          obtain ⟨visible, _, oldMade⟩ := sound.find foundOld
          obtain ⟨_, _, made⟩ := sound.find foundParent
          have apart : old ≠ parent := by
            rintro rfl
            exact notDirectory directory
          have result := (sound.linkedTo oldMade).insertChild
            (sound.newLink visible notDirectory made directory (splitPath newPath).2)
          rw [← linked_eq apart oldMade made] at result
          exact result

/-! Removing nodes. -/

omit sound in
theorem detach_eq (above : (fs.nodes id).parent = some parent) (apart : id ≠ parent) :
    fs.detach id = fs.removeChild parent id (fs.nodes id).nlink := by
  simp only [FileSystem.detach, above, FileSystem.modify, FileSystem.removeChild, update_of_ne apart]

omit sound in
theorem unlinked_eq (above : (fs.nodes id).parent = some parent) (apart : id ≠ parent) :
    (fs.modify id fun node => { node with nlink := node.nlink - 1 }).detach id =
      fs.removeChild parent id ((fs.nodes id).nlink - 1) := by
  have same : ((fs.modify id fun node => { node with nlink := node.nlink - 1 }).nodes id).parent = some parent := by
    simp only [FileSystem.modify, update_self]
    exact above
  rw [detach_eq same apart]
  simp only [FileSystem.removeChild, FileSystem.modify, update_of_ne (Ne.symm apart), update_self]
  rw [update_comm apart, update_idem]

omit sound in
theorem removeChild_data :
    ((fs.removeChild parent id links).nodes other).data = (fs.nodes other).data := by
  simp only [FileSystem.removeChild, update_apply]
  grind

theorem Sound.removeAndFree (above : (fs.nodes id).parent = some parent) (apart : id ≠ parent)
    (reach : Reach fs.nodes fs.mounts counts id) (closed : (fs.nodes id).refCount = 0)
    (outside : ¬ InMounts fs.mounts id)
    (unshared : ∀ data, (fs.nodes id).data = some data → ∀ other, other ≠ id → (fs.nodes other).data ≠ some data) :
    Sound ((fs.removeChild parent id links).release id) counts := by
  have removed := sound.removeChild above apart links
  apply removed.kfree
  · simp only [FileSystem.removeChild, update_self]
  · rw [← sound.counted]
    exact closed
  · rintro rfl
    rw [sound.tree.rootParent] at above
    cases above
  · exact sound.reach_made reach
  · exact outside
  · exact sound.not_released reach
  · intro data present
    rw [removeChild_data] at present
    exact sound.intact.data id data reach present
  · intro data present other different _
    rw [removeChild_data] at present ⊢
    exact unshared data present other different

theorem Sound.vfsUnlink (path : List Char) : Sound (vfsUnlink fs path) counts := by
  unfold Vfs.vfsUnlink
  cases found : vfsFind fs path with
  | none => exact sound
  | some id =>
    dsimp only
    split
    · exact sound
    next notDirectory =>
      obtain ⟨visible, reach, _⟩ := sound.find found
      obtain ⟨parent, above, apart⟩ := sound.find_parent visible notDirectory
      have attached : (fs.nodes id).parent ≠ none := by rw [above]; simp
      rw [unlinked_eq above apart]
      split
      next last =>
        simp only [FileSystem.removeChild, update_self] at last
        apply sound.removeAndFree above apart reach last.1
        · exact fun member => notDirectory (sound.mounts.kinds id member).1
        · intro data present other different shared
          have many := sound.data.shared id other data (Ne.symm different) present shared attached
          omega
      next => exact sound.removeChild above apart _

def RmdirAllowed (fs : FileSystem) (path : List Char) : Prop :=
  ∀ id, vfsFind fs path = some id → (fs.nodes id).kind = .directory → (fs.nodes id).child = [] →
    (fs.nodes id).refCount = 0 → ∀ mount ∈ fs.mounts, mount.rootNode ≠ id

theorem Sound.vfsRmdir (allowed : RmdirAllowed fs path) : Sound (vfsRmdir fs path) counts := by
  unfold Vfs.vfsRmdir
  cases found : vfsFind fs path with
  | none => exact sound
  | some id =>
    dsimp only
    split
    · exact sound
    next ordinary =>
      simp only [ne_eq, not_or, not_not] at ordinary
      obtain ⟨directory, notRoot, empty⟩ := ordinary
      obtain ⟨visible, reach, _⟩ := sound.find found
      cases above : (fs.nodes id).parent with
      | none =>
        have same : fs.detach id = fs := by simp only [FileSystem.detach, above]
        rw [same]
        split
        next closed =>
          rcases visible.orphan sound.tree sound.mounts above with root | ⟨mount, member, root⟩
          · exact absurd root notRoot
          · exact absurd root (allowed id found directory empty closed mount member)
        next => exact sound
      | some parent =>
        have apart : id ≠ parent := by
          rintro rfl
          have member := sound.tree.listed _ _ above
          rw [empty] at member
          cases member
        rw [detach_eq above apart]
        split
        next closed =>
          simp only [FileSystem.removeChild, update_self] at closed
          apply sound.removeAndFree above apart reach closed
          · rintro ⟨mount, member, root | covered⟩
            · exact allowed id found directory empty closed mount member root
            -- a directory that is mounted on is not visible
            apply sound.mounts.hidden mount member
            · rw [covered, above]
              simp
            · rw [covered]
              exact (visible.parent sound.tree sound.mounts above).2
          · intro data present
            rw [sound.data.plain id directory] at present
            cases present
        next => exact sound.removeChild above apart _

theorem Sound.rmdirAllowed (intact : Intact (Vfs.vfsRmdir fs path) counts) : RmdirAllowed fs path := by
  rintro id found directory empty closed mount member rfl
  obtain ⟨above, notRoot⟩ := sound.mounts.top mount member
  have same : fs.detach mount.rootNode = fs := by simp only [FileSystem.detach, above]
  have result : Vfs.vfsRmdir fs path = fs.release mount.rootNode := by
    simp only [Vfs.vfsRmdir, found, directory, notRoot, empty, ne_eq, not_true_eq_false, or_self, if_false, same, closed,
      if_true]
  rw [result] at intact
  refine intact.nodes mount.rootNode (.entry ⟨mount, member, Or.inl rfl⟩) ?_
  simp [FileSystem.release]

/-! Mounts. -/

theorem Sound.vfsMount (target : List Char) : Sound (vfsMount fs target) counts := by
  unfold Vfs.vfsMount
  cases found : vfsFind fs target with
  | none => exact sound
  | some covered =>
    dsimp only
    split
    · exact sound
    next directory =>
      rw [ne_eq, not_not] at directory
      obtain ⟨visible, _, made⟩ := sound.find found
      have result := sound.putMount visible directory (copyName (fs.nodes covered).name) (copyName target)
      simp only [vfsCreateNode, FileSystem.modify, update_of_ne (Nat.ne_of_lt made)]
      exact result

theorem Sound.vfsUmount (target : List Char) : Sound (vfsUmount fs target) counts := by
  unfold Vfs.vfsUmount
  split
  · exact sound
  next mount found => exact sound.takeMount (List.mem_of_find?_eq_some found)

/-! Descriptions. -/

omit sound in
theorem Reach.of_update {nodes : Nat → VfsNode} {mounts : List VfsMount} {value : Nat}
    (reach : Reach nodes mounts counts id) (positive : 0 < update counts id value other) :
    Reach nodes mounts counts other := by
  by_cases same : other = id
  · exact same ▸ reach
  · rw [update_of_ne same] at positive
    exact .opened positive

theorem Sound.vfsNodeRef (reach : Reach fs.nodes fs.mounts counts id) :
    Sound (vfsNodeRef fs id) (update counts id (counts id + 1)) := by
  apply sound.inPlace (sound.reach_made reach) ⟨rfl, rfl, rfl, rfl, Or.inl rfl, Nat.le_refl _⟩
  · intro other
    have count := sound.counted other
    simp only [FileSystem.modify, update_apply]
    grind
  · exact fun other positive => reach.of_update positive

def UnrefAllowed (fs : FileSystem) (counts : Nat → Nat) (id : Nat) : Prop :=
  (fs.nodes id).refCount ≤ 1 → (fs.nodes id).parent = none → id ≠ vfsRoot →
    ¬ InMounts fs.mounts id ∧ ∀ data, (fs.nodes id).data = some data →
      ∀ other, other ≠ id → Reach fs.nodes fs.mounts counts other → (fs.nodes other).data ≠ some data

def VfsNode.unref (node : VfsNode) : VfsNode := { node with refCount := node.refCount - 1 }

omit sound in
theorem VfsNode.unref_inPlace (node : VfsNode) : InPlace node node.unref :=
  ⟨rfl, rfl, rfl, rfl, Or.inl rfl, Nat.le_refl _⟩

theorem Sound.unref (reach : Reach fs.nodes fs.mounts counts id) :
    Sound (fs.modify id VfsNode.unref) (update counts id (counts id - 1)) := by
  apply sound.inPlace (sound.reach_made reach) (fs.nodes id).unref_inPlace
  · intro other
    have count := sound.counted other
    simp only [FileSystem.modify, update_apply, VfsNode.unref]
    grind
  · exact fun other positive => reach.of_update positive

omit sound in
theorem vfsNodeUnref_eq : vfsNodeUnref fs id =
    if (fs.nodes id).refCount ≤ 1 ∧ (fs.nodes id).parent = none ∧ id ≠ vfsRoot then
      (fs.modify id VfsNode.unref).release id
    else fs.modify id VfsNode.unref := by
  have zero : (fs.nodes id).refCount - 1 = 0 ↔ (fs.nodes id).refCount ≤ 1 := by omega
  unfold vfsNodeUnref
  simp only [FileSystem.modify, update_self, zero]
  rfl

theorem Sound.vfsNodeUnref (opened : 0 < counts id) (allowed : UnrefAllowed fs counts id) :
    Sound (vfsNodeUnref fs id) (update counts id (counts id - 1)) := by
  rw [vfsNodeUnref_eq]
  have before : Reach fs.nodes fs.mounts counts id := .opened opened
  have fewer := sound.unref before
  split
  next last =>
    obtain ⟨final, orphan, notRoot⟩ := last
    obtain ⟨outside, unshared⟩ := allowed final orphan notRoot
    apply fewer.kfree
    · simp only [FileSystem.modify, update_self]
      exact orphan
    · have count := sound.counted id
      rw [update_self]
      omega
    · exact notRoot
    · exact sound.reach_made before
    · exact outside
    · exact sound.not_released before
    · intro data present
      simp only [FileSystem.modify, update_self] at present
      exact sound.intact.data id data before present
    · intro data present other different reach
      simp only [FileSystem.modify, update_self, update_of_ne different] at present ⊢
      exact unshared data present other different
        (Reach.inPlace (fs.nodes id).unref_inPlace (fun _ positive => before.of_update positive) reach)
  next => exact fewer

theorem Sound.reach_without (file : (fs.nodes id).kind ≠ .directory) {after : Nat → VfsNode} {count : Nat}
    (same : ∀ other, other ≠ id → after other = fs.nodes other) (reach : Reach fs.nodes fs.mounts counts other)
    (different : other ≠ id) : Reach after fs.mounts (update counts id count) other := by
  induction reach with
  | root => exact .root
  | @child parent child _ member ih =>
    have other : parent ≠ id := by
      rintro rfl
      rw [sound.tree.leaf parent file] at member
      cases member
    exact (ih other).child (by rw [same parent other]; exact member)
  | @mounted covered top _ here ih =>
    have other : covered ≠ id := by
      rintro rfl
      obtain ⟨mount, member, covers, _⟩ := sound.mounts.entry covered top here
      exact file (sound.mounts.kinds covered ⟨mount, member, Or.inr covers⟩).1
    exact (ih other).mounted (by rw [same covered other]; exact here)
  | entry member => exact .entry member
  | @opened node positive =>
    apply Reach.opened
    rw [update_of_ne different]
    exact positive

theorem Sound.unrefAllowed (intact : Intact (Vfs.vfsNodeUnref fs id) (update counts id (counts id - 1))) :
    UnrefAllowed fs counts id := by
  intro last orphan notRoot
  rw [vfsNodeUnref_eq, if_pos ⟨last, orphan, notRoot⟩] at intact
  constructor
  · intro member
    refine intact.nodes id (.entry member) ?_
    simp [FileSystem.release]
  intro data present other different reach shared
  have file : (fs.nodes id).kind ≠ .directory := by
    intro directory
    rw [sound.data.plain id directory] at present
    cases present
  have still : Reach ((fs.modify id VfsNode.unref).release id).nodes fs.mounts
      (update counts id (counts id - 1)) other := by
    refine sound.reach_without file ?_ reach different
    intro any elsewhere
    simp only [FileSystem.release, FileSystem.modify, update_of_ne elsewhere]
  refine intact.data other data still ?_ ?_
  · simp only [FileSystem.release, FileSystem.modify, update_of_ne different]
    exact shared
  · simp [FileSystem.release, FileSystem.modify, VfsNode.unref, present]

end

end PhotonOS.Vfs
