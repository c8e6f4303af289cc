import PhotonOS.Exec.ImageTables

/-!
Mapping a page into an image.
-/

namespace PhotonOS.Exec

open Function

variable {machine : Machine} {path rest : List Nat} {depth frame index block : Nat} {flags : BitVec 64}

/-- A table that a walk from the image's root meets after `depth` steps: one of the image or of the kernel. -/
def IsTable (level : Nat → Option Nat) (parts : Nat → Option Part) (depth frame : Nat) : Prop :=
  (∃ path, parts frame = some (.table path) ∧ path.length = depth) ∨ level frame = some (3 - depth)

def Walkable (machine : Machine) (table : Nat → Nat → Prop) : Prop :=
  ∀ depth frame index, table depth frame → depth < 3 → index < 512 →
    hasFlag (machine.mem frame index) pagePresent = true →
    ∃ next, entryTable (machine.mem frame index) = frameAddress next ∧ 0 < next ∧ next < frameLimit ∧
      table (depth + 1) next

theorem Walkable.tables_positive {table : Nat → Nat → Prop} (walkable : Walkable machine table) :
    ∀ start depth, table depth start → 0 < start → depth + path.length ≤ 3 → (∀ step ∈ path, step < 512) →
      ∀ frame ∈ tablesAlong machine start path, 0 < frame := by
  induction path with
  | nil => intro start depth _ positive _ _; simpa [tablesAlong] using positive
  | cons step path ih =>
    intro start depth isTable positive long bounds
    simp only [List.length_cons] at long
    obtain ⟨small, pathBounds⟩ := List.forall_mem_cons.mp bounds
    rw [tablesAlong, List.forall_mem_cons]
    refine ⟨positive, ?_⟩
    split
    next present =>
      obtain ⟨next, address, nextPositive, bound, nextTable⟩ := walkable depth start step isTable (by omega) small present
      rw [address, frameOf_frameAddress next bound]
      exact ih next (depth + 1) nextTable nextPositive (by omega) pathBounds
    · simp

theorem Walkable.vmmIsMapped_eq {table : Nat → Nat → Prop} (walkable : Walkable machine table) {root : Nat}
    (start : table 0 root) (rootBound : root < frameLimit) (rootPositive : 0 < root) (address : BitVec 64) :
    vmmIsMapped machine (frameAddress root) address =
      (descend machine root (indicesOf address).toList).isSome := by
  obtain ⟨pml4, pdpt, pd, _⟩ := indicesOf_valid address
  exact vmmIsMapped_descend rootBound (walkable.tables_positive root 0 start rootPositive (by simp [Indices.path])
    (by simp [Indices.path, pml4, pdpt, pd]))

theorem Walkable.descend_congr {after : Machine} {table : Nat → Nat → Prop} (walkable : Walkable machine table)
    (same : ∀ depth frame, table depth frame → after.mem frame = machine.mem frame) :
    ∀ start depth, table depth start → depth + path.length ≤ 4 → (∀ step ∈ path, step < 512) →
      descend after start path = descend machine start path := by
  induction path with
  | nil => intro start depth _ _ _; rfl
  | cons step path ih =>
    intro start depth isTable long bounds
    simp only [List.length_cons] at long
    obtain ⟨small, pathBounds⟩ := List.forall_mem_cons.mp bounds
    rw [descend, descend, same depth start isTable]
    split
    next present =>
      by_cases last : depth < 3
      · obtain ⟨next, address, _, bound, nextTable⟩ := walkable depth start step isTable last small present
        rw [address, frameOf_frameAddress next bound]
        exact ih next (depth + 1) nextTable (by omega) pathBounds
      · obtain rfl : path = [] := List.eq_nil_of_length_eq_zero (by omega)
        rfl
    · rfl

theorem KernelTables.walkable {level : Nat → Option Nat} (kernel : KernelTables machine level) :
    Walkable machine fun depth frame => level frame = some (3 - depth) := by
  intro depth frame index table shallow small present
  rw [show 3 - depth = 2 - depth + 1 by omega] at table
  obtain ⟨next, address, positive, bound, nextLevel⟩ := (kernel.entry frame _ index table small).2 present
  refine ⟨next, address, positive, bound, nextLevel.trans ?_⟩
  congr 1
  omega

namespace Image

variable {base machine : Machine} {level : Nat → Option Nat} {root : Nat} {parts : Nat → Option Part}
    {frame index block : Nat} {path : List Nat}

section

variable (kernel : KernelTables base level) (image : Image base level machine root parts)
include kernel image

theorem used_of_isTable (table : IsTable level parts depth frame) : machine.pmm.bitmap frame = true := by
  rw [image.bitmap, Bool.or_eq_true]
  rcases table with ⟨path, own, _⟩ | kernelTable
  · exact Or.inr (by rw [own]; rfl)
  · exact Or.inl (kernel.used frame _ kernelTable)

theorem walkable : Walkable machine (IsTable level parts) := by
  intro depth frame index table shallow small present
  have closed : Supervisor level (2 - depth) (machine.mem frame index) →
      ∃ next, entryTable (machine.mem frame index) = frameAddress next ∧ 0 < next ∧ next < frameLimit ∧
        IsTable level parts (depth + 1) next := by
    intro supervisor
    obtain ⟨next, address, positive, bound, nextLevel⟩ := supervisor.2 present
    refine ⟨next, address, positive, bound, Or.inr ?_⟩
    rw [nextLevel]
    congr 1
    omega
  rcases table with ⟨path, own, rfl⟩ | kernelTable
  · rcases image.entry frame path index own shallow small with ⟨supervisor, _⟩ | ⟨next, value, nextTable⟩
    · exact closed supervisor
    · obtain ⟨bound, positive⟩ := image.table_bound kernel nextTable
      refine ⟨next, by rw [value, entryTable_makeEntry bound flagWord_userTable], positive, bound,
        Or.inl ⟨_, nextTable, by simp⟩⟩
  · rw [show 3 - depth = 2 - depth + 1 by omega] at kernelTable
    have supervisor := kernel.entry frame (2 - depth) index kernelTable small
    rw [← image.memory frame (kernel.used frame _ kernelTable)] at supervisor
    exact closed supervisor

end

theorem root_isTable (image : Image base level machine root parts) : IsTable level parts 0 root :=
  Or.inl ⟨[], (image.rootPart root).mpr rfl, rfl⟩

section

variable (kernel : KernelTables base level) (image : Image base level machine root parts)
include kernel image

theorem root_bound : root < frameLimit ∧ 0 < root :=
  image.table_bound kernel ((image.rootPart root).mpr rfl)

theorem descend_withTable
    (table : parts frame = some (.table path)) (shallow : path.length < 3) (indexBound : index < 512)
    (closed : hasFlag (machine.mem frame index) pageUser = false) (small : block < machine.pmm.total)
    (clear : machine.pmm.bitmap block = false) :
    ∀ (start depth : Nat), IsTable level parts depth start → depth + rest.length = 4 → (∀ step ∈ rest, step < 512) →
      (descend (withTable machine frame index block (replaced machine frame index)) start rest).isSome =
        (descend machine start rest).isSome := by
  obtain ⟨unused, free, _, blockBound, _⟩ := image.spare kernel small clear
  have frameBound := (image.table_bound kernel table).1
  have mem := withTable_mem machine index (replaced machine frame index) frameBound blockBound
  have isOld : ∀ {depth other : Nat}, IsTable level parts depth other → other ≠ block := by
    rintro depth other isTable rfl
    rw [image.used_of_isTable kernel isTable] at clear
    cases clear
  have notKernel : ∀ depth, level frame ≠ some depth := by
    intro depth kernelTable
    have set := kernel.used frame depth kernelTable
    rw [image.not_base table] at set
    cases set
  induction rest with
  | nil => intro start depth _ _ _; rfl
  | cons step rest ih =>
    intro start depth isTable long bounds
    simp only [List.length_cons] at long
    obtain ⟨stepBound, restBounds⟩ := List.forall_mem_cons.mp bounds
    have startOld := isOld isTable
    by_cases here : start = frame ∧ step = index
    · -- the walk goes through the new link, and the rest finds in the new table what it found before
      obtain ⟨rfl, rfl⟩ := here
      have depthEq : depth = path.length := by
        rcases isTable with ⟨other, own, rfl⟩ | kernelTable
        · rw [table] at own
          cases own
          rfl
        · exact absurd kernelTable (notKernel _)
      obtain ⟨second, more, rfl⟩ : ∃ second more, rest = second :: more := by
        cases rest with
        | nil => simp at long; omega
        | cons second more => exact ⟨second, more, rfl⟩
      have linked := mem start step
      have inside := mem block second
      rw [if_pos ⟨rfl, rfl⟩] at linked
      rw [if_neg (fun both => startOld both.1.symm), if_pos rfl] at inside
      rw [descend, linked, if_pos (link_present blockBound), entryTable_makeEntry blockBound flagWord_userTable,
        frameOf_frameAddress block blockBound, descend, inside]
      by_cases present : hasFlag (machine.mem start step) pagePresent = true
      · obtain ⟨next, address, _, nextBound, nextTable⟩ :=
          image.walkable kernel depth start step isTable (by omega) stepBound present
        have same := ih next (depth + 1) nextTable (by omega) restBounds
        have nextApart : next ≠ start := by
          rintro rfl
          rcases nextTable with ⟨other, own, length⟩ | kernelTable
          · rw [table] at own
            cases own
            omega
          · exact absurd kernelTable (notKernel _)
        have kept := mem next second
        rw [if_neg (fun both => nextApart both.1), if_neg (isOld nextTable)] at kept
        rw [descend, kept] at same
        have copied : replaced machine start step second = machine.mem next second := by
          rw [replaced, if_pos present, address, frameOf_frameAddress next nextBound]
        rw [copied, same]
        simp only [descend, present, if_true, address, frameOf_frameAddress next nextBound]
      · have empty : replaced machine start step second = 0 := by rw [replaced, if_neg present]
        rw [empty, hasFlag_zero]
        simp [descend, present]
    · have kept := mem start step
      rw [if_neg here, if_neg startOld] at kept
      rw [descend, descend, kept]
      split
      next present =>
        by_cases last : depth < 3
        · obtain ⟨next, address, _, nextBound, nextTable⟩ := image.walkable kernel depth start step isTable last stepBound present
          rw [address, frameOf_frameAddress next nextBound]
          exact ih next (depth + 1) nextTable (by omega) restBounds
        · obtain rfl : rest = [] := List.eq_nil_of_length_eq_zero (by omega)
          rfl
      · rfl

end

theorem entry_of_missing (image : Image base level machine root parts)
    (table : parts frame = some (.table path)) (shallow : path.length < 3) (small : index < 512)
    (missing : ∀ next, parts next ≠ some (.table (path ++ [index]))) :
    Supervisor level (2 - path.length) (machine.mem frame index) ∧
      (OwnSlot (path ++ [index]) → machine.mem frame index = 0) := by
  rcases image.entry frame path index table shallow small with kept | ⟨next, _, nextTable⟩
  · exact kept
  · exact absurd nextTable (missing next)

section

variable (kernel : KernelTables base level) (image : Image base level machine root parts)
    (table : parts frame = some (.table path)) (shallow : path.length < 3) (small : index < 512)
    (missing : ∀ next, parts next ≠ some (.table (path ++ [index])))
include kernel image table shallow small missing

theorem replaced_inner : path.length + 1 < 3 → ∀ place, place < 512 →
      Supervisor level (2 - (path.length + 1)) (replaced machine frame index place) ∧
        (OwnSlot (path ++ [index] ++ [place]) → replaced machine frame index place = 0) := by
  intro deeper place placeBound
  obtain ⟨supervisor, own⟩ := image.entry_of_missing table shallow small missing
  rw [replaced]
  split
  next present =>
    obtain ⟨next, address, _, bound, nextLevel⟩ := supervisor.2 present
    rw [address, frameOf_frameAddress next bound, image.memory next (kernel.used next _ nextLevel)]
    rw [show 2 - path.length = 2 - (path.length + 1) + 1 by omega] at nextLevel
    refine ⟨kernel.entry next _ place nextLevel placeBound, ?_⟩
    intro ownSlot
    have same : OwnSlot (path ++ [index]) := by
      cases path with
      | nil => exact ownSlot
      | cons first rest => exact ownSlot
    rw [own same, hasFlag_zero] at present
    cases present
  · exact ⟨supervisor_zero, fun _ => rfl⟩

theorem made (blockSmall : block < machine.pmm.total) (clear : machine.pmm.bitmap block = false) :
    Image base level (withTable machine frame index block (replaced machine frame index)) root
      (update parts block (some (.table (path ++ [index])))) :=
  image.addTable kernel table shallow small (image.entry_of_missing table shallow small missing).1.1 blockSmall clear
    (image.replaced_inner kernel table shallow small missing)

end

end Image

inductive Ensured (machine : Machine) (parts : Nat → Option Part) (frame : Nat) (path : List Nat) (index : Nat) :
    Machine × BitVec 64 → Prop where
  | found {next : Nat} (table : parts next = some (.table (path ++ [index]))) :
      Ensured machine parts frame path index (machine, frameAddress next)
  | starved (missing : ∀ next, parts next ≠ some (.table (path ++ [index]))) (nothing : freeFrames machine = 0) :
      Ensured machine parts frame path index (starved machine, 0)
  | made {block : Nat} (missing : ∀ next, parts next ≠ some (.table (path ++ [index])))
      (small : block < machine.pmm.total) (clear : machine.pmm.bitmap block = false) :
      Ensured machine parts frame path index
        (withTable machine frame index block (replaced machine frame index), frameAddress block)

section

variable {base machine : Machine} {level : Nat → Option Nat} {root : Nat} {parts : Nat → Option Part}

variable (kernel : KernelTables base level) (image : Image base level machine root parts)
include kernel image

theorem linkTable_ensured
    (missing : ∀ next, parts next ≠ some (.table (path ++ [index]))) (user : hasFlag flags pageUser = true) :
    Ensured machine parts frame path index
      (linkTable machine (frameAddress frame) index flags (replaced machine frame index)) := by
  rcases pmmAlloc_counts machine with ⟨nothing, allocated⟩ | ⟨block, small, clear, allocated⟩
  · rw [linkTable_null (by rw [allocated]), allocated]
    exact .starved missing nothing
  · obtain ⟨_, _, _, bound, positive⟩ := image.spare kernel small clear
    rw [linkTable_taken allocated bound positive user]
    exact .made missing small clear

theorem ensureNextTable_ensured
    (table : parts frame = some (.table path)) (shallow : path.length < 3) (small : index < 512)
    (user : hasFlag flags pageUser = true) :
    Ensured machine parts frame path index (ensureNextTable machine (frameAddress frame) index flags) := by
  obtain ⟨frameBound, positive⟩ := image.table_bound kernel table
  by_cases missing : ∀ next, parts next ≠ some (.table (path ++ [index]))
  · rw [ensureNextTable_linkTable frameBound positive small (image.total ▸ kernel.total) user]
    · exact linkTable_ensured kernel image missing user
    intro present
    obtain ⟨⟨closed, leads⟩, _⟩ := image.entry_of_missing table shallow small missing
    obtain ⟨next, address, nextPositive, nextBound, _⟩ := leads present
    rw [address, frameOf_frameAddress next nextBound]
    exact ⟨closed, nextPositive⟩
  · push Not at missing
    obtain ⟨next, nextTable⟩ := missing
    obtain ⟨nextBound, nextPositive⟩ := image.table_bound kernel nextTable
    obtain ⟨_, _, owner, ownerTable, entry⟩ := image.parent next path index nextTable
    rw [image.unique kernel path ownerTable table] at entry
    have leads : entryTable (machine.mem frame index) = frameAddress next := by
      rw [entry, entryTable_makeEntry nextBound flagWord_userTable]
    rw [ensureNextTable_found frameBound positive small (by rw [entry, link_present nextBound])
      (by rw [leads, frameOf_frameAddress next nextBound]; exact nextPositive)
      (fun _ => by rw [entry, link_user nextBound]), leads]
    exact .found nextTable

end

structure Extends (level : Nat → Option Nat) (machine after : Machine) (parts partsAfter : Nat → Option Part) :
    Prop where
  kept : ∀ frame part, parts frame = some part → partsAfter frame = some part
  pages : ∀ frame, partsAfter frame = some .page → parts frame = some .page
  leaves : ∀ frame path, parts frame = some (.table path) → path.length = 3 → after.mem frame = machine.mem frame
  walks : ∀ start depth path, IsTable level parts depth start → depth + path.length = 4 → (∀ step ∈ path, step < 512) →
    (descend after start path).isSome = (descend machine start path).isSome

namespace Extends

variable {level : Nat → Option Nat} {first second third : Machine} {parts middle last : Nat → Option Part}

theorem refl (machine : Machine) (parts : Nat → Option Part) : Extends level machine machine parts parts :=
  ⟨fun _ _ own => own, fun _ page => page, fun _ _ _ _ => rfl, fun _ _ _ _ _ _ => rfl⟩

theorem isTable (extends_ : Extends level first second parts middle) (table : IsTable level parts depth frame) :
    IsTable level middle depth frame := by
  rcases table with ⟨path, own, length⟩ | kernelTable
  · exact Or.inl ⟨path, extends_.kept frame _ own, length⟩
  · exact Or.inr kernelTable

theorem trans (left : Extends level first second parts middle) (right : Extends level second third middle last) :
    Extends level first third parts last where
  kept frame part own := right.kept frame part (left.kept frame part own)
  pages frame page := left.pages frame (right.pages frame page)
  leaves frame path own full :=
    (right.leaves frame path (left.kept frame _ own) full).trans (left.leaves frame path own full)
  walks start depth path table long bounds :=
    (right.walks start depth path (left.isTable table) long bounds).trans (left.walks start depth path table long bounds)

end Extends

section

variable {base machine : Machine} {level : Nat → Option Nat} {root : Nat} {parts : Nat → Option Part}

theorem extends_starved : Extends level machine (starved machine) parts parts := by
  refine ⟨fun _ _ own => own, fun _ page => page, fun _ _ _ _ => rfl, ?_⟩
  intro start depth path _ _ _
  have same : ∀ (path : List Nat) (start : Nat), descend (starved machine) start path = descend machine start path := by
    intro path
    induction path with
    | nil => intro start; rfl
    | cons step path ih =>
      intro start
      simp only [descend, ih]
      rfl
  rw [same]

theorem extends_made (kernel : KernelTables base level) (image : Image base level machine root parts)
    (table : parts frame = some (.table path)) (shallow : path.length < 3) (small : index < 512)
    (missing : ∀ next, parts next ≠ some (.table (path ++ [index]))) (blockSmall : block < machine.pmm.total)
    (clear : machine.pmm.bitmap block = false) :
    Extends level machine (withTable machine frame index block (replaced machine frame index)) parts
      (update parts block (some (.table (path ++ [index])))) := by
  obtain ⟨unused, _, _, blockBound, _⟩ := image.spare kernel blockSmall clear
  have frameBound := (image.table_bound kernel table).1
  constructor
  · intro other part own
    rw [update_of_ne _ _ _, own]
    rintro rfl
    rw [unused] at own
    cases own
  · intro other page
    by_cases same : other = block
    · rw [same, update_self] at page
      cases page
    · rwa [update_of_ne same] at page
  · intro other otherPath own full
    funext place
    rw [withTable_mem machine index _ frameBound blockBound, if_neg, if_neg]
    · rintro rfl
      rw [unused] at own
      cases own
    · rintro ⟨rfl, _⟩
      rw [table] at own
      cases own
      omega
  · intro start depth walk isTable long bounds
    exact image.descend_withTable kernel table shallow small
      (image.entry_of_missing table shallow small missing).1.1 blockSmall clear start depth isTable long bounds

def Bare (parts : Nat → Option Part) (path : List Nat) : Prop :=
  ∀ next more, more ≠ [] → parts next ≠ some (.table (path ++ more))

theorem ensureTables_image (kernel : KernelTables base level) (user : hasFlag flags pageUser = true) :
    ∀ {machine : Machine} {parts : Nat → Option Part} {frame : Nat} {path : List Nat},
    Image base level machine root parts → parts frame = some (.table path) → path.length + rest.length = 3 →
    (∀ index ∈ rest, index < 512) → ∃ partsAfter,
      Image base level (ensureTables flags machine (frameAddress frame) rest).1 root partsAfter ∧
      Extends level machine (ensureTables flags machine (frameAddress frame) rest).1 parts partsAfter ∧
      ((∃ pt, (ensureTables flags machine (frameAddress frame) rest).2 = frameAddress pt ∧
          partsAfter pt = some (.table (path ++ rest)) ∧ (Bare parts path →
            freeFrames (ensureTables flags machine (frameAddress frame) rest).1 + rest.length = freeFrames machine)) ∨
        (ensureTables flags machine (frameAddress frame) rest).2 = 0 ∧ freeFrames machine < rest.length ∧
          (OwnSlot (path ++ rest) → ∀ last, descend machine frame (rest ++ [last]) = none)) := by
  induction rest with
  | nil =>
    intro machine parts frame path image table _ _
    refine ⟨parts, image, Extends.refl machine parts, Or.inl ⟨frame, rfl, ?_, fun _ => rfl⟩⟩
    rw [List.append_nil, table]
  | cons index rest ih =>
    intro machine parts frame path image table long bounds
    simp only [List.length_cons] at long
    obtain ⟨small, restBounds⟩ := List.forall_mem_cons.mp bounds
    have ensured := ensureNextTable_ensured kernel image table (by omega) small user
    have paths : path ++ index :: rest = path ++ [index] ++ rest := by simp
    simp only [ensureTables]
    generalize ensureNextTable machine (frameAddress frame) index flags = result at ensured
    cases ensured with
    | @found next nextTable =>
      obtain ⟨bound, positive⟩ := image.table_bound kernel nextTable
      obtain ⟨partsAfter, imageAfter, extended, outcome⟩ := ih image nextTable (by simp; omega) restBounds
      simp only [if_neg (frameAddress_ne_zero next bound positive)]
      refine ⟨partsAfter, imageAfter, extended, ?_⟩
      rw [paths]
      rcases outcome with ⟨pt, pointer, ptTable, _⟩ | ⟨failed, few, absent⟩
      · refine Or.inl ⟨pt, pointer, ptTable, ?_⟩
        intro bare
        exact absurd nextTable (bare next [index] (by simp))
      refine Or.inr ⟨failed, by simp; omega, ?_⟩
      intro own last
      obtain ⟨_, _, owner, ownerTable, entry⟩ := image.parent next path index nextTable
      rw [image.unique kernel path ownerTable table] at entry
      rw [List.cons_append, descend, entry, if_pos (link_present bound),
        entryTable_makeEntry bound flagWord_userTable, frameOf_frameAddress next bound]
      exact absent own last
    | starved missing nothing =>
      simp only [if_true]
      refine ⟨parts, image.starved, extends_starved, Or.inr ⟨trivial, by simp; omega, ?_⟩⟩
      intro own last
      have empty := (image.entry_of_missing table (by omega) small missing).2
        (by rw [paths] at own; cases path <;> exact own)
      rw [List.cons_append, descend_none empty]
    | @made block missing blockSmall clear =>
      obtain ⟨_, _, _, bound, positive⟩ := image.spare kernel blockSmall clear
      have madeImage := image.made kernel table (by omega) small missing blockSmall clear
      have madeExtends := extends_made kernel image table (by omega) small missing blockSmall clear
      have count : freeFrames (withTable machine frame index block (replaced machine frame index)) + 1 =
        freeFrames machine := freeFrames_taken blockSmall clear
      obtain ⟨partsAfter, imageAfter, extended, outcome⟩ := ih madeImage (update_self ..) (by simp; omega) restBounds
      simp only [if_neg (frameAddress_ne_zero block bound positive)]
      refine ⟨partsAfter, imageAfter, madeExtends.trans extended, ?_⟩
      rw [paths]
      rcases outcome with ⟨pt, pointer, ptTable, counted⟩ | ⟨failed, few, _⟩
      · refine Or.inl ⟨pt, pointer, ptTable, ?_⟩
        intro bare
        have bareBelow : Bare (update parts block (some (.table (path ++ [index])))) (path ++ [index]) := by
          intro next more nonempty table
          by_cases same : next = block
          · rw [same, update_self] at table
            simp at table
            exact nonempty table
          · rw [update_of_ne same, List.append_assoc] at table
            exact bare next ([index] ++ more) (by simp) table
        have total := counted bareBelow
        simp only [List.length_cons]
        omega
      · refine Or.inr ⟨failed, by simp; omega, ?_⟩
        intro own last
        have empty := (image.entry_of_missing table (by omega) small missing).2
          (by cases path <;> exact own)
        rw [List.cons_append, descend_none empty]

end

end PhotonOS.Exec
