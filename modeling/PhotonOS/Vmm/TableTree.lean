import Mathlib.Data.List.Induction
import PhotonOS.Vmm.Entry

/-!
The page tables of all address spaces as a forest in physical memory.
-/

namespace PhotonOS

inductive Role where
  | unused
  | data
  | table (space : Nat) (path : List Nat)
  deriving DecidableEq

def LinkIndex (path : List Nat) (index : Nat) : Prop :=
  index < 512 ∧ (path = [] → 1 ≤ index ∧ index ≤ 255)

structure PageFlags (flags : BitVec 64) : Prop where
  word : FlagWord flags
  present : hasFlag flags pagePresent = true
  user : hasFlag flags pageUser = true

def PageEntry (roles : Nat → Role) (entry : BitVec 64) : Prop :=
  ∃ target flags, entry = makeEntry target flags ∧ PageFlags flags ∧ roles target = .data

structure Forest (machine : Machine) (roots : List Nat) (roles : Nat → Role) : Prop where
  total : machine.pmm.total ≤ pmmMaxBlocks
  reserved : 0 < machine.pmm.reserved
  guarded : ∀ frame, frame < machine.pmm.reserved → machine.pmm.bitmap frame = true
  owned : ∀ frame, roles frame ≠ .unused →
    machine.pmm.reserved ≤ frame ∧ frame < machine.pmm.total ∧ machine.pmm.bitmap frame = true
  root : ∀ frame space, roles frame = .table space [] ↔ roots[space]? = some frame
  child : ∀ frame space path index, roles frame = .table space path → path.length < 3 →
    LinkIndex path index → machine.mem frame index = 0 ∨
      ∃ next, machine.mem frame index = makeEntry next userTable ∧ roles next = .table space (path ++ [index])
  parent : ∀ next space path index, roles next = .table space (path ++ [index]) →
    path.length < 3 ∧ LinkIndex path index ∧
      ∃ frame, roles frame = .table space path ∧ machine.mem frame index = makeEntry next userTable
  leaf : ∀ frame space path index, roles frame = .table space path → path.length = 3 → index < 512 →
    machine.mem frame index = 0 ∨ PageEntry roles (machine.mem frame index)

def descend (machine : Machine) : Nat → List Nat → Option Nat
  | frame, [] => some frame
  | frame, index :: rest =>
    if hasFlag (machine.mem frame index) pagePresent then
      descend machine (frameOf (entryTable (machine.mem frame index))) rest
    else none

def entriesAlong (machine : Machine) : Nat → List Nat → Option (List (BitVec 64))
  | _, [] => some []
  | frame, index :: rest =>
    let entry := machine.mem frame index
    if hasFlag entry pagePresent then
      (entriesAlong machine (frameOf (entryTable entry)) rest).map (entry :: ·)
    else none

def Indices.toList (indices : Indices) : List Nat := [indices.pml4, indices.pdpt, indices.pd, indices.pt]

def tablesAlong (machine : Machine) : Nat → List Nat → List Nat
  | frame, [] => [frame]
  | frame, index :: rest =>
    frame :: if hasFlag (machine.mem frame index) pagePresent then
      tablesAlong machine (frameOf (entryTable (machine.mem frame index))) rest
    else []

def leafOf (machine : Machine) (root : Nat) (indices : Indices) : BitVec 64 :=
  match descend machine root [indices.pml4, indices.pdpt, indices.pd] with
  | none => 0
  | some pt => machine.mem pt indices.pt

structure Indices.User (indices : Indices) : Prop where
  valid : indices.Valid
  lower : 1 ≤ indices.pml4
  upper : indices.pml4 ≤ 255

def Indices.path (indices : Indices) : List Nat := [indices.pml4, indices.pdpt, indices.pd]

@[simp] theorem hasFlag_zero (mask : BitVec 64) : hasFlag 0 mask = false := by
  simp [hasFlag]

theorem userTable_flags : hasFlag userTable pagePresent = true ∧ hasFlag userTable pageUser = true ∧
    hasFlag userTable pageWritable = true := by decide

variable {next : Nat}

theorem link_present (bound : next < frameLimit) :
    hasFlag (makeEntry next userTable) pagePresent = true := by
  rw [hasFlag_makeEntry bound _ (by decide)]
  exact userTable_flags.1

theorem link_user (bound : next < frameLimit) : hasFlag (makeEntry next userTable) pageUser = true := by
  rw [hasFlag_makeEntry bound _ (by decide)]
  exact userTable_flags.2.1

theorem descend_none {machine : Machine} {frame index : Nat} (entry : machine.mem frame index = 0)
    (rest : List Nat) : descend machine frame (index :: rest) = none := by
  rw [descend, entry, hasFlag_zero]
  rfl

theorem descend_append (machine : Machine) (first : List Nat) : ∀ (frame : Nat) (rest : List Nat),
    descend machine frame (first ++ rest) = (descend machine frame first).bind (descend machine · rest) := by
  induction first with
  | nil => intro frame rest; rfl
  | cons index first ih =>
    intro frame rest
    rw [List.cons_append, descend, descend]
    split
    · exact ih _ rest
    · rfl

namespace Forest

variable {machine : Machine} {roots : List Nat} {roles : Nat → Role} {frame space root : Nat} {path rest : List Nat}
    {indices : Indices}

section

variable (forest : Forest machine roots roles)
include forest

theorem bound (used : roles frame ≠ .unused) : frame < frameLimit ∧ 0 < frame := by
  obtain ⟨low, high, _⟩ := forest.owned frame used
  exact ⟨lt_frameLimit high forest.total, Nat.lt_of_lt_of_le forest.reserved low⟩

theorem table_bound (table : roles frame = .table space path) : frame < frameLimit ∧ 0 < frame :=
  forest.bound (by rw [table]; simp)

theorem data_bound (data : roles frame = .data) : frame < frameLimit ∧ 0 < frame := forest.bound (by rw [data]; simp)

theorem unique (path : List Nat) {first second : Nat} (left : roles first = .table space path)
    (right : roles second = .table space path) : first = second := by
  induction path using List.reverseRecOn generalizing first second with
  | nil =>
    rw [forest.root] at left right
    exact Option.some.inj (left.symm.trans right)
  | append_singleton path index ih =>
    obtain ⟨_, _, leftFrame, leftRole, leftEntry⟩ := forest.parent first space path index left
    obtain ⟨_, _, rightFrame, rightRole, rightEntry⟩ := forest.parent second space path index right
    rw [ih leftRole rightRole, rightEntry] at leftEntry
    exact (makeEntry_inj (forest.table_bound right).1 flagWord_userTable (forest.table_bound left).1 flagWord_userTable leftEntry).1.symm

theorem follow {index : Nat} (entry : machine.mem frame index = makeEntry next userTable)
    (role : roles next = .table space (path ++ [index])) :
    descend machine frame (index :: rest) = descend machine next rest := by
  have small := (forest.table_bound role).1
  rw [descend, entry, if_pos (link_present small), entryTable_makeEntry small flagWord_userTable,
    frameOf_frameAddress next small]

theorem descend_role :
    ∀ (frame target space : Nat) (path : List Nat), roles frame = .table space path →
      path.length + rest.length ≤ 3 → (∀ index ∈ rest, index < 512) →
      (path = [] → ∀ index ∈ rest.head?, 1 ≤ index ∧ index ≤ 255) →
      descend machine frame rest = some target → roles target = .table space (path ++ rest) := by
  induction rest with
  | nil =>
    intro frame target space path role _ _ _ arrived
    rw [← Option.some.inj arrived, List.append_nil]
    exact role
  | cons index rest ih =>
    intro frame target space path role short small user arrived
    simp only [List.length_cons] at short
    have link : LinkIndex path index := ⟨small index (by simp), fun empty => user empty index (by simp)⟩
    rcases forest.child frame space path index role (by omega) link with none | ⟨next, entry, nextRole⟩
    · rw [descend_none none] at arrived
      contradiction
    · rw [forest.follow entry nextRole] at arrived
      have step := ih next target space (path ++ [index]) nextRole (by simp; omega)
        (fun other member => small other (by simp [member])) (by simp) arrived
      rwa [List.append_assoc] at step

theorem reach (path : List Nat) {target : Nat} (start : roots[space]? = some root)
    (role : roles target = .table space path) : descend machine root path = some target := by
  induction path using List.reverseRecOn generalizing target with
  | nil =>
    rw [forest.root, start] at role
    exact role
  | append_singleton path index ih =>
    obtain ⟨_, _, frame, frameRole, entry⟩ := forest.parent target space path index role
    rw [descend_append, ih frameRole]
    exact forest.follow entry role

variable (start : roots[space]? = some root)
include start

theorem leafOf_table {pt : Nat}
    (role : roles pt = .table space indices.path) : leafOf machine root indices = machine.mem pt indices.pt := by
  rw [leafOf, show [indices.pml4, indices.pdpt, indices.pd] = indices.path from rfl,
    forest.reach indices.path start role]

theorem leafOf_absent (user : indices.User)
    (absent : ∀ pt, roles pt ≠ .table space indices.path) : leafOf machine root indices = 0 := by
  rw [leafOf]
  cases arrived : descend machine root [indices.pml4, indices.pdpt, indices.pd] with
  | none => rfl
  | some pt =>
    refine absurd (forest.descend_role root pt space [] ?_ (by simp) ?_ ?_ arrived) (absent pt)
    · exact (forest.root root space).mpr start
    · obtain ⟨⟨_, _, _, _⟩, _, _⟩ := user
      simp_all
    · intro _ index found
      simp only [List.head?_cons, Option.mem_def, Option.some.injEq] at found
      exact found ▸ ⟨user.lower, user.upper⟩

theorem leafOf_cases (user : indices.User) :
    (∃ pt, roles pt = .table space indices.path ∧ leafOf machine root indices = machine.mem pt indices.pt) ∨
      (∀ pt, roles pt ≠ .table space indices.path) ∧ leafOf machine root indices = 0 := by
  by_cases found : ∃ pt, roles pt = .table space indices.path
  · obtain ⟨pt, role⟩ := found
    exact Or.inl ⟨pt, role, forest.leafOf_table start role⟩
  · have absent : ∀ pt, roles pt ≠ .table space indices.path := fun pt role => found ⟨pt, role⟩
    exact Or.inr ⟨absent, forest.leafOf_absent start user absent⟩

theorem leafOf_entry (user : indices.User) :
    leafOf machine root indices = 0 ∨ PageEntry roles (leafOf machine root indices) := by
  rcases forest.leafOf_cases start user with ⟨pt, role, entry⟩ | ⟨_, zero⟩
  · rw [entry]
    exact forest.leaf pt space indices.path indices.pt role rfl user.valid.pt
  · exact Or.inl zero

end

end Forest

/-! The walks of the source. -/

theorem descend_isSome (machine : Machine) (path : List Nat) : ∀ frame,
    (descend machine frame path).isSome = (entriesAlong machine frame path).isSome := by
  induction path with
  | nil => intro frame; rfl
  | cons index path ih =>
    intro frame
    rw [descend, entriesAlong]
    split
    · rw [ih, Option.isSome_map]
    · rfl

theorem vmmIsMapped_eq_faultWalk (machine : Machine) (pml4 address : BitVec 64) :
    vmmIsMapped machine pml4 address = (faultWalk machine pml4 address).isSome := by
  have entryValid : ∀ entry, validTableEntry entry = validTablePointer (entryTable entry) := fun _ => rfl
  simp only [vmmIsMapped, faultWalk, indicesOf_page, entryValid]
  split_ifs <;> simp_all

/-- Where no table on the way is at address 0, the checks of the pointers pass. -/
theorem vmmIsMapped_descend {machine : Machine} {root : Nat} {address : BitVec 64} (bound : root < frameLimit)
    (tables : ∀ frame ∈ tablesAlong machine root (indicesOf address).path, 0 < frame) :
    vmmIsMapped machine (frameAddress root) address =
      (descend machine root (indicesOf address).toList).isSome := by
  simp only [Indices.path, tablesAlong, List.forall_mem_cons] at tables
  simp only [vmmIsMapped_eq_faultWalk, faultWalk, Indices.toList, descend, Machine.read,
    frameOf_frameAddress root bound, validTablePointer_frameAddress root bound tables.1]
  by_cases first : hasFlag (machine.mem root (indicesOf address).pml4) pagePresent = true
  · simp only [first, if_true, List.forall_mem_cons] at tables ⊢
    simp only [validTablePointer_entryTable _ tables.2.1]
    by_cases second : hasFlag (machine.mem (frameOf (entryTable (machine.mem root (indicesOf address).pml4)))
        (indicesOf address).pdpt) pagePresent = true
    · simp only [second, if_true, List.forall_mem_cons] at tables ⊢
      simp only [validTablePointer_entryTable _ tables.2.2.1]
      split at tables
      next third =>
        simp [third, validTablePointer_entryTable _ (tables.2.2.2 _ (List.mem_singleton_self _))]
        split <;> simp_all
      next third => simp [third]
    · simp [second]
  · simp [first]

end PhotonOS
