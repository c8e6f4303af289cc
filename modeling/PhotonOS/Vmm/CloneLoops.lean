import PhotonOS.Lib.Transition
import PhotonOS.Vmm.TableGrowth

/-!
The four nested loops of `vmm_clone_address_space`.
-/

namespace PhotonOS

open Transition Indices

def Indices.rank (indices : Indices) : Nat :=
  ((indices.pml4 * 512 + indices.pdpt) * 512 + indices.pd) * 512 + indices.pt

def Keeps (roles rolesAfter : Nat → Role) : Prop :=
  ∀ frame space path, roles frame = .table space path → rolesAfter frame = .table space path

theorem Indices.rank_inj {first second : Indices} (firstValid : first.Valid) (secondValid : second.Valid)
    (same : first.rank = second.rank) : first = second := by
  obtain ⟨_, _, _, _⟩ := firstValid
  obtain ⟨_, _, _, _⟩ := secondValid
  obtain ⟨pml4, pdpt, pd, pt⟩ := first
  obtain ⟨pml4', pdpt', pd', pt'⟩ := second
  simp only [rank, mk.injEq] at *
  omega

variable {machine : Machine} {roots path : List Nat} {roles : Nat → Role} {frame space index pml4Index : Nat}

theorem Forest.absent_below (forest : Forest machine roots roles) (role : roles frame = .table space path)
    (empty : machine.mem frame index = 0) {rest : List Nat} :
    ∀ other, roles other ≠ .table space (path ++ [index] ++ rest) := by
  induction rest using List.reverseRecOn with
  | nil =>
    intro other otherRole
    rw [List.append_nil] at otherRole
    obtain ⟨_, _, above, aboveRole, entry⟩ := forest.parent other space path index otherRole
    rw [forest.unique path aboveRole role, empty] at entry
    exact makeEntry_userTable_ne_zero (forest.table_bound otherRole).1 entry.symm
  | append_singleton rest last ih =>
    intro other otherRole
    rw [← List.append_assoc] at otherRole
    obtain ⟨_, _, above, aboveRole, _⟩ := forest.parent other space _ last otherRole
    exact ih above aboveRole

theorem clonable_link (forest : Forest machine roots roles) {next : Nat}
    (entry : machine.mem frame index = makeEntry next userTable) (role : roles next = .table space path) :
    clonable (machine.mem frame index) = true ∧ entryTable (machine.mem frame index) = frameAddress next := by
  obtain ⟨bound, positive⟩ := forest.table_bound role
  rw [entry, clonable, hasFlag_makeEntry bound _ (by decide), hasFlag_makeEntry bound _ (by decide),
    validTableEntry, makeEntry_addr bound flagWord_userTable, validTablePointer_frameAddress next bound positive,
    entryTable_makeEntry bound flagWord_userTable]
  exact ⟨by decide, rfl⟩

theorem clonable_zero : clonable 0 = false := by decide

/-- What the loops keep: `Holds count` after the pages of rank below `count`. A clone may also get
`Stuck`, for good. -/
structure CloneInvariant (roots : List Nat) (parent parentRoot childRoot : Nat) (Stuck : Machine → Prop)
    (Holds : Nat → Machine → (Nat → Role) → Prop) : Prop where
  start : roots[parent]? = some parentRoot
  forest : ∀ {count machine roles}, Holds count machine roles → Forest machine roots roles
  skip : ∀ {count next machine roles}, Holds count machine roles → count ≤ next →
    (∀ indices : Indices, indices.User → count ≤ indices.rank → indices.rank < next →
      leafOf machine parentRoot indices = 0) → Holds next machine roles
  page : ∀ {machine roles pt} {indices : Indices}, Holds indices.rank machine roles → indices.User →
    roles pt = .table parent indices.path →
    let cloned := clonePage (frameAddress childRoot) (frameAddress pt) indices.pml4 indices.pdpt indices.pd machine
      indices.pt
    Stuck cloned ∨ ∃ rolesAfter, Holds (indices.rank + 1) cloned rolesAfter ∧ Keeps roles rolesAfter
  stuck : ∀ {machine}, Stuck machine → ∀ pt pml4 pdpt pd index,
    Stuck (clonePage (frameAddress childRoot) pt pml4 pdpt pd machine index)

def CloneReaches (Stuck : Machine → Prop) (Holds : Nat → Machine → (Nat → Role) → Prop) (roles : Nat → Role)
    (count : Nat) (machine : Machine) : Prop :=
  Stuck machine ∨ ∃ rolesAfter, Holds count machine rolesAfter ∧ Keeps roles rolesAfter

section

variable (Stuck : Machine → Prop) {child : BitVec 64}

theorem foldl_stuck {body : Machine → Nat → Machine}
    (sticky : ∀ machine index, Stuck machine → Stuck (body machine index))
    {indices : List Nat} (machine : Machine) (stuck : Stuck machine) : Stuck (indices.foldl body machine) := by
  induction indices generalizing machine with
  | nil => exact stuck
  | cons index indices ih => exact ih (body machine index) (sticky machine index stuck)

variable (page : ∀ {machine}, Stuck machine → ∀ pt pml4 pdpt pd index,
  Stuck (clonePage child pt pml4 pdpt pd machine index))

include page

theorem clonePt_stuck {pd : BitVec 64} {pdptIndex : Nat} (machine : Machine) (index : Nat)
    (stuck : Stuck machine) : Stuck (clonePt child pd pml4Index pdptIndex machine index) := by
  simp only [clonePt]
  split
  · exact foldl_stuck Stuck (fun _ index stuck => page stuck _ _ _ _ index) machine stuck
  · exact stuck

theorem clonePd_stuck {pdpt : BitVec 64} (machine : Machine) (index : Nat)
    (stuck : Stuck machine) : Stuck (clonePd child pdpt pml4Index machine index) := by
  simp only [clonePd]
  split
  · exact foldl_stuck Stuck (clonePt_stuck Stuck page) machine stuck
  · exact stuck

theorem clonePdpt_stuck {parent : BitVec 64} (machine : Machine) (index : Nat)
    (stuck : Stuck machine) : Stuck (clonePdpt child parent machine index) := by
  simp only [clonePdpt]
  split
  · exact foldl_stuck Stuck (clonePd_stuck Stuck page) machine stuck
  · exact stuck

end

section

variable {roots : List Nat} {parent parentRoot childRoot : Nat} {Stuck : Machine → Prop}
  {Holds : Nat → Machine → (Nat → Role) → Prop} {machine : Machine} {roles : Nat → Role}

theorem CloneReaches.foldl (body : Machine → Nat → Machine) (mark : Nat → Nat) (first count : Nat)
    (sticky : ∀ machine index, Stuck machine → Stuck (body machine index))
    (round : ∀ machine rolesNow index, first ≤ index → index < first + count → Keeps roles rolesNow →
      Holds (mark index) machine rolesNow → CloneReaches Stuck Holds rolesNow (mark (index + 1)) (body machine index))
    (holds : Holds (mark first) machine roles) :
    CloneReaches Stuck Holds roles (mark (first + count)) ((List.range' first count).foldl body machine) := by
  apply foldl_range'_invariant body fun index machine => CloneReaches Stuck Holds roles (mark index) machine
  · exact Or.inr ⟨roles, holds, fun _ _ _ role => role⟩
  intro index machine low high reached
  rcases reached with stuck | ⟨rolesNow, now, keeps⟩
  · exact Or.inl (sticky machine index stuck)
  · rcases round machine rolesNow index low high keeps now with stuck | ⟨rolesAfter, after, keepsAfter⟩
    · exact Or.inl stuck
    · exact Or.inr ⟨rolesAfter, after, fun frame space path role =>
        keepsAfter frame space path (keeps frame space path role)⟩

variable (invariant : CloneInvariant roots parent parentRoot childRoot Stuck Holds)

include invariant

/-- One level of the loops: the entry leads to the next table, or the pages below it are skipped at once. -/
theorem level_reaches (body : BitVec 64 → Machine → Nat → Machine) (mark : Nat → Nat)
    (sticky : ∀ table machine place, Stuck machine → Stuck (body table machine place))
    (role : roles frame = .table parent path) (shallow : path.length < 3) (link : LinkIndex path index)
    (order : mark 0 ≤ mark 512)
    (span : ∀ other : Indices, other.User → mark 0 ≤ other.rank → other.rank < mark 512 →
      ∃ more, other.path = path ++ [index] ++ more)
    (round : ∀ next machine rolesNow place, place < 512 → rolesNow next = .table parent (path ++ [index]) →
      Holds (mark place) machine rolesNow →
      CloneReaches Stuck Holds rolesNow (mark (place + 1)) (body (frameAddress next) machine place))
    (holds : Holds (mark 0) machine roles) :
    CloneReaches Stuck Holds roles (mark 512) (if clonable (machine.read (frameAddress frame) index) then
      (List.range vmmTableEntries).foldl (body (entryTable (machine.read (frameAddress frame) index))) machine
      else machine) := by
  have forest := invariant.forest holds
  rw [machine.read_frame (forest.table_bound role).1]
  rcases forest.child frame parent path index role shallow link with empty | ⟨next, entry, nextRole⟩
  · rw [empty, if_neg (by rw [clonable_zero]; decide)]
    refine Or.inr ⟨roles, invariant.skip holds order ?_, fun _ _ _ same => same⟩
    intro other otherUser low high
    obtain ⟨more, otherPath⟩ := span other otherUser low high
    apply forest.leafOf_absent invariant.start otherUser
    rw [otherPath]
    exact forest.absent_below role empty
  · obtain ⟨linked, table⟩ := clonable_link forest entry nextRole
    rw [if_pos linked, table, vmmTableEntries, List.range_eq_range']
    have whole := CloneReaches.foldl (body (frameAddress next)) mark 0 512 (sticky _) ?_ holds
    · simpa only [Nat.zero_add] using whole
    intro current rolesNow place _ high keeps now
    exact round next current rolesNow place (by omega) (keeps next parent _ nextRole) now

theorem clonePt_reaches {pml4 pdpt pd : Nat} (holds : Holds (rank ⟨pml4, pdpt, index, 0⟩) machine roles)
    (lower : 1 ≤ pml4) (upper : pml4 ≤ 255) (pdptBound : pdpt < 512) (indexBound : index < 512)
    (role : roles pd = .table parent [pml4, pdpt]) :
    CloneReaches Stuck Holds roles (rank ⟨pml4, pdpt, index + 1, 0⟩)
      (clonePt (frameAddress childRoot) (frameAddress pd) pml4 pdpt machine index) := by
  rw [show rank ⟨pml4, pdpt, index + 1, 0⟩ = rank ⟨pml4, pdpt, index, 512⟩ by simp only [rank]; omega]
  refine level_reaches invariant (fun pt => clonePage _ pt pml4 pdpt index) (fun place => rank ⟨pml4, pdpt, index, place⟩)
    (fun _ _ place stuck => invariant.stuck stuck _ _ _ _ place) role (by simp) ⟨indexBound, by simp⟩
    (by simp only [rank]; omega) ?_ ?_ holds
  · rintro other ⟨⟨_, _, _, _⟩, _, _⟩ low high
    simp only [rank] at low high
    refine ⟨[], ?_⟩
    rw [path, show other.pml4 = pml4 by omega, show other.pdpt = pdpt by omega, show other.pd = index by omega]
    rfl
  · intro pt current rolesNow place high ptRole now
    rw [show rank ⟨pml4, pdpt, index, place + 1⟩ = rank ⟨pml4, pdpt, index, place⟩ + 1 by simp only [rank]; omega]
    exact invariant.page now ⟨⟨Nat.lt_of_le_of_lt upper (by decide), pdptBound, indexBound, high⟩, lower, upper⟩ ptRole

theorem clonePd_reaches {pml4 pdpt : Nat} (holds : Holds (rank ⟨pml4, index, 0, 0⟩) machine roles)
    (lower : 1 ≤ pml4) (upper : pml4 ≤ 255) (indexBound : index < 512) (role : roles pdpt = .table parent [pml4]) :
    CloneReaches Stuck Holds roles (rank ⟨pml4, index + 1, 0, 0⟩)
      (clonePd (frameAddress childRoot) (frameAddress pdpt) pml4 machine index) := by
  rw [show rank ⟨pml4, index + 1, 0, 0⟩ = rank ⟨pml4, index, 512, 0⟩ by simp only [rank]; omega]
  refine level_reaches invariant (fun pd => clonePt _ pd pml4 index) (fun place => rank ⟨pml4, index, place, 0⟩)
    (fun _ => clonePt_stuck Stuck invariant.stuck) role (by simp) ⟨indexBound, by simp⟩ (by simp only [rank]; omega)
    ?_ ?_ holds
  · rintro other ⟨⟨_, _, _, _⟩, _, _⟩ low high
    simp only [rank] at low high
    refine ⟨[other.pd], ?_⟩
    rw [path, show other.pml4 = pml4 by omega, show other.pdpt = index by omega]
    rfl
  · intro pd current rolesNow place high pdRole now
    exact clonePt_reaches invariant now lower upper indexBound high pdRole

theorem clonePdpt_reaches (holds : Holds (rank ⟨index, 0, 0, 0⟩) machine roles) (lower : 1 ≤ index)
    (upper : index ≤ 255) : CloneReaches Stuck Holds roles (rank ⟨index + 1, 0, 0, 0⟩)
      (clonePdpt (frameAddress childRoot) (frameAddress parentRoot) machine index) := by
  have role := ((invariant.forest holds).root parentRoot parent).mpr invariant.start
  rw [show rank ⟨index + 1, 0, 0, 0⟩ = rank ⟨index, 512, 0, 0⟩ by simp only [rank]; omega]
  refine level_reaches invariant (fun pdpt => clonePd _ pdpt index) (fun place => rank ⟨index, place, 0, 0⟩)
    (fun _ => clonePd_stuck Stuck invariant.stuck) role (by simp) ⟨by omega, fun _ => ⟨lower, upper⟩⟩
    (by simp only [rank]; omega) ?_ ?_ holds
  · rintro other ⟨⟨_, _, _, _⟩, _, _⟩ low high
    simp only [rank] at low high
    refine ⟨[other.pdpt, other.pd], ?_⟩
    rw [path, show other.pml4 = index by omega]
    rfl
  · intro pdpt current rolesNow place high pdptRole now
    exact clonePd_reaches invariant now lower upper high pdptRole

theorem cloneLoops_reach (holds : Holds (512 * 512 * 512) machine roles) :
    CloneReaches Stuck Holds roles (256 * (512 * 512 * 512))
      ((List.range' 1 255).foldl (clonePdpt (frameAddress childRoot) (frameAddress parentRoot)) machine) := by
  refine CloneReaches.foldl _ (fun index => rank ⟨index, 0, 0, 0⟩) 1 255 (clonePdpt_stuck Stuck invariant.stuck) ?_ holds
  intro current rolesNow index lower upper _ now
  exact clonePdpt_reaches invariant now lower (by omega)

end

end PhotonOS
