import PhotonOS.Exec.ImagePages

/-!
`vmm_destroy_address_space` on an image.
-/

namespace PhotonOS.Exec

variable {machine : Machine} {frame : Nat}

def releaseTables : Nat → BitVec 64 → Machine → Machine
  | 0, _, machine => machine
  | depth + 1, table, machine =>
    (List.range vmmTableEntries).foldl (fun machine index =>
      if userPresent (machine.read table index) then
        pmmFree (releaseTables depth (entryTable (machine.read table index)) machine)
          (entryTable (machine.read table index))
      else machine) machine

theorem vmmDestroyAddressSpace_eq {pml4 : BitVec 64} (present : pml4 ≠ 0) (own : pml4 ≠ machine.kernelPml4) :
    vmmDestroyAddressSpace pml4 machine = pmmFree (releaseTables 3 pml4 machine) pml4 := by
  rw [vmmDestroyAddressSpace, if_neg (not_or.mpr ⟨present, own⟩)]
  rfl

def userTables (machine : Machine) (table : BitVec 64) (indices : List Nat) : List (BitVec 64) :=
  (indices.filter fun index => userPresent (machine.read table index)).map
    fun index => entryTable (machine.read table index)

def released (machine : Machine) : Nat → BitVec 64 → List (BitVec 64)
  | 0, _ => []
  | depth + 1, table =>
    (userTables machine table (List.range vmmTableEntries)).flatMap fun next => released machine depth next ++ [next]

theorem foldl_pmmFree_mem {addresses : List (BitVec 64)} : ∀ machine : Machine,
    (addresses.foldl pmmFree machine).mem = machine.mem := by
  induction addresses with
  | nil => intro machine; rfl
  | cons address rest ih =>
    intro machine
    exact (ih _).trans pmmFree_mem

theorem released_congr {other : Machine} (same : other.mem = machine.mem) (depth : Nat) :
    ∀ table, released other depth table = released machine depth table := by
  have read : other.read = machine.read := by
    unfold Machine.read
    rw [same]
  induction depth with
  | zero => intro table; rfl
  | succ depth ih =>
    intro table
    rw [released, released, userTables, userTables, read]
    congr 1
    funext next
    rw [ih]

theorem releaseTables_eq (depth : Nat) : ∀ (table : BitVec 64) (machine : Machine),
    releaseTables depth table machine = (released machine depth table).foldl pmmFree machine := by
  induction depth with
  | zero => intro table machine; rfl
  | succ depth ih =>
    intro table machine
    have loop : ∀ (indices : List Nat) (current : Machine), current.mem = machine.mem →
        indices.foldl (fun machine index =>
          if userPresent (machine.read table index) then
            pmmFree (releaseTables depth (entryTable (machine.read table index)) machine)
              (entryTable (machine.read table index))
          else machine) current =
        ((userTables machine table indices).flatMap fun next => released machine depth next ++ [next]).foldl
          pmmFree current := by
      intro indices
      induction indices with
      | nil => intro current _; rfl
      | cons index rest restIh =>
        intro current same
        have read : current.read table index = machine.read table index := by rw [Machine.read, Machine.read, same]
        rw [List.foldl_cons, read, userTables, List.filter_cons]
        by_cases user : userPresent (machine.read table index) = true
        · rw [if_pos user, if_pos user, List.map_cons, List.flatMap_cons, List.foldl_append, List.foldl_append, ih,
            released_congr same]
          apply restIh
          rw [pmmFree_mem, foldl_pmmFree_mem, same]
        · rw [if_neg user, if_neg user]
          exact restIh current same
    exact loop _ machine rfl

structure Releasable (machine : Machine) (frame : Nat) : Prop where
  bound : frame < frameLimit
  low : machine.pmm.reserved ≤ frame
  high : frame < machine.pmm.total
  single : machine.pmm.refcounts frame = 1 ∨ machine.pmm.refcounts frame = 0 ∧ machine.pmm.bitmap frame = false

structure Without (machine after : Machine) (gone : Nat → Prop) : Prop where
  mem : after.mem = machine.mem
  kernelPml4 : after.kernelPml4 = machine.kernelPml4
  total : after.pmm.total = machine.pmm.total
  reserved : after.pmm.reserved = machine.pmm.reserved
  freed : ∀ frame, gone frame → after.pmm.bitmap frame = false ∧ after.pmm.refcounts frame = 0
  kept : ∀ frame, ¬gone frame → after.pmm.bitmap frame = machine.pmm.bitmap frame ∧
    after.pmm.refcounts frame = machine.pmm.refcounts frame

theorem pmmFree_without (releasable : Releasable machine frame) :
    Without machine (pmmFree machine (frameAddress frame)) (· = frame) := by
  obtain ⟨bound, low, high, single⟩ := releasable
  have aligned : (frameAddress frame).toNat % pmmPageSize = 0 := by
    rw [frameAddress_toNat bound, pmmPageSize]
    omega
  rw [pmmFree]
  simp only [frameOf_frameAddress frame bound, aligned]
  rw [if_neg (by omega)]
  rcases single with one | ⟨zero, clear⟩
  · rw [if_neg (by rw [one]; decide)]
    refine ⟨rfl, rfl, rfl, rfl, ?_, ?_⟩
    · rintro other rfl
      simp [one]
    · intro other apart
      simp [apart]
  · rw [if_pos zero]
    refine ⟨rfl, rfl, rfl, rfl, ?_, fun _ _ => ⟨rfl, rfl⟩⟩
    rintro other rfl
    exact ⟨clear, zero⟩

theorem foldl_pmmFree_without {frames : List Nat} : ∀ machine : Machine,
    (∀ frame ∈ frames, Releasable machine frame) →
      Without machine ((frames.map frameAddress).foldl pmmFree machine) (· ∈ frames) := by
  induction frames with
  | nil => intro machine _; exact ⟨rfl, rfl, rfl, rfl, by simp, fun _ _ => ⟨rfl, rfl⟩⟩
  | cons first rest ih =>
    intro machine releasable
    obtain ⟨head, tail⟩ := List.forall_mem_cons.mp releasable
    have one := pmmFree_without head
    have others := ih (pmmFree machine (frameAddress first)) (by
      intro frame member
      obtain ⟨bound, low, high, single⟩ := tail frame member
      refine ⟨bound, one.reserved ▸ low, one.total ▸ high, ?_⟩
      by_cases same : frame = first
      · exact Or.inr ⟨(one.freed frame same).2, (one.freed frame same).1⟩
      · rw [(one.kept frame same).1, (one.kept frame same).2]
        exact single)
    refine ⟨others.mem.trans one.mem, others.kernelPml4.trans one.kernelPml4, others.total.trans one.total,
      others.reserved.trans one.reserved, ?_, ?_⟩
    · intro frame member
      by_cases later : frame ∈ rest
      · exact others.freed frame later
      · have kept := others.kept frame later
        have freed := one.freed frame ((List.mem_cons.mp member).resolve_right later)
        exact ⟨kept.1.trans freed.1, kept.2.trans freed.2⟩
    · intro frame absent
      rw [List.mem_cons, not_or] at absent
      have kept := others.kept frame absent.2
      have before := one.kept frame absent.1
      exact ⟨kept.1.trans before.1, kept.2.trans before.2⟩

namespace Image

variable {base machine : Machine} {level : Nat → Option Nat} {root : Nat} {parts : Nat → Option Part}

section

variable (kernel : KernelTables base level) (image : Image base level machine root parts)
include kernel image

theorem mem_userTables {path : List Nat} (table : parts frame = some (.table path)) (shallow : path.length < 3)
    (address : BitVec 64) :
    address ∈ userTables machine (frameAddress frame) (List.range vmmTableEntries) ↔
      ∃ next index, address = frameAddress next ∧ parts next = some (.table (path ++ [index])) := by
  have bound := (image.table_bound kernel table).1
  simp only [userTables, List.mem_map, List.mem_filter, List.mem_range, machine.read_frame bound]
  constructor
  · rintro ⟨index, ⟨small, user⟩, rfl⟩
    rcases image.entry frame path index table shallow small with ⟨⟨closed, _⟩, _⟩ | ⟨next, value, nextTable⟩
    · simp [userPresent, closed] at user
    · refine ⟨next, index, ?_, nextTable⟩
      rw [value, entryTable_makeEntry (image.table_bound kernel nextTable).1 flagWord_userTable]
  · rintro ⟨next, index, rfl, nextTable⟩
    obtain ⟨_, small, owner, ownerTable, value⟩ := image.parent next path index nextTable
    have nextBound := (image.table_bound kernel nextTable).1
    rw [image.unique kernel path ownerTable table] at value
    refine ⟨index, ⟨small, ?_⟩, ?_⟩
    · rw [value, userPresent, link_present nextBound, link_user nextBound]
      rfl
    · rw [value, entryTable_makeEntry nextBound flagWord_userTable]

theorem mem_released (depth : Nat) :
    ∀ {frame : Nat} {path : List Nat}, parts frame = some (.table path) → path.length + depth = 3 →
      ∀ address, address ∈ released machine depth (frameAddress frame) ↔
        ∃ next more, more ≠ [] ∧ address = frameAddress next ∧ parts next = some (.table (path ++ more)) := by
  induction depth with
  | zero =>
    intro frame path table full address
    simp only [released, List.not_mem_nil, false_iff]
    rintro ⟨next, more, nonempty, _, nextTable⟩
    have short := image.short nextTable
    have positive := List.length_pos_of_ne_nil nonempty
    rw [List.length_append] at short
    omega
  | succ depth ih =>
    intro frame path table long address
    simp only [released, List.mem_flatMap, List.mem_append, List.mem_singleton,
      image.mem_userTables kernel table (by omega)]
    constructor
    · rintro ⟨_, ⟨child, index, rfl, childTable⟩, below | rfl⟩
      · rw [ih childTable (by simp; omega)] at below
        obtain ⟨next, more, _, rfl, nextTable⟩ := below
        exact ⟨next, [index] ++ more, by simp, rfl, by rw [← List.append_assoc]; exact nextTable⟩
      · exact ⟨child, [index], by simp, rfl, childTable⟩
    · rintro ⟨next, more, nonempty, rfl, nextTable⟩
      obtain ⟨index, rest, rfl⟩ := List.exists_cons_of_ne_nil nonempty
      -- the table just below `frame` on the way to `next`
      obtain ⟨child, childTable⟩ : ∃ child, parts child = some (.table (path ++ [index])) := by
        have climb : ∀ (rest : List Nat) (next : Nat), parts next = some (.table (path ++ [index] ++ rest)) →
            ∃ child, parts child = some (.table (path ++ [index])) := by
          intro rest
          induction rest using List.reverseRecOn with
          | nil => intro next nextTable; exact ⟨next, by simpa using nextTable⟩
          | append_singleton rest last climb =>
            intro next nextTable
            rw [← List.append_assoc] at nextTable
            obtain ⟨_, _, owner, ownerTable, _⟩ := image.parent next _ last nextTable
            exact climb owner ownerTable
        exact climb rest next (by simpa using nextTable)
      refine ⟨frameAddress child, ⟨child, index, rfl, childTable⟩, ?_⟩
      by_cases here : rest = []
      · subst here
        exact Or.inr (congrArg frameAddress (image.unique kernel _ nextTable childTable))
      · rw [ih childTable (by simp; omega)]
        exact Or.inl ⟨next, rest, here, rfl, by simpa using nextTable⟩

theorem destroyed : Without machine (vmmDestroyAddressSpace (frameAddress root) machine)
      fun frame => ∃ path, parts frame = some (.table path) := by
  have rootTable := (image.rootPart root).mpr rfl
  obtain ⟨rootBound, rootPositive⟩ := image.root_bound kernel
  have own : frameAddress root ≠ machine.kernelPml4 := by
    rw [image.kernelPml4]
    obtain ⟨kernelRoot, value, _, kernelBound, kernelLevel⟩ := kernel.root
    rw [value]
    intro same
    rw [frameAddress_inj rootBound kernelBound] at same
    have set := kernel.used kernelRoot 3 kernelLevel
    rw [← same, image.not_base rootTable] at set
    cases set
  rw [vmmDestroyAddressSpace_eq (frameAddress_ne_zero root rootBound rootPositive) own, releaseTables_eq]
  have members := image.mem_released kernel 3 rootTable rfl
  generalize releasedEq : released machine 3 (frameAddress root) = addresses at members
  have listed : (addresses.map frameOf ++ [root]).map frameAddress = addresses ++ [frameAddress root] := by
    have same : ∀ address ∈ addresses, (frameAddress ∘ frameOf) address = id address := by
      intro address member
      obtain ⟨next, _, _, rfl, nextTable⟩ := (members address).mp member
      rw [Function.comp_apply, frameOf_frameAddress next (image.table_bound kernel nextTable).1, id]
    rw [List.map_append, List.map_map, List.map_congr_left same, List.map_id]
    rfl
  have tables : ∀ frame, frame ∈ addresses.map frameOf ++ [root] ↔ ∃ path, parts frame = some (.table path) := by
    intro frame
    rw [List.mem_append, List.mem_map, List.mem_singleton]
    constructor
    · rintro (⟨address, member, rfl⟩ | rfl)
      · obtain ⟨next, more, _, rfl, nextTable⟩ := (members address).mp member
        rw [frameOf_frameAddress next (image.table_bound kernel nextTable).1]
        exact ⟨_, nextTable⟩
      · exact ⟨[], rootTable⟩
    · rintro ⟨path, table⟩
      cases path with
      | nil => exact Or.inr ((image.rootPart frame).mp table)
      | cons index rest =>
        refine Or.inl ⟨frameAddress frame, (members _).mpr ⟨frame, index :: rest, by simp, rfl, table⟩, ?_⟩
        exact frameOf_frameAddress frame (image.table_bound kernel table).1
  have freed := foldl_pmmFree_without machine (by
    intro frame member
    obtain ⟨path, table⟩ := (tables frame).mp member
    have used : parts frame ≠ none := by
      rw [table]
      simp
    obtain ⟨bound, _, low⟩ := image.bound kernel used
    exact ⟨bound, image.reserved ▸ low, image.total ▸ (image.fresh frame used).2, Or.inl (image.single frame used)⟩)
  rw [listed, List.foldl_append, funext fun frame => propext (tables frame)] at freed
  exact freed

theorem destroyed_base (set : base.pmm.bitmap frame = true) :
    (vmmDestroyAddressSpace (frameAddress root) machine).pmm.bitmap frame = true ∧
      (vmmDestroyAddressSpace (frameAddress root) machine).pmm.refcounts frame = base.pmm.refcounts frame ∧
      (vmmDestroyAddressSpace (frameAddress root) machine).mem frame = base.mem frame := by
  have without := image.destroyed kernel
  have kept := without.kept frame (by
    rintro ⟨path, table⟩
    rw [image.not_base table] at set
    cases set)
  refine ⟨?_, ?_, ?_⟩
  · rw [kept.1, image.bitmap, set]
    rfl
  · rw [kept.2, image.counts frame set]
  · rw [without.mem, image.memory frame set]

theorem destroyed_kernelTables : KernelTables (vmmDestroyAddressSpace (frameAddress root) machine) level := by
  have without := image.destroyed kernel
  refine kernel.congr (without.total.trans image.total) (without.reserved.trans image.reserved)
    (without.kernelPml4.trans image.kernelPml4) ?_ ?_
  · intro frame set
    exact (image.destroyed_base kernel set).1
  · intro frame set
    exact (image.destroyed_base kernel set).2.2

end

end Image

end PhotonOS.Exec
