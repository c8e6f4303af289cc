import PhotonOS.Exec.Arguments
import PhotonOS.Signal.Delivery

/-!
`vmm_validate_user_ptr` and `vmm_validate_user_string` against what they are
for: every byte that a system call is about to touch lies in a user page.
-/

namespace PhotonOS.Access

open Exec

def userEntry (entry : BitVec 64) : Bool := hasFlag entry pagePresent && hasFlag entry pageUser

/-- The walk for one page, table by table; the result is its last-level entry. -/
def userLeaf (machine : Machine) (table : BitVec 64) : List Nat → Option (BitVec 64)
  | [] => none
  | [index] =>
    let entry := machine.read table index
    if !validTablePointer table || !userEntry entry then none else some entry
  | index :: rest =>
    let entry := machine.read table index
    if !validTablePointer table || !userEntry entry || !validTableEntry entry then none
    else userLeaf machine (entryTable entry) rest

def validatePage (machine : Machine) (pml4 : BitVec 64) (writeIntent : Bool) (page : Nat) : Bool :=
  match userLeaf machine pml4 (indicesOf (BitVec.ofNat 64 page)).toList with
  | none => false
  | some entry => !writeIntent || hasFlag entry pageWritable || hasFlag entry pageCow

/-- `cr3` is the current task's, or the register's where the task has none. -/
def vmmValidateUserPtr (machine : Machine) (cr3 ptr size : BitVec 64) (writeIntent : Bool) : Bool :=
  let pml4 := cr3 &&& vmmEntryAddrMask
  let start := ptr.toNat
  let stop := (ptr + size).toNat
  if ptr = 0 ∨ size = 0 then false
  else if stop < start then false
  else if start < userBase ∨ stop ≥ userLimit then false
  else if !validTablePointer pml4 then false
  else
    let pageStart := start / pageSize * pageSize
    let pageEnd := (start + size.toNat - 1) / pageSize * pageSize + pageSize
    (List.range' pageStart ((pageEnd - pageStart) / pageSize) pageSize).all (validatePage machine pml4 writeIntent)

/-- What `vmm_validate_user_string` sees of a task with these tables. -/
def userSpace (machine : Machine) (cr3 : BitVec 64) (byte : ByteMemory.Memory) : UserSpace where
  byte := byte
  readable address size := vmmValidateUserPtr machine cr3 (BitVec.ofNat 64 address) (BitVec.ofNat 64 size) false

/-- The page of `address` is present and user at all four levels and, for writing, writable or COW. -/
def UserPage (machine : Machine) (pml4 : BitVec 64) (writeIntent : Bool) (address : BitVec 64) : Prop :=
  ∃ entries, walkEntries machine pml4 address = some entries ∧ (∀ entry ∈ entries, hasFlag entry pageUser = true) ∧
    (writeIntent = true → ∀ leaf ∈ entries.getLast?, hasFlag leaf pageWritable = true ∨ hasFlag leaf pageCow = true)

structure ValidRange (machine : Machine) (cr3 ptr size : BitVec 64) (writeIntent : Bool) : Prop where
  notNull : ptr ≠ 0
  nonempty : 0 < size.toNat
  above : userBase ≤ ptr.toNat
  below : ptr.toNat + size.toNat < userLimit
  pages : ∀ address, ptr.toNat ≤ address → address < ptr.toNat + size.toNat →
    UserPage machine (cr3 &&& vmmEntryAddrMask) writeIntent (BitVec.ofNat 64 address)

/-- The tables at `pml4` form a tree: a table is never at address 0. -/
structure PageTree (machine : Machine) (pml4 : BitVec 64) : Prop where
  root : validTablePointer pml4 = true
  tables : ∀ address entries, walkEntries machine pml4 address = some entries →
    ∀ entry ∈ entries.dropLast, validTableEntry entry = true

variable {machine : Machine} {table pml4 cr3 leaf : BitVec 64} {writeIntent : Bool} {path : List Nat}

theorem entriesAlong_length : ∀ {frame entries},
    entriesAlong machine frame path = some entries → entries.length = path.length := by
  induction path with
  | nil =>
    intro frame entries walked
    cases walked
    rfl
  | cons index rest ih =>
    intro frame entries walked
    rw [entriesAlong] at walked
    split at walked
    · obtain ⟨below, found, rfl⟩ := Option.map_eq_some_iff.mp walked
      rw [List.length_cons, List.length_cons, ih found]
    · cases walked

/-- The walk of the source finds `leaf` where the tables have such a path and none of them is at 0. -/
theorem userLeaf_eq_some : ∀ {table}, path ≠ [] →
    (userLeaf machine table path = some leaf ↔ validTablePointer table = true ∧
      ∃ entries, entriesAlong machine (frameOf table) path = some entries ∧
        (∀ entry ∈ entries, hasFlag entry pageUser = true) ∧
        (∀ entry ∈ entries.dropLast, validTableEntry entry = true) ∧ entries.getLast? = some leaf) := by
  induction path with
  | nil => exact fun nonempty => absurd rfl nonempty
  | cons index rest ih =>
    intro table _
    cases rest with
    | nil =>
      simp [userLeaf, userEntry, entriesAlong, Machine.read]
      tauto
    | cons next rest =>
      have below := @ih (entryTable (machine.read table index)) (List.cons_ne_nil _ _)
      constructor
      · intro found
        simp only [userLeaf] at found
        split at found
        · cases found
        rename_i checks
        simp only [userEntry, Bool.or_eq_true, Bool.not_eq_true', not_or, Bool.not_eq_false,
          Bool.and_eq_true] at checks
        obtain ⟨⟨pointer, present, isUser⟩, isTable⟩ := checks
        obtain ⟨_, entries, walked, user, tables, last⟩ := below.mp found
        have nonempty : entries ≠ [] := by rintro rfl; cases last
        refine ⟨pointer, machine.read table index :: entries, ?_, ?_, ?_, ?_⟩
        · rw [entriesAlong, ← Machine.read, if_pos present, walked, Option.map_some]
        · exact List.forall_mem_cons.mpr ⟨isUser, user⟩
        · rw [List.dropLast_cons_of_ne_nil nonempty]
          exact List.forall_mem_cons.mpr ⟨isTable, tables⟩
        · rw [List.getLast?_cons, last, Option.getD_some]
      · rintro ⟨pointer, entries, walked, user, tables, last⟩
        rw [entriesAlong, ← Machine.read] at walked
        split at walked
        next present =>
          obtain ⟨lower, found, rfl⟩ := Option.map_eq_some_iff.mp walked
          have nonempty : lower ≠ [] := by
            rintro rfl
            cases entriesAlong_length found
          rw [List.dropLast_cons_of_ne_nil nonempty, List.forall_mem_cons] at tables
          rw [List.forall_mem_cons] at user
          rw [List.getLast?_cons, List.getLast?_eq_some_getLast nonempty, Option.getD_some,
            ← List.getLast?_eq_some_getLast nonempty] at last
          simp only [userLeaf]
          rw [if_neg (by simp [pointer, userEntry, present, user.1, tables.1])]
          exact below.mpr ⟨tables.1, lower, found, user.2, tables.2, last⟩
        · cases walked

theorem indicesOf_samePage {first second : Nat} (same : first / pageSize = second / pageSize)
    (firstSmall : first < 2 ^ 64) (secondSmall : second < 2 ^ 64) :
    indicesOf (BitVec.ofNat 64 first) = indicesOf (BitVec.ofNat 64 second) := by
  rw [pageSize] at same
  simp only [indicesOf, indexAt_eq, BitVec.toNat_ofNat, Nat.mod_eq_of_lt firstSmall, Nat.mod_eq_of_lt secondSmall,
    Indices.mk.injEq]
  refine ⟨?_, ?_, ?_, ?_⟩ <;> omega

theorem validatePage_iff (tree : PageTree machine pml4) (page : Nat) :
    validatePage machine pml4 writeIntent page = true ↔ UserPage machine pml4 writeIntent (BitVec.ofNat 64 page) := by
  have path : (indicesOf (BitVec.ofNat 64 page)).toList ≠ [] := by simp [Indices.toList]
  constructor
  · intro valid
    rw [validatePage] at valid
    split at valid
    · cases valid
    rename_i leaf found
    obtain ⟨_, entries, walked, user, _, last⟩ := (userLeaf_eq_some path).mp found
    refine ⟨entries, walked, user, fun writes other isLast => ?_⟩
    cases last.symm.trans isLast
    simpa [writes] using valid
  · rintro ⟨entries, walked, user, writes⟩
    have nonempty : entries ≠ [] := by
      rintro rfl
      cases entriesAlong_length walked
    have found := (userLeaf_eq_some path).mpr ⟨tree.root, entries, walked, user, tree.tables _ entries walked,
      List.getLast?_eq_some_getLast nonempty⟩
    rw [validatePage, found]
    cases writeIntent with
    | false => rfl
    | true => simpa using writes rfl _ (List.getLast?_eq_some_getLast nonempty)

/-- One address of every page that the range touches is among the pages the loop visits. -/
theorem mem_pages {start size page : Nat} (nonempty : 0 < size) : (page ∈ List.range' (start / pageSize * pageSize)
      (((start + size - 1) / pageSize * pageSize + pageSize - start / pageSize * pageSize) / pageSize) pageSize) ↔
    ∃ address, start ≤ address ∧ address < start + size ∧ page = address / pageSize * pageSize := by
  simp only [List.mem_range', pageSize]
  constructor
  · rintro ⟨step, inside, rfl⟩
    refine ⟨max start (start / 4096 * 4096 + 4096 * step), ?_⟩
    omega
  · rintro ⟨address, above, below, rfl⟩
    exact ⟨address / 4096 - start / 4096, by omega⟩

theorem vmmValidateUserPtr_iff (tree : PageTree machine (cr3 &&& vmmEntryAddrMask)) {ptr size : BitVec 64} :
    vmmValidateUserPtr machine cr3 ptr size writeIntent = true ↔ ValidRange machine cr3 ptr size writeIntent := by
  have small : ∀ address < ptr.toNat + size.toNat, ptr.toNat + size.toNat < userLimit → address < 2 ^ 64 := by
    simp only [userLimit]
    omega
  have page : ∀ address, address < 2 ^ 64 →
      (validatePage machine (cr3 &&& vmmEntryAddrMask) writeIntent (address / pageSize * pageSize) = true ↔
        UserPage machine (cr3 &&& vmmEntryAddrMask) writeIntent (BitVec.ofNat 64 address)) := by
    intro address fits
    rw [validatePage_iff tree, UserPage, UserPage, walkEntries, walkEntries,
      indicesOf_samePage (by simp only [pageSize]; omega) (by simp only [pageSize]; omega) fits]
  have sum : (ptr + size).toNat = (ptr.toNat + size.toNat) % 2 ^ 64 := BitVec.toNat_add ptr size
  constructor
  · intro valid
    simp only [vmmValidateUserPtr, sum] at valid
    split at valid
    · cases valid
    rename_i given
    obtain ⟨notNull, sized⟩ := not_or.mp given
    have nonempty : 0 < size.toNat := Nat.pos_of_ne_zero fun zero => sized (BitVec.eq_of_toNat_eq zero)
    split at valid
    · cases valid
    split at valid
    · cases valid
    have below : ptr.toNat + size.toNat < userLimit := by omega
    split at valid
    · cases valid
    · refine ⟨notNull, nonempty, by omega, below, fun address above under => ?_⟩
      refine (page address (small address under below)).mp (List.all_eq_true.mp valid _ ?_)
      exact (mem_pages nonempty).mpr ⟨address, above, under, rfl⟩
  · intro valid
    have noWrap : (ptr.toNat + size.toNat) % 2 ^ 64 = ptr.toNat + size.toNat :=
      Nat.mod_eq_of_lt (by have := valid.below; simp only [userLimit] at this; omega)
    have sized : size ≠ 0 := fun zero => absurd valid.nonempty (by rw [zero]; decide)
    simp only [vmmValidateUserPtr, sum, noWrap]
    rw [if_neg (not_or.mpr ⟨valid.notNull, sized⟩), if_neg (by omega),
      if_neg (by have := valid.above; have := valid.below; omega), if_neg (by rw [tree.root]; decide), List.all_eq_true]
    intro visited mem
    obtain ⟨address, above, under, rfl⟩ := (mem_pages valid.nonempty).mp mem
    exact (page address (small address under valid.below)).mpr (valid.pages address above under)

theorem scanString_iff {user : UserSpace} {fuel : Nat} : ∀ {address}, (scanString user fuel address = true ↔
      ∃ len < fuel, user.byte (address + len) = 0 ∧ ∀ i ≤ len, user.readable (address + i) 1 = true) := by
  induction fuel with
  | zero => simp [scanString]
  | succ fuel ih =>
    intro address
    simp only [scanString, Bool.and_eq_true, Bool.or_eq_true, beq_iff_eq, ih]
    constructor
    · rintro ⟨readable, ended | ⟨len, below, ended, upTo⟩⟩
      · exact ⟨0, by omega, ended, fun i first => by rwa [Nat.le_zero.mp first]⟩
      · refine ⟨len + 1, by omega, by rwa [Nat.add_comm len, ← Nat.add_assoc], fun i within => ?_⟩
        cases i with
        | zero => exact readable
        | succ i => rw [Nat.add_comm i, ← Nat.add_assoc]; exact upTo i (by omega)
    · rintro ⟨len, below, ended, upTo⟩
      refine ⟨upTo 0 (Nat.zero_le len), ?_⟩
      cases len with
      | zero => exact .inl ended
      | succ len =>
        refine .inr ⟨len, by omega, by rwa [Nat.add_assoc, Nat.add_comm 1], fun i within => ?_⟩
        rw [Nat.add_assoc, Nat.add_comm 1]
        exact upTo (i + 1) (by omega)

/-- Four tables, each of whose entries leads to the next; every page is the frame at `0x5000`. -/
def fourTables : Machine where
  mem frame _ := BitVec.ofNat 64 ((frame + 1) * 4096 + 7)
  pmm := pmmInit 0
  kernelPml4 := 0x1000

theorem fourTables_tree : PageTree fourTables (0x1000 &&& vmmEntryAddrMask) where
  root := by decide
  tables address entries walked := by
    simp only [walkEntries, Indices.toList, entriesAlong, fourTables, frameOf, entryTable, hasFlag, pmmPageSize,
      vmmEntryAddrMask, pagePresent] at walked
    simp at walked
    rw [← walked]
    simp [validTableEntry, validTablePointer, vmmEntryAddrMask]

end PhotonOS.Access
