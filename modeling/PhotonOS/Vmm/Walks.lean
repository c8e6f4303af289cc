import PhotonOS.Vmm.AddressSpaces
import PhotonOS.Vmm.TableEdits

/-!
The page-table walks of the code and of the processor. On a well-formed forest all
of them find the same entry.
-/

namespace PhotonOS

structure Link (machine : Machine) (frame index next : Nat) : Prop where
  entry : machine.mem frame index = makeEntry next userTable
  bound : next < frameLimit
  positive : 0 < next

namespace Link

variable {machine : Machine} {frame index next : Nat} (link : Link machine frame index next)

include link

theorem flag (mask : BitVec 64) (apart : vmmEntryAddrMask &&& mask = 0#64)
    (set : hasFlag userTable mask = true) : hasFlag (machine.mem frame index) mask = true := by
  rw [link.entry, hasFlag_makeEntry link.bound _ apart, set]

theorem followed : hasFlag (machine.mem frame index) pagePresent = true ∧
    hasFlag (machine.mem frame index) pageUser = true ∧ hasFlag (machine.mem frame index) pageWritable = true ∧
    entryTable (machine.mem frame index) = frameAddress next ∧ validTablePointer (frameAddress next) = true ∧
    ∀ place, machine.read (frameAddress next) place = machine.mem next place := by
  refine ⟨link.flag _ (by decide) (by decide), link.flag _ (by decide) (by decide),
    link.flag _ (by decide) (by decide), ?_, validTablePointer_frameAddress next link.bound link.positive,
    machine.read_frame link.bound⟩
  rw [link.entry, entryTable_makeEntry link.bound flagWord_userTable]

end Link

inductive Walk (machine : Machine) (root : Nat) (indices : Indices) : Option Nat → Prop where
  | noPdpt (empty : machine.mem root indices.pml4 = 0) : Walk machine root indices none
  | noPd {pdpt : Nat} (first : Link machine root indices.pml4 pdpt)
      (empty : machine.mem pdpt indices.pdpt = 0) : Walk machine root indices none
  | noPt {pdpt pd : Nat} (first : Link machine root indices.pml4 pdpt) (second : Link machine pdpt indices.pdpt pd)
      (empty : machine.mem pd indices.pd = 0) : Walk machine root indices none
  | found {pdpt pd pt : Nat} (first : Link machine root indices.pml4 pdpt)
      (second : Link machine pdpt indices.pdpt pd) (third : Link machine pd indices.pd pt) :
      Walk machine root indices (some pt)

variable {machine : Machine} {roots : List Nat} {roles : Nat → Role} {root space : Nat}

theorem Forest.walk (forest : Forest machine roots roles) (start : roots[space]? = some root) {indices : Indices}
    (user : indices.User) : (∃ pt, Walk machine root indices (some pt) ∧ roles pt = .table space indices.path ∧
      leafOf machine root indices = machine.mem pt indices.pt) ∨
      Walk machine root indices none ∧ leafOf machine root indices = 0 := by
  obtain ⟨⟨pml4, pdptBound, pdBound, _⟩, lower, upper⟩ := user
  have rootRole := (forest.root root space).mpr start
  have link : ∀ {frame index next : Nat} {path : List Nat}, machine.mem frame index = makeEntry next userTable →
      roles next = .table space path → Link machine frame index next :=
    fun entry role => ⟨entry, (forest.table_bound role).1, (forest.table_bound role).2⟩
  rcases forest.child root space [] indices.pml4 rootRole (by simp) ⟨pml4, fun _ => ⟨lower, upper⟩⟩ with
    empty | ⟨pdpt, first, pdptRole⟩
  · exact Or.inr ⟨.noPdpt empty, by rw [leafOf, descend_none empty]⟩
  rcases forest.child pdpt space _ indices.pdpt pdptRole (by simp) ⟨pdptBound, by simp⟩ with
    empty | ⟨pd, second, pdRole⟩
  · exact Or.inr ⟨.noPd (link first pdptRole) empty, by rw [leafOf, forest.follow first pdptRole, descend_none empty]⟩
  rcases forest.child pd space _ indices.pd pdRole (by simp) ⟨pdBound, by simp⟩ with
    empty | ⟨pt, third, ptRole⟩
  · exact Or.inr ⟨.noPt (link first pdptRole) (link second pdRole) empty,
      by rw [leafOf, forest.follow first pdptRole, forest.follow second pdRole, descend_none empty]⟩
  · exact Or.inl ⟨pt, .found (link first pdptRole) (link second pdRole) (link third ptRole), ptRole,
      forest.leafOf_table start ptRole⟩

section

variable {address : BitVec 64} (bound : root < frameLimit) (positive : 0 < root)

include bound positive

variable {result : Option Nat}

variable (walk : Walk machine root (indicesOf address) result)
include walk

theorem faultWalk_of_walk : faultWalk machine (frameAddress root) address = result.bind fun pt =>
      if hasFlag (machine.mem pt (indicesOf address).pt) pagePresent then
        some (frameAddress pt, machine.mem pt (indicesOf address).pt)
      else none := by
  have pointer := validTablePointer_frameAddress root bound positive
  cases walk with
  | noPdpt empty => simp only [faultWalk, machine.read_frame bound, empty, hasFlag_zero]; simp
  | noPd first empty =>
    simp only [faultWalk, pointer, machine.read_frame bound, first.followed, empty, hasFlag_zero]
    simp
  | noPt first second empty =>
    simp only [faultWalk, pointer, machine.read_frame bound, first.followed, second.followed, empty, hasFlag_zero]
    simp
  | found first second third =>
    simp only [faultWalk, pointer, machine.read_frame bound, first.followed, second.followed, third.followed]
    simp only [Bool.not_true, Bool.or_self, Bool.false_eq_true, if_false, Bool.false_or, Option.bind_some]
    cases hasFlag (machine.mem _ (indicesOf address).pt) pagePresent <;> rfl

omit positive in
theorem userTranslate_of_walk : userTranslate machine (frameAddress root) address = result.bind fun pt =>
      let entry := machine.mem pt (indicesOf address).pt
      if hasFlag entry pagePresent && hasFlag entry pageUser then some (entry, hasFlag entry pageWritable)
      else none := by
  cases walk with
  | noPdpt empty => simp only [userTranslate, machine.read_frame bound, empty, hasFlag_zero]; simp
  | noPd first empty =>
    simp only [userTranslate, machine.read_frame bound, first.followed, empty, hasFlag_zero]
    simp
  | noPt first second empty =>
    simp only [userTranslate, machine.read_frame bound, first.followed, second.followed, empty, hasFlag_zero]
    simp
  | found first second third =>
    simp only [userTranslate, machine.read_frame bound, first.followed, second.followed, third.followed]
    simp only [Bool.and_true, Bool.true_and, Bool.not_true, Bool.false_eq_true, if_false, Option.bind_some]
    cases hasFlag (machine.mem _ (indicesOf address).pt) pagePresent &&
      hasFlag (machine.mem _ (indicesOf address).pt) pageUser <;> rfl

theorem vmmIsMapped_of_walk : vmmIsMapped machine (frameAddress root) address =
      result.any fun pt => hasFlag (machine.mem pt (indicesOf address).pt) pagePresent := by
  rw [vmmIsMapped_eq_faultWalk, faultWalk_of_walk bound positive walk]
  cases result with
  | none => rfl
  | some pt => simp only [Option.bind_some, Option.any_some]; split <;> simp_all

end

end PhotonOS
