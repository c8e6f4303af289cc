import Mathlib.Data.List.Forall2

/-!
Tables of slots in which a slot may hold a key. `DistinctKeys` says that no key
is held twice. A table changes by replacing one slot or by rewriting every slot.
-/

namespace SlotTable

variable {Slot Key : Type} (key : Slot → Option Key)

def DistinctKeys (slots : List Slot) : Prop :=
  ∀ (first second : Nat) (left right : Slot) (name : Key), slots[first]? = some left → slots[second]? = some right →
      key left = some name → key right = some name → first = second

variable {slots : List Slot} {slot : Slot}

theorem getElem?_set_cases {index other : Nat} {found : Slot}
    (present : (slots.set index slot)[other]? = some found) :
    (other = index ∧ found = slot) ∨ (other ≠ index ∧ slots[other]? = some found) := by
  rw [List.getElem?_set] at present
  by_cases same : index = other
  · rw [if_pos same] at present
    split at present
    · exact Or.inl ⟨same.symm, (Option.some.inj present).symm⟩
    · cases present
  · rw [if_neg same] at present
    exact Or.inr ⟨Ne.symm same, present⟩

section

variable (distinct : DistinctKeys key slots)
include distinct

theorem DistinctKeys.set (index : Nat) (slot : Slot)
    (fresh : ∀ (other : Nat) (found : Slot) (name : Key), other ≠ index → slots[other]? = some found →
      key slot = some name → key found ≠ some name) : DistinctKeys key (slots.set index slot) := by
  intro first second left right name leftAt rightAt leftKey rightKey
  rcases getElem?_set_cases leftAt with ⟨rfl, rfl⟩ | ⟨leftOther, leftBefore⟩
  · rcases getElem?_set_cases rightAt with ⟨rfl, rfl⟩ | ⟨rightOther, rightBefore⟩
    · rfl
    · exact absurd rightKey (fresh second right name rightOther rightBefore leftKey)
  · rcases getElem?_set_cases rightAt with ⟨rfl, rfl⟩ | ⟨rightOther, rightBefore⟩
    · exact absurd leftKey (fresh first left name leftOther leftBefore rightKey)
    · exact distinct first second left right name leftBefore rightBefore leftKey rightKey

theorem DistinctKeys.set_same (index : Nat) (old slot : Slot)
    (oldAt : slots[index]? = some old) (sameKey : key slot = key old) : DistinctKeys key (slots.set index slot) := by
  apply distinct.set
  intro other found name different foundAt slotKey foundKey
  rw [sameKey] at slotKey
  exact different (distinct other index found old name foundAt oldAt foundKey slotKey)

theorem DistinctKeys.of_forall₂ {changed : List Slot}
    (keeps : List.Forall₂ (fun old new => ∀ name, key new = some name → key old = some name) slots changed) :
    DistinctKeys key changed := by
  have earlier : ∀ (index : Nat) (new : Slot), changed[index]? = some new →
      ∃ old, slots[index]? = some old ∧ ∀ name, key new = some name → key old = some name := by
    intro index new newAt
    obtain ⟨bound, rfl⟩ := List.getElem?_eq_some_iff.mp newAt
    have oldBound : index < slots.length := by rw [keeps.length_eq]; exact bound
    exact ⟨slots[index], List.getElem?_eq_getElem oldBound, keeps.get oldBound bound⟩
  intro first second left right name leftAt rightAt leftKey rightKey
  obtain ⟨oldLeft, oldLeftAt, leftKept⟩ := earlier first left leftAt
  obtain ⟨oldRight, oldRightAt, rightKept⟩ := earlier second right rightAt
  exact distinct first second oldLeft oldRight name oldLeftAt oldRightAt (leftKept name leftKey)
    (rightKept name rightKey)

end

section

variable [DecidableEq Key]

def lookup (slots : List Slot) (name : Key) : Option Slot :=
  slots.find? fun slot => key slot = some name

variable {slots : List Slot} {name : Key}

theorem lookup_eq_some_iff (distinct : DistinctKeys key slots) :
    lookup key slots name = some slot ↔ key slot = some name ∧ ∃ index : Nat, slots[index]? = some slot := by
  constructor
  · intro found
    have named : key slot = some name := by simpa using List.find?_some found
    exact ⟨named, List.mem_iff_getElem?.mp (List.mem_of_find?_eq_some found)⟩
  rintro ⟨named, index, slotAt⟩
  cases found : lookup key slots name with
  | none =>
    have missing := List.find?_eq_none.mp found slot (List.mem_of_getElem? slotAt)
    exact absurd (decide_eq_true named) missing
  | some other =>
    have otherNamed : key other = some name := by simpa using List.find?_some found
    obtain ⟨place, otherAt⟩ := List.mem_iff_getElem?.mp (List.mem_of_find?_eq_some found)
    have same := distinct place index other slot name otherAt slotAt otherNamed named
    rw [same, slotAt] at otherAt
    exact otherAt.symm

theorem lookup_eq_none_iff :
    lookup key slots name = none ↔ ∀ (index : Nat) (slot : Slot), slots[index]? = some slot → key slot ≠ some name := by
  rw [lookup, List.find?_eq_none]
  constructor
  · intro missing index slot slotAt named
    exact missing slot (List.mem_of_getElem? slotAt) (decide_eq_true named)
  · intro missing slot member named
    obtain ⟨index, slotAt⟩ := List.mem_iff_getElem?.mp member
    exact missing index slot slotAt (of_decide_eq_true named)

theorem lookup_set (distinct : DistinctKeys key slots) {index : Nat} {old : Slot}
    (oldAt : slots[index]? = some old)
    (fresh : ∀ (other : Nat) (found : Slot) (name : Key), other ≠ index → slots[other]? = some found →
      key slot = some name → key found ≠ some name) : lookup key (slots.set index slot) name =
      if key slot = some name then some slot
      else if key old = some name then none else lookup key slots name := by
  have bound : index < slots.length := (List.getElem?_eq_some_iff.mp oldAt).1
  have setDistinct := distinct.set key index slot fresh
  split
  next named =>
    apply (lookup_eq_some_iff key setDistinct).mpr
    exact ⟨named, index, List.getElem?_set_self bound⟩
  rename_i unnamed
  split
  next oldNamed =>
    apply (lookup_eq_none_iff key).mpr
    intro other found foundAt foundNamed
    rcases getElem?_set_cases foundAt with ⟨_, rfl⟩ | ⟨different, before⟩
    · exact unnamed foundNamed
    · exact different (distinct other index found old name before oldAt foundNamed oldNamed)
  next oldUnnamed =>
    cases found : lookup key slots name with
    | none =>
      apply (lookup_eq_none_iff key).mpr
      intro other slot' slotAt
      rcases getElem?_set_cases slotAt with ⟨_, rfl⟩ | ⟨_, before⟩
      · exact unnamed
      · exact (lookup_eq_none_iff key).mp found other slot' before
    | some holder =>
      obtain ⟨holderNamed, place, holderAt⟩ := (lookup_eq_some_iff key distinct).mp found
      apply (lookup_eq_some_iff key setDistinct).mpr
      refine ⟨holderNamed, place, ?_⟩
      have different : index ≠ place := by
        rintro rfl
        rw [oldAt] at holderAt
        exact oldUnnamed (Option.some.inj holderAt ▸ holderNamed)
      rw [List.getElem?_set_ne different]
      exact holderAt

end

end SlotTable
