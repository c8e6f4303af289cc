import Mathlib.Data.Finset.Card

/-!
Slots that hold references to shared objects, and how many of them refer to an
object. Only the slots of a finite domain are counted.
-/

namespace SharedRefs

variable {Slot Object : Type} [DecidableEq Slot] [DecidableEq Object] {slots : Slot → Option Object}
    {domain : Finset Slot} {object : Object} {slot : Slot}

def references (domain : Finset Slot) (slots : Slot → Option Object) (object : Object) : Nat :=
  (domain.filter fun slot => slots slot = some object).card

omit [DecidableEq Slot] in
theorem references_pos
    (inside : slot ∈ domain) (held : slots slot = some object) : 0 < references domain slots object :=
  Finset.card_pos.mpr ⟨slot, Finset.mem_filter.mpr ⟨inside, held⟩⟩

omit [DecidableEq Slot] in
theorem references_pos_iff :
    0 < references domain slots object ↔ ∃ slot ∈ domain, slots slot = some object := by
  rw [references, Finset.card_pos]
  constructor
  · rintro ⟨slot, member⟩
    exact ⟨slot, Finset.mem_filter.mp member⟩
  · rintro ⟨slot, inside, held⟩
    exact ⟨slot, Finset.mem_filter.mpr ⟨inside, held⟩⟩

omit [DecidableEq Slot] in
theorem references_le_one_iff :
    references domain slots object ≤ 1 ↔
      ∀ first ∈ domain, ∀ second ∈ domain, slots first = some object → slots second = some object → first = second := by
  rw [references, Finset.card_le_one]
  constructor
  · intro single first firstInside second secondInside firstHeld secondHeld
    exact single first (Finset.mem_filter.mpr ⟨firstInside, firstHeld⟩) second
      (Finset.mem_filter.mpr ⟨secondInside, secondHeld⟩)
  · intro single first firstMember second secondMember
    obtain ⟨firstInside, firstHeld⟩ := Finset.mem_filter.mp firstMember
    obtain ⟨secondInside, secondHeld⟩ := Finset.mem_filter.mp secondMember
    exact single first firstInside second secondInside firstHeld secondHeld

theorem references_set (inside : slot ∈ domain)
    (empty : slots slot = none) (object other : Object) :
    references domain (Function.update slots slot (some object)) other =
      references domain slots other + if object = other then 1 else 0 := by
  unfold references
  by_cases same : object = other
  · subst same
    have grown : (domain.filter fun position => Function.update slots slot (some object) position = some object) =
        insert slot (domain.filter fun position => slots position = some object) := by
      ext position
      by_cases here : position = slot
      · subst here
        simp [inside]
      · simp only [Finset.mem_filter, Finset.mem_insert, here, false_or, Function.update_of_ne here]
    rw [grown, Finset.card_insert_of_notMem (by simp [empty]), if_pos rfl]
  · have kept : (domain.filter fun position => Function.update slots slot (some object) position = some other) =
        domain.filter fun position => slots position = some other := by
      ext position
      by_cases here : position = slot
      · subst here
        simp [same, empty]
      · simp only [Finset.mem_filter, Function.update_of_ne here]
    rw [kept, if_neg same, Nat.add_zero]

theorem references_clear
    (inside : slot ∈ domain) (held : slots slot = some object) (other : Object) : references domain slots other =
      references domain (Function.update slots slot none) other + if object = other then 1 else 0 := by
  have restored : Function.update (Function.update slots slot none) slot (some object) = slots := by
    rw [Function.update_idem, ← held, Function.update_eq_self]
  have counted := references_set inside (Function.update_self slot none slots) object other
  rw [restored] at counted
  exact counted

theorem references_insert
    (empty : slots slot = none) (object : Object) :
    references (insert slot domain) slots object = references domain slots object := by
  unfold references
  rw [Finset.filter_insert, if_neg (by simp [empty])]

end SharedRefs
