/-!
The lock operations of one task, in order, and the locks it holds meanwhile.
-/

namespace LockTrace

inductive Op (Lock : Type) where
  | lock (lock : Lock)
  | unlock (lock : Lock)

variable {Lock : Type} [DecidableEq Lock]

/-- The locks held at the end, the latest first. -/
def after (held : List Lock) : List (Op Lock) → List Lock
  | [] => held
  | .lock lock :: ops => after (lock :: held) ops
  | .unlock lock :: ops => after (held.erase lock) ops

/-- No lock is taken while it is held. -/
def Clean (held : List Lock) : List (Op Lock) → Prop
  | [] => True
  | .lock lock :: ops => lock ∉ held ∧ Clean (lock :: held) ops
  | .unlock lock :: ops => Clean (held.erase lock) ops

instance : ∀ (held : List Lock) (ops : List (Op Lock)), Decidable (Clean held ops)
  | _, [] => inferInstanceAs (Decidable True)
  | held, .lock lock :: ops =>
    have := instDecidableClean (lock :: held) ops
    inferInstanceAs (Decidable (_ ∧ _))
  | held, .unlock lock :: ops => instDecidableClean (held.erase lock) ops

theorem after_append (first second : List (Op Lock)) :
    ∀ held, after held (first ++ second) = after (after held first) second := by
  induction first with
  | nil => intro held; rfl
  | cons op first ih =>
    intro held
    cases op with
    | lock lock => exact ih (lock :: held)
    | unlock lock => exact ih (held.erase lock)

theorem clean_append (first second : List (Op Lock)) :
    ∀ held, Clean held (first ++ second) ↔ Clean held first ∧ Clean (after held first) second := by
  induction first with
  | nil => intro held; exact ⟨fun clean => ⟨trivial, clean⟩, And.right⟩
  | cons op first ih =>
    intro held
    cases op with
    | lock lock => simp only [List.cons_append, Clean, after, ih (lock :: held), and_assoc]
    | unlock lock => exact ih (held.erase lock)

/-- Operations that are clean and give back all they take. -/
structure Quiet (held : List Lock) (ops : List (Op Lock)) : Prop where
  clean : Clean held ops
  after : after held ops = held

variable {held : List Lock}

theorem quiet_nil : Quiet held [] := ⟨trivial, rfl⟩

theorem Quiet.append {first second : List (Op Lock)} (left : Quiet held first) (right : Quiet held second) :
    Quiet held (first ++ second) := by
  constructor
  · rw [clean_append, left.after]
    exact ⟨left.clean, right.clean⟩
  · rw [after_append, left.after, right.after]

theorem Quiet.flatMap {Item : Type} {body : Item → List (Op Lock)} (items : List Item)
    (each : ∀ item, Quiet held (body item)) : Quiet held (items.flatMap body) := by
  induction items with
  | nil => exact quiet_nil
  | cons item items ih => exact (each item).append ih

theorem Quiet.within {lock : Lock} {ops : List (Op Lock)} (free : lock ∉ held)
    (inner : Quiet (lock :: held) ops) : Quiet held (.lock lock :: (ops ++ [.unlock lock])) := by
  constructor
  · simp only [Clean, clean_append, and_true]
    exact ⟨free, inner.clean⟩
  · simp only [LockTrace.after, after_append, inner.after, List.erase_cons_head]

end LockTrace
