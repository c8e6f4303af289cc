/-!
Operations on a pair of a visible and a hidden part. An operation is blind when
what it makes of the visible part does not depend on the hidden one.
-/

namespace Noninterference

variable {Visible Hidden Item : Type}

def Blind (op : Visible × Hidden → Visible × Hidden) : Prop :=
  ∀ visible first second, (op (visible, first)).1 = (op (visible, second)).1

theorem blind_id : Blind (id : Visible × Hidden → Visible × Hidden) := fun _ _ _ => rfl

namespace Blind

variable {inner outer : Visible × Hidden → Visible × Hidden}

theorem comp (innerBlind : Blind inner) (outerBlind : Blind outer) : Blind (outer ∘ inner) := by
  intro visible first second
  have same := innerBlind visible first second
  calc (outer (inner (visible, first))).1 = (outer ((inner (visible, second)).1, (inner (visible, first)).2)).1 := by
        rw [← same]
    _ = (outer (inner (visible, second))).1 := outerBlind _ _ _

theorem foldl {op : Item → Visible × Hidden → Visible × Hidden} (blind : ∀ item, Blind (op item)) :
    ∀ items : List Item, Blind fun state => items.foldl (fun state item => op item state) state := by
  intro items
  induction items with
  | nil => exact blind_id
  | cons item rest ih => exact (blind item).comp ih

end Blind

end Noninterference
