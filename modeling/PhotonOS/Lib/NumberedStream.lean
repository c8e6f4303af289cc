import PhotonOS.Lib.Serial

/-!
A stream whose items are numbered modulo `2 ^ width`.
-/

structure NumberedStream (α : Type) (width : Nat) where
  start : BitVec width
  items : List α

namespace NumberedStream

variable {α : Type} {width : Nat}

def extend (stream : NumberedStream α width) (more : List α) : NumberedStream α width :=
  { stream with items := stream.items ++ more }

@[simp] theorem extend_items {more : List α} (stream : NumberedStream α width) :
    (stream.extend more).items = stream.items ++ more := rfl

@[simp] theorem extend_nil (stream : NumberedStream α width) : stream.extend [] = stream := by
  simp [extend]

/-- The stream cut in two: `after` starts at the number `sequence`. -/
structure Cut (stream : NumberedStream α width) (sequence : BitVec width) (before after : List α) : Prop where
  items : stream.items = before ++ after
  number : sequence = stream.start + BitVec.ofNat width before.length

/-- `block` stands in the stream at the number `sequence`. -/
def At (stream : NumberedStream α width) (sequence : BitVec width) (block : List α) : Prop :=
  ∃ before after, stream.Cut sequence before (block ++ after)

variable {stream : NumberedStream α width} {sequence : BitVec width} {before after block : List α}

theorem Cut.zero (stream : NumberedStream α width) : stream.Cut stream.start [] stream.items := ⟨rfl, by simp⟩

theorem Cut.extend (cut : stream.Cut sequence before after) (more : List α) :
    (stream.extend more).Cut sequence before (after ++ more) :=
  ⟨by rw [extend_items, cut.items, List.append_assoc], cut.number⟩

theorem Cut.advance (cut : stream.Cut sequence before (block ++ after)) :
    stream.Cut (sequence + BitVec.ofNat width block.length) (before ++ block) after := by
  refine ⟨by rw [cut.items, List.append_assoc], ?_⟩
  rw [cut.number, Serial.offset_add, List.length_append]

section

variable (found : stream.At sequence block)
include found

theorem At.extend (more : List α) : (stream.extend more).At sequence block := by
  obtain ⟨before, after, cut⟩ := found
  refine ⟨before, after ++ more, ?_⟩
  have longer := cut.extend more
  rwa [List.append_assoc] at longer

theorem At.take (count : Nat) : stream.At sequence (block.take count) := by
  obtain ⟨before, after, cut⟩ := found
  refine ⟨before, block.drop count ++ after, ?_⟩
  rwa [← List.append_assoc, List.take_append_drop]

theorem At.drop (count : Nat) (inside : count ≤ block.length) :
    stream.At (sequence + BitVec.ofNat width count) (block.drop count) := by
  obtain ⟨before, after, cut⟩ := found
  rw [← List.take_append_drop count block, List.append_assoc] at cut
  have advanced := cut.advance
  rw [List.length_take, Nat.min_eq_left inside] at advanced
  exact ⟨_, after, advanced⟩

end

theorem Cut.deliver (cut : stream.Cut sequence before after) (found : stream.At sequence block)
    (small : stream.items.length < 2 ^ width) : ∃ rest, after = block ++ rest := by
  obtain ⟨other, rest, otherCut⟩ := found
  have length : before.length = other.length := by
    have first := congrArg List.length cut.items
    have second := congrArg List.length otherCut.items
    simp only [List.length_append] at first second
    rw [← Serial.offset_inj stream.start before.length other.length (by omega) (by omega), ← cut.number,
      otherCut.number]
  obtain ⟨_, same⟩ := List.append_inj (cut.items.symm.trans otherCut.items) length
  exact ⟨rest, same⟩

end NumberedStream
