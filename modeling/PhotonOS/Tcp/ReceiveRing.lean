import PhotonOS.Lib.Transition
import PhotonOS.Tcp.Pcb

/-!
The receive buffer under `tcp_rx_buffer_write_locked` and
`tcp_rx_buffer_read_locked`: a bounded FIFO of bytes.
-/

namespace PhotonOS

open Transition RingBuffer

inductive RxCall where
  | write (source : List UInt8)
  | read (length : Nat)

def rxBufferCall (ring : RingBuffer UInt8) : RxCall → RingBuffer UInt8
  | .write source => (ring.write source).1
  | .read length => (ring.read length).1

/-- The queue is `contents`: a write appends what has room, a read takes from the front. -/
structure BoundedFifo (capacity : Nat) (ring : RingBuffer UInt8) : Prop where
  used : ring.contents.length = ring.used
  bounded : ring.used ≤ capacity
  head : ring.head < capacity
  tail : ring.tail = (ring.head + ring.used) % capacity
  write : ∀ source, (ring.write source).2 = min source.length (capacity - ring.used) ∧
    (ring.write source).1.contents = ring.contents ++ source.take (ring.write source).2
  read : ∀ length, (ring.read length).2 = ring.contents.take (min length ring.used) ∧
    (ring.read length).2 ++ (ring.read length).1.contents = ring.contents

/-- After every sequence of calls the ring is a bounded FIFO, whatever its capacity and the position it starts at. -/
theorem rxBuffer_boundedFifo (data : List UInt8) (head : Nat) (inside : head < data.length) (calls : List RxCall) :
    BoundedFifo data.length (run rxBufferCall ⟨data, data.length, head, head, 0⟩ calls) := by
  have kept : ∀ ring call, ring.WellFormed ∧ ring.capacity = data.length →
      (rxBufferCall ring call).WellFormed ∧ (rxBufferCall ring call).capacity = data.length := by
    rintro ring call ⟨wellFormed, same⟩
    cases call with
    | write source => exact ⟨write_wellFormed ring wellFormed, (write_frame ring source).2.trans same⟩
    | read length => exact ⟨read_wellFormed ring wellFormed, (read_frame ring wellFormed length).2.1.trans same⟩
  have start : (RingBuffer.mk data data.length head head 0).WellFormed :=
    ⟨rfl, Nat.zero_lt_of_lt inside, inside, Nat.zero_le _, (Nat.mod_eq_of_lt inside).symm⟩
  obtain ⟨wellFormed, same⟩ := run_invariant rxBufferCall _ kept _ ⟨start, rfl⟩ calls
  generalize run rxBufferCall _ calls = ring at wellFormed same ⊢
  rw [← same]
  refine ⟨contents_length ring wellFormed, wellFormed.usedBound, wellFormed.headBound, wellFormed.tailEq, ?_, ?_⟩
  · intro source
    exact ⟨by rw [write_count, freeSpace_eq], write_contents ring wellFormed source⟩
  · intro length
    exact ⟨read_bytes ring wellFormed, read_contents ring wellFormed length⟩

theorem rxBuffer_boundedFifo_wrapped : (run rxBufferCall ⟨[0, 0, 0], 3, 2, 2, 0⟩ [.write [1, 2], .read 1]).contents = [2] ∧
    BoundedFifo 3 (run rxBufferCall ⟨[0, 0, 0], 3, 2, 2, 0⟩ [.write [1, 2], .read 1]) :=
  ⟨rfl, rxBuffer_boundedFifo [0, 0, 0] 2 (by decide) [.write [1, 2], .read 1]⟩

end PhotonOS
