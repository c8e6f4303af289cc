import PhotonOS.Tcp.SendView

/-!
The retransmission queue as a run of consecutive sequence numbers that starts at
`snd_una`, and what an acknowledgement releases from it.
-/

namespace PhotonOS

open Serial TcpSegment

def totalLength (entries : List TcpSegment) : Nat := (entries.map length).sum

def Contiguous : BitVec 32 → List TcpSegment → Prop
  | _, [] => True
  | start, segment :: rest =>
    segment.sequence = start ∧ 0 < segment.length ∧ Contiguous (start + BitVec.ofNat 32 segment.length) rest

def numberedBytes (entries : List TcpSegment) : List (BitVec 32 × UInt8) :=
  entries.flatMap fun segment =>
    segment.payload.mapIdx fun index byte => (segment.sequence + BitVec.ofNat 32 index, byte)

@[simp] theorem totalLength_nil : totalLength [] = 0 := rfl

variable (segment : TcpSegment) (entries : List TcpSegment) (start : BitVec 32) (acked bytes segments : Nat)

@[simp] theorem totalLength_cons (rest : List TcpSegment) :
    totalLength (segment :: rest) = segment.length + totalLength rest := by
  simp [totalLength]

variable {first second : List TcpSegment} {length : Nat} {pcb : Pcb} {now : BitVec 64}

theorem totalLength_append : totalLength (first ++ second) = totalLength first + totalLength second := by
  simp [totalLength]

theorem contiguous_append : Contiguous start (first ++ second) ↔
      Contiguous start first ∧ Contiguous (start + BitVec.ofNat 32 (totalLength first)) second := by
  induction first generalizing start with
  | nil => simp [Contiguous]
  | cons segment rest ih =>
    simp only [List.cons_append, Contiguous, ih, totalLength_cons, offset_add]
    tauto

theorem contiguous_entries_nil {entries : List TcpSegment} (contiguous : Contiguous start entries) :
    totalLength entries = 0 ↔ entries = [] := by
  cases entries with
  | nil => simp
  | cons segment rest =>
    obtain ⟨_, positive, _⟩ := contiguous
    simp only [totalLength_cons, reduceCtorEq, iff_false]
    omega

theorem payload_length_le : segment.payload.length ≤ segment.length := by
  rw [payload, List.length_take]
  omega

theorem mem_numberedBytes_cons {rest : List TcpSegment} {item : BitVec 32 × UInt8} :
    item ∈ numberedBytes (segment :: rest) ↔ (∃ index, ∃ inside : index < segment.payload.length,
        item = (segment.sequence + BitVec.ofNat 32 index, segment.payload[index])) ∨ item ∈ numberedBytes rest := by
  simp only [numberedBytes, List.flatMap_cons, List.mem_append, List.mem_mapIdx]
  constructor
  · rintro (⟨index, inside, rfl⟩ | later)
    · exact Or.inl ⟨index, inside, rfl⟩
    · exact Or.inr later
  · rintro (⟨index, inside, rfl⟩ | later)
    · exact Or.inl ⟨index, inside, rfl⟩
    · exact Or.inr later

theorem numberedBytes_position (entries : List TcpSegment) (contiguous : Contiguous start entries)
    (item : BitVec 32 × UInt8) (queued : item ∈ numberedBytes entries) :
    ∃ position, position < totalLength entries ∧ item.1 = start + BitVec.ofNat 32 position := by
  induction entries generalizing start with
  | nil => simp [numberedBytes] at queued
  | cons segment rest ih =>
    obtain ⟨sequence, positive, following⟩ := contiguous
    rw [totalLength_cons]
    rcases (mem_numberedBytes_cons segment).mp queued with ⟨index, inside, rfl⟩ | later
    · have bound := payload_length_le segment
      exact ⟨index, by omega, by rw [sequence]⟩
    · obtain ⟨position, bound, equal⟩ := ih _ following later
      exact ⟨segment.length + position, by omega, by rw [equal, offset_add]⟩

section

variable (contiguous : Contiguous start entries)
include contiguous

theorem releaseAcked_queue (small : totalLength entries < 2 ^ 31)
    (within : acked ≤ totalLength entries) (counted : totalLength entries ≤ bytes) :
    let queue := releaseAcked (start + BitVec.ofNat 32 acked) entries bytes segments
    Contiguous (start + BitVec.ofNat 32 acked) queue.entries ∧
      totalLength queue.entries + acked = totalLength entries ∧ queue.bytes + acked = bytes := by
  induction entries generalizing start acked bytes segments with
  | nil =>
    have none : acked = 0 := by simpa using within
    simp [releaseAcked, Contiguous, none]
  | cons segment rest ih =>
    obtain ⟨sequence, positive, following⟩ := contiguous
    rw [totalLength_cons] at small within counted
    rw [totalLength_cons]
    simp only [releaseAcked, sequence, le_offset start segment.length acked (by omega) (by omega)]
    by_cases whole : segment.length ≤ acked
    · rw [if_pos whole]
      have step := ih (start + BitVec.ofNat 32 segment.length) (acked - segment.length)
        (bytes - segment.length) (segments - 1) following (by omega) (by omega) (by omega)
      rw [offset_add, Nat.add_sub_cancel' whole] at step
      obtain ⟨first, second, third⟩ := step
      exact ⟨first, by omega, by omega⟩
    · rw [if_neg whole]
      have distance : (start + BitVec.ofNat 32 acked - start).toNat = acked := by
        rw [add_sub_cancel_left, BitVec.toNat_ofNat]
        omega
      rw [distance]
      split
      · refine ⟨⟨rfl, ?_, ?_⟩, ?_, ?_⟩
        · change 0 < segment.length - acked
          omega
        · change Contiguous (_ + BitVec.ofNat 32 (segment.length - acked)) rest
          rw [offset_add, Nat.add_sub_cancel' (by omega)]
          exact following
        · rw [totalLength_cons]
          change segment.length - acked + _ + acked = _
          omega
        · change bytes - acked + acked = bytes
          omega
      next untouched =>
        have zero : acked = 0 := by
          by_contra nonzero
          refine untouched ⟨?_, by omega⟩
          have base := lt_offset start 0 acked (by omega) (by omega)
          rw [show BitVec.ofNat 32 0 = 0#32 from rfl, BitVec.add_zero] at base
          exact base.mpr (by omega)
        subst zero
        exact ⟨⟨by simpa using sequence, positive, by simpa using following⟩, by simp, by simp⟩

theorem releaseAcked_all (all : totalLength entries ≤ acked) (small : acked < 2 ^ 31) :
    (releaseAcked (start + BitVec.ofNat 32 acked) entries bytes segments).entries = [] := by
  induction entries generalizing start acked bytes segments with
  | nil => rfl
  | cons segment rest ih =>
    obtain ⟨sequence, positive, following⟩ := contiguous
    rw [totalLength_cons] at all
    simp only [releaseAcked, sequence, le_offset start segment.length acked (by omega) (by omega)]
    rw [if_pos (by omega)]
    have step := ih (start + BitVec.ofNat 32 segment.length) (acked - segment.length)
      (bytes - segment.length) (segments - 1) following (by omega) (by omega)
    rwa [offset_add, Nat.add_sub_cancel' (by omega)] at step

theorem releaseAcked_keeps (small : totalLength entries < 2 ^ 31)
    (within : acked ≤ totalLength entries) (item : BitVec 32 × UInt8) (queued : item ∈ numberedBytes entries)
    (above : le (start + BitVec.ofNat 32 acked) item.1 = true) :
    item ∈ numberedBytes (releaseAcked (start + BitVec.ofNat 32 acked) entries bytes segments).entries := by
  induction entries generalizing start acked bytes segments with
  | nil => simp [numberedBytes] at queued
  | cons segment rest ih =>
    obtain ⟨sequence, positive, following⟩ := contiguous
    rw [totalLength_cons] at small within
    simp only [releaseAcked, sequence, le_offset start segment.length acked (by omega) (by omega)]
    have bound := payload_length_le segment
    by_cases whole : segment.length ≤ acked
    · rw [if_pos whole]
      rcases (mem_numberedBytes_cons segment).mp queued with ⟨index, inside, rfl⟩ | later
      · rw [sequence, le_offset start acked index (by omega) (by omega)] at above
        omega
      · have step := ih (start + BitVec.ofNat 32 segment.length) (acked - segment.length)
          (bytes - segment.length) (segments - 1) following (by omega) (by omega) later
        rw [offset_add, Nat.add_sub_cancel' whole] at step
        exact step above
    · rw [if_neg whole]
      have distance : (start + BitVec.ofNat 32 acked - start).toNat = acked := by
        rw [add_sub_cancel_left, BitVec.toNat_ofNat]
        omega
      rw [distance]
      split
      · rw [mem_numberedBytes_cons]
        rcases (mem_numberedBytes_cons segment).mp queued with ⟨index, inside, rfl⟩ | later
        · rw [sequence, le_offset start acked index (by omega) (by omega)] at above
          have rest : (payload { segment with
              sequence := start + BitVec.ofNat 32 acked
              length := segment.length - acked
              offset := segment.offset + acked }) = segment.payload.drop acked := by
            simp only [payload, List.drop_take, List.drop_drop]
          refine Or.inl ⟨index - acked, ?_, ?_⟩
          · rw [rest, List.length_drop]
            omega
          · simp only [rest, List.getElem_drop, offset_add, Nat.add_sub_cancel' above, sequence]
        · exact Or.inr later
      · exact queued

end

def queuedBytes (entries : List TcpSegment) : List UInt8 := entries.flatMap payload

structure DrainStops (now : BitVec 64) (pcb : Pcb) (result : DrainResult) : Prop where
  again : result.again = false
  idle : result.pcb.flags.draining = false
  una : result.pcb.sndUna = pcb.sndUna
  buffer : result.pcb.txBuf = pcb.txBuf
  silent : pcb.flags.finPending = false → result.packet = none ∧
    (result.pcb = stopDraining pcb ∨ result.pcb = stopDraining (armPersist now pcb))

def TcpSegment.Sound (segment : TcpSegment) : Prop := segment.payload.length = segment.length

structure DrainSends (pcb : Pcb) (unsent : TcpQueue) (segment : TcpSegment) : Prop where
  state : pcb.state = .established ∨ pcb.state = .closeWait
  bytes : segment.payload ++ queuedBytes unsent.entries = queuedBytes pcb.txBuf.unsent.entries
  shorter : (unsent.entries.map (fun queued => queued.length + 1)).sum + 1 < drainFuel pcb
  sound : (∀ queued ∈ pcb.txBuf.unsent.entries, queued.Sound) →
    segment.Sound ∧ ∀ queued ∈ unsent.entries, queued.Sound

/-- What leaves the unsent queue fits the window and the MSS, and a cut leaves no empty piece. -/
structure DrainCuts (pcb : Pcb) (unsent : TcpQueue) (segment : TcpSegment) : Prop
    extends DrainSends pcb unsent segment where
  opened : remainingWindow pcb ≠ 0
  fits : segment.length ≤ (remainingWindow pcb).toNat
  bounded : segment.length ≤ tcpDefaultMss
  unsentBytes : unsent.bytes = pcb.txBuf.unsent.bytes - segment.length
  total : totalLength unsent.entries + segment.length = totalLength pcb.txBuf.unsent.entries
  positive : (∀ queued ∈ pcb.txBuf.unsent.entries, 0 < queued.length) →
    0 < segment.length ∧ ∀ queued ∈ unsent.entries, 0 < queued.length

theorem remainingWindow_positive (some : remainingWindow pcb ≠ 0) : 0 < (remainingWindow pcb).toNat := by
  rw [Nat.pos_iff_ne_zero]
  intro zero
  exact some (BitVec.eq_of_toNat_eq zero)

theorem drainFin_stops : DrainStops now pcb (drainFin now pcb) := by
  simp only [drainFin]
  split
  next pending =>
    have notFree : pcb.flags.finPending ≠ false := by simp [pending]
    split
    · exact ⟨rfl, rfl, rfl, rfl, fun free => absurd free notFree⟩
    next built packet sent =>
      obtain ⟨view, _⟩ := sendView_tcpBuildOutputLocked sent
      exact ⟨rfl, rfl, congrArg SendView.sndUna view, congrArg SendView.txBuf view, fun free => absurd free notFree⟩
  · exact ⟨rfl, rfl, rfl, rfl, fun _ => ⟨rfl, Or.inl rfl⟩⟩

theorem payload_cut (inside : length ≤ segment.length) :
    ((segment.data.drop segment.offset).take length).take length ++
      (segment.data.drop (segment.offset + length)).take (segment.length - length) = segment.payload := by
  have split : segment.length = length + (segment.length - length) := by omega
  rw [payload, List.take_take, Nat.min_self, ← List.drop_drop, ← List.take_add, ← split]

theorem cut_sound (inside : length ≤ segment.length) (sound : segment.Sound) :
    ((segment.data.drop segment.offset).take length).length = length ∧
      ((segment.data.drop (segment.offset + length)).take (segment.length - length)).length =
        segment.length - length := by
  simp only [TcpSegment.Sound, payload, List.length_take, List.length_drop] at sound ⊢
  omega

theorem drainIteration_kinds {allocated : Bool} :
    (pcb.txBuf.unsent.entries = [] ∧ drainIteration now allocated pcb = drainFin now pcb) ∨
    (∃ after, (after = pcb ∨ after = armPersist now pcb) ∧
      drainIteration now allocated pcb = { pcb := stopDraining after, packet := none, again := false }) ∨
    ∃ unsent segment, DrainCuts pcb unsent segment ∧
      drainIteration now allocated pcb = transmitSegment now pcb unsent segment := by
  simp only [drainIteration]
  split
  next empty => exact Or.inl ⟨empty, rfl⟩
  rename_i head rest queue
  refine Or.inr ?_
  split
  · exact Or.inl ⟨pcb, Or.inl rfl, rfl⟩
  have state : pcb.state = .established ∨ pcb.state = .closeWait := by tauto
  split
  · exact Or.inl ⟨_, Or.inr rfl, rfl⟩
  rename_i opened
  have window := remainingWindow_positive opened
  split
  next cut =>
    split
    · have positive : 0 < min (min head.length (remainingWindow pcb).toNat) tcpDefaultMss := by
        rw [tcpDefaultMss] at cut ⊢
        omega
      refine Or.inr ⟨_, _, ⟨⟨state, ?_, ?_, fun sound => ?_⟩, opened, ?_, Nat.min_le_right _ _, rfl, ?_,
        fun all => ⟨positive, ?_⟩⟩, rfl⟩
      · rw [queue]
        change (payload _ ++ (payload _ ++ queuedBytes rest)) = head.payload ++ queuedBytes rest
        rw [← List.append_assoc, ← payload_cut head (Nat.le_of_lt cut)]
        rfl
      · rw [drainFuel, queue]
        simp only [List.map_cons, List.sum_cons]
        omega
      · rw [queue] at sound
        obtain ⟨headSound, restSound⟩ := List.forall_mem_cons.mp sound
        obtain ⟨front, back⟩ := cut_sound head (Nat.le_of_lt cut) headSound
        refine ⟨?_, List.forall_mem_cons.mpr ⟨back, restSound⟩⟩
        rw [TcpSegment.Sound, payload, List.drop_zero, List.take_of_length_le (Nat.le_of_eq front)]
        exact front
      · exact (Nat.min_le_left _ _).trans (Nat.min_le_right _ _)
      · rw [queue]
        simp only [totalLength, List.map_cons, List.sum_cons]
        omega
      · rw [queue] at all
        exact List.forall_mem_cons.mpr ⟨Nat.sub_pos_of_lt cut, (List.forall_mem_cons.mp all).2⟩
    · exact Or.inl ⟨pcb, Or.inl rfl, rfl⟩
  · refine Or.inr ⟨_, head, ⟨⟨state, ?_, ?_, fun sound => ?_⟩, opened, by omega, by omega, rfl, ?_, fun all => ?_⟩, rfl⟩
    · rw [queue]
      rfl
    · rw [drainFuel, queue]
      simp only [tcpQueueTakeHeadLocked, List.map_cons, List.sum_cons]
      omega
    · rw [queue] at sound
      exact List.forall_mem_cons.mp sound
    · rw [queue]
      exact Nat.add_comm _ _
    · rw [queue] at all
      exact List.forall_mem_cons.mp all

theorem drainIteration_cases (now : BitVec 64) (allocated : Bool) (pcb : Pcb) :
    DrainStops now pcb (drainIteration now allocated pcb) ∨ ∃ unsent segment, DrainCuts pcb unsent segment ∧
        drainIteration now allocated pcb = transmitSegment now pcb unsent segment := by
  rcases drainIteration_kinds with ⟨_, fin⟩ | ⟨after, kinds, stops⟩ | sends
  · rw [fin]
    exact Or.inl drainFin_stops
  · rw [stops]
    rcases kinds with rfl | rfl
    · exact Or.inl ⟨rfl, rfl, rfl, rfl, fun _ => ⟨rfl, Or.inl rfl⟩⟩
    · refine Or.inl ⟨rfl, rfl, ?_, ?_, fun _ => ⟨rfl, Or.inr rfl⟩⟩ <;>
        (simp only [stopDraining, armPersist]; split <;> rfl)
  · exact Or.inr sends

end PhotonOS
