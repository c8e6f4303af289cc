import PhotonOS.Vmm.Paging

/-!
Page-table entries as an address and a flag word. The two masks of the source
share no bit, so what is put into an entry comes out of it again.
-/

namespace PhotonOS

variable {frame : Nat} {flags : BitVec 64}

def frameLimit : Nat := 2 ^ 40

theorem lt_frameLimit {total : Nat} (small : frame < total) (pool : total ≤ pmmMaxBlocks) : frame < frameLimit := by
  simp only [pmmMaxBlocks, frameLimit] at pool ⊢
  omega

def FlagWord (flags : BitVec 64) : Prop := flags &&& vmmEntryFlagsMask = flags

instance (flags : BitVec 64) : Decidable (FlagWord flags) :=
  inferInstanceAs (Decidable (flags &&& vmmEntryFlagsMask = flags))

def makeEntry (frame : Nat) (flags : BitVec 64) : BitVec 64 := frameAddress frame ||| flags

theorem frameAddress_toNat (bound : frame < frameLimit) :
    (frameAddress frame).toNat = frame * 4096 := by
  rw [frameAddress, pmmPageSize, BitVec.toNat_ofNat]
  simp only [frameLimit] at bound
  omega

@[simp] theorem frameOf_frameAddress (frame : Nat) (bound : frame < frameLimit) :
    frameOf (frameAddress frame) = frame := by
  rw [frameOf, frameAddress_toNat bound, pmmPageSize, Nat.mul_div_cancel _ (by decide)]

theorem frameAddress_inj {first : Nat} {second : Nat} (firstBound : first < frameLimit)
    (secondBound : second < frameLimit) : frameAddress first = frameAddress second ↔ first = second := by
  constructor
  · intro same
    rw [← frameOf_frameAddress first firstBound, same, frameOf_frameAddress second secondBound]
  · rintro rfl
    rfl

theorem frameAddress_masked (frame : Nat) (bound : frame < frameLimit) :
    frameAddress frame &&& vmmEntryAddrMask = frameAddress frame := by
  apply BitVec.eq_of_toNat_eq
  have mask : vmmEntryAddrMask.toNat = (2 ^ 40 - 1) <<< 12 := by decide
  rw [BitVec.toNat_and, frameAddress_toNat bound, mask, show frame * 4096 = frame <<< 12 by
    rw [Nat.shiftLeft_eq], ← Nat.shiftLeft_and_distrib, Nat.and_two_pow_sub_one_eq_mod,
    Nat.mod_eq_of_lt (show frame < 2 ^ 40 from bound)]

variable {mask keep set : BitVec 64} {shift : Nat} {indices : Indices}

theorem frameAddress_and (bound : frame < frameLimit) :
    frameAddress frame &&& mask = frameAddress frame &&& (vmmEntryAddrMask &&& mask) := by
  rw [← BitVec.and_assoc, frameAddress_masked frame bound]

theorem frameAddress_flag (bound : frame < frameLimit) (apart : vmmEntryAddrMask &&& mask = 0#64) :
    frameAddress frame &&& mask = 0#64 := by
  rw [frameAddress_and bound, apart, BitVec.and_zero]

theorem frameAddress_page (bound : frame < frameLimit) :
    frameAddress frame &&& vmmPageMask = frameAddress frame := by
  rw [frameAddress_and bound, show vmmEntryAddrMask &&& vmmPageMask = vmmEntryAddrMask by decide,
    frameAddress_masked frame bound]

theorem frameAddress_ne_zero (frame : Nat) (bound : frame < frameLimit) (positive : 0 < frame) :
    frameAddress frame ≠ 0 := by
  intro zero
  have value := congrArg BitVec.toNat zero
  rw [frameAddress_toNat bound] at value
  change frame * 4096 = 0 at value
  omega

theorem validTablePointer_frameAddress (frame : Nat) (bound : frame < frameLimit) (positive : 0 < frame) :
    validTablePointer (frameAddress frame) = true := by
  rw [validTablePointer, Bool.and_eq_true, bne_iff_ne, beq_iff_eq]
  exact ⟨frameAddress_ne_zero frame bound positive, frameAddress_flag bound (by decide)⟩

section

variable (entry : BitVec 64)

theorem entryTable_toNat : (entryTable entry).toNat = entry.toNat / 4096 % 2 ^ 40 * 4096 := by
  have mask : vmmEntryAddrMask.toNat = (2 ^ 40 - 1) <<< 12 := by decide
  have high : (entry.toNat / 4096 % 2 ^ 40) <<< 12 = entry.toNat / 4096 % 2 ^ 40 * 4096 := by rw [Nat.shiftLeft_eq]
  rw [entryTable, BitVec.toNat_and, mask, ← high, ← Nat.and_two_pow_sub_one_eq_mod, Nat.shiftLeft_and_distrib]
  apply Nat.eq_of_testBit_eq
  intro bit
  simp only [Nat.testBit_and, Nat.testBit_shiftLeft, show (4096 : Nat) = 2 ^ 12 by decide, Nat.testBit_div_two_pow]
  by_cases low : 12 ≤ bit
  · simp [low]
  · simp [low]

theorem entryTable_bound : frameOf (entryTable entry) < frameLimit := by
  rw [frameOf, entryTable_toNat, pmmPageSize, Nat.mul_div_cancel _ (by decide), frameLimit]
  exact Nat.mod_lt _ (by decide)

theorem frameAddress_entryTable : frameAddress (frameOf (entryTable entry)) = entryTable entry := by
  apply BitVec.eq_of_toNat_eq
  rw [frameAddress_toNat (entryTable_bound entry), frameOf, pmmPageSize, entryTable_toNat,
    Nat.mul_div_cancel _ (by decide)]

theorem validTablePointer_entryTable (positive : 0 < frameOf (entryTable entry)) :
    validTablePointer (entryTable entry) = true := by
  rw [← frameAddress_entryTable]
  exact validTablePointer_frameAddress _ (entryTable_bound entry) positive

end

theorem FlagWord.addr (word : FlagWord flags) : flags &&& vmmEntryAddrMask = 0#64 := by
  rw [← word, BitVec.and_assoc, show vmmEntryFlagsMask &&& vmmEntryAddrMask = 0#64 by decide, BitVec.and_zero]

theorem flagWord_masked : FlagWord (flags &&& vmmEntryFlagsMask) := by
  rw [FlagWord, BitVec.and_assoc, BitVec.and_self]

section

variable {frame : Nat} {flags : BitVec 64} (bound : frame < frameLimit) (word : FlagWord flags)

include bound word

theorem makeEntry_addr : makeEntry frame flags &&& vmmEntryAddrMask = frameAddress frame := by
  rw [makeEntry, BitVec.and_comm, BitVec.and_or_distrib_left, BitVec.and_comm, frameAddress_masked frame bound,
    BitVec.and_comm, word.addr, BitVec.or_zero]

theorem makeEntry_flags : makeEntry frame flags &&& vmmEntryFlagsMask = flags := by
  rw [makeEntry, BitVec.and_comm, BitVec.and_or_distrib_left, BitVec.and_comm,
    frameAddress_flag bound (by decide), BitVec.and_comm, word, BitVec.zero_or]

theorem entryTable_makeEntry : entryTable (makeEntry frame flags) = frameAddress frame := makeEntry_addr bound word

theorem makeEntry_inj {other : Nat} {otherFlags : BitVec 64} (otherBound : other < frameLimit)
    (otherWord : FlagWord otherFlags) (same : makeEntry frame flags = makeEntry other otherFlags) :
    frame = other ∧ flags = otherFlags := by
  constructor
  · rw [← frameAddress_inj bound otherBound, ← makeEntry_addr bound word, same, makeEntry_addr otherBound otherWord]
  · rw [← makeEntry_flags bound word, same, makeEntry_flags otherBound otherWord]

omit word in
theorem hasFlag_makeEntry (mask : BitVec 64) (apart : vmmEntryAddrMask &&& mask = 0#64) :
    hasFlag (makeEntry frame flags) mask = hasFlag flags mask := by
  rw [hasFlag, hasFlag, makeEntry, BitVec.and_comm, BitVec.and_or_distrib_left, BitVec.and_comm,
    frameAddress_flag bound apart, BitVec.zero_or, BitVec.and_comm]

end

def userTable : BitVec 64 := pagePresent ||| pageWritable ||| pageUser

theorem and_flag_eq {entry : BitVec 64} (bit : Nat) (found : hasFlag entry (BitVec.twoPow 64 bit) = true) :
    entry &&& BitVec.twoPow 64 bit = BitVec.twoPow 64 bit := by
  rw [hasFlag, bne_iff_ne, BitVec.and_twoPow] at found
  rw [BitVec.and_twoPow]
  split
  · rfl
  next clear => simp [clear] at found

theorem tableFlags_user (user : hasFlag flags pageUser = true) :
    tableFlags flags = userTable := by
  have bit : flags &&& pageUser = pageUser := and_flag_eq 2 user
  rw [tableFlags, bit, userTable]

theorem flagWord_userTable : FlagWord userTable := by decide

theorem hasFlag_masked (kept : keep &&& mask = mask) (unset : set &&& mask = 0#64) :
    hasFlag ((flags &&& keep) ||| set) mask = hasFlag flags mask := by
  rw [hasFlag, hasFlag, BitVec.and_comm, BitVec.and_or_distrib_left, BitVec.and_comm mask, BitVec.and_assoc, kept,
    BitVec.and_comm mask, unset, BitVec.or_zero]

theorem flagWord_replace (word : FlagWord flags) (setWord : FlagWord set) :
    FlagWord ((flags &&& keep) ||| set) := by
  rw [FlagWord, BitVec.and_comm, BitVec.and_or_distrib_left, BitVec.and_comm, BitVec.and_comm vmmEntryFlagsMask set,
    setWord, BitVec.and_assoc, BitVec.and_comm keep, ← BitVec.and_assoc, word]

/-- What `cowFlags` does to a page: it stays what it was, but nobody may write to it. -/
structure CowOf (flags after : BitVec 64) : Prop where
  word : FlagWord after
  present : hasFlag after pagePresent = hasFlag flags pagePresent
  user : hasFlag after pageUser = hasFlag flags pageUser
  readOnly : hasFlag after pageWritable = false
  shared : (hasFlag after pageWritable || hasFlag after pageCow) =
    (hasFlag flags pageWritable || hasFlag flags pageCow)

theorem cowFlags_cowOf (word : FlagWord flags) : CowOf flags (cowFlags flags) := by
  unfold cowFlags
  split
  next writable =>
    have clear : hasFlag ((flags &&& ~~~pageWritable) ||| pageCow) pageWritable = false := by
      rw [hasFlag, BitVec.and_comm, BitVec.and_or_distrib_left, BitVec.and_comm, BitVec.and_assoc,
        show ~~~pageWritable &&& pageWritable = 0#64 by decide, BitVec.and_zero]
      decide
    have cow : hasFlag ((flags &&& ~~~pageWritable) ||| pageCow) pageCow = true := by
      rw [hasFlag, BitVec.and_comm, BitVec.and_or_distrib_left, BitVec.and_self, bne_iff_ne]
      intro zero
      have bit := congrArg (fun value => value.getLsbD 9) zero
      simp [pageCow] at bit
    exact ⟨flagWord_replace word (by decide), hasFlag_masked (by decide) (by decide),
      hasFlag_masked (by decide) (by decide), clear, by rw [cow, writable]; simp⟩
  next readOnly => exact ⟨word, rfl, rfl, by simpa using readOnly, rfl⟩

theorem resolvedFlags_facts (bound : frame < frameLimit) (word : FlagWord flags) :
    FlagWord (resolvedFlags (makeEntry frame flags)) ∧
      hasFlag (resolvedFlags (makeEntry frame flags)) pagePresent = hasFlag flags pagePresent ∧
      hasFlag (resolvedFlags (makeEntry frame flags)) pageUser = hasFlag flags pageUser ∧
      hasFlag (resolvedFlags (makeEntry frame flags)) pageWritable = true := by
  rw [resolvedFlags, makeEntry_flags bound word]
  refine ⟨flagWord_replace word (by decide), hasFlag_masked (by decide) (by decide),
    hasFlag_masked (by decide) (by decide), ?_⟩
  rw [hasFlag, BitVec.and_comm, BitVec.and_or_distrib_left, BitVec.and_self, bne_iff_ne]
  intro zero
  have bit := congrArg (fun value => value.getLsbD 1) zero
  simp [pageWritable] at bit

structure Indices.Valid (indices : Indices) : Prop where
  pml4 : indices.pml4 < 512
  pdpt : indices.pdpt < 512
  pd : indices.pd < 512
  pt : indices.pt < 512

variable (address : BitVec 64)

theorem indexAt_eq : indexAt address shift = address.toNat / 2 ^ shift % 512 := by
  rw [indexAt, BitVec.toNat_and, BitVec.toNat_ushiftRight, Nat.shiftRight_eq_div_pow]
  exact Nat.and_two_pow_sub_one_eq_mod _ 9

theorem indicesOf_valid : (indicesOf address).Valid := by
  constructor <;> simp only [indicesOf, indexAt_eq] <;> omega

theorem indexAt_page (above : vmmPageMask >>> shift &&& 0x1FF#64 = 0x1FF#64) :
    indexAt (address &&& vmmPageMask) shift = indexAt address shift := by
  rw [indexAt, indexAt, BitVec.ushiftRight_and_distrib, BitVec.and_assoc, above]

theorem indicesOf_page : indicesOf (address &&& vmmPageMask) = indicesOf address := by
  simp only [indicesOf, indexAt_page _ (show vmmPageMask >>> 39 &&& 0x1FF#64 = 0x1FF#64 by decide),
    indexAt_page _ (show vmmPageMask >>> 30 &&& 0x1FF#64 = 0x1FF#64 by decide),
    indexAt_page _ (show vmmPageMask >>> 21 &&& 0x1FF#64 = 0x1FF#64 by decide),
    indexAt_page _ (show vmmPageMask >>> 12 &&& 0x1FF#64 = 0x1FF#64 by decide)]

theorem virtualAddress_toNat (valid : indices.Valid) : (virtualAddress indices).toNat =
      indices.pml4 * 2 ^ 39 + indices.pdpt * 2 ^ 30 + indices.pd * 2 ^ 21 + indices.pt * 2 ^ 12 := by
  obtain ⟨pml4, pdpt, pd, pt⟩ := valid
  have part : ∀ index shift, index < 512 → shift ≤ 39 →
      (BitVec.ofNat 64 index <<< shift).toNat = index * 2 ^ shift := by
    intro index shift small low
    have power : 2 ^ shift ≤ 2 ^ 39 := Nat.pow_le_pow_right (by decide) low
    have product : index * 2 ^ shift ≤ 512 * 2 ^ 39 := Nat.mul_le_mul (by omega) power
    rw [BitVec.toNat_shiftLeft, BitVec.toNat_ofNat, Nat.shiftLeft_eq, Nat.mod_eq_of_lt (a := index) (by omega),
      Nat.mod_eq_of_lt (by omega)]
  have join : ∀ high low shift, low < 2 ^ shift → high * 2 ^ shift ||| low = high * 2 ^ shift + low := by
    intro high low shift small
    rw [← Nat.shiftLeft_eq, Nat.shiftLeft_add_eq_or_of_lt small]
  simp only [virtualAddress, BitVec.toNat_or, part _ 39 pml4 (by decide), part _ 30 pdpt (by decide),
    part _ 21 pd (by decide), part _ 12 pt (by decide)]
  rw [join _ _ 39 (by omega),
    show indices.pml4 * 2 ^ 39 + indices.pdpt * 2 ^ 30 = (indices.pml4 * 2 ^ 9 + indices.pdpt) * 2 ^ 30 by omega,
    join _ _ 30 (by omega), show (indices.pml4 * 2 ^ 9 + indices.pdpt) * 2 ^ 30 + indices.pd * 2 ^ 21 =
      ((indices.pml4 * 2 ^ 9 + indices.pdpt) * 2 ^ 9 + indices.pd) * 2 ^ 21 by omega, join _ _ 21 (by omega)]

theorem indicesOf_virtualAddress (valid : indices.Valid) : indicesOf (virtualAddress indices) = indices := by
  have value := virtualAddress_toNat valid
  obtain ⟨pml4, pdpt, pd, pt⟩ := indices
  obtain ⟨pml4Bound, pdptBound, pdBound, ptBound⟩ := valid
  simp only [indicesOf, indexAt_eq, value, Indices.mk.injEq] at *
  omega

end PhotonOS
