import PhotonOS.Signal.StackWalk

/-!
Which memory a signal delivery writes.
-/

namespace PhotonOS

open Indices

variable {entry value : BitVec 64}

def userPageAt (machine : Machine) (cr3 address : BitVec 64) : Bool :=
  (walkEntries machine cr3 address).any fun entries =>
    entries.all fun entry => hasFlag entry pageUser && (hasFlag entry pageWritable || hasFlag entry pageCow)

def DeliverySafe {Frame : Type} (delivery : Delivery Frame) (cr3 : BitVec 64) : Prop :=
  ∀ store ∈ delivery.stores, userPageAt store.tables cr3 store.address = true ∧
    store.address.toNat % pmmPageSize + 8 ≤ pmmPageSize

def storable (machine : Machine) (entry : BitVec 64) : Bool :=
  hasFlag entry pageWritable || (hasFlag entry pageCow &&
    (decide (pmmRefGet machine (entryTable entry) ≤ 1) || (pmmAlloc machine).2 != 0))

/-- A mapped page that the kernel can store to and that is not user accessible at some level. -/
def supervisorTarget (machine : Machine) (cr3 address : BitVec 64) : Bool :=
  (walkEntries machine cr3 address).any fun entries =>
    entries.dropLast.all (hasFlag · pageWritable) && entries.getLast?.any (storable machine) &&
      !entries.all (hasFlag · pageUser)

def handlesSignal (task : SignalTask) : Bool :=
  match chooseSignal task with
  | .handled _ _ => true
  | _ => false

/-- The tables of a task, the kernel's included: different frames that the allocator has handed out. -/
structure TablesSound (machine : Machine) (cr3 : BitVec 64) : Prop where
  pool : machine.pmm.total ≤ pmmMaxBlocks
  root : frameAddress (frameOf cr3) = cr3
  distinct : ∀ indices : Indices, indices.Valid → (tablesAlong machine (frameOf cr3) indices.path).Nodup
  inUse : ∀ indices : Indices, indices.Valid → ∀ frame ∈ tablesAlong machine (frameOf cr3) indices.path,
    0 < frame ∧ frame < frameLimit ∧ machine.pmm.bitmap frame = true

structure Walked (machine : Machine) (root : Nat) (indices : Indices) (first second third leaf : BitVec 64) :
    Prop where
  firstEntry : machine.mem root indices.pml4 = first
  secondEntry : machine.mem (frameOf (entryTable first)) indices.pdpt = second
  thirdEntry : machine.mem (frameOf (entryTable second)) indices.pd = third
  leafEntry : machine.mem (frameOf (entryTable third)) indices.pt = leaf
  firstPresent : hasFlag first pagePresent = true
  secondPresent : hasFlag second pagePresent = true
  thirdPresent : hasFlag third pagePresent = true
  leafPresent : hasFlag leaf pagePresent = true

variable {machine : Machine} {root : Nat} {indices : Indices} {first second third leaf cr3 address : BitVec 64}
    {Frame : Type}

theorem Walked.entries (walked : Walked machine root indices first second third leaf) :
    entriesAlong machine root indices.toList = some [first, second, third, leaf] := by
  obtain ⟨rfl, rfl, rfl, rfl, firstPresent, secondPresent, thirdPresent, leafPresent⟩ := walked
  simp [toList, entriesAlong, firstPresent, secondPresent, thirdPresent, leafPresent]

theorem walked_of_entries {entries : List (BitVec 64)}
    (found : entriesAlong machine root indices.toList = some entries) :
    ∃ first second third leaf, entries = [first, second, third, leaf] ∧
      Walked machine root indices first second third leaf := by
  simp only [toList, entriesAlong, Option.ite_none_right_eq_some, Option.map_eq_some_iff] at found
  obtain ⟨firstPresent, _, ⟨secondPresent, _, ⟨thirdPresent, _, ⟨leafPresent, _, ⟨⟩, rfl⟩, rfl⟩, rfl⟩, rfl⟩ := found
  exact ⟨_, _, _, _, rfl, rfl, rfl, rfl, rfl, firstPresent, secondPresent, thirdPresent, leafPresent⟩

theorem Walked.tables (walked : Walked machine root indices first second third leaf) :
    tablesAlong machine root indices.path =
      [root, frameOf (entryTable first), frameOf (entryTable second), frameOf (entryTable third)] := by
  obtain ⟨rfl, rfl, rfl, rfl, firstPresent, secondPresent, thirdPresent, leafPresent⟩ := walked
  simp [path, tablesAlong, firstPresent, secondPresent, thirdPresent]

theorem Walked.replace {after : Machine} {newLeaf : BitVec 64}
    (walked : Walked machine root indices first second third leaf)
    (same : ∀ frame ∈ [root, frameOf (entryTable first), frameOf (entryTable second)],
      after.mem frame = machine.mem frame)
    (replaced : after.mem (frameOf (entryTable third)) indices.pt = newLeaf)
    (present : hasFlag newLeaf pagePresent = true) : Walked after root indices first second third newLeaf := by
  refine ⟨?_, ?_, ?_, replaced, walked.firstPresent, walked.secondPresent, walked.thirdPresent, present⟩
  · rw [same root (by simp), walked.firstEntry]
  · rw [same _ (by simp), walked.secondEntry]
  · rw [same _ (by simp), walked.thirdEntry]

theorem resolvedEntry_flags {mask : BitVec 64} (apart : vmmEntryAddrMask &&& mask = 0#64)
    (inside : vmmEntryFlagsMask &&& mask = mask) (notCow : ~~~pageCow &&& mask = mask)
    (notWritable : pageWritable &&& mask = 0#64) :
    hasFlag ((address &&& vmmEntryAddrMask) ||| resolvedFlags entry) mask = hasFlag entry mask := by
  have split : ((address &&& vmmEntryAddrMask) ||| resolvedFlags entry) &&& mask = resolvedFlags entry &&& mask := by
    rw [BitVec.and_comm, BitVec.and_or_distrib_left, BitVec.and_comm mask (address &&& vmmEntryAddrMask),
      BitVec.and_assoc, apart, BitVec.and_zero, BitVec.zero_or, BitVec.and_comm]
  rw [hasFlag, split, ← hasFlag, resolvedFlags, hasFlag_masked notCow notWritable, hasFlag,
    BitVec.and_assoc, inside, hasFlag]

theorem resolvedEntry_writable :
    hasFlag ((address &&& vmmEntryAddrMask) ||| resolvedFlags entry) pageWritable = true := by
  have split : ((address &&& vmmEntryAddrMask) ||| resolvedFlags entry) &&& pageWritable = pageWritable := by
    rw [resolvedFlags, ← BitVec.or_assoc, BitVec.and_comm, BitVec.and_or_distrib_left, BitVec.and_self]
    ext bit bound
    simp only [BitVec.getElem_or, BitVec.getElem_and]
    cases pageWritable[bit] <;> simp
  rw [hasFlag, split]
  decide

section

variable {machine : Machine} {cr3 address : BitVec 64} (sound : TablesSound machine cr3)

include sound

theorem TablesSound.root_inUse :
    0 < frameOf cr3 ∧ frameOf cr3 < frameLimit ∧ machine.pmm.bitmap (frameOf cr3) = true :=
  sound.inUse (indicesOf 0) (indicesOf_valid 0) (frameOf cr3) (by simp [path, tablesAlong])

theorem TablesSound.valid_root : validTablePointer cr3 = true := by
  obtain ⟨positive, bound, _⟩ := sound.root_inUse
  rw [← sound.root]
  exact validTablePointer_frameAddress _ bound positive

variable {first second third leaf : BitVec 64}
  (walked : Walked machine (frameOf cr3) (indicesOf address) first second third leaf)

include walked

theorem Walked.valid : validTablePointer (entryTable first) = true ∧ validTablePointer (entryTable second) = true ∧
    validTablePointer (entryTable third) = true := by
  have inUse := sound.inUse (indicesOf address) (indicesOf_valid address)
  rw [walked.tables] at inUse
  exact ⟨validTablePointer_entryTable _ (inUse _ (by simp)).1, validTablePointer_entryTable _ (inUse _ (by simp)).1,
    validTablePointer_entryTable _ (inUse _ (by simp)).1⟩

omit walked in
theorem vmmIsMapped_eq (address : BitVec 64) :
    vmmIsMapped machine cr3 address = (walkEntries machine cr3 address).isSome := by
  have inUse := sound.inUse (indicesOf address) (indicesOf_valid address)
  rw [walkEntries, ← descend_isSome, ← vmmIsMapped_descend sound.root_inUse.2.1 fun frame member =>
    (inUse frame member).1, sound.root]

omit walked in
theorem vmmIsMapped_page (address : BitVec 64) :
    vmmIsMapped machine cr3 (address &&& vmmPageMask) = (walkEntries machine cr3 address).isSome := by
  rw [vmmIsMapped_eq sound, walkEntries, indicesOf_page]
  rfl

theorem faultWalk_of_walked : faultWalk machine cr3 address = some (entryTable third, leaf) := by
  obtain ⟨firstValid, secondValid, thirdValid⟩ := walked.valid sound
  obtain ⟨rfl, rfl, rfl, rfl, firstPresent, secondPresent, thirdPresent, leafPresent⟩ := walked
  simp [faultWalk, Machine.read, sound.valid_root, firstPresent, secondPresent, thirdPresent, leafPresent,
    firstValid, secondValid, thirdValid]

omit sound in
theorem supervisorWrite_of_walked : supervisorWrite machine cr3 address value =
      if (hasFlag first pageWritable && hasFlag second pageWritable && hasFlag third pageWritable &&
          hasFlag leaf pageWritable) = true then
        some (machine.write (entryTable leaf) (wordIndex address) value)
      else none := by
  rw [supervisorWrite, walkEntries, walked.entries]
  simp only [List.all_cons, List.all_nil, Bool.and_true, Bool.and_assoc]
  split <;> rfl

theorem vmmPageFaultHandler_of_walked :
    let result := vmmPageFaultHandler machine cr3 (pfErrorPresent ||| pfErrorWrite) address
    result.2 = (hasFlag leaf pageCow &&
        (decide (pmmRefGet machine (entryTable leaf) ≤ 1) || (pmmAlloc machine).2 != 0)) ∧
      (result.2 = true → ∃ newLeaf, hasFlag newLeaf pageWritable = true ∧
        hasFlag newLeaf pageUser = hasFlag leaf pageUser ∧
        Walked result.1 (frameOf cr3) (indicesOf address) first second third newLeaf) := by
  have masked : cr3 &&& vmmEntryAddrMask = cr3 := by
    rw [← sound.root, frameAddress_masked _ sound.root_inUse.2.1]
  have distinct := sound.distinct (indicesOf address) (indicesOf_valid address)
  have inUse := sound.inUse (indicesOf address) (indicesOf_valid address)
  rw [walked.tables] at distinct inUse
  have pageTable : ∀ frame ∈ [frameOf cr3, frameOf (entryTable first), frameOf (entryTable second)],
      frame ≠ frameOf (entryTable third) := by
    intro frame member
    simp only [List.nodup_cons, List.mem_cons, List.not_mem_nil, or_false, not_or] at distinct member
    rcases member with rfl | rfl | rfl
    · exact distinct.1.2.2
    · exact distinct.2.1.2
    · exact distinct.2.2.1
  -- any new page entry with the resolved flags will do
  have resolved : ∀ (after : Machine) (physical : BitVec 64),
      (∀ frame ∈ [frameOf cr3, frameOf (entryTable first), frameOf (entryTable second)],
        after.mem frame = machine.mem frame) → after.mem (frameOf (entryTable third)) (indicesOf address).pt =
        (physical &&& vmmEntryAddrMask) ||| resolvedFlags leaf →
      ∃ newLeaf, hasFlag newLeaf pageWritable = true ∧ hasFlag newLeaf pageUser = hasFlag leaf pageUser ∧
        Walked after (frameOf cr3) (indicesOf address) first second third newLeaf := by
    intro after physical same replaced
    refine ⟨_, resolvedEntry_writable, resolvedEntry_flags (by decide) (by decide) (by decide) (by decide),
      walked.replace same replaced ?_⟩
    rw [resolvedEntry_flags (by decide) (by decide) (by decide) (by decide)]
    exact walked.leafPresent
  have error : (pfErrorPresent ||| pfErrorWrite) &&& (pfErrorPresent ||| pfErrorWrite) =
      pfErrorPresent ||| pfErrorWrite := BitVec.and_self
  simp only [vmmPageFaultHandler, masked, faultWalk_of_walked sound walked, error, true_and]
  by_cases cow : hasFlag leaf pageCow = true
  · simp only [cow, if_true, Bool.true_and]
    have position : indexAt address 12 = (indicesOf address).pt := rfl
    by_cases shared : pmmRefGet machine (leaf &&& vmmEntryAddrMask) > 1
    · have notSingle : ¬ pmmRefGet machine (entryTable leaf) ≤ 1 := BitVec.not_le.mpr shared
      simp only [if_pos shared, notSingle, decide_false, Bool.false_or]
      rcases pmmAlloc_cases machine with ⟨_, null⟩ | ⟨block, small, clear, allocated⟩
      · simp [null]
      by_cases null : frameAddress block = 0
      · simp [allocated, null]
      have bound := lt_frameLimit small sound.pool
      have apart : ∀ frame ∈ [frameOf cr3, frameOf (entryTable first), frameOf (entryTable second),
          frameOf (entryTable third)], frame ≠ block := by
        rintro frame member rfl
        have used := (inUse frame member).2.2
        rw [clear] at used
        contradiction
      simp only [allocated, if_neg null, position]
      refine ⟨(bne_iff_ne.mpr null).symm, fun _ => resolved _ (frameAddress block) ?_ ?_⟩
      · intro frame member
        funext place
        rw [pmmFree_mem, Machine.copyPage]
        simp only [Machine.write, Machine.fill, frameOf_frameAddress block bound, pageTable frame member,
          apart frame (by simp at member ⊢; tauto), false_and, if_false]
        rfl
      · rw [pmmFree_mem]
        simp only [Machine.write, and_self, if_true]
    · have single : pmmRefGet machine (entryTable leaf) ≤ 1 := BitVec.not_lt.mp shared
      simp only [if_neg shared, single, decide_true, Bool.true_or, position]
      refine ⟨trivial, fun _ => resolved _ leaf ?_ ?_⟩
      · intro frame member
        funext place
        simp only [Machine.write, pageTable frame member, false_and, if_false]
      · simp only [Machine.write, and_self, if_true]
  · simp only [cow, Bool.false_eq_true, if_false, Bool.false_and]
    simp

theorem kernelStore_of_walked (value : BitVec 64) :
    ((hasFlag first pageWritable && hasFlag second pageWritable && hasFlag third pageWritable &&
        storable machine leaf) = true →
      ∃ tables newLeaf, (kernelStore machine cr3 address value).2 = some ⟨tables, address⟩ ∧
        hasFlag newLeaf pageWritable = true ∧ hasFlag newLeaf pageUser = hasFlag leaf pageUser ∧
        Walked tables (frameOf cr3) (indicesOf address) first second third newLeaf) ∧
      ((hasFlag first pageWritable && hasFlag second pageWritable && hasFlag third pageWritable &&
        storable machine leaf) = false → (kernelStore machine cr3 address value).2 = none) := by
  obtain ⟨flag, resolved⟩ := vmmPageFaultHandler_of_walked sound walked
  have found : (walkEntries machine cr3 address).isSome = true := by
    rw [walkEntries, walked.entries]
    rfl
  generalize hupper : (hasFlag first pageWritable && hasFlag second pageWritable && hasFlag third pageWritable) = upper
  simp only [kernelStore, supervisorWrite_of_walked walked, hupper, found, if_true, storable]
  by_cases writable : hasFlag leaf pageWritable = true
  · cases upper with
    | true =>
      simp only [writable, Bool.and_self, if_true, Bool.true_or]
      exact ⟨fun _ => ⟨machine, leaf, rfl, writable, rfl, walked⟩, by simp⟩
    | false =>
      simp only [Bool.false_and, Bool.false_eq_true, if_false, false_implies, true_and, forall_const]
      split
      next handled =>
        obtain ⟨newLeaf, _, _, after⟩ := resolved handled
        rw [supervisorWrite_of_walked after, hupper]
        rfl
      · rfl
  · simp only [writable, Bool.and_false, Bool.false_eq_true, if_false, Bool.false_or, ← flag]
    cases handled : (vmmPageFaultHandler machine cr3 (pfErrorPresent ||| pfErrorWrite) address).2 with
    | true =>
      obtain ⟨newLeaf, newWritable, sameUser, after⟩ := resolved handled
      rw [supervisorWrite_of_walked after, hupper, newWritable]
      cases upper with
      | true => exact ⟨fun _ => ⟨_, newLeaf, rfl, newWritable, sameUser, after⟩, by simp⟩
      | false => simp
    | false => simp

end

theorem signalHandlerStack_inside (userRsp : BitVec 64) :
    (signalHandlerStack userRsp).toNat % pmmPageSize + 8 ≤ pmmPageSize := by
  have aligned : (userRsp &&& ~~~0xF#64).toNat % 16 = 0 := by
    have low : (userRsp &&& ~~~0xF#64) &&& 0xF#64 = 0#64 := by
      rw [BitVec.and_assoc, show ~~~0xF#64 &&& 0xF#64 = 0#64 by decide, BitVec.and_zero]
    have value := congrArg BitVec.toNat low
    have masked := Nat.and_two_pow_sub_one_eq_mod (userRsp &&& ~~~0xF#64).toNat 4
    exact masked.symm.trans value
  rw [signalHandlerStack, BitVec.toNat_sub, pmmPageSize]
  generalize (userRsp &&& ~~~0xF#64).toNat = value at aligned ⊢
  have eight : (8 : BitVec 64).toNat = 8 := rfl
  omega

theorem faultWalk_entry {pt : BitVec 64}
    (walked : Walked machine (frameOf cr3) (indicesOf address) first second third leaf)
    (found : faultWalk machine cr3 address = some (pt, entry)) : entry = leaf := by
  obtain ⟨firstEntry, secondEntry, thirdEntry, leafEntry, firstPresent, secondPresent, thirdPresent, leafPresent⟩ :=
    walked
  simp only [faultWalk, Machine.read, firstEntry, secondEntry, thirdEntry, leafEntry, firstPresent, secondPresent,
    thirdPresent, leafPresent, Bool.not_true, Bool.or_false] at found
  simp only [Bool.not_eq_true', Option.ite_none_left_eq_some, Option.some.injEq, Prod.mk.injEq] at found
  exact found.2.2.2.2.2.symm

theorem vmmPageFaultHandler_absent (machine : Machine) (cr3 address : BitVec 64) :
    (vmmPageFaultHandler machine cr3 (0 ||| pfErrorWrite) address).2 = false := by
  have notPresent : ¬ (0 ||| pfErrorWrite) &&& (pfErrorPresent ||| pfErrorWrite) =
      pfErrorPresent ||| pfErrorWrite := by decide
  rw [vmmPageFaultHandler]
  split
  · rfl
  · simp only [notPresent, false_and, if_false]

section

variable {machine : Machine} {task : SignalTask} {userRsp : BitVec 64}

theorem kernelStore_demand (sound : TablesSound machine task.cr3)
    (unmapped : walkEntries machine task.cr3 userRsp = none) {prepared : Machine} {after : SignalTask}
    (ready : prepareStack machine task (userRsp &&& vmmPageMask) = (prepared, some after)) {store : StackStore}
    (stored : (kernelStore prepared after.cr3 userRsp value).2 = some store) :
    store.address = userRsp ∧ userPageAt store.tables task.cr3 userRsp = true := by
  have notMapped : vmmIsMapped machine task.cr3 (userRsp &&& vmmPageMask) = false := by
    rw [vmmIsMapped_page sound, unmapped]
    rfl
  obtain ⟨rootPositive, rootBound, _⟩ := sound.root_inUse
  simp only [prepareStack, notMapped, Bool.false_eq_true, if_false] at ready
  rcases pmmAlloc_cases machine with ⟨_, null⟩ | ⟨block, small, clear, allocated⟩
  · simp [null] at ready
  simp only [allocated] at ready
  split at ready
  · simp at ready
  obtain ⟨rfl, sameTask⟩ := Prod.mk.inj ready
  obtain rfl := Option.some.inj sameTask
  have bound := lt_frameLimit small sound.pool
  -- the new page is no table of the task
  have kept : ∀ frame ∈ tablesAlong machine (frameOf task.cr3) (indicesOf (userRsp &&& vmmPageMask)).path,
      ((machine.taken block).clearPage (frameAddress block)).mem frame = machine.mem frame := by
    intro frame member
    have used := (sound.inUse _ (indicesOf_valid _) frame member).2.2
    funext place
    rw [Machine.clearPage, Machine.fill_mem _ bound, if_neg]
    · rfl
    · rintro rfl
      rw [clear] at used
      contradiction
  have path : OnPath ((machine.taken block).clearPage (frameAddress block)) [] (frameOf task.cr3)
      (indicesOf (userRsp &&& vmmPageMask)).path (indicesOf (userRsp &&& vmmPageMask)).pt := by
    refine ⟨sound.pool, ?_, ?_, ?_⟩
    · rw [List.nil_append, tablesAlong_congr _ kept]
      exact sound.distinct _ (indicesOf_valid _)
    · rw [List.nil_append, tablesAlong_congr _ kept]
      intro frame member
      obtain ⟨positive, small, used⟩ := sound.inUse _ (indicesOf_valid _) frame member
      exact ⟨positive, small, by simp [Machine.taken, used]⟩
    · rw [entriesAlong_congr _ kept, indicesOf_page]
      exact unmapped
  have mapped := mapInPml4_user path bound
  have notNull : task.cr3 ≠ 0 := by
    rw [← sound.root]
    exact frameAddress_ne_zero _ rootBound rootPositive
  rw [sound.root, indicesOf_page] at mapped
  rw [vmmMapInSpace, if_neg notNull] at stored
  rw [show pagePresent ||| pageWritable ||| pageUser = userTable from rfl] at stored
  generalize mapInPml4 _ task.cr3 (userRsp &&& vmmPageMask) (frameAddress block) userTable = prepared at stored mapped
  rcases mapped with gap | ⟨first, second, third, entries, firstUser, secondUser, thirdUser⟩
  · -- without a complete walk the fault is not resolved
    have walk : walkEntries prepared task.cr3 userRsp = none := gap
    simp only [kernelStore, supervisorWrite, walk, Option.isSome_none, Bool.false_eq_true, if_false,
      vmmPageFaultHandler_absent] at stored
    contradiction
  obtain ⟨_, _, _, leaf, same, walked⟩ := walked_of_entries entries
  obtain ⟨rfl, rfl, rfl, rfl⟩ : first = _ ∧ second = _ ∧ third = _ ∧ makeEntry block userTable = leaf := by
    simpa using same
  have leafUser : hasFlag (makeEntry block userTable) pageUser = true := by
    rw [hasFlag_makeEntry bound _ (by decide)]
    exact userTable_flags.2.1
  have leafCow : hasFlag (makeEntry block userTable) pageCow = false := by
    rw [hasFlag_makeEntry bound _ (by decide)]
    decide
  have walk : walkEntries prepared task.cr3 userRsp = some _ := walked.entries
  rw [kernelStore, supervisorWrite_of_walked walked] at stored
  by_cases writable : (hasFlag first pageWritable && hasFlag second pageWritable && hasFlag third pageWritable &&
      hasFlag (makeEntry block userTable) pageWritable) = true
  · rw [if_pos writable] at stored
    obtain rfl := Option.some.inj stored
    simp only [Bool.and_eq_true] at writable
    simp [userPageAt, walk, firstUser, secondUser, thirdUser, leafUser, writable]
  · have refused : (vmmPageFaultHandler prepared task.cr3 (pfErrorPresent ||| pfErrorWrite) userRsp).2 = false := by
      rw [vmmPageFaultHandler, ← sound.root, frameAddress_masked _ rootBound, sound.root]
      split
      · rfl
      next pt entry found =>
        obtain rfl := faultWalk_entry walked found
        simp [leafCow]
    rw [if_neg writable] at stored
    simp [walk, refused] at stored

theorem supervisorTarget_of_walked
    (walked : Walked machine (frameOf task.cr3) (indicesOf userRsp) first second third leaf) :
    supervisorTarget machine task.cr3 userRsp =
      ((hasFlag first pageWritable && hasFlag second pageWritable && hasFlag third pageWritable &&
          storable machine leaf) &&
        !(hasFlag first pageUser && hasFlag second pageUser && hasFlag third pageUser && hasFlag leaf pageUser)) := by
  simp [supervisorTarget, walkEntries, walked.entries, Bool.and_assoc]

theorem pushTrampoline_safe (sound : TablesSound machine task.cr3) {frame : Frame}
    {original : BitVec 64} {signum : Nat} {finish : SignalTask → SignalTask × Frame} :
    DeliverySafe (pushTrampoline machine task frame (signalHandlerStack original) signum finish) task.cr3 ↔
      ¬ (stackInRange (signalHandlerStack original) = true ∧
        supervisorTarget machine task.cr3 (signalHandlerStack original) = true) := by
  have inside := signalHandlerStack_inside original
  generalize signalHandlerStack original = userRsp at inside ⊢
  by_cases range : stackInRange userRsp = true
  · simp only [range, true_and]
    cases found : walkEntries machine task.cr3 userRsp with
    | none =>
      have target : supervisorTarget machine task.cr3 userRsp = false := by simp [supervisorTarget, found]
      rw [target]
      simp only [Bool.false_eq_true, not_false_eq_true, iff_true]
      simp only [DeliverySafe, pushTrampoline, range, Bool.not_true, Bool.false_eq_true, if_false]
      rcases ready : prepareStack machine task (userRsp &&& vmmPageMask) with ⟨prepared, _ | after⟩
      · simp
      dsimp only
      rcases stored : kernelStore prepared after.cr3 userRsp signalTrampolineAddr with ⟨final, _ | store⟩
      · simp
      obtain ⟨address, user⟩ := kernelStore_demand sound found ready
        (show _ = some store by rw [stored])
      intro other member
      obtain rfl : other = store := by simpa using member
      rw [address]
      exact ⟨user, inside⟩
    | some entries =>
      obtain ⟨first, second, third, leaf, rfl, walked⟩ := walked_of_entries found
      have mapped : vmmIsMapped machine task.cr3 (userRsp &&& vmmPageMask) = true := by
        rw [vmmIsMapped_page sound, found]
        rfl
      obtain ⟨stores, quiet⟩ := kernelStore_of_walked sound walked signalTrampolineAddr
      rw [supervisorTarget_of_walked walked]
      simp only [DeliverySafe, pushTrampoline, range, Bool.not_true, Bool.false_eq_true, if_false, prepareStack,
        mapped, if_true]
      cases reached : (hasFlag first pageWritable && hasFlag second pageWritable && hasFlag third pageWritable &&
          storable machine leaf) with
      | false =>
        have nothing := quiet reached
        rcases stored : kernelStore machine task.cr3 userRsp signalTrampolineAddr with ⟨final, store⟩
        rw [stored] at nothing
        subst nothing
        simp
      | true =>
        obtain ⟨tables, newLeaf, result, newWritable, sameUser, after⟩ := stores reached
        rcases stored : kernelStore machine task.cr3 userRsp signalTrampolineAddr with ⟨final, store⟩
        rw [stored] at result
        subst result
        simp only [Bool.and_eq_true] at reached
        have page : userPageAt tables task.cr3 userRsp =
            (hasFlag first pageUser && hasFlag second pageUser && hasFlag third pageUser &&
              hasFlag leaf pageUser) := by
          simp [userPageAt, walkEntries, after.entries, reached, newWritable, sameUser, Bool.and_assoc]
        simp only [List.mem_singleton, forall_eq, page, inside, and_true, Bool.true_and, Bool.not_eq_true',
          Bool.not_eq_false]
  · simp [pushTrampoline, range, DeliverySafe]

end

/-- On both paths the store of a delivery stays inside user pages exactly when the stack page is not a
mapped page that the kernel can write and the user cannot reach. -/
theorem signalDelivery_userOnly_iff (machine : Machine) (task : SignalTask) (interrupt : InterruptTaskFrame)
    (syscall : SyscallFrame) (syscallRet : BitVec 64) (sound : TablesSound machine task.cr3) :
    (DeliverySafe (deliverPendingSignalUnlocked machine task interrupt) task.cr3 ↔
      ¬ (handlesSignal task = true ∧ interrupt.cs &&& 0x3#64 = 0x3#64 ∧
        stackInRange (signalHandlerStack interrupt.userRsp) = true ∧
        supervisorTarget machine task.cr3 (signalHandlerStack interrupt.userRsp) = true)) ∧
    (DeliverySafe (schedulerHandleSyscallSignals machine task syscall syscallRet) task.cr3 ↔
      ¬ (handlesSignal task = true ∧ stackInRange (signalHandlerStack syscall.userRsp) = true ∧
        supervisorTarget machine task.cr3 (signalHandlerStack syscall.userRsp) = true)) := by
  constructor
  · simp only [deliverPendingSignalUnlocked, withChosenSignal, handlesSignal]
    cases chosen : chooseSignal task with
    | handled signum handler =>
      dsimp only
      by_cases ring : interrupt.cs &&& 0x3#64 = 0x3#64
      · rw [if_neg (by simpa using ring), pushTrampoline_safe sound]
        simp [ring]
      · simp [DeliverySafe, ring]
    | nothing => simp [DeliverySafe]
    | ignored signum => simp [DeliverySafe]
    | fatal signum => simp [DeliverySafe]
  · simp only [schedulerHandleSyscallSignals, withChosenSignal, handlesSignal]
    cases chosen : chooseSignal task with
    | handled signum handler =>
      rw [pushTrampoline_safe sound]
      simp
    | nothing => simp [DeliverySafe]
    | ignored signum => simp [DeliverySafe]
    | fatal signum => simp [DeliverySafe]

/-- The boot identity map as every task has it in PML4 entry 0: present and writable, without the user bit. -/
def identityMachine : Machine where
  mem := fun frame index =>
    if frame = 1 ∧ index = 0 then 0x2003
    else if frame = 2 ∧ index = 0 then 0x3003
    else if frame = 3 ∧ index = 0 then 0x4003
    else if frame = 4 ∧ index < 512 then frameAddress index ||| 3
    else 0
  pmm := { bitmap := fun _ => true, refcounts := fun _ => 1, total := 32768, reserved := 256, exhausted := false }
  kernelPml4 := 0x1000

def zeroRegisters : TaskRegisters := ⟨0, 0, 0, 0, 0, 0, 0, 0, 0, 0, 0, 0, 0, 0, 0, 0, 0⟩

def signalledTask : SignalTask where
  cr3 := 0x1000
  userPhysicalPages := fun _ => 0
  userPageCount := 0
  signalHandlers := fun _ => 0x8000001000
  pendingSignals := 0x400
  blockedSignals := 0
  activeSignal := 0
  signalContext := ⟨zeroRegisters, 0, 0, 0, 0⟩

def lowStackFrame : InterruptTaskFrame := ⟨zeroRegisters, userCodeSelector, 0x5010, userDataSelector⟩

def lowStackSyscall : SyscallFrame := ⟨0, 0, 0, 0, 0, 0, 0, 0, 0, 0, 0, 0, 0, 0, 0x5010⟩

theorem not_deliverySafe {delivery : Delivery Frame}
    (found : delivery.stores.any (fun store => !userPageAt store.tables cr3 store.address) = true) :
    ¬ DeliverySafe delivery cr3 := by
  intro safe
  obtain ⟨store, member, notUser⟩ := List.any_eq_true.mp found
  rw [(safe store member).1] at notUser
  contradiction

theorem identityMachine_tables {pml4 pdpt pd : Nat} :
    ∃ count, tablesAlong identityMachine 1 [pml4, pdpt, pd] = [1, 2, 3, 4].take count := by
  have entry : ∀ index, identityMachine.mem 1 index = (if index = 0 then 0x2003 else 0) ∧
      identityMachine.mem 2 index = (if index = 0 then 0x3003 else 0) ∧
      identityMachine.mem 3 index = (if index = 0 then 0x4003 else 0) := by
    intro index
    simp [identityMachine]
  have present : hasFlag 0x2003 pagePresent = true ∧ hasFlag 0x3003 pagePresent = true ∧
      hasFlag 0x4003 pagePresent = true := by decide
  have next : frameOf (entryTable 0x2003) = 2 ∧ frameOf (entryTable 0x3003) = 3 ∧
      frameOf (entryTable 0x4003) = 4 := by decide
  by_cases first : pml4 = 0
  · by_cases second : pdpt = 0
    · by_cases third : pd = 0
      · refine ⟨4, ?_⟩
        simp only [tablesAlong, entry, first, second, third, if_true, present, next]
        rfl
      · refine ⟨3, ?_⟩
        simp only [tablesAlong, entry, first, second, third, if_true, present, next, if_false, hasFlag_zero]
        rfl
    · refine ⟨2, ?_⟩
      simp only [tablesAlong, entry, first, second, if_true, present, next, if_false, hasFlag_zero]
      rfl
  · refine ⟨1, ?_⟩
    simp only [tablesAlong, entry, first, if_false, hasFlag_zero]
    rfl

theorem identityMachine_sound : TablesSound identityMachine signalledTask.cr3 where
  pool := by decide
  root := by decide
  distinct := by
    intro indices _
    rw [show frameOf signalledTask.cr3 = 1 by decide, path]
    obtain ⟨count, tables⟩ := identityMachine_tables
    rw [tables]
    exact List.Nodup.sublist (List.take_sublist _ _) (by decide)
  inUse := by
    intro indices _ frame member
    rw [show frameOf signalledTask.cr3 = 1 by decide, path] at member
    obtain ⟨count, tables⟩ := identityMachine_tables
    rw [tables] at member
    have small := List.mem_of_mem_take member
    simp only [List.mem_cons, List.not_mem_nil, or_false, frameLimit] at small ⊢
    exact ⟨by omega, by omega, rfl⟩

theorem signalDelivery_writes_identityMap :
    ¬ DeliverySafe (deliverPendingSignalUnlocked identityMachine signalledTask lowStackFrame) signalledTask.cr3 ∧
      ¬ DeliverySafe (schedulerHandleSyscallSignals identityMachine signalledTask lowStackSyscall 0) signalledTask.cr3 ∧
      (deliverPendingSignalUnlocked identityMachine signalledTask lowStackFrame).machine.mem 5 1 =
        signalTrampolineAddr := by
  exact ⟨not_deliverySafe (by decide +kernel), not_deliverySafe (by decide +kernel), by decide +kernel⟩

theorem signalDelivery_userOnly_identityMachine : TablesSound identityMachine signalledTask.cr3 ∧
      ¬ DeliverySafe (deliverPendingSignalUnlocked identityMachine signalledTask lowStackFrame) signalledTask.cr3 := by
  refine ⟨identityMachine_sound, ?_⟩
  rw [(signalDelivery_userOnly_iff identityMachine signalledTask lowStackFrame lowStackSyscall 0
    identityMachine_sound).1, not_not]
  decide +kernel

end PhotonOS
