import PhotonOS.Bcache.Coherence

/-!
What becomes of written bytes when operations of the drive fail.
-/

namespace PhotonOS

open Transition BlockStore BcacheEntry

def unsaved : List SectorEvent → BitVec 32 → Option Sector
  | [], _ => none
  | .requested name data :: older, lba => if name = lba then some data else unsaved older lba
  | .stored name data :: older, lba => if name = lba ∧ unsaved older lba = some data then none else unsaved older lba

def BcacheEntry.unwritten (entry : BcacheEntry) : Bool := entry.valid && entry.dirty

def NothingLost (store : BlockStore) : Prop :=
  ∀ lba data, unsaved store.ata.history lba = some data →
    ∃ entry ∈ store.cache.cachePool, entry.unwritten = true ∧ entry.lba = lba ∧ entry.data = data

def FlushHonest (store : BlockStore) : Prop :=
  (bcacheFlush store).1 = true → ∀ entry ∈ (bcacheFlush store).2.cache.cachePool, entry.unwritten = false

def StepHonest (store : BlockStore) (request : BcacheRequest) : Prop :=
  NothingLost (bcacheStep store request) ∧ match request with
    | .flush => FlushHonest store
    | _ => True

def FlushSafe (store : BlockStore) : Prop :=
  ∀ count < store.cache.cachePool.countP unwritten, store.ata.fails (store.ata.operations + count) = false

def StepSafe (store : BlockStore) : BcacheRequest → Prop
  | .write lba (some _) => EvictionSafe store lba
  | .flush => FlushSafe store
  | _ => True

def NotInvalidate : BcacheRequest → Prop
  | .invalidate _ => False
  | _ => True

def SectorView.KeptAt (view : SectorView) (lba : BitVec 32) : Prop :=
  ∀ data, unsaved view.history lba = some data ↔ view.cached lba = some (data, true)

variable {lba other : BitVec 32} {view next : SectorView} {data : Sector} {result : Bool}

section

variable (move : SectorMove lba view next)
include move

theorem SectorMove.unsaved_elsewhere (different : other ≠ lba) :
    unsaved next.history other = unsaved view.history other ∧ next.cached other = view.cached other := by
  cases move with
  | save _ _ data _ =>
    refine ⟨?_, Function.update_of_ne different _ _⟩
    simp only [unsaved, different.symm, false_and, if_false]
  | forget => exact ⟨rfl, Function.update_of_ne different _ _⟩
  | load => exact ⟨rfl, Function.update_of_ne different _ _⟩

theorem SectorMove.keptAt (kept : view.KeptAt lba) : next.KeptAt lba := by
  intro data
  cases move with
  | save _ _ saved dirty =>
    have pending := (kept saved).mpr dirty
    simp [unsaved, pending]
  | forget _ _ clean held => simp [kept data, held]
  | load _ _ missing => simp [kept data, missing]

theorem SectorMove.kept (kept : view.KeptAt other) : next.KeptAt other := by
  by_cases here : other = lba
  · subst here
    exact move.keptAt kept
  · obtain ⟨history, cached⟩ := move.unsaved_elsewhere here
    intro data
    rw [history, cached]
    exact kept data

end

theorem SectorMoves.kept {Allowed : BitVec 32 → Prop} (moves : SectorMoves Allowed view next)
    (kept : view.KeptAt lba) : next.KeptAt lba :=
  moves.keep (SectorView.KeptAt · lba) (fun _ _ _ _ move before => move.kept before) kept

theorem SectorMoves.unsaved_at (moves : SectorMoves (· ≠ lba) view next)
    (pending : unsaved view.history lba = some data) : unsaved next.history lba = some data := by
  refine moves.keep (fun view => unsaved view.history lba = some data) ?_ pending
  intro other before after different move held
  rw [(move.unsaved_elsewhere (Ne.symm different)).1]
  exact held

theorem WriteMove.kept (move : WriteMove lba data view result next)
    (elsewhere : ∀ other, other ≠ lba → view.KeptAt other) (pending : unsaved view.history lba = some data) :
    ∀ other, next.KeptAt other := by
  intro other found
  by_cases here : other = lba
  · subst here
    cases move with
    | through => simp [unsaved, pending]
    | held => simp [pending]
  · have before := elsewhere other here found
    cases move with
    | through => simpa [unsaved, here, Ne.symm here] using before
    | held => simpa [here] using before

structure Durable (store : BlockStore) : Prop where
  distinct : OneEntryPerSector store.cache.cachePool
  kept : ∀ lba, store.view.KeptAt lba

theorem Durable.nothingLost {store : BlockStore} (durable : Durable store) : NothingLost store := by
  intro lba data pending
  have dirty := (durable.kept lba data).mp pending
  obtain ⟨entry, member, valid, named, same, dirty⟩ := (cached_eq_some_iff durable.distinct).mp dirty
  exact ⟨entry, member, by rw [unwritten, valid, dirty]; rfl, named, same⟩

variable (store : BlockStore)

theorem bcacheWriteSector_durable (durable : Durable store)
    (safe : EvictionSafe store lba) : Durable (bcacheStep store (.write lba (some data))) := by
  obtain ⟨still, evicted, result, moves, write, _⟩ :=
    bcacheWriteSector_moves (noteRequest store lba (some data)) durable.distinct lba data safe
  refine ⟨still, write.kept ?_ ?_⟩
  · intro other different
    apply moves.kept
    intro found
    have before := durable.kept other found
    simpa [view, sectorView, noteRequest, unsaved, Ne.symm different] using before
  · apply moves.unsaved_at
    simp [view, sectorView, noteRequest, unsaved]

theorem bcacheStep_durable (request : BcacheRequest) (subject : NotInvalidate request)
    (safe : StepSafe store request) (durable : Durable store) : Durable (bcacheStep store request) := by
  cases request with
  | read lba buffer =>
    obtain ⟨still, moves⟩ := bcacheReadSector_moves durable.distinct lba buffer
    exact ⟨still, fun other => moves.kept (durable.kept other)⟩
  | write lba buffer =>
    cases buffer with
    | none => exact durable
    | some data => exact bcacheWriteSector_durable store durable safe
  | flush =>
    obtain ⟨still, moves⟩ := bcacheFlush_moves store durable.distinct
    exact ⟨still, fun other => moves.kept (durable.kept other)⟩
  | invalidate lba => exact subject.elim

theorem flushEntries_clean_iff (pool : List BcacheEntry) (ata : Ata) :
    (∀ entry ∈ (flushEntries pool ata).1, entry.unwritten = false) ↔
      ∀ count < pool.countP unwritten, ata.fails (ata.operations + count) = false := by
  induction pool generalizing ata with
  | nil => simp [flushEntries]
  | cons entry rest ih =>
    rw [flushEntries]
    by_cases dirty : entry.unwritten = true
    · rw [List.countP_cons_of_pos dirty]
      have both : (entry.valid && entry.dirty) = true := dirty
      simp only [if_pos both, List.forall_mem_cons, ih]
      have valid := (Bool.and_eq_true_iff.mp both).1
      rcases ataWriteSectors_cases ata entry.lba entry.data with ⟨failed, result⟩ | ⟨worked, result⟩
      · -- the failed write is the first of the writes counted on the right
        simp only [result, unwritten, valid, Bool.not_false, Bool.and_true, reduceCtorEq, false_and,
          false_iff, not_forall]
        exact ⟨0, Nat.succ_pos _, by rw [Nat.add_zero, failed]; decide⟩
      · simp only [result, unwritten, Bool.not_true, Bool.and_false, true_and]
        constructor
        · intro later count bound
          cases count with
          | zero => exact worked
          | succ count =>
            have next := later count (by omega)
            rw [show ata.operations + (count + 1) = ata.operations + 1 + count by omega]
            exact next
        · intro all count bound
          have next := all (count + 1) (by omega)
          rw [show ata.operations + (count + 1) = ata.operations + 1 + count by omega] at next
          exact next
    · rw [List.countP_cons_of_neg dirty]
      have both : ¬ (entry.valid && entry.dirty) = true := dirty
      simp only [if_neg both, List.forall_mem_cons, ih]
      constructor
      · rintro ⟨_, later⟩
        exact later
      · intro later
        exact ⟨Bool.eq_false_iff.mpr dirty, later⟩

theorem flushHonest_iff : FlushHonest store ↔ FlushSafe store := by
  rw [FlushHonest, FlushSafe, ← flushEntries_clean_iff]
  exact ⟨fun honest => honest rfl, fun clean _ => clean⟩

theorem WriteMove.elsewhere (move : WriteMove lba data view result next) (different : other ≠ lba) :
    unsaved next.history other = unsaved view.history other ∧ next.cached other = view.cached other := by
  cases move with
  | through =>
    refine ⟨?_, Function.update_of_ne different _ _⟩
    simp only [unsaved, different.symm, false_and, if_false]
  | held => exact ⟨rfl, Function.update_of_ne different _ _⟩

theorem claimVictim_failed (distinct : OneEntryPerSector store.cache.cachePool)
    (missing : cached store.cache.cachePool lba = none)
    (valid : (store.cache.entry (victimIndex store.cache.cachePool)).valid = true)
    (broken : store.ata.fails store.ata.operations = true) :
    OneEntryPerSector (claimVictim store lba).2.cache.cachePool ∧
      (claimVictim store lba).2.view.cached (store.cache.entry (victimIndex store.cache.cachePool)).lba = none ∧
      (claimVictim store lba).2.ata.history = store.ata.history := by
  have victimAt := store.cache.entry_at (victimIndex_lt store.cache)
  have different := lba_ne_of_missing missing victimAt valid
  rcases ataWriteSectors_cases store.ata (store.cache.entry (victimIndex store.cache.cachePool)).lba
    (store.cache.entry (victimIndex store.cache.cachePool)).data with ⟨_, result⟩ | ⟨worked, _⟩
  · rw [claimVictim]
    obtain ⟨still, loaded⟩ := cached_set_fresh distinct victimAt
      { store.cache.entry (victimIndex store.cache.cachePool) with
        lba, valid := true
        dirty := if ((store.cache.entry (victimIndex store.cache.cachePool)).valid &&
          (store.cache.entry (victimIndex store.cache.cachePool)).dirty) = true then false
          else (store.cache.entry (victimIndex store.cache.cachePool)).dirty } rfl missing
    refine ⟨still, ?_, ?_⟩
    · refine (loaded _).trans ?_
      rw [if_neg different, if_pos ((key_eq_some_iff _ _).mpr ⟨valid, rfl⟩)]
    · simp only [result]
      split
      · rfl
      · rfl
  · rw [broken] at worked
    cases worked

theorem evictionSafe_of_nothingLost (durable : Durable store)
    (honest : NothingLost (bcacheStep store (.write lba (some data)))) : EvictionSafe store lba := by
  intro found valid dirty
  by_contra failed
  have broken : store.ata.fails store.ata.operations = true := by simpa using failed
  have missing := findEntry_none found
  have victimAt := store.cache.entry_at (victimIndex_lt store.cache)
  have different := lba_ne_of_missing missing victimAt valid
  have held := cached_at durable.distinct victimAt valid
  rw [dirty] at held
  have pending := (durable.kept _ _).mpr held
  let counted := ((noteRequest store lba (some data)).count BcacheStats.countWrite).count BcacheStats.countMiss
  obtain ⟨claimed, gone, history⟩ := claimVictim_failed counted durable.distinct missing valid broken
  obtain ⟨entry, entryAt, entryValid, named⟩ := claimVictim_entry counted lba
  obtain ⟨still, move⟩ := writeThrough_move claimed entryAt entryValid named data
  obtain ⟨sameUnsaved, sameCached⟩ := move.elsewhere different
  have stepped : bcacheStep store (.write lba (some data)) =
      (writeThrough (claimVictim counted lba).2 (claimVictim counted lba).1 lba data).2 := by
    simp only [bcacheStep, bcacheWriteSector, cachePool_count]
    rw [show findEntry (noteRequest store lba (some data)).cache.cachePool lba = none from found]
  rw [stepped] at honest
  have stillPending : unsaved counted.ata.history (store.cache.entry (victimIndex store.cache.cachePool)).lba =
      some (store.cache.entry (victimIndex store.cache.cachePool)).data := by
    refine Eq.trans ?_ pending
    exact if_neg (Ne.symm different)
  obtain ⟨kept, member, unwritten, keptLba, keptData⟩ := honest _ _ (sameUnsaved.trans (by
    rw [show (claimVictim counted lba).2.view.history = _ from history]
    exact stillPending))
  obtain ⟨keptValid, keptDirty⟩ := Bool.and_eq_true_iff.mp unwritten
  have again := (cached_eq_some_iff still).mpr ⟨kept, member, keptValid, keptLba, keptData, keptDirty⟩
  have absent := sameCached.trans gone
  rw [show cached _ _ = _ from absent] at again
  cases again

theorem stepHonest_iff (request : BcacheRequest) (subject : NotInvalidate request) (durable : Durable store) :
    StepHonest store request ↔ StepSafe store request := by
  constructor
  · rintro ⟨honest, flushed⟩
    cases request with
    | read lba buffer => trivial
    | write lba buffer =>
      cases buffer with
      | none => trivial
      | some data => exact evictionSafe_of_nothingLost store durable honest
    | flush => exact (flushHonest_iff store).mp flushed
    | invalidate lba => exact subject.elim
  · intro safe
    refine ⟨(bcacheStep_durable store request subject safe durable).nothingLost, ?_⟩
    cases request with
    | flush => exact (flushHonest_iff store).mpr safe
    | _ => trivial

theorem start_durable (sectors : BitVec 32 → Sector) (fails : Nat → Bool) : Durable (start sectors fails) := by
  refine ⟨start_distinct, ?_⟩
  intro lba data
  exact iff_of_false (by intro pending; cases pending) (by intro held; cases held)

/-- A run of reads, writes and flushes loses nothing silently exactly when no write evicts a dirty
entry whose write-back fails and no write of a flush fails. -/
theorem bcache_noSilentLoss_iff (sectors : BitVec 32 → Sector) (fails : Nat → Bool) (requests : List BcacheRequest)
    (subject : ∀ request ∈ requests, NotInvalidate request) :
    Admissible bcacheStep StepHonest (start sectors fails) requests ↔
      Admissible bcacheStep StepSafe (start sectors fails) requests :=
  admissible_iff bcacheStep StepHonest StepSafe NotInvalidate Durable stepHonest_iff bcacheStep_durable requests _
    subject (start_durable sectors fails)

def writesFromZero (count : Nat) : List BcacheRequest :=
  (List.range count).map fun index => .write (BitVec.ofNat 32 index) (some (Vector.replicate bcacheSectorSize 1))

def blankSectors : BitVec 32 → Sector := fun _ => Vector.replicate bcacheSectorSize 0

def afterFailingWrites (count : Nat) : BlockStore :=
  run bcacheStep (start blankSectors fun _ => true) (writesFromZero count)

/-- With every operation of the drive failing, the 65th write drops the bytes of the first one, and a
flush reports success after a single failed write. -/
theorem bcache_losesEvictedWrite : ¬ NothingLost (afterFailingWrites 65) ∧ ¬ FlushHonest (afterFailingWrites 1) := by
  constructor
  · intro honest
    have pending : (unsaved (afterFailingWrites 65).ata.history 0).isSome = true := by decide +kernel
    have gone : (afterFailingWrites 65).cache.cachePool.all
        (fun entry => !(entry.unwritten && entry.lba == 0)) = true := by decide +kernel
    obtain ⟨data, requested⟩ := Option.isSome_iff_exists.mp pending
    obtain ⟨entry, member, unwritten, named, _⟩ := honest 0 data requested
    have absent := List.all_eq_true.mp gone entry member
    rw [unwritten, named] at absent
    cases absent
  · intro honest
    have left : (bcacheFlush (afterFailingWrites 1)).2.cache.cachePool.any unwritten = true := by decide +kernel
    obtain ⟨entry, member, unwritten⟩ := List.any_eq_true.mp left
    have clean := honest rfl entry member
    rw [unwritten] at clean
    cases clean

theorem bcache_noSilentLoss_retried :
    Admissible bcacheStep StepHonest (start blankSectors fun operation => operation == 0)
      [.write 7 (some (Vector.replicate bcacheSectorSize 1)), .flush] := by
  refine (bcache_noSilentLoss_iff blankSectors (fun operation => operation == 0) _ ?_).mpr ⟨?_, ?_, trivial⟩
  · intro request member
    rcases List.mem_cons.mp member with rfl | member
    · trivial
    · rw [List.mem_singleton.mp member]
      trivial
  · intro _ valid _
    exact absurd valid (by decide +kernel)
  · intro count _
    exact beq_eq_false_iff_ne.mpr (Nat.ne_of_gt (Nat.lt_of_lt_of_le (by decide +kernel) (Nat.le_add_right _ count)))

end PhotonOS
