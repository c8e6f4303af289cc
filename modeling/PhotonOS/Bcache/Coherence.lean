import PhotonOS.Bcache.Moves
import PhotonOS.Lib.Transition

/-!
Over a drive whose operations all succeed, the block cache is a plain map of
sectors: what a run has written last is what a read returns.
-/

namespace PhotonOS

open Transition BlockStore

def sectorMapStep (sectors : BitVec 32 → Sector) : BcacheRequest → BitVec 32 → Sector
  | .write lba (some data) => Function.update sectors lba data
  | .write _ none => sectors
  | .read _ _ => sectors
  | .flush => sectors
  | .invalidate _ => sectors

/-- The bytes last written to each sector by the requests, or those the drive began with. -/
def lastWritten (sectors : BitVec 32 → Sector) (requests : List BcacheRequest) : BitVec 32 → Sector :=
  run sectorMapStep sectors requests

def reliable : Nat → Bool := fun _ => false

def SectorView.Mirrors (sectors : BitVec 32 → Sector) (view : SectorView) : Prop :=
  (∀ lba data dirty, view.cached lba = some (data, dirty) → dirty = false ∧ data = view.sectors lba) ∧
    view.sectors = sectors

variable {lba : BitVec 32} {view next : SectorView} {sectors : BitVec 32 → Sector} {data : Sector}

theorem SectorMove.mirrors (move : SectorMove lba view next) (mirrors : view.Mirrors sectors) :
    next.Mirrors sectors := by
  obtain ⟨clean, same⟩ := mirrors
  cases move with
  | save _ _ data dirty => exact absurd (clean lba data true dirty).1 (by decide)
  | forget _ _ data _ =>
    refine ⟨?_, same⟩
    intro other found dirty held
    simp only [Function.update_apply] at held
    split at held
    · cases held
    · exact clean other found dirty held
  | load =>
    refine ⟨?_, same⟩
    intro other found dirty held
    simp only [Function.update_apply] at held
    split at held
    next here =>
      cases held
      exact ⟨rfl, by rw [here]⟩
    · exact clean other found dirty held

theorem SectorMoves.mirrors {Allowed : BitVec 32 → Prop} (moves : SectorMoves Allowed view next)
    (mirrors : view.Mirrors sectors) : next.Mirrors sectors :=
  moves.keep _ (fun _ _ _ _ move before => move.mirrors before) mirrors

theorem WriteMove.mirrors (move : WriteMove lba data view true next)
    (mirrors : view.Mirrors sectors) : next.Mirrors (Function.update sectors lba data) := by
  obtain ⟨clean, rfl⟩ := mirrors
  cases move with
  | through =>
    refine ⟨?_, rfl⟩
    intro other found dirty held
    simp only [Function.update_apply] at held ⊢
    split at held
    next here =>
      cases held
      exact ⟨rfl, (if_pos here).symm⟩
    next elsewhere =>
      rw [if_neg elsewhere]
      exact clean other found dirty held

/-! The failure pattern is not changed by any request. -/

theorem ataWriteSectors_fails (ata : Ata) (lba : BitVec 32) (data : Sector) :
    (ataWriteSectors ata lba data).2.fails = ata.fails := by
  rcases ataWriteSectors_cases ata lba data with ⟨_, result⟩ | ⟨_, result⟩
  · rw [result]; rfl
  · rw [result]; rfl

variable (store : BlockStore) (index : Nat) {buffer : Option Sector}

theorem writeBackVictim_fails : (writeBackVictim store index).2.ata.fails = store.ata.fails := by
  have kept := ataWriteSectors_fails store.ata (store.cache.entry index).lba (store.cache.entry index).data
  rw [writeBackVictim]
  split
  · rcases written : ataWriteSectors store.ata (store.cache.entry index).lba (store.cache.entry index).data with
      ⟨_ | _, ata⟩
    all_goals rw [written] at kept; exact kept
  · rfl

theorem fetchInto_fails {buffer : Sector} : (fetchInto store index lba buffer).2.ata.fails = store.ata.fails := by
  rw [fetchInto]
  rcases ataReadSectors_cases with ⟨_, fetched⟩ | ⟨_, fetched⟩
  · rw [fetched]; rfl
  · rw [fetched]; rfl

theorem readMiss_fails {buffer : Sector} :
    (readMiss store lba buffer).2.ata.fails = store.ata.fails := by
  have kept := writeBackVictim_fails store (victimIndex store.cache.cachePool)
  rw [readMiss]
  rcases written : writeBackVictim store (victimIndex store.cache.cachePool) with ⟨_ | _, after⟩
  all_goals rw [written] at kept
  · exact kept
  · exact (fetchInto_fails after _).trans kept

theorem bcacheReadSector_fails :
    (bcacheReadSector store lba buffer).2.ata.fails = store.ata.fails := by
  cases buffer with
  | none => rfl
  | some buffer =>
    simp only [bcacheReadSector, cachePool_count]
    cases findEntry store.cache.cachePool lba with
    | some index => rfl
    | none => exact readMiss_fails _

theorem writeThrough_fails :
    (writeThrough store index lba data).2.ata.fails = store.ata.fails :=
  ataWriteSectors_fails store.ata lba data

theorem claimVictim_fails : (claimVictim store lba).2.ata.fails = store.ata.fails := by
  simp only [claimVictim]
  split
  · exact ataWriteSectors_fails _ _ _
  · rfl

theorem bcacheWriteSector_fails :
    (bcacheWriteSector store lba buffer).2.ata.fails = store.ata.fails := by
  cases buffer with
  | none => rfl
  | some data =>
    simp only [bcacheWriteSector, cachePool_count]
    cases findEntry store.cache.cachePool lba with
    | some index => exact writeThrough_fails _ index
    | none => exact (writeThrough_fails _ _).trans (claimVictim_fails _)

theorem flushEntries_fails {pool : List BcacheEntry} (ata : Ata) : (flushEntries pool ata).2.fails = ata.fails := by
  induction pool generalizing ata with
  | nil => rfl
  | cons entry rest ih =>
    rw [flushEntries]
    split
    · exact (ih _).trans (ataWriteSectors_fails ata entry.lba entry.data)
    · exact ih ata

theorem noteRequest_fails :
    (noteRequest store lba buffer).ata.fails = store.ata.fails := by
  cases buffer with
  | none => rfl
  | some _ => rfl

theorem bcacheStep_fails (request : BcacheRequest) : (bcacheStep store request).ata.fails = store.ata.fails := by
  cases request with
  | read lba buffer => exact bcacheReadSector_fails store
  | write lba buffer => exact (bcacheWriteSector_fails _).trans (noteRequest_fails store)
  | flush => exact flushEntries_fails _
  | invalidate lba => rfl

structure Coherent (store : BlockStore) (sectors : BitVec 32 → Sector) : Prop where
  fails : store.ata.fails = reliable
  distinct : OneEntryPerSector store.cache.cachePool
  mirrors : store.view.Mirrors sectors

theorem bcacheStep_coherent (sectors : BitVec 32 → Sector) (request : BcacheRequest)
    (coherent : Coherent store sectors) : Coherent (bcacheStep store request) (sectorMapStep sectors request) := by
  obtain ⟨fails, distinct, mirrors⟩ := coherent
  have stillReliable := (bcacheStep_fails store request).trans fails
  cases request with
  | read lba buffer =>
    obtain ⟨still, moves⟩ := bcacheReadSector_moves distinct lba buffer
    exact ⟨stillReliable, still, moves.mirrors mirrors⟩
  | write lba buffer =>
    cases buffer with
    | none => exact ⟨fails, distinct, mirrors⟩
    | some data =>
      have safe : EvictionSafe (noteRequest store lba (some data)) lba := by
        intro _ _ _
        rw [noteRequest_fails, fails]
        rfl
      obtain ⟨still, evicted, result, moves, write, failed⟩ :=
        bcacheWriteSector_moves (noteRequest store lba (some data)) distinct lba data safe
      cases result with
      | false =>
        obtain ⟨operation, broken⟩ := failed rfl
        rw [noteRequest_fails, fails] at broken
        cases broken
      | true => exact ⟨stillReliable, still, write.mirrors (moves.mirrors mirrors)⟩
  | flush =>
    obtain ⟨still, moves⟩ := bcacheFlush_moves store distinct
    exact ⟨stillReliable, still, moves.mirrors mirrors⟩
  | invalidate lba =>
    obtain ⟨still, drops⟩ := bcacheInvalidate_drops distinct lba
    refine ⟨stillReliable, still, ?_, mirrors.2⟩
    intro other data dirty held
    exact mirrors.1 other data dirty (drops other _ held)

theorem bcacheInit_empty : cached bcacheInit.cachePool lba = none := by
  apply cached_eq_none_iff.mpr
  intro entry member
  rw [List.eq_of_mem_replicate member]
  intro named
  cases named

theorem start_distinct {fails : Nat → Bool} :
    OneEntryPerSector (start sectors fails).cache.cachePool := by
  intro first second left right name leftAt _ named _
  exact absurd named (cached_eq_none_iff.mp bcacheInit_empty left (List.mem_of_getElem? leftAt))

theorem start_coherent : Coherent (start sectors reliable) sectors := by
  refine ⟨rfl, start_distinct, ?_, rfl⟩
  intro lba data dirty held
  cases held

theorem writeBackVictim_reliable (fails : store.ata.fails = reliable) (index : Nat) :
    (writeBackVictim store index).1 = true := by
  rw [writeBackVictim]
  split
  · rcases ataWriteSectors_cases store.ata (store.cache.entry index).lba (store.cache.entry index).data with
      ⟨failed, _⟩ | ⟨_, written⟩
    · rw [fails] at failed
      cases failed
    · rw [written]
  · rfl

theorem fetchInto_reliable (fails : store.ata.fails = reliable) (index : Nat) (lba : BitVec 32)
    (buffer : Sector) : (fetchInto store index lba buffer).1 = (true, store.ata.sectors lba) := by
  rw [fetchInto]
  rcases ataReadSectors_cases with ⟨failed, _⟩ | ⟨_, fetched⟩
  · rw [fails] at failed
    cases failed
  · rw [fetched]

theorem readMiss_reliable (sectors : BitVec 32 → Sector) (coherent : Coherent store sectors) (lba : BitVec 32)
    (missing : cached store.cache.cachePool lba = none) (buffer : Sector) :
    (readMiss store lba buffer).1 = (true, some (sectors lba)) := by
  have bound := victimIndex_lt store.cache
  obtain ⟨_, moves, _⟩ := writeBackVictim_moves store bound coherent.distinct missing
  have result := writeBackVictim_reliable store coherent.fails (victimIndex store.cache.cachePool)
  have fails := writeBackVictim_fails store (victimIndex store.cache.cachePool)
  have same := (moves.mirrors coherent.mirrors).2
  rw [readMiss]
  rcases written : writeBackVictim store (victimIndex store.cache.cachePool) with ⟨_ | _, after⟩
  all_goals rw [written] at result fails same
  · cases result
  have fetched := fetchInto_reliable after (fails.trans coherent.fails) (victimIndex store.cache.cachePool) lba buffer
  simp only [fetched]
  rw [← same]
  rfl

theorem bcacheReadSector_reliable (coherent : Coherent store sectors) {buffer : Sector} :
    (bcacheReadSector store lba (some buffer)).1 = (true, some (sectors lba)) := by
  simp only [bcacheReadSector, cachePool_count]
  cases found : findEntry store.cache.cachePool lba with
  | some index =>
    obtain ⟨entry, entryAt, valid, rfl⟩ := findEntry_some found
    have held := (coherent.mirrors.1 entry.lba _ _ (cached_at coherent.distinct entryAt valid)).2
    rw [coherent.mirrors.2] at held
    have entryIs : ((store.count BcacheStats.countRead).count BcacheStats.countHit).cache.entry index = entry :=
      Bcache.entry_eq _ entryAt
    simp only [readHit, Bcache.entry_tick]
    rw [entryIs, held]
  | none =>
    exact readMiss_reliable ((store.count BcacheStats.countRead).count BcacheStats.countMiss) sectors
      ⟨coherent.fails, coherent.distinct, coherent.mirrors⟩ lba (findEntry_none found) buffer

/-- After any requests, every read returns the bytes last written, no sector is cached twice and
every valid clean entry equals its sector on the drive. -/
theorem bcache_coherent (sectors : BitVec 32 → Sector) (requests : List BcacheRequest) :
    (∀ lba buffer, (bcacheReadSector (run bcacheStep (start sectors reliable) requests) lba
      (some buffer)).1 = (true, some (lastWritten sectors requests lba))) ∧
    (∀ (first second : Nat) (left right : BcacheEntry),
      (run bcacheStep (start sectors reliable) requests).cache.cachePool[first]? = some left →
      (run bcacheStep (start sectors reliable) requests).cache.cachePool[second]? = some right →
      left.valid = true → right.valid = true → left.lba = right.lba → first = second) ∧
    (∀ entry ∈ (run bcacheStep (start sectors reliable) requests).cache.cachePool,
      entry.valid = true → entry.dirty = false →
      entry.data = (run bcacheStep (start sectors reliable) requests).ata.sectors entry.lba) := by
  have coherent : Coherent (run bcacheStep (start sectors reliable) requests)
      (lastWritten sectors requests) :=
    run_simulation bcacheStep sectorMapStep Coherent bcacheStep_coherent requests _ _ start_coherent
  refine ⟨?_, ?_, ?_⟩
  · intro lba buffer
    exact bcacheReadSector_reliable _ coherent
  · intro first second left right leftAt rightAt leftValid rightValid same
    exact coherent.distinct first second left right right.lba leftAt rightAt
      ((BcacheEntry.key_eq_some_iff _ _).mpr ⟨leftValid, same⟩)
      ((BcacheEntry.key_eq_some_iff _ _).mpr ⟨rightValid, rfl⟩)
  · intro entry member valid _
    obtain ⟨index, entryAt⟩ := List.mem_iff_getElem?.mp member
    exact (coherent.mirrors.1 entry.lba _ _ (cached_at coherent.distinct entryAt valid)).2

/-- The cache writes through: after any requests the drive itself holds the bytes last written. -/
theorem drive_holds_lastWritten (sectors : BitVec 32 → Sector) (requests : List BcacheRequest) :
    (run bcacheStep (start sectors reliable) requests).ata.sectors = lastWritten sectors requests := by
  have coherent := run_simulation bcacheStep sectorMapStep Coherent bcacheStep_coherent requests _ sectors
    start_coherent
  exact coherent.mirrors.2

end PhotonOS
