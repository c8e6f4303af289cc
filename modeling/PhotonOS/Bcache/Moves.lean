import PhotonOS.Bcache.SectorView

/-!
Each operation of the block cache as moves of its sector view.
-/

namespace PhotonOS

open SlotTable Relation BcacheStats
open Function

variable {pool : List BcacheEntry} {index : Nat} {store : BlockStore}

theorem victimScan_bound (start : Nat) (victim : Option Nat) (oldest : BitVec 64) :
    ∀ index, victimScan pool start victim oldest = some index →
      victim = some index ∨ index < start + pool.length := by
  induction pool generalizing start victim oldest with
  | nil => intro index found; exact Or.inl found
  | cons entry rest ih =>
    intro index found
    simp only [victimScan] at found
    rw [List.length_cons]
    split at found
    · cases found
      exact Or.inr (by omega)
    split at found
    · rcases ih _ _ _ index found with same | bound
      · cases same
        exact Or.inr (by omega)
      · exact Or.inr (by omega)
    · rcases ih _ _ _ index found with same | bound
      · exact Or.inl same
      · exact Or.inr (by omega)

theorem victimIndex_lt (cache : Bcache) : victimIndex cache.cachePool < bcacheBlockCount := by
  rw [victimIndex]
  cases found : victimScan cache.cachePool 0 none (BitVec.allOnes 64) with
  | none => decide
  | some index =>
    rcases victimScan_bound _ _ _ index found with impossible | bound
    · cases impossible
    · rw [cache.poolSize, Nat.zero_add] at bound
      exact bound

namespace Bcache

variable (cache : Bcache)

theorem entry_at (bound : index < bcacheBlockCount) :
    cache.cachePool[index]? = some (cache.entry index) := by
  have inside : index < cache.cachePool.length := by rw [cache.poolSize]; exact bound
  rw [entry, List.getD_eq_getElem?_getD, List.getElem?_eq_getElem inside]
  rfl

theorem entry_eq {entry : BcacheEntry} (entryAt : cache.cachePool[index]? = some entry) :
    cache.entry index = entry := by
  rw [Bcache.entry, List.getD_eq_getElem?_getD, entryAt]
  rfl

@[simp] theorem entry_tick (index : Nat) : cache.tick.entry index = cache.entry index := rfl

@[simp] theorem cachePool_tick : cache.tick.cachePool = cache.cachePool := rfl

@[simp] theorem cachePool_setEntry (index : Nat) (entry : BcacheEntry) :
    (cache.setEntry index entry).cachePool = cache.cachePool.set index entry := rfl

theorem entry_setEntry (bound : index < bcacheBlockCount) (entry : BcacheEntry) :
    (cache.setEntry index entry).entry index = entry := by
  apply entry_eq
  apply List.getElem?_set_self
  rw [cache.poolSize]
  exact bound

end Bcache

section

variable (store : BlockStore) (update : BcacheStats → BcacheStats)

@[simp] theorem BlockStore.cachePool_count :
    (store.count update).cache.cachePool = store.cache.cachePool := rfl

@[simp] theorem BlockStore.ata_count :
    (store.count update).ata = store.ata := rfl

end

theorem ataWriteSectors_cases (ata : Ata) (lba : BitVec 32) (data : Sector) :
    (ata.fails ata.operations = true ∧ ataWriteSectors ata lba data = (false, ata.advance)) ∨
    (ata.fails ata.operations = false ∧ ataWriteSectors ata lba data = (true, ata.store lba data)) := by
  by_cases failed : ata.fails ata.operations = true
  · exact Or.inl ⟨failed, if_pos failed⟩
  · exact Or.inr ⟨Bool.eq_false_iff.mpr failed, if_neg failed⟩

theorem ataReadSectors_cases {ata : Ata} {lba : BitVec 32} {buffer : Sector} :
    (ata.fails ata.operations = true ∧ ataReadSectors ata lba buffer = (false, buffer, ata.advance)) ∨
    (ata.fails ata.operations = false ∧ ataReadSectors ata lba buffer = (true, ata.sectors lba, ata.advance)) := by
  by_cases failed : ata.fails ata.operations = true
  · exact Or.inl ⟨failed, if_pos failed⟩
  · exact Or.inr ⟨Bool.eq_false_iff.mpr failed, if_neg failed⟩

def BlockStore.cleaned (store : BlockStore) (index : Nat) : BlockStore :=
  ⟨store.cache.setEntry index { store.cache.entry index with dirty := false },
    store.ata.store (store.cache.entry index).lba (store.cache.entry index).data⟩

variable {lba : BitVec 32} {index : Nat} {entry : BcacheEntry} {view next : SectorView}

theorem lba_ne_of_missing (missing : cached pool lba = none) (entryAt : pool[index]? = some entry)
    (valid : entry.valid = true) : entry.lba ≠ lba := by
  intro same
  exact cached_eq_none_iff.mp missing entry (List.mem_of_getElem? entryAt)
    ((BcacheEntry.key_eq_some_iff _ _).mpr ⟨valid, same⟩)

section

variable (store : BlockStore) {index : Nat} (bound : index < bcacheBlockCount)
  (distinct : OneEntryPerSector store.cache.cachePool) {lba : BitVec 32}
  (missing : cached store.cache.cachePool lba = none)
include bound distinct missing

theorem cleaned_moves (valid : (store.cache.entry index).valid = true)
    (dirty : (store.cache.entry index).dirty = true) : OneEntryPerSector (store.cleaned index).cache.cachePool ∧
    SectorMoves (· ≠ lba) store.view (store.cleaned index).view := by
  have oldAt := store.cache.entry_at bound
  refine ⟨distinct.set_same oldAt _ rfl, ?_⟩
  have move := SectorMove.save store.view _ _ ((cached_at distinct oldAt valid).trans (by rw [dirty]))
  have same : (store.cleaned index).view = ⟨update store.view.cached (store.cache.entry index).lba
        (some ((store.cache.entry index).data, false)),
      update store.view.sectors (store.cache.entry index).lba (store.cache.entry index).data,
      .stored (store.cache.entry index).lba (store.cache.entry index).data :: store.view.history⟩ := by
    have cleaned := cached_set_same distinct oldAt { store.cache.entry index with dirty := false } valid rfl
    simp only [BlockStore.view, sectorView, BlockStore.cleaned, Bcache.cachePool_setEntry, Ata.store, cleaned]
  rw [same]
  exact SectorMoves.single (lba_ne_of_missing missing oldAt valid) move

theorem writeBackVictim_moves : OneEntryPerSector (writeBackVictim store index).2.cache.cachePool ∧
    SectorMoves (· ≠ lba) store.view (writeBackVictim store index).2.view ∧
    ((writeBackVictim store index).1 = true → ((writeBackVictim store index).2.cache.entry index).valid = true →
      ((writeBackVictim store index).2.cache.entry index).dirty = false) := by
  rw [writeBackVictim]
  by_cases dirty : ((store.cache.entry index).valid && (store.cache.entry index).dirty) = true
  · rw [if_pos dirty]
    obtain ⟨valid, dirty⟩ := Bool.and_eq_true_iff.mp dirty
    rcases ataWriteSectors_cases store.ata (store.cache.entry index).lba (store.cache.entry index).data with
      ⟨_, written⟩ | ⟨_, written⟩
    · rw [written]
      exact ⟨distinct, ReflTransGen.refl, fun impossible => by cases impossible⟩
    rw [written]
    obtain ⟨still, moves⟩ := cleaned_moves store bound distinct missing valid dirty
    refine ⟨still, moves, ?_⟩
    intro _ _
    exact congrArg BcacheEntry.dirty (store.cache.entry_setEntry bound _)
  · rw [if_neg dirty]
    refine ⟨distinct, ReflTransGen.refl, ?_⟩
    intro _ valid
    simpa [valid] using dirty

theorem forget_moves (clean : (store.cache.entry index).valid = true → (store.cache.entry index).dirty = false) :
    SectorMoves (· ≠ lba) store.view (store.view.without (store.cache.entry index).key) := by
  have oldAt := store.cache.entry_at bound
  by_cases valid : (store.cache.entry index).valid = true
  · have here := cached_at distinct oldAt valid
    rw [clean valid] at here
    have move := SectorMove.forget store.view _ _ here
    rw [(BcacheEntry.key_eq_some_iff _ _).mpr ⟨valid, rfl⟩, SectorView.without_some]
    exact SectorMoves.single (lba_ne_of_missing missing oldAt valid) move
  · rw [BcacheEntry.key, if_neg valid]
    exact ReflTransGen.refl

theorem fetchInto_moves (buffer : Sector)
    (clean : (store.cache.entry index).valid = true → (store.cache.entry index).dirty = false) :
    OneEntryPerSector (fetchInto store index lba buffer).2.cache.cachePool ∧
    SectorMoves (fun _ => True) store.view (fetchInto store index lba buffer).2.view := by
  have oldAt := store.cache.entry_at bound
  rw [fetchInto]
  rcases ataReadSectors_cases with ⟨_, fetched⟩ | ⟨_, fetched⟩
  · rw [fetched]
    have same : (store.cache.setEntry index (store.cache.entry index)).cachePool = store.cache.cachePool := by
      obtain ⟨inside, entryAt⟩ := List.getElem?_eq_some_iff.mp oldAt
      rw [Bcache.cachePool_setEntry, ← entryAt]
      exact List.set_getElem_self inside
    refine ⟨by rw [same]; exact distinct, ?_⟩
    simp only [BlockStore.view, same]
    exact ReflTransGen.refl
  · rw [fetched]
    obtain ⟨still, loaded⟩ := cached_set_fresh distinct oldAt
      ⟨lba, store.ata.sectors lba, true, false, store.cache.tick.accessCounter⟩ rfl missing
    refine ⟨still, ?_⟩
    have forgotten : SectorMoves (fun _ => True) _ _ := (forget_moves store bound distinct missing clean).weaken fun _ _ => trivial
    have absent : (store.view.without (store.cache.entry index).key).cached lba = none := by
      simp only [SectorView.without, BlockStore.view, sectorView, missing, ite_self]
    have move := SectorMove.load _ lba absent
    have same : BlockStore.view ⟨store.cache.tick.setEntry index
        ⟨lba, store.ata.sectors lba, true, false, store.cache.tick.accessCounter⟩, store.ata.advance⟩ =
        { store.view.without (store.cache.entry index).key with
          cached := update (store.view.without (store.cache.entry index).key).cached lba
            (some (store.ata.sectors lba, false)) } := by
      simp only [BlockStore.view, sectorView, Bcache.cachePool_setEntry, Bcache.cachePool_tick, SectorView.mk.injEq,
        SectorView.without, Ata.advance, and_true]
      funext other
      rw [loaded other, update_apply]
    rw [same]
    exact ReflTransGen.tail forgotten ⟨lba, trivial, move⟩

end

theorem SectorMoves.missing_kept (moves : SectorMoves (· ≠ lba) view next) (missing : view.cached lba = none) :
    next.cached lba = none := by
  refine moves.keep (fun view => view.cached lba = none) ?_ missing
  intro other before after different move absent
  cases move with
  | save _ _ => exact (update_of_ne (Ne.symm different) _ _).trans absent
  | forget _ _ => exact (update_of_ne (Ne.symm different) _ _).trans absent
  | load _ => exact (update_of_ne (Ne.symm different) _ _).trans absent

section

variable (store : BlockStore) (distinct : OneEntryPerSector store.cache.cachePool)
include distinct

theorem readHit_view (entryAt : store.cache.cachePool[index]? = some entry) (valid : entry.valid = true) :
    OneEntryPerSector (readHit store index).2.cache.cachePool ∧ (readHit store index).2.view = store.view := by
  simp only [readHit, Bcache.entry_tick, store.cache.entry_eq entryAt, BlockStore.view, sectorView,
    Bcache.cachePool_setEntry, Bcache.cachePool_tick]
  refine ⟨distinct.set_same entryAt _ rfl, ?_⟩
  have touched := cached_set_same distinct entryAt
    { entry with lastAccess := store.cache.tick.accessCounter } valid rfl
  rw [touched, ← cached_at distinct entryAt valid, update_eq_self]

theorem readMiss_moves (missing : cached store.cache.cachePool lba = none) (buffer : Sector) :
    OneEntryPerSector (readMiss store lba buffer).2.cache.cachePool ∧
    SectorMoves (fun _ => True) store.view (readMiss store lba buffer).2.view := by
  have bound := victimIndex_lt store.cache
  obtain ⟨still, moves, clean⟩ := writeBackVictim_moves store bound distinct missing
  have absent := moves.missing_kept missing
  rw [readMiss]
  rcases written : writeBackVictim store (victimIndex store.cache.cachePool) with ⟨_ | _, after⟩
  all_goals rw [written] at still moves clean absent
  · exact ⟨still, moves.weaken fun _ _ => trivial⟩
  · obtain ⟨loaded, loads⟩ := fetchInto_moves after bound still absent buffer (clean rfl)
    exact ⟨loaded, ReflTransGen.trans (moves.weaken fun _ _ => trivial) loads⟩

end

theorem bcacheReadSector_moves (distinct : OneEntryPerSector store.cache.cachePool) (lba : BitVec 32)
    (buffer : Option Sector) :
    OneEntryPerSector (bcacheReadSector store lba buffer).2.cache.cachePool ∧
    SectorMoves (fun _ => True) store.view (bcacheReadSector store lba buffer).2.view := by
  cases buffer with
  | none => exact ⟨distinct, ReflTransGen.refl⟩
  | some buffer =>
    simp only [bcacheReadSector, BlockStore.cachePool_count]
    cases found : findEntry store.cache.cachePool lba with
    | some index =>
      obtain ⟨entry, entryAt, valid, _⟩ := findEntry_some found
      obtain ⟨still, same⟩ := readHit_view
        ((store.count countRead).count countHit) distinct entryAt valid
      refine ⟨still, ?_⟩
      rw [same]
      exact ReflTransGen.refl
    | none =>
      exact readMiss_moves ((store.count countRead).count countMiss) distinct
        (findEntry_none found) buffer

def EvictionSafe (store : BlockStore) (lba : BitVec 32) : Prop :=
  findEntry store.cache.cachePool lba = none → (store.cache.entry (victimIndex store.cache.cachePool)).valid = true →
      (store.cache.entry (victimIndex store.cache.cachePool)).dirty = true →
        store.ata.fails store.ata.operations = false

structure Claims (store : BlockStore) (lba : BitVec 32) (claimed : BlockStore) (evicted : SectorView) : Prop where
  moves : SectorMoves (· ≠ lba) store.view evicted
  distinct : OneEntryPerSector claimed.cache.cachePool
  cached : ∀ other, other ≠ lba → claimed.view.cached other = evicted.cached other
  sectors : claimed.ata.sectors = evicted.sectors
  history : claimed.ata.history = evicted.history
  fails : claimed.ata.fails = store.ata.fails

theorem takeOver_claims (store : BlockStore) (bound : index < bcacheBlockCount)
    (distinct : OneEntryPerSector store.cache.cachePool) (missing : cached store.cache.cachePool lba = none)
    (clean : (store.cache.entry index).valid = true → (store.cache.entry index).dirty = false)
    (entry : BcacheEntry) (valid : entry.valid = true) (named : entry.lba = lba) :
    Claims store lba { store with cache := store.cache.setEntry index entry }
      (store.view.without (store.cache.entry index).key) := by
  subst named
  obtain ⟨still, loaded⟩ := cached_set_fresh distinct (store.cache.entry_at bound) entry valid missing
  constructor
  · exact forget_moves store bound distinct missing clean
  · exact still
  · intro other different
    exact (loaded other).trans (if_neg different)
  · rfl
  · rfl
  · rfl

theorem claimVictim_claims (distinct : OneEntryPerSector store.cache.cachePool)
    (found : findEntry store.cache.cachePool lba = none) (safe : EvictionSafe store lba) :
    ∃ evicted, Claims store lba (claimVictim store lba).2 evicted := by
  have missing := findEntry_none found
  have bound := victimIndex_lt store.cache
  rw [claimVictim]
  by_cases dirty : ((store.cache.entry (victimIndex store.cache.cachePool)).valid &&
      (store.cache.entry (victimIndex store.cache.cachePool)).dirty) = true
  · simp only [if_pos dirty]
    obtain ⟨valid, dirty⟩ := Bool.and_eq_true_iff.mp dirty
    rcases ataWriteSectors_cases store.ata (store.cache.entry (victimIndex store.cache.cachePool)).lba
      (store.cache.entry (victimIndex store.cache.cachePool)).data with ⟨failed, _⟩ | ⟨_, written⟩
    · rw [safe found valid dirty] at failed
      cases failed
    rw [written]
    -- first the victim is cleaned, then the clean entry is taken over
    obtain ⟨still, saved⟩ := cleaned_moves store bound distinct missing valid dirty
    have claims := takeOver_claims (store.cleaned _) bound still (saved.missing_kept missing)
      (fun _ => congrArg BcacheEntry.dirty (store.cache.entry_setEntry bound _))
      { store.cache.entry (victimIndex store.cache.cachePool) with lba, valid := true, dirty := false } rfl rfl
    have twice : (store.cleaned (victimIndex store.cache.cachePool)).cache.setEntry
        (victimIndex store.cache.cachePool)
        { store.cache.entry (victimIndex store.cache.cachePool) with lba, valid := true, dirty := false } =
        store.cache.setEntry (victimIndex store.cache.cachePool)
        { store.cache.entry (victimIndex store.cache.cachePool) with lba, valid := true, dirty := false } := by
      simp only [BlockStore.cleaned, Bcache.setEntry, List.set_set]
    rw [twice] at claims
    exact ⟨_, { claims with moves := ReflTransGen.trans saved claims.moves }⟩
  · simp only [if_neg dirty]
    refine ⟨_, takeOver_claims store bound distinct missing ?_ _ rfl rfl⟩
    intro valid
    simpa [valid] using dirty

inductive WriteMove (lba : BitVec 32) (data : Sector) (view : SectorView) : Bool → SectorView → Prop
  | through : WriteMove lba data view true ⟨update view.cached lba (some (data, false)),
      update view.sectors lba data, .stored lba data :: view.history⟩
  | held : WriteMove lba data view false { view with cached := update view.cached lba (some (data, true)) }

theorem writeThrough_move (distinct : OneEntryPerSector store.cache.cachePool)
    (entryAt : store.cache.cachePool[index]? = some entry) (valid : entry.valid = true)
    (named : entry.lba = lba) (data : Sector) :
    OneEntryPerSector (writeThrough store index lba data).2.cache.cachePool ∧
    WriteMove lba data store.view (!store.ata.fails store.ata.operations) (writeThrough store index lba data).2.view := by
  subst named
  simp only [writeThrough, Bcache.entry_tick, store.cache.entry_eq entryAt]
  refine ⟨distinct.set_same entryAt _ rfl, ?_⟩
  have written := cached_set_same distinct entryAt { entry with
    data, lastAccess := store.cache.tick.accessCounter
    dirty := !(ataWriteSectors store.ata entry.lba data).1 } valid rfl
  simp only [BlockStore.view, sectorView, Bcache.cachePool_setEntry, Bcache.cachePool_tick, written]
  rcases ataWriteSectors_cases store.ata entry.lba data with ⟨failed, result⟩ | ⟨worked, result⟩
  · rw [failed, result]
    exact WriteMove.held
  · rw [worked, result]
    exact WriteMove.through

theorem WriteMove.of_agree {data : Sector} {agreeing : SectorView} {result : Bool}
    (move : WriteMove lba data view result next)
    (cached : ∀ other, other ≠ lba → view.cached other = agreeing.cached other)
    (sectors : view.sectors = agreeing.sectors) (history : view.history = agreeing.history) :
    WriteMove lba data agreeing result next := by
  have same : ∀ value, update view.cached lba value = update agreeing.cached lba value := by
    intro value
    funext other
    by_cases here : other = lba
    · rw [here, update_self, update_self]
    · rw [update_of_ne here, update_of_ne here, cached other here]
  cases move with
  | through => rw [same, sectors, history]; exact WriteMove.through
  | held => rw [same, sectors, history]; exact WriteMove.held

theorem claimVictim_entry (store : BlockStore) (lba : BitVec 32) :
    ∃ entry, (claimVictim store lba).2.cache.cachePool[(claimVictim store lba).1]? = some entry ∧
      entry.valid = true ∧ entry.lba = lba := by
  refine ⟨_, List.getElem?_set_self ?_, rfl, rfl⟩
  rw [store.cache.poolSize]
  exact victimIndex_lt store.cache

theorem bcacheWriteSector_moves (store : BlockStore) (distinct : OneEntryPerSector store.cache.cachePool)
    (lba : BitVec 32) (data : Sector) (safe : EvictionSafe store lba) :
    OneEntryPerSector (bcacheWriteSector store lba (some data)).2.cache.cachePool ∧
    ∃ evicted result, SectorMoves (· ≠ lba) store.view evicted ∧
      WriteMove lba data evicted result (bcacheWriteSector store lba (some data)).2.view ∧
      (result = false → ∃ operation, store.ata.fails operation = true) := by
  simp only [bcacheWriteSector, BlockStore.cachePool_count]
  cases found : findEntry store.cache.cachePool lba with
  | some index =>
    obtain ⟨entry, entryAt, valid, named⟩ := findEntry_some found
    obtain ⟨still, move⟩ := writeThrough_move
      distinct entryAt valid named data
    refine ⟨still, _, _, ReflTransGen.refl, move, ?_⟩
    intro failed
    exact ⟨_, by simpa using failed⟩
  | none =>
    obtain ⟨evicted, claims⟩ := claimVictim_claims distinct found safe
    obtain ⟨entry, entryAt, valid, named⟩ := claimVictim_entry
      ((store.count countWrite).count countMiss) lba
    obtain ⟨still, move⟩ := writeThrough_move claims.distinct entryAt valid named data
    refine ⟨still, evicted, _, claims.moves, move.of_agree claims.cached claims.sectors claims.history, ?_⟩
    intro failed
    rw [claims.fails] at failed
    exact ⟨_, by simpa using failed⟩

theorem flushEntries_moves {rest : List BcacheEntry} :
    ∀ (done : List BcacheEntry) (ata : Ata), OneEntryPerSector (done ++ rest) →
      OneEntryPerSector (done ++ (flushEntries rest ata).1) ∧
      SectorMoves (fun _ => True) (sectorView (done ++ rest) ata)
        (sectorView (done ++ (flushEntries rest ata).1) (flushEntries rest ata).2) := by
  induction rest with
  | nil => intro done ata distinct; exact ⟨distinct, ReflTransGen.refl⟩
  | cons entry rest ih =>
    intro done ata distinct
    have entryAt : (done ++ entry :: rest)[done.length]? = some entry := by simp
    have replace : ∀ changed, (done ++ entry :: rest).set done.length changed = done ++ [changed] ++ rest := by
      intro changed
      simp
    rw [flushEntries]
    by_cases dirty : (entry.valid && entry.dirty) = true
    · simp only [if_pos dirty]
      obtain ⟨valid, dirty⟩ := Bool.and_eq_true_iff.mp dirty
      rcases ataWriteSectors_cases ata entry.lba entry.data with ⟨_, result⟩ | ⟨_, result⟩
      · -- a failed write leaves the entry dirty
        have unchanged : { entry with dirty := true } = entry := by rw [← dirty]
        simp only [result, Bool.not_false, unchanged]
        rw [List.append_cons] at distinct
        obtain ⟨still, moves⟩ := ih (done ++ [entry]) ata.advance distinct
        rw [List.append_cons done entry rest, List.append_cons]
        exact ⟨still, moves⟩
      · have saved := SectorMove.save (sectorView (done ++ entry :: rest) ata) entry.lba entry.data
          ((cached_at distinct entryAt valid).trans (by rw [dirty]))
        have cleaned := cached_set_same distinct entryAt { entry with dirty := false } valid rfl
        have kept := distinct.set_same entryAt { entry with dirty := false } rfl
        rw [replace] at cleaned kept
        obtain ⟨still, moves⟩ := ih (done ++ [{ entry with dirty := false }]) (ata.store entry.lba entry.data) kept
        rw [result, List.append_cons]
        refine ⟨still, ReflTransGen.head ⟨entry.lba, trivial, saved⟩ ?_⟩
        simp only [sectorView, Ata.store] at moves ⊢
        rw [cleaned] at moves
        exact moves
    · simp only [if_neg dirty]
      rw [List.append_cons] at distinct
      obtain ⟨still, moves⟩ := ih (done ++ [entry]) ata distinct
      rw [List.append_cons done entry rest, List.append_cons]
      exact ⟨still, moves⟩

theorem bcacheFlush_moves (store : BlockStore) (distinct : OneEntryPerSector store.cache.cachePool) :
    OneEntryPerSector (bcacheFlush store).2.cache.cachePool ∧
    SectorMoves (fun _ => True) store.view (bcacheFlush store).2.view :=
  flushEntries_moves [] store.ata distinct

theorem bcacheInvalidate_drops (distinct : OneEntryPerSector store.cache.cachePool) (lba : BitVec 32) :
    OneEntryPerSector (bcacheInvalidate store lba).cache.cachePool ∧
    ∀ other found, cached (bcacheInvalidate store lba).cache.cachePool other = some found →
      cached store.cache.cachePool other = some found := by
  have still : OneEntryPerSector (bcacheInvalidate store lba).cache.cachePool := by
    refine DistinctKeys.of_forall₂ _ distinct (List.forall₂_map_right_iff.mpr (List.forall₂_same.mpr ?_))
    intro entry _ name named
    rw [BcacheEntry.drop] at named
    split at named
    · cases named
    · exact named
  refine ⟨still, ?_⟩
  rintro other ⟨data, dirty⟩ found
  obtain ⟨entry, member, valid, named, rest⟩ := (cached_eq_some_iff still).mp found
  obtain ⟨before, beforeMember, rfl⟩ := List.mem_map.mp member
  rw [BcacheEntry.drop] at valid named rest
  apply (cached_eq_some_iff distinct).mpr
  split at valid
  · cases valid
  next kept =>
    rw [if_neg kept] at named rest
    exact ⟨before, beforeMember, valid, named, rest⟩

end PhotonOS
