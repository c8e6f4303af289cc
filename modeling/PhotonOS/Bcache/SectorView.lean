import Mathlib.Logic.Relation
import PhotonOS.Bcache.Cache
import PhotonOS.Lib.SlotTable

/-!
What the block cache holds, seen per sector and not per slot: the cached bytes
of each sector with their dirty flag.
-/

namespace PhotonOS

open SlotTable Relation BcacheEntry
open Function

def BcacheEntry.key (entry : BcacheEntry) : Option (BitVec 32) :=
  if entry.valid then some entry.lba else none

def OneEntryPerSector (pool : List BcacheEntry) : Prop := DistinctKeys key pool

def cached (pool : List BcacheEntry) (lba : BitVec 32) : Option (Sector × Bool) :=
  (lookup key pool lba).map fun entry => (entry.data, entry.dirty)

structure SectorView where
  cached : BitVec 32 → Option (Sector × Bool)
  sectors : BitVec 32 → Sector
  history : List SectorEvent

def sectorView (pool : List BcacheEntry) (ata : Ata) : SectorView := ⟨cached pool, ata.sectors, ata.history⟩

def BlockStore.view (store : BlockStore) : SectorView := sectorView store.cache.cachePool store.ata

def SectorView.without (view : SectorView) (key : Option (BitVec 32)) : SectorView :=
  { view with cached := fun lba => if key = some lba then none else view.cached lba }

theorem SectorView.without_some (view : SectorView) {lba : BitVec 32} :
    view.without (some lba) = { view with cached := update view.cached lba none } := by
  simp only [without, SectorView.mk.injEq, and_true]
  funext other
  simp only [Option.some.injEq, update_apply, eq_comm]

inductive SectorMove : BitVec 32 → SectorView → SectorView → Prop
  | save (view : SectorView) (lba : BitVec 32) (data : Sector) : view.cached lba = some (data, true) →
      SectorMove lba view ⟨update view.cached lba (some (data, false)),
        update view.sectors lba data, .stored lba data :: view.history⟩
  | forget (view : SectorView) (lba : BitVec 32) (data : Sector) : view.cached lba = some (data, false) →
      SectorMove lba view { view with cached := update view.cached lba none }
  | load (view : SectorView) (lba : BitVec 32) : view.cached lba = none →
      SectorMove lba view { view with cached := update view.cached lba (some (view.sectors lba, false)) }

def SectorMoves (Allowed : BitVec 32 → Prop) : SectorView → SectorView → Prop :=
  ReflTransGen fun view next => ∃ lba, Allowed lba ∧ SectorMove lba view next

variable {lba : BitVec 32} {view next : SectorView} {pool : List BcacheEntry} {index : Nat} {Allowed : BitVec 32 → Prop}

theorem SectorMoves.single (allowed : Allowed lba)
    (move : SectorMove lba view next) : SectorMoves Allowed view next :=
  ReflTransGen.single ⟨lba, allowed, move⟩

theorem SectorMoves.weaken {Wider : BitVec 32 → Prop} (moves : SectorMoves Allowed view next)
    (wider : ∀ lba, Allowed lba → Wider lba) : SectorMoves Wider view next := by
  refine ReflTransGen.mono ?_ _ _ moves
  rintro before after ⟨lba, allowed, move⟩
  exact ⟨lba, wider lba allowed, move⟩

theorem SectorMoves.keep (moves : SectorMoves Allowed view next)
    (Holds : SectorView → Prop)
    (step : ∀ (lba : BitVec 32) (before after : SectorView), Allowed lba → SectorMove lba before after →
      Holds before → Holds after) (initial : Holds view) : Holds next := by
  induction moves with
  | refl => exact initial
  | tail _ last ih =>
    obtain ⟨lba, allowed, move⟩ := last
    exact step lba _ _ allowed move ih

@[simp] theorem BcacheEntry.key_eq_some_iff (entry : BcacheEntry) (lba : BitVec 32) :
    entry.key = some lba ↔ entry.valid = true ∧ entry.lba = lba := by
  rw [key]
  split
  next valid => simp [valid]
  next invalid => simp [invalid]

theorem BcacheEntry.holds_iff {entry : BcacheEntry} : entry.holds lba = true ↔ entry.key = some lba := by
  simp [holds]

theorem cached_eq_some_iff (distinct : OneEntryPerSector pool) {data : Sector} {dirty : Bool} :
    cached pool lba = some (data, dirty) ↔ ∃ entry ∈ pool,
      entry.valid = true ∧ entry.lba = lba ∧ entry.data = data ∧ entry.dirty = dirty := by
  simp only [cached, Option.map_eq_some_iff, Prod.mk.injEq, lookup_eq_some_iff _ distinct,
    key_eq_some_iff, List.mem_iff_getElem?]
  constructor
  · rintro ⟨entry, ⟨⟨valid, named⟩, place⟩, same⟩
    exact ⟨entry, place, valid, named, same⟩
  · rintro ⟨entry, place, valid, named, same⟩
    exact ⟨entry, ⟨⟨valid, named⟩, place⟩, same⟩

theorem cached_eq_none_iff : cached pool lba = none ↔ ∀ entry ∈ pool, entry.key ≠ some lba := by
  rw [cached, Option.map_eq_none_iff, lookup_eq_none_iff]
  constructor
  · intro missing entry member
    obtain ⟨index, entryAt⟩ := List.mem_iff_getElem?.mp member
    exact missing index entry entryAt
  · intro missing index entry entryAt
    exact missing entry (List.mem_of_getElem? entryAt)

theorem cached_at (distinct : OneEntryPerSector pool) {entry : BcacheEntry}
    (entryAt : pool[index]? = some entry) (valid : entry.valid = true) :
    cached pool entry.lba = some (entry.data, entry.dirty) :=
  (cached_eq_some_iff distinct).mpr ⟨entry, List.mem_of_getElem? entryAt, valid, rfl, rfl, rfl⟩

theorem findEntry_some (found : findEntry pool lba = some index) :
    ∃ entry, pool[index]? = some entry ∧ entry.valid = true ∧ entry.lba = lba := by
  obtain ⟨bound, holds, _⟩ := List.findIdx?_eq_some_iff_getElem.mp found
  refine ⟨pool[index], List.getElem?_eq_getElem bound, ?_⟩
  exact (key_eq_some_iff _ _).mp (holds_iff.mp holds)

theorem findEntry_none (missing : findEntry pool lba = none) : cached pool lba = none := by
  apply cached_eq_none_iff.mpr
  intro entry member named
  have absent := List.findIdx?_eq_none_iff.mp missing entry member
  rw [holds_iff.mpr named] at absent
  cases absent

section

variable {pool : List BcacheEntry} (distinct : OneEntryPerSector pool) {index : Nat} {old : BcacheEntry}
  (oldAt : pool[index]? = some old)
include distinct oldAt

variable (entry : BcacheEntry)

theorem OneEntryPerSector.set_same (sameKey : entry.key = old.key) : OneEntryPerSector (pool.set index entry) :=
  DistinctKeys.set_same _ distinct index old entry oldAt sameKey

theorem cached_set_same (valid : entry.valid = true) (sameKey : entry.key = old.key) : cached (pool.set index entry) =
      update (cached pool) entry.lba (some (entry.data, entry.dirty)) := by
  funext lba
  rw [cached, lookup_set _ distinct oldAt ?fresh]
  case fresh =>
    intro other found name different foundAt entryKey foundKey
    rw [sameKey] at entryKey
    exact different (distinct other index found old name foundAt oldAt foundKey entryKey)
  by_cases here : lba = entry.lba
  · subst here
    rw [if_pos ((key_eq_some_iff _ _).mpr ⟨valid, rfl⟩), update_self]
    rfl
  have elsewhere : entry.key ≠ some lba := by
    intro named
    exact here ((key_eq_some_iff _ _).mp named).2.symm
  rw [if_neg elsewhere, if_neg (sameKey ▸ elsewhere), update_of_ne here]
  rfl

theorem cached_set_fresh (valid : entry.valid = true) (missing : cached pool entry.lba = none) :
    OneEntryPerSector (pool.set index entry) ∧ ∀ lba, cached (pool.set index entry) lba =
      if lba = entry.lba then some (entry.data, entry.dirty)
      else if old.key = some lba then none else cached pool lba := by
  have fresh : ∀ (other : Nat) (found : BcacheEntry) (name : BitVec 32), other ≠ index →
      pool[other]? = some found → entry.key = some name → found.key ≠ some name := by
    intro other found name _ foundAt entryKey
    rw [← ((key_eq_some_iff _ _).mp entryKey).2]
    exact cached_eq_none_iff.mp missing found (List.mem_of_getElem? foundAt)
  refine ⟨DistinctKeys.set _ distinct index entry fresh, ?_⟩
  intro lba
  rw [cached, lookup_set _ distinct oldAt fresh]
  by_cases here : lba = entry.lba
  · subst here
    rw [if_pos ((key_eq_some_iff _ _).mpr ⟨valid, rfl⟩), if_pos rfl]
    rfl
  have elsewhere : entry.key ≠ some lba := by
    intro named
    exact here ((key_eq_some_iff _ _).mp named).2.symm
  rw [if_neg elsewhere, if_neg here]
  split
  · rfl
  · rfl

end

end PhotonOS
