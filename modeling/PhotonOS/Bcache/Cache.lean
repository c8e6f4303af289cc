import Mathlib.Logic.Function.Basic

/-!
The block cache of `bcache.c`: 64 entries of one sector each over the ATA drive,
least recently used entry evicted first, written through on every write. The
mutex serialises the calls, so each call is one step.
-/

namespace PhotonOS

def bcacheSectorSize : Nat := 512

def bcacheBlockCount : Nat := 64

abbrev Sector := Vector UInt8 bcacheSectorSize

inductive SectorEvent where
  | requested (lba : BitVec 32) (data : Sector)
  | stored (lba : BitVec 32) (data : Sector)

/-- The drive; `fails` says which of its operations fail, counted by `operations`. -/
structure Ata where
  sectors : BitVec 32 → Sector
  fails : Nat → Bool
  operations : Nat
  history : List SectorEvent

def Ata.advance (ata : Ata) : Ata := { ata with operations := ata.operations + 1 }

def Ata.store (ata : Ata) (lba : BitVec 32) (data : Sector) : Ata :=
  { ata.advance with
    sectors := Function.update ata.sectors lba data
    history := .stored lba data :: ata.history }

def ataWriteSectors (ata : Ata) (lba : BitVec 32) (buffer : Sector) : Bool × Ata :=
  if ata.fails ata.operations then (false, ata.advance) else (true, ata.store lba buffer)

def ataReadSectors (ata : Ata) (lba : BitVec 32) (buffer : Sector) : Bool × Sector × Ata :=
  if ata.fails ata.operations then (false, buffer, ata.advance) else (true, ata.sectors lba, ata.advance)

structure BcacheEntry where
  lba : BitVec 32
  data : Sector
  valid : Bool
  dirty : Bool
  lastAccess : BitVec 64

def BcacheEntry.zero : BcacheEntry := ⟨0, Vector.replicate bcacheSectorSize 0, false, false, 0⟩

structure BcacheStats where
  hits : BitVec 64
  misses : BitVec 64
  reads : BitVec 64
  writes : BitVec 64
  flushes : BitVec 64

namespace BcacheStats

def countHit (stats : BcacheStats) : BcacheStats := { stats with hits := stats.hits + 1 }

def countMiss (stats : BcacheStats) : BcacheStats := { stats with misses := stats.misses + 1 }

def countRead (stats : BcacheStats) : BcacheStats := { stats with reads := stats.reads + 1 }

def countWrite (stats : BcacheStats) : BcacheStats := { stats with writes := stats.writes + 1 }

def countFlush (stats : BcacheStats) : BcacheStats := { stats with flushes := stats.flushes + 1 }

end BcacheStats

structure Bcache where
  cachePool : List BcacheEntry
  poolSize : cachePool.length = bcacheBlockCount
  accessCounter : BitVec 64
  stats : BcacheStats

def bcacheInit : Bcache :=
  ⟨List.replicate bcacheBlockCount BcacheEntry.zero, List.length_replicate, 0, ⟨0, 0, 0, 0, 0⟩⟩

namespace Bcache

def entry (cache : Bcache) (index : Nat) : BcacheEntry :=
  cache.cachePool.getD index BcacheEntry.zero

def setEntry (cache : Bcache) (index : Nat) (entry : BcacheEntry) : Bcache :=
  { cache with
    cachePool := cache.cachePool.set index entry
    poolSize := by rw [List.length_set]; exact cache.poolSize }

def tick (cache : Bcache) : Bcache := { cache with accessCounter := cache.accessCounter + 1 }

end Bcache

def BcacheEntry.holds (entry : BcacheEntry) (lba : BitVec 32) : Bool := entry.valid && entry.lba == lba

def findEntry (pool : List BcacheEntry) (lba : BitVec 32) : Option Nat :=
  pool.findIdx? fun entry => entry.holds lba

def victimScan : List BcacheEntry → Nat → Option Nat → BitVec 64 → Option Nat
  | [], _, victim, _ => victim
  | entry :: rest, index, victim, oldest =>
    if !entry.valid then some index
    else if entry.lastAccess < oldest then victimScan rest (index + 1) (some index) entry.lastAccess
    else victimScan rest (index + 1) victim oldest

def victimIndex (pool : List BcacheEntry) : Nat :=
  (victimScan pool 0 none (BitVec.allOnes 64)).getD 0

structure BlockStore where
  cache : Bcache
  ata : Ata

def BlockStore.count (store : BlockStore) (update : BcacheStats → BcacheStats) : BlockStore :=
  { store with cache := { store.cache with stats := update store.cache.stats } }

def writeBackVictim (store : BlockStore) (index : Nat) : Bool × BlockStore :=
  let victim := store.cache.entry index
  if victim.valid && victim.dirty then
    match ataWriteSectors store.ata victim.lba victim.data with
    | (false, ata) => (false, { store with ata })
    | (true, ata) => (true, ⟨store.cache.setEntry index { victim with dirty := false }, ata⟩)
  else (true, store)

def fetchInto (store : BlockStore) (index : Nat) (lba : BitVec 32) (buffer : Sector) : (Bool × Sector) × BlockStore :=
  let victim := store.cache.entry index
  match ataReadSectors store.ata lba victim.data with
  | (false, data, ata) => ((false, buffer), ⟨store.cache.setEntry index { victim with data }, ata⟩)
  | (true, data, ata) =>
    let cache := store.cache.tick
    ((true, data), ⟨cache.setEntry index ⟨lba, data, true, false, cache.accessCounter⟩, ata⟩)

def readHit (store : BlockStore) (index : Nat) : (Bool × Option Sector) × BlockStore :=
  let cache := store.cache.tick
  let entry := cache.entry index
  ((true, some entry.data),
    { store with cache := cache.setEntry index { entry with lastAccess := cache.accessCounter } })

def readMiss (store : BlockStore) (lba : BitVec 32) (buffer : Sector) : (Bool × Option Sector) × BlockStore :=
  let index := victimIndex store.cache.cachePool
  match writeBackVictim store index with
  | (false, store) => ((false, some buffer), store)
  | (true, store) =>
    let fetched := fetchInto store index lba buffer
    ((fetched.1.1, some fetched.1.2), fetched.2)

/-- `bcache_read_sector`: the result and the caller's buffer afterwards. -/
def bcacheReadSector (store : BlockStore) (lba : BitVec 32) : Option Sector → (Bool × Option Sector) × BlockStore
  | none => ((false, none), store)
  | some buffer =>
    let store := store.count BcacheStats.countRead
    match findEntry store.cache.cachePool lba with
    | some index => readHit (store.count BcacheStats.countHit) index
    | none => readMiss (store.count BcacheStats.countMiss) lba buffer

def claimVictim (store : BlockStore) (lba : BitVec 32) : Nat × BlockStore :=
  let index := victimIndex store.cache.cachePool
  let target := store.cache.entry index
  let ata := if target.valid && target.dirty then (ataWriteSectors store.ata target.lba target.data).2 else store.ata
  let dirty := if target.valid && target.dirty then false else target.dirty
  (index, ⟨store.cache.setEntry index { target with lba, valid := true, dirty }, ata⟩)

def writeThrough (store : BlockStore) (index : Nat) (lba : BitVec 32) (buffer : Sector) : Bool × BlockStore :=
  let cache := store.cache.tick
  let (res, ata) := ataWriteSectors store.ata lba buffer
  let target := { cache.entry index with data := buffer, lastAccess := cache.accessCounter, dirty := !res }
  (res, ⟨cache.setEntry index target, ata⟩)

def bcacheWriteSector (store : BlockStore) (lba : BitVec 32) : Option Sector → Bool × BlockStore
  | none => (false, store)
  | some buffer =>
    let store := store.count BcacheStats.countWrite
    match findEntry store.cache.cachePool lba with
    | some index => writeThrough (store.count BcacheStats.countHit) index lba buffer
    | none =>
      let claimed := claimVictim (store.count BcacheStats.countMiss) lba
      writeThrough claimed.2 claimed.1 lba buffer

def flushEntries : List BcacheEntry → Ata → List BcacheEntry × Ata
  | [], ata => ([], ata)
  | entry :: rest, ata =>
    if entry.valid && entry.dirty then
      let (written, ata) := ataWriteSectors ata entry.lba entry.data
      let flushed := flushEntries rest ata
      ({ entry with dirty := !written } :: flushed.1, flushed.2)
    else
      let flushed := flushEntries rest ata
      (entry :: flushed.1, flushed.2)

theorem flushEntries_length {pool : List BcacheEntry} (ata : Ata) :
    (flushEntries pool ata).1.length = pool.length := by
  induction pool generalizing ata with
  | nil => rfl
  | cons entry rest ih =>
    simp only [flushEntries]
    split <;> simp only [List.length_cons, ih]

def bcacheFlush (store : BlockStore) : Bool × BlockStore :=
  let flushed := flushEntries store.cache.cachePool store.ata
  (true, ⟨{ store.cache with
      cachePool := flushed.1
      poolSize := by rw [flushEntries_length]; exact store.cache.poolSize
      stats := store.cache.stats.countFlush }, flushed.2⟩)

def BcacheEntry.drop (lba : BitVec 32) (entry : BcacheEntry) : BcacheEntry :=
  if entry.holds lba then { entry with valid := false, dirty := false } else entry

def bcacheInvalidate (store : BlockStore) (lba : BitVec 32) : BlockStore :=
  { store with cache := { store.cache with
      cachePool := store.cache.cachePool.map (BcacheEntry.drop lba)
      poolSize := by rw [List.length_map]; exact store.cache.poolSize } }

inductive BcacheRequest where
  | read (lba : BitVec 32) (buffer : Option Sector)
  | write (lba : BitVec 32) (buffer : Option Sector)
  | flush
  | invalidate (lba : BitVec 32)

def noteRequest (store : BlockStore) (lba : BitVec 32) : Option Sector → BlockStore
  | none => store
  | some data => { store with ata := { store.ata with history := .requested lba data :: store.ata.history } }

def bcacheStep (store : BlockStore) : BcacheRequest → BlockStore
  | .read lba buffer => (bcacheReadSector store lba buffer).2
  | .write lba buffer => (bcacheWriteSector (noteRequest store lba buffer) lba buffer).2
  | .flush => (bcacheFlush store).2
  | .invalidate lba => bcacheInvalidate store lba

def BlockStore.start (sectors : BitVec 32 → Sector) (fails : Nat → Bool) : BlockStore :=
  ⟨bcacheInit, ⟨sectors, fails, 0, []⟩⟩

end PhotonOS
