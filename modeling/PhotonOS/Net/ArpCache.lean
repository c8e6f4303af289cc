import Mathlib.Data.List.Nodup
import PhotonOS.Lib.Transition

/-!
The ARP cache of `net.c`: `arp_cache_update` and `arp_resolve`. The list is the
part of `arp_cache` below `arp_cache_count`.
-/

namespace PhotonOS

abbrev MacAddress := List UInt8

structure ArpEntry where
  ip : BitVec 32
  mac : MacAddress
  resolved : Bool
  deriving DecidableEq, Repr

def arpCacheSize : Nat := 16

def arpOverwrite (ip : BitVec 32) (mac : MacAddress) : List ArpEntry → Option (List ArpEntry)
  | [] => none
  | entry :: rest =>
    if entry.ip = ip then some ({ entry with mac := mac, resolved := true } :: rest)
    else (arpOverwrite ip mac rest).map (entry :: ·)

def arpCacheUpdate (cache : List ArpEntry) (ip : BitVec 32) (mac : MacAddress) : List ArpEntry :=
  match arpOverwrite ip mac cache with
  | some updated => updated
  | none =>
    if cache.length < arpCacheSize then cache ++ [{ ip := ip, mac := mac, resolved := true }]
    else cache.drop 1 ++ [{ ip := ip, mac := mac, resolved := true }]

def arpResolve (cache : List ArpEntry) (ip : BitVec 32) : Option MacAddress :=
  (cache.find? fun entry => entry.ip == ip && entry.resolved).map ArpEntry.mac

structure ArpUpdate where
  ip : BitVec 32
  mac : MacAddress

def arpStep (cache : List ArpEntry) (update : ArpUpdate) : List ArpEntry :=
  arpCacheUpdate cache update.ip update.mac

/-- What updates did so far: every insertion of an address, the latest first, and the MAC last given
for each address. -/
structure ArpHistory where
  inserted : List (BitVec 32)
  latest : BitVec 32 → Option MacAddress

namespace ArpHistory

def empty : ArpHistory := { inserted := [], latest := fun _ => none }

def recent (history : ArpHistory) : List (BitVec 32) := history.inserted.take arpCacheSize

/-- An address is inserted when it is new or has been evicted since. -/
def step (history : ArpHistory) (update : ArpUpdate) : ArpHistory where
  inserted := if update.ip ∈ history.recent then history.inserted else update.ip :: history.inserted
  latest := Function.update history.latest update.ip (some update.mac)

end ArpHistory

section

variable {ip : BitVec 32} {mac : MacAddress} {cache updated : List ArpEntry}

theorem arpOverwrite_eq_none : arpOverwrite ip mac cache = none ↔ ip ∉ cache.map ArpEntry.ip := by
  induction cache with
  | nil => simp [arpOverwrite]
  | cons entry rest ih =>
    by_cases here : entry.ip = ip
    · simp [arpOverwrite, here]
    · simp [arpOverwrite, here, Ne.symm here, ih]

theorem arpOverwrite_ips (found : arpOverwrite ip mac cache = some updated) :
    updated.map ArpEntry.ip = cache.map ArpEntry.ip := by
  induction cache generalizing updated with
  | nil => cases found
  | cons entry rest ih =>
    by_cases here : entry.ip = ip
    · simp only [arpOverwrite, here, if_true, Option.some.injEq] at found
      subst found
      simp [here]
    · simp only [arpOverwrite, here, if_false, Option.map_eq_some_iff] at found
      obtain ⟨later, laterFound, rfl⟩ := found
      simp [ih laterFound]

theorem arpOverwrite_mem (distinct : (cache.map ArpEntry.ip).Nodup)
    (found : arpOverwrite ip mac cache = some updated) {entry : ArpEntry} (member : entry ∈ updated) :
    entry = { ip := ip, mac := mac, resolved := true } ∨ entry ∈ cache ∧ entry.ip ≠ ip := by
  induction cache generalizing updated with
  | nil => cases found
  | cons first rest ih =>
    rw [List.map_cons, List.nodup_cons] at distinct
    by_cases here : first.ip = ip
    · simp only [arpOverwrite, here, if_true, Option.some.injEq] at found
      subst found
      rcases List.mem_cons.mp member with rfl | later
      · exact .inl rfl
      · refine .inr ⟨List.mem_cons_of_mem _ later, ?_⟩
        intro same
        exact distinct.1 (here ▸ same ▸ List.mem_map_of_mem later)
    · simp only [arpOverwrite, here, if_false, Option.map_eq_some_iff] at found
      obtain ⟨later, laterFound, rfl⟩ := found
      rcases List.mem_cons.mp member with rfl | inside
      · exact .inr ⟨List.mem_cons_self, here⟩
      · rcases ih distinct.2 laterFound inside with new | ⟨old, other⟩
        · exact .inl new
        · exact .inr ⟨List.mem_cons_of_mem _ old, other⟩

end

/-- The cache lists the addresses inserted last, oldest first, each with its latest MAC. -/
structure HoldsRecent (cache : List ArpEntry) (history : ArpHistory) : Prop where
  order : cache.map ArpEntry.ip = history.recent.reverse
  distinct : (cache.map ArpEntry.ip).Nodup
  current : ∀ entry ∈ cache, entry.resolved = true ∧ history.latest entry.ip = some entry.mac

namespace HoldsRecent

variable {cache : List ArpEntry} {history : ArpHistory} {update : ArpUpdate}

section

variable (holds : HoldsRecent cache history)
include holds

theorem length_eq : cache.length = history.recent.length := by
  rw [← List.length_map ArpEntry.ip, holds.order, List.length_reverse]

theorem length_le : cache.length ≤ arpCacheSize := by
  rw [holds.length_eq]
  exact List.length_take_le _ _

theorem mem_ips (ip : BitVec 32) : ip ∈ cache.map ArpEntry.ip ↔ ip ∈ history.recent := by
  rw [holds.order, List.mem_reverse]

theorem current_other {entry : ArpEntry} (member : entry ∈ cache) (other : entry.ip ≠ update.ip) :
    entry.resolved = true ∧ (history.step update).latest entry.ip = some entry.mac := by
  obtain ⟨resolved, latest⟩ := holds.current entry member
  exact ⟨resolved, (Function.update_of_ne other ..).trans latest⟩

theorem overwrite {updated : List ArpEntry}
    (found : arpOverwrite update.ip update.mac cache = some updated) : HoldsRecent updated (history.step update) := by
  have cached : update.ip ∈ history.recent := by
    by_contra absent
    rw [← holds.mem_ips] at absent
    rw [arpOverwrite_eq_none.mpr absent] at found
    cases found
  have same : (history.step update).recent = history.recent := by
    rw [ArpHistory.recent, ArpHistory.step, if_pos cached, ArpHistory.recent]
  refine ⟨?_, ?_, ?_⟩
  · rw [arpOverwrite_ips found, same, holds.order]
  · rw [arpOverwrite_ips found]
    exact holds.distinct
  · intro entry member
    rcases arpOverwrite_mem holds.distinct found member with rfl | ⟨old, other⟩
    · exact ⟨rfl, Function.update_self ..⟩
    · exact holds.current_other old other

theorem kept_ips : (if cache.length < arpCacheSize then cache else cache.drop 1).map ArpEntry.ip =
      (history.inserted.take (arpCacheSize - 1)).reverse := by
  have length := holds.length_eq
  rw [ArpHistory.recent, List.length_take] at length
  split
  · rw [holds.order, ArpHistory.recent, List.take_of_length_le (by omega), List.take_of_length_le (by omega)]
  · rw [List.map_drop, holds.order, ArpHistory.recent, List.drop_reverse, List.length_take, List.take_take]
    congr 2
    omega

theorem insert (update : ArpUpdate) (absent : update.ip ∉ cache.map ArpEntry.ip) :
    HoldsRecent ((if cache.length < arpCacheSize then cache else cache.drop 1) ++
      [{ ip := update.ip, mac := update.mac, resolved := true }]) (history.step update) := by
  have kept : ∀ entry ∈ (if cache.length < arpCacheSize then cache else cache.drop 1), entry ∈ cache := by
    split
    · exact fun _ member => member
    · exact fun _ member => List.mem_of_mem_drop member
  have fresh : update.ip ∉ history.recent := by rwa [← holds.mem_ips]
  have recent : (history.step update).recent = update.ip :: history.inserted.take (arpCacheSize - 1) := by
    rw [ArpHistory.recent, ArpHistory.step, if_neg fresh]
    rfl
  refine ⟨?_, ?_, ?_⟩
  · rw [List.map_append, holds.kept_ips, recent, List.reverse_cons]
    rfl
  · rw [List.map_append, List.nodup_append]
    refine ⟨?_, List.nodup_singleton _, ?_⟩
    · split
      · exact holds.distinct
      · rw [List.map_drop]
        exact holds.distinct.sublist (List.drop_sublist _ _)
    · rintro ip before _ here rfl
      obtain ⟨entry, member, rfl⟩ := List.mem_map.mp before
      have same : entry.ip = update.ip := List.mem_singleton.mp here
      exact absent (same ▸ List.mem_map_of_mem (kept entry member))
  · intro entry member
    rcases List.mem_append.mp member with old | new
    · refine holds.current_other (kept entry old) ?_
      intro same
      exact absent (same ▸ List.mem_map_of_mem (kept entry old))
    · rw [List.mem_singleton.mp new]
      exact ⟨rfl, Function.update_self ..⟩

theorem step (update : ArpUpdate) : HoldsRecent (arpStep cache update) (history.step update) := by
  rw [arpStep, arpCacheUpdate]
  cases found : arpOverwrite update.ip update.mac cache with
  | some updated => exact holds.overwrite found
  | none =>
    have inserted := holds.insert update (arpOverwrite_eq_none.mp found)
    rw [apply_ite (· ++ _)] at inserted
    exact inserted

theorem resolve (ip : BitVec 32) : ((arpResolve cache ip).isSome ↔ ip ∈ history.recent) ∧
      ∀ mac, arpResolve cache ip = some mac → history.latest ip = some mac := by
  refine ⟨?_, ?_⟩
  · rw [← holds.mem_ips, arpResolve, Option.isSome_map, List.find?_isSome, List.mem_map]
    constructor
    · rintro ⟨entry, member, hit⟩
      exact ⟨entry, member, by simpa using (Bool.and_eq_true_iff.mp hit).1⟩
    · rintro ⟨entry, member, rfl⟩
      exact ⟨entry, member, by simp [(holds.current entry member).1]⟩
  · intro mac resolved
    rw [arpResolve, Option.map_eq_some_iff] at resolved
    obtain ⟨entry, hit, rfl⟩ := resolved
    have matched := List.find?_some hit
    have same : entry.ip = ip := by simpa using (Bool.and_eq_true_iff.mp matched).1
    rw [← same]
    exact (holds.current entry (List.mem_of_find?_eq_some hit)).2

end

end HoldsRecent

theorem holdsRecent_run (updates : List ArpUpdate) : HoldsRecent (Transition.run arpStep [] updates)
      (Transition.run ArpHistory.step ArpHistory.empty updates) := by
  refine Transition.run_simulation arpStep ArpHistory.step HoldsRecent ?_ updates [] ArpHistory.empty ?_
  · exact fun cache history update holds => holds.step update
  · exact ⟨rfl, List.nodup_nil, fun _ member => absurd member List.not_mem_nil⟩

/-- After any updates the cached addresses are distinct and at most 16, and an address is resolved
exactly when it is among the 16 inserted last, to the MAC of its latest update. -/
theorem arpCache_holds_recent (updates : List ArpUpdate) : let cache := Transition.run arpStep [] updates
    let history := Transition.run ArpHistory.step ArpHistory.empty updates
    (cache.map ArpEntry.ip).Nodup ∧ cache.length ≤ 16 ∧
      ∀ ip, ((arpResolve cache ip).isSome ↔ ip ∈ history.inserted.take 16) ∧
        ∀ mac, arpResolve cache ip = some mac → history.latest ip = some mac := by
  have holds := holdsRecent_run updates
  exact ⟨holds.distinct, holds.length_le, holds.resolve⟩

end PhotonOS
