import PhotonOS.Signal.Delivery
import PhotonOS.Vmm.NextTable

/-!
Walks of arbitrary page tables, kernel tables included, and what mapping a user
page does to one walk.
-/

namespace PhotonOS

variable {path : List Nat} {last block : Nat} {flags : BitVec 64}

section

variable {machine after : Machine}

theorem tablesAlong_congr : ∀ frame,
    (∀ other ∈ tablesAlong machine frame path, after.mem other = machine.mem other) →
      tablesAlong after frame path = tablesAlong machine frame path := by
  induction path with
  | nil => intro frame _; rfl
  | cons index path ih =>
    intro frame same
    rw [tablesAlong, tablesAlong, same frame (by simp [tablesAlong])]
    split
    next present => rw [ih _ fun other member => same other (by simp [tablesAlong, present, member])]
    · rfl

theorem entriesAlong_congr : ∀ frame,
    (∀ other ∈ tablesAlong machine frame path, after.mem other = machine.mem other) →
      entriesAlong after frame (path ++ [last]) = entriesAlong machine frame (path ++ [last]) := by
  induction path with
  | nil =>
    intro frame same
    rw [List.nil_append, entriesAlong, entriesAlong, same frame (by simp [tablesAlong])]
    rfl
  | cons index path ih =>
    intro frame same
    rw [List.cons_append, entriesAlong, entriesAlong, same frame (by simp [tablesAlong])]
    by_cases present : hasFlag (machine.mem frame index) pagePresent = true
    · rw [ih _ fun other member => same other (by simp [tablesAlong, present, member])]
    · rw [if_neg present, if_neg present]

end

/-- A walk that still lacks an entry, at the table `frame` with `rest` and the page's own index to go. -/
structure OnPath (machine : Machine) (passed : List Nat) (frame : Nat) (rest : List Nat) (last : Nat) : Prop where
  pool : machine.pmm.total ≤ pmmMaxBlocks
  distinct : (passed ++ tablesAlong machine frame rest).Nodup
  inUse : ∀ other ∈ passed ++ tablesAlong machine frame rest,
    0 < other ∧ other < frameLimit ∧ machine.pmm.bitmap other = true
  missing : entriesAlong machine frame (rest ++ [last]) = none

structure UserLink (machine : Machine) (frame index next : Nat) : Prop where
  present : hasFlag (machine.mem frame index) pagePresent = true
  user : hasFlag (machine.mem frame index) pageUser = true
  table : frameOf (entryTable (machine.mem frame index)) = next

def EnsuredStep (before : Machine) (passed : List Nat) (frame index : Nat) (rest : List Nat) (last : Nat)
    (result : Machine × BitVec 64) : Prop :=
  (∀ other ∈ passed, result.1.mem other = before.mem other) ∧
    (result.2 = 0 ∧ entriesAlong result.1 frame (index :: rest ++ [last]) = none ∨
      ∃ next, result.2 = frameAddress next ∧ 0 < next ∧ next < frameLimit ∧
        OnPath result.1 (passed ++ [frame]) next rest last ∧ UserLink result.1 frame index next)

theorem pmmAlloc_mem (machine : Machine) : (pmmAlloc machine).1.mem = machine.mem := by
  rw [pmmAlloc]
  split <;> rfl

structure NewTable (before after : Machine) (frame index block : Nat) (words : Nat → BitVec 64) : Prop where
  positive : 0 < block
  bound : block < frameLimit
  free : before.pmm.bitmap block = false
  taken : after.pmm.bitmap block = true
  bitmap : ∀ other, before.pmm.bitmap other = true → after.pmm.bitmap other = true
  total : after.pmm.total = before.pmm.total
  link : after.mem frame index = makeEntry block userTable
  filled : after.mem block = words
  others : ∀ other, other ≠ frame → other ≠ block → after.mem other = before.mem other

variable {machine before after : Machine} {frame copy index next : Nat} {words : Nat → BitVec 64}

theorem linkTable_newTable (pool : machine.pmm.total ≤ pmmMaxBlocks) (bound : frame < frameLimit)
    (used : machine.pmm.bitmap frame = true) (user : hasFlag flags pageUser = true) :
    (linkTable machine (frameAddress frame) index flags words).2 = 0 ∧
        (linkTable machine (frameAddress frame) index flags words).1.mem = machine.mem ∨
      ∃ block, (linkTable machine (frameAddress frame) index flags words).2 = frameAddress block ∧
        NewTable machine (linkTable machine (frameAddress frame) index flags words).1 frame index block words := by
  have failed : (pmmAlloc machine).2 = 0 → (linkTable machine (frameAddress frame) index flags words).2 = 0 ∧
      (linkTable machine (frameAddress frame) index flags words).1.mem = machine.mem := by
    intro null
    rw [linkTable_null null]
    exact ⟨rfl, pmmAlloc_mem machine⟩
  rcases pmmAlloc_cases machine with ⟨_, null⟩ | ⟨block, small, clear, allocated⟩
  · exact Or.inl (failed null)
  by_cases zero : block = 0
  · exact Or.inl (failed (by rw [allocated, zero]; rfl))
  have positive := Nat.pos_of_ne_zero zero
  have blockBound := lt_frameLimit small pool
  have apart : frame ≠ block := by
    rintro rfl
    rw [clear] at used
    contradiction
  have mem := withTable_mem machine index words bound blockBound
  rw [linkTable_taken allocated blockBound positive user]
  refine Or.inr ⟨block, rfl, positive, blockBound, clear, by simp [withTable, Machine.taken], ?_, rfl, ?_, ?_, ?_⟩
  · intro other set
    simp [withTable, Machine.taken, set]
  · rw [mem, if_pos ⟨rfl, rfl⟩]
  · funext place
    rw [mem, if_neg (fun both => apart both.1.symm), if_pos rfl]
  · intro other notFrame notBlock
    funext place
    rw [mem, if_neg (fun both => notFrame both.1), if_neg notBlock]

theorem tablesAlong_empty (empty : machine.mem frame = fun _ => 0) : tablesAlong machine frame path = [frame] := by
  cases path with
  | nil => rfl
  | cons index path =>
    rw [tablesAlong, empty, hasFlag_zero]
    rfl

theorem entriesAlong_empty (empty : machine.mem frame = fun _ => 0) :
    entriesAlong machine frame (path ++ [last]) = none := by
  cases path with
  | nil => simp [entriesAlong, empty, hasFlag]
  | cons index path => simp [entriesAlong, empty, hasFlag]

section

variable (same : after.mem copy = before.mem frame)
  (others : ∀ other ∈ (tablesAlong before frame path).tail, after.mem other = before.mem other)
include same others

theorem tablesAlong_copy : tablesAlong after copy path = copy :: (tablesAlong before frame path).tail := by
  cases path with
  | nil => rfl
  | cons index path =>
    rw [tablesAlong, tablesAlong, same, List.tail_cons]
    rw [tablesAlong, List.tail_cons] at others
    split
    next present =>
      rw [if_pos present] at others
      rw [tablesAlong_congr _ others]
    · rfl

theorem entriesAlong_copy : entriesAlong after copy (path ++ [last]) = entriesAlong before frame (path ++ [last]) := by
  cases path with
  | nil => simp [entriesAlong, same]
  | cons index path =>
    rw [List.cons_append, entriesAlong, entriesAlong, same]
    rw [tablesAlong, List.tail_cons] at others
    by_cases present : hasFlag (before.mem frame index) pagePresent = true
    · rw [if_pos present] at others
      simp only [present, if_true, entriesAlong_congr _ others]
    · simp only [present, Bool.false_eq_true, if_false]

end

section

variable {machine : Machine} {passed : List Nat} {frame index last : Nat} {rest : List Nat}

theorem OnPath.here (path : OnPath machine passed frame rest last) :
    0 < frame ∧ frame < frameLimit ∧ machine.pmm.bitmap frame = true := by
  apply path.inUse frame
  cases rest <;> simp [tablesAlong]

theorem OnPath.apart (path : OnPath machine passed frame rest last) {other : Nat} (member : other ∈ passed) :
    other ≠ frame := by
  rintro rfl
  have disjoint := (List.nodup_append.mp path.distinct).2.2 other member
  cases rest <;> simp [tablesAlong] at disjoint

variable (lies : OnPath machine passed frame (index :: rest) last)
include lies

theorem OnPath.newTable (new : NewTable machine after frame index block words)
    (content : (words = fun _ => 0) ∨ hasFlag (machine.mem frame index) pagePresent = true ∧
      words = machine.mem (frameOf (entryTable (machine.mem frame index)))) :
    OnPath after (passed ++ [frame]) block rest last ∧ UserLink after frame index block := by
  have unvisited : ∀ other ∈ passed ++ tablesAlong machine frame (index :: rest), other ≠ block := by
    rintro other member rfl
    have used := (lies.inUse other member).2.2
    rw [new.free] at used
    contradiction
  have link : UserLink after frame index block := by
    refine ⟨by rw [new.link, link_present new.bound], by rw [new.link, link_user new.bound], ?_⟩
    rw [new.link, entryTable_makeEntry new.bound flagWord_userTable, frameOf_frameAddress block new.bound]
  -- what is left of the old walk behind the new table
  obtain ⟨tail, along, visited, missing⟩ : ∃ tail, tablesAlong after block rest = block :: tail ∧
      List.Sublist (frame :: tail) (tablesAlong machine frame (index :: rest)) ∧
      entriesAlong after block (rest ++ [last]) = none := by
    rcases content with rfl | ⟨present, rfl⟩
    · refine ⟨[], tablesAlong_empty new.filled, ?_, entriesAlong_empty new.filled⟩
      simp [tablesAlong]
    have walk : tablesAlong machine frame (index :: rest) =
        frame :: tablesAlong machine (frameOf (entryTable (machine.mem frame index))) rest := by
      rw [tablesAlong, if_pos present]
    have others : ∀ other ∈ (tablesAlong machine (frameOf (entryTable (machine.mem frame index))) rest).tail,
        after.mem other = machine.mem other := by
      intro other member
      have member := List.mem_of_mem_tail member
      apply new.others other
      · rintro rfl
        have distinct := (List.nodup_append.mp lies.distinct).2.1
        rw [walk, List.nodup_cons] at distinct
        exact distinct.1 member
      · exact unvisited other (by rw [walk]; simp [member])
    refine ⟨_, tablesAlong_copy new.filled others, ?_, ?_⟩
    · rw [walk]
      exact (List.tail_sublist _).cons_cons _
    · have gap := lies.missing
      rw [List.cons_append, entriesAlong, if_pos present, Option.map_eq_none_iff] at gap
      rw [entriesAlong_copy new.filled others, gap]
  refine ⟨⟨new.total ▸ lies.pool, ?_, ?_, missing⟩, link⟩
  · rw [along, List.append_assoc, List.singleton_append]
    have shorter : (passed ++ frame :: tail).Nodup := lies.distinct.sublist (visited.append_left passed)
    have blockNew : block ∉ passed ++ frame :: tail := by
      intro member
      exact unvisited block (((List.Sublist.refl passed).append visited).subset member) rfl
    rw [show passed ++ frame :: block :: tail = (passed ++ [frame]) ++ block :: tail by simp,
      List.perm_middle.nodup_iff, List.nodup_cons]
    simpa using ⟨by simpa using blockNew, shorter⟩
  · rw [along]
    intro other member
    have cases : other = block ∨ other ∈ passed ++ tablesAlong machine frame (index :: rest) := by
      by_cases isBlock : other = block
      · exact Or.inl isBlock
      · right
        have inOld : other ∈ passed ++ frame :: tail := by simpa [isBlock] using member
        exact ((List.Sublist.refl passed).append visited).subset inOld
    rcases cases with rfl | old
    · exact ⟨new.positive, new.bound, new.taken⟩
    · obtain ⟨positive, bound, used⟩ := lies.inUse other old
      exact ⟨positive, bound, new.bitmap other used⟩

theorem OnPath.next_positive (present : hasFlag (machine.mem frame index) pagePresent = true) :
    0 < frameOf (entryTable (machine.mem frame index)) := by
  refine (lies.inUse _ ?_).1
  rw [tablesAlong, if_pos present]
  cases rest <;> simp [tablesAlong]

theorem OnPath.linked (user : hasFlag flags pageUser = true) : EnsuredStep machine passed frame index rest last
      (linkTable machine (frameAddress frame) index flags (replaced machine frame index)) := by
  obtain ⟨_, bound, used⟩ := lies.here
  have content : (replaced machine frame index = fun _ => 0) ∨ hasFlag (machine.mem frame index) pagePresent = true ∧
      replaced machine frame index = machine.mem (frameOf (entryTable (machine.mem frame index))) := by
    unfold replaced
    split
    next present => exact Or.inr ⟨present, rfl⟩
    · exact Or.inl rfl
  rcases linkTable_newTable lies.pool bound used user with
    ⟨null, same⟩ | ⟨block, pointer, new⟩
  · refine ⟨fun other _ => congrFun same other, Or.inl ⟨null, ?_⟩⟩
    rw [entriesAlong_congr frame fun other _ => congrFun same other]
    exact lies.missing
  · obtain ⟨after, link⟩ := lies.newTable new content
    refine ⟨?_, Or.inr ⟨block, pointer, new.positive, new.bound, after, link⟩⟩
    intro other member
    refine new.others other (lies.apart member) ?_
    rintro rfl
    have taken := (lies.inUse other (by simp [member])).2.2
    rw [new.free] at taken
    contradiction

theorem ensureNextTable_step (small : index < 512)
    (user : hasFlag flags pageUser = true) : EnsuredStep machine passed frame index rest last
      (ensureNextTable machine (frameAddress frame) index flags) := by
  obtain ⟨positive, bound, used⟩ := lies.here
  by_cases found : hasFlag (machine.mem frame index) pagePresent = true ∧
      hasFlag (machine.mem frame index) pageUser = true
  · obtain ⟨present, userEntry⟩ := found
    have nextPositive := lies.next_positive present
    rw [ensureNextTable_found bound positive small present nextPositive fun _ => userEntry]
    refine ⟨fun _ _ => rfl, Or.inr ⟨_, (frameAddress_entryTable _).symm, nextPositive, entryTable_bound _,
      ⟨lies.pool, ?_, ?_, ?_⟩, ⟨present, userEntry, rfl⟩⟩⟩
    · have distinct := lies.distinct
      rw [tablesAlong, if_pos present] at distinct
      simpa using distinct
    · have inUse := lies.inUse
      rw [tablesAlong, if_pos present] at inUse
      simpa using inUse
    · have missing := lies.missing
      rwa [List.cons_append, entriesAlong, if_pos present, Option.map_eq_none_iff] at missing
  · rw [ensureNextTable_linkTable bound positive small lies.pool user]
    · exact lies.linked user
    · intro present
      exact ⟨Bool.eq_false_iff.mpr fun userEntry => found ⟨present, userEntry⟩, lies.next_positive present⟩

end

theorem UserLink.entriesAlong (link : UserLink machine frame index next) (rest : List Nat) :
    entriesAlong machine frame (index :: rest) =
      (PhotonOS.entriesAlong machine next rest).map (machine.mem frame index :: ·) := by
  rw [PhotonOS.entriesAlong, if_pos link.present, link.table]

theorem UserLink.congr (link : UserLink machine frame index next) (same : after.mem frame = machine.mem frame) :
    UserLink after frame index next :=
  ⟨by rw [same, link.present], by rw [same, link.user], by rw [same, link.table]⟩

theorem mapInPml4_user {root : Nat} {address : BitVec 64}
    (path : OnPath machine [] root (indicesOf address).path (indicesOf address).pt) (bound : block < frameLimit) :
    let after := mapInPml4 machine (frameAddress root) address (frameAddress block) userTable
    entriesAlong after root (indicesOf address).toList = none ∨
      ∃ first second third, entriesAlong after root (indicesOf address).toList =
          some [first, second, third, makeEntry block userTable] ∧
        hasFlag first pageUser = true ∧ hasFlag second pageUser = true ∧ hasFlag third pageUser = true := by
  have user := userTable_flags.2.1
  obtain ⟨pml4, pdpt, pd, pt⟩ := indicesOf_valid address
  have split : (indicesOf address).toList = (indicesOf address).path ++ [(indicesOf address).pt] := rfl
  simp only [mapInPml4, indicesOf_page, frameAddress_page bound, frameAddress_masked block bound,
    show userTable &&& vmmEntryFlagsMask = userTable from flagWord_userTable]
  obtain ⟨_, firstStep⟩ := ensureNextTable_step path pml4 user
  rcases firstStep with ⟨null, none⟩ | ⟨first, firstPointer, firstPositive, firstBound, firstPath, firstLink⟩
  · rw [if_pos null]
    exact Or.inl none
  rw [firstPointer, if_neg (frameAddress_ne_zero first firstBound firstPositive)]
  obtain ⟨secondKept, secondStep⟩ := ensureNextTable_step firstPath pdpt user
  have firstLink := firstLink.congr (secondKept root (by simp))
  rcases secondStep with ⟨null, none⟩ | ⟨second, secondPointer, secondPositive, secondBound, secondPath, secondLink⟩
  · rw [if_pos null]
    left
    rw [split, Indices.path, List.cons_append, firstLink.entriesAlong]
    exact Option.map_eq_none_iff.mpr none
  rw [secondPointer, if_neg (frameAddress_ne_zero second secondBound secondPositive)]
  obtain ⟨thirdKept, thirdStep⟩ := ensureNextTable_step secondPath pd user
  have firstLink := firstLink.congr (thirdKept root (by simp))
  have secondLink := secondLink.congr (thirdKept first (by simp))
  rcases thirdStep with ⟨null, none⟩ | ⟨third, thirdPointer, thirdPositive, thirdBound, thirdPath, thirdLink⟩
  · rw [if_pos null]
    left
    rw [split, Indices.path, List.cons_append, firstLink.entriesAlong, List.cons_append, secondLink.entriesAlong]
    exact Option.map_eq_none_iff.mpr (Option.map_eq_none_iff.mpr none)
  rw [thirdPointer, if_neg (frameAddress_ne_zero third thirdBound thirdPositive)]
  -- the page table is not one of the tables above it
  have apart : ∀ other ∈ [root, first, second], other ≠ third := fun other member => thirdPath.apart member
  generalize (ensureNextTable _ (frameAddress second) _ _).1 = grown at *
  have mem := grown.write_mem thirdBound (indicesOf address).pt (frameAddress block ||| userTable)
  have kept : ∀ other ∈ [root, first, second], (grown.write (frameAddress third) (indicesOf address).pt
      (frameAddress block ||| userTable)).mem other = grown.mem other := by
    intro other member
    funext place
    rw [mem, if_neg (fun both => apart other member both.1)]
  have firstLink := firstLink.congr (kept root (by simp))
  have secondLink := secondLink.congr (kept first (by simp))
  have thirdLink := thirdLink.congr (kept second (by simp))
  right
  refine ⟨_, _, _, ?_, firstLink.user, secondLink.user, thirdLink.user⟩
  rw [split, Indices.path, List.cons_append, firstLink.entriesAlong, List.cons_append, secondLink.entriesAlong,
    List.cons_append, thirdLink.entriesAlong, List.nil_append]
  have leaf : (grown.write (frameAddress third) (indicesOf address).pt (frameAddress block ||| userTable)).mem third
      (indicesOf address).pt = makeEntry block userTable := by
    rw [mem, if_pos ⟨rfl, rfl⟩, makeEntry]
  have present : hasFlag (makeEntry block userTable) pagePresent = true := by
    rw [hasFlag_makeEntry bound _ (by decide)]
    exact userTable_flags.1
  simp only [entriesAlong, leaf, present, if_true, Option.map_some]

end PhotonOS
