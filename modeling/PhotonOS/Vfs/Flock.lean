import Mathlib.Data.Finset.Card
import PhotonOS.Lib.Transition

/-!
`vfs_flock` and the unlocking on `close`, for one node.
-/

namespace PhotonOS.Flock

/-! Who holds the lock. -/

section

variable {Process : Type} [DecidableEq Process]

structure Holders (Process : Type) where
  shared : Finset Process
  exclusive : Finset Process

def Holders.drop (holders : Holders Process) (process : Process) : Holders Process where
  shared := holders.shared.erase process
  exclusive := holders.exclusive.erase process

def Holders.grantShared (holders : Holders Process) (process : Process) : Holders Process where
  shared := insert process holders.shared
  exclusive := holders.exclusive.erase process

def Holders.grantExclusive (holders : Holders Process) (process : Process) : Holders Process where
  shared := holders.shared.erase process
  exclusive := insert process holders.exclusive

end

/-! The fields of the node. -/

def lockSh : BitVec 32 := 1
def lockEx : BitVec 32 := 2
def lockUn : BitVec 32 := 8

inductive LockType where
  | none | shared | exclusive
  deriving DecidableEq, Repr

structure NodeLock where
  lockType : LockType
  lockCount : BitVec 32
  lockOwnerPid : BitVec 32
  deriving DecidableEq, Repr

def NodeLock.free : NodeLock := { lockType := .none, lockCount := 0, lockOwnerPid := 0 }

def NodeLock.dropShared (node : NodeLock) : NodeLock :=
  let count := if 0 < node.lockCount then node.lockCount - 1 else node.lockCount
  { node with lockCount := count, lockType := if count = 0 then .none else node.lockType }

def vfsFlock (node : NodeLock) (op pid : BitVec 32) : NodeLock × Int :=
  if op &&& lockUn ≠ 0 then
    match node.lockType with
    | .exclusive => (if node.lockOwnerPid = pid ∨ node.lockOwnerPid = 0 then .free else node, 0)
    | .shared => (node.dropShared, 0)
    | .none => (node, 0)
  else if op &&& lockSh ≠ 0 then
    if node.lockType = .exclusive ∧ node.lockOwnerPid ≠ pid then (node, -1)
    else ({ node with lockType := .shared, lockCount := node.lockCount + 1 }, 0)
  else if op &&& lockEx ≠ 0 then
    if (node.lockType = .exclusive ∧ node.lockOwnerPid ≠ pid) ∨ (node.lockType = .shared ∧
          (1 < node.lockCount ∨ (node.lockCount = 1 ∧ node.lockOwnerPid ≠ pid))) then (node, -1)
    else ({ lockType := .exclusive, lockCount := 1, lockOwnerPid := pid }, 0)
  else (node, -1)

def vfsNodeUnlockByPid (node : NodeLock) (pid : BitVec 32) : NodeLock :=
  if node.lockType = .exclusive ∧ node.lockOwnerPid = pid then .free
  else if node.lockType = .shared then node.dropShared
  else node

/-! Histories. -/

abbrev Pid := { pid : BitVec 32 // pid ≠ 0 }

inductive LockCall where
  | flock (pid : Pid) (op : BitVec 32)
  | close (pid : Pid)

structure LockState where
  node : NodeLock
  holders : Holders Pid

def LockState.initial : LockState := { node := .free, holders := { shared := ∅, exclusive := ∅ } }

/-- What a call of `vfs_flock` asks for, if it succeeds. -/
def Holders.after (holders : Holders Pid) (pid : Pid) (op : BitVec 32) : Holders Pid :=
  if op &&& lockUn ≠ 0 then holders.drop pid
  else if op &&& lockSh ≠ 0 then holders.grantShared pid
  else holders.grantExclusive pid

def lockStep (state : LockState) : LockCall → LockState
  | .flock pid op =>
    let (node, result) := vfsFlock state.node op pid
    { node := node, holders := if result = 0 then state.holders.after pid op else state.holders }
  | .close pid => { node := vfsNodeUnlockByPid state.node pid, holders := state.holders.drop pid }

/-- A lock that the call would grant excludes the locks of the other processes. -/
def GrantExcludes (state : LockState) (pid : Pid) (op : BitVec 32) : Prop :=
  op &&& lockUn = 0 → (vfsFlock state.node op pid).2 = 0 →
    ∀ other, other ≠ pid → other ∉ state.holders.exclusive ∧ (op &&& lockSh = 0 → other ∉ state.holders.shared)

/-- On a share-locked node the process unlocks or closes only while it holds the lock, and the count
does not wrap. -/
def CountsHolders (state : LockState) : LockCall → Prop
  | .flock pid op =>
    (op &&& lockUn ≠ 0 → state.node.lockType = .shared → pid ∈ state.holders.shared) ∧
    (op &&& lockUn = 0 → op &&& lockSh ≠ 0 → state.node.lockCount ≠ 0xFFFFFFFF)
  | .close pid => state.node.lockType = .shared → pid ∈ state.holders.shared

instance (state : LockState) : ∀ call, Decidable (CountsHolders state call)
  | .flock _ _ => inferInstanceAs (Decidable (_ ∧ _))
  | .close _ => inferInstanceAs (Decidable (_ → _))

/-! The node covers the holders. -/

def leftOwner (node : NodeLock) : Nat := if node.lockOwnerPid = 0 then 0 else 1

inductive Covers : NodeLock → Holders Pid → Prop where
  | none : Covers .free { shared := ∅, exclusive := ∅ }
  | shared (node : NodeLock) (holders : Finset Pid) (type : node.lockType = .shared)
      (count : holders.card + leftOwner node ≤ node.lockCount.toNat) (positive : 0 < node.lockCount.toNat) :
      Covers node { shared := holders, exclusive := ∅ }
  | exclusive (owner : Pid) :
      Covers { lockType := .exclusive, lockCount := 1, lockOwnerPid := owner } { shared := ∅, exclusive := {owner} }

variable {node : NodeLock} {holders : Holders Pid} {state : LockState}

theorem Covers.unowned {holders : Finset Pid} (pid : Pid) (owner : node.lockOwnerPid = pid)
    (count : holders.card + leftOwner node ≤ 1) : holders = ∅ := by
  rw [leftOwner, if_neg (by rw [owner]; exact pid.property)] at count
  exact Finset.card_eq_zero.mp (by omega)

variable {pid : Pid} {op : BitVec 32}

theorem Covers.exclusive_granted (covers : Covers node holders)
    (granted : ¬((node.lockType = .exclusive ∧ node.lockOwnerPid ≠ pid) ∨
      (node.lockType = .shared ∧ (1 < node.lockCount ∨ (node.lockCount = 1 ∧ node.lockOwnerPid ≠ pid))))) :
    holders.shared = ∅ ∧ holders.exclusive ⊆ {pid} := by
  cases covers with
  | none => exact ⟨rfl, Finset.empty_subset _⟩
  | shared node shared type count positive =>
    have single : node.lockCount = 1 ∧ node.lockOwnerPid = pid := by
      simp only [type, true_and, not_or, not_and, not_not, BitVec.lt_def] at granted
      obtain ⟨_, few, owned⟩ := granted
      have one : node.lockCount = 1 := by
        apply BitVec.eq_of_toNat_eq
        change node.lockCount.toNat = 1
        change ¬1 < node.lockCount.toNat at few
        omega
      exact ⟨one, owned one⟩
    rw [single.1] at count
    exact ⟨Covers.unowned pid single.2 count, Finset.empty_subset _⟩
  | exclusive owner =>
    have same : owner = pid := by
      by_contra different
      exact granted (Or.inl ⟨rfl, fun eq => different (Subtype.ext eq)⟩)
    subst same
    exact ⟨rfl, Finset.Subset.refl _⟩

theorem Covers.shared_granted (covers : Covers node holders)
    (granted : ¬(node.lockType = .exclusive ∧ node.lockOwnerPid ≠ pid)) : holders.exclusive ⊆ {pid} := by
  cases covers with
  | none => exact Finset.empty_subset _
  | shared _ _ _ _ _ => exact Finset.empty_subset _
  | exclusive owner =>
    have same : owner = pid := by
      by_contra different
      exact granted ⟨rfl, fun eq => different (Subtype.ext eq)⟩
    subst same
    exact Finset.Subset.refl _

theorem Covers.grantExcludes (covers : Covers state.node state.holders) : GrantExcludes state pid op := by
  intro notUnlock granted other different
  have outside : ∀ holders : Finset Pid, holders ⊆ {pid} → other ∉ holders :=
    fun holders subset member => different (Finset.mem_singleton.mp (subset member))
  unfold vfsFlock at granted
  rw [if_neg (not_not_intro notUnlock)] at granted
  by_cases shares : op &&& lockSh ≠ 0
  · rw [if_pos shares] at granted
    refine ⟨?_, fun zero => absurd zero shares⟩
    split at granted
    · cases granted
    next allowed => exact outside _ (covers.shared_granted allowed)
  · rw [if_neg shares] at granted
    split at granted
    · split at granted
      · cases granted
      next allowed =>
        obtain ⟨empty, owned⟩ := covers.exclusive_granted allowed
        refine ⟨outside _ owned, fun _ => ?_⟩
        rw [empty]
        exact Finset.notMem_empty other
    · cases granted

/-! Every call keeps the holders covered. -/

theorem Covers.dropShared {holders : Finset Pid} (type : node.lockType = .shared)
    (count : holders.card + leftOwner node ≤ node.lockCount.toNat) (pid : Pid) (member : pid ∈ holders) :
    Covers node.dropShared { shared := holders.erase pid, exclusive := ∅ } := by
  have some : 0 < holders.card := Finset.card_pos.mpr ⟨pid, member⟩
  have fewer : (holders.erase pid).card = holders.card - 1 := Finset.card_erase_of_mem member
  have positive : 0 < node.lockCount := by
    change 0 < node.lockCount.toNat
    omega
  have value : (node.lockCount - 1).toNat = node.lockCount.toNat - 1 := by
    rw [BitVec.toNat_sub_of_le]
    · rfl
    · change 1 ≤ node.lockCount.toNat
      omega
  unfold NodeLock.dropShared
  rw [if_pos positive]
  by_cases last : node.lockCount - 1 = 0
  · have zero : (node.lockCount - 1).toNat = 0 := by rw [last]; rfl
    have unowned : node.lockOwnerPid = 0 := by
      by_contra owned
      rw [leftOwner, if_neg owned] at count
      omega
    have empty : holders.erase pid = ∅ := Finset.card_eq_zero.mp (by omega)
    simp only [last, if_true, unowned, empty]
    exact .none
  · have nonzero : (node.lockCount - 1).toNat ≠ 0 := fun zero => last (BitVec.eq_of_toNat_eq zero)
    simp only [if_neg last]
    refine .shared _ _ type ?_ (by change 0 < (node.lockCount - 1).toNat; omega)
    change _ + leftOwner node ≤ (node.lockCount - 1).toNat
    omega

theorem Covers.unlock (covers : Covers node holders) (pid : Pid)
    (own : node.lockType = .shared → pid ∈ holders.shared) :
    Covers (vfsNodeUnlockByPid node pid) (holders.drop pid) := by
  unfold vfsNodeUnlockByPid Holders.drop
  cases covers with
  | none => exact .none
  | shared node holders type count positive =>
    rw [if_neg fun owned => LockType.noConfusion (type.symm.trans owned.1), if_pos type]
    exact Covers.dropShared type count pid (own type)
  | exclusive owner =>
    by_cases same : owner = pid
    · subst same
      simpa using Covers.none
    · rw [if_neg fun owned => same (Subtype.ext owned.2), if_neg LockType.noConfusion]
      have kept : ({owner} : Finset Pid).erase pid = {owner} :=
        Finset.erase_eq_of_notMem fun member => same (Finset.mem_singleton.mp member).symm
      simpa only [kept, Finset.erase_empty] using Covers.exclusive owner

theorem vfsFlock_unlock (covers : Covers node holders) (unlocks : op &&& lockUn ≠ 0) :
    vfsFlock node op pid = (vfsNodeUnlockByPid node pid, 0) := by
  unfold vfsFlock vfsNodeUnlockByPid
  rw [if_pos unlocks]
  cases covers with
  | none => rfl
  | shared node holders type count positive =>
    rw [type]
    rfl
  | exclusive owner =>
    by_cases same : (owner : BitVec 32) = pid
    · simp [same]
    have unowned : ¬((owner : BitVec 32) = pid ∨ (owner : BitVec 32) = 0) := by
      rintro (equal | zero)
      · exact same equal
      · exact owner.property zero
    rw [if_neg unowned]
    simp [same]

theorem Covers.grantShared (covers : Covers node holders) (pid : Pid)
    (granted : ¬(node.lockType = .exclusive ∧ node.lockOwnerPid ≠ pid)) (room : node.lockCount ≠ 0xFFFFFFFF) :
    Covers { node with lockType := .shared, lockCount := node.lockCount + 1 } (holders.grantShared pid) := by
  have value : (node.lockCount + 1).toNat = node.lockCount.toNat + 1 := by
    have below : node.lockCount.toNat ≠ 2 ^ 32 - 1 := fun full => room (BitVec.eq_of_toNat_eq full)
    change (node.lockCount.toNat + 1) % 2 ^ 32 = _
    omega
  have alone := covers.shared_granted granted
  have gone : holders.exclusive.erase pid = ∅ := Finset.erase_eq_empty_iff _ _ |>.mpr (Finset.subset_singleton_iff.mp alone)
  have counted : holders.shared.card + leftOwner node ≤ node.lockCount.toNat := by
    cases covers with
    | none => decide
    | shared _ _ _ count _ => exact count
    | exclusive owner =>
      rw [leftOwner, if_neg owner.property]
      exact Nat.le_refl 1
  have more := Finset.card_insert_le pid holders.shared
  rw [Holders.grantShared, gone]
  refine .shared _ _ rfl ?_ (by change 0 < (node.lockCount + 1).toNat; omega)
  change _ + leftOwner node ≤ (node.lockCount + 1).toNat
  omega

theorem Covers.flock (covers : Covers state.node state.holders) (pid : Pid) (op : BitVec 32)
    (counts : CountsHolders state (.flock pid op)) :
    Covers (lockStep state (.flock pid op)).node (lockStep state (.flock pid op)).holders := by
  simp only [lockStep]
  by_cases unlocks : op &&& lockUn ≠ 0
  · rw [vfsFlock_unlock covers unlocks]
    simp only [if_true, Holders.after, if_pos unlocks]
    exact covers.unlock pid (counts.1 unlocks)
  unfold vfsFlock Holders.after
  simp only [if_neg unlocks]
  by_cases shares : op &&& lockSh ≠ 0
  · simp only [if_pos shares]
    split
    · exact covers
    next allowed => exact covers.grantShared pid allowed (counts.2 (not_not.mp unlocks) shares)
  · simp only [if_neg shares]
    split
    · split
      · exact covers
      next allowed =>
        obtain ⟨empty, owned⟩ := covers.exclusive_granted allowed
        have single : insert pid state.holders.exclusive = {pid} := by
          rw [Finset.insert_eq, Finset.union_eq_left.mpr owned]
        simp only [if_true, Holders.grantExclusive, empty, single, Finset.erase_empty]
        exact .exclusive pid
    · exact covers

theorem Covers.step (covers : Covers state.node state.holders) (call : LockCall)
    (counts : CountsHolders state call) : Covers (lockStep state call).node (lockStep state call).holders := by
  cases call with
  | flock pid op => exact covers.flock pid op counts
  | close pid => exact covers.unlock pid counts

/-- After every history in which nobody drops a share that is not his own, a lock is granted only if
the locks of the other processes allow it. -/
theorem flock_grants_exclude (history : List LockCall)
    (counts : Transition.Admissible lockStep CountsHolders .initial history) (pid : Pid) (op : BitVec 32) :
    GrantExcludes (Transition.run lockStep .initial history) pid op := by
  have covers := Transition.run_invariant_of_admissible lockStep CountsHolders
    (fun state => Covers state.node state.holders) (fun state call allowed covers => covers.step call allowed)
    history .initial .none counts
  exact covers.grantExcludes

theorem flock_grants_exclude_upgrade : GrantExcludes (Transition.run lockStep .initial
    [.flock ⟨2, by decide⟩ lockEx, .flock ⟨2, by decide⟩ lockSh, .flock ⟨3, by decide⟩ lockSh,
      .close ⟨3, by decide⟩]) ⟨4, by decide⟩ lockEx := by
  apply flock_grants_exclude
  decide

/-- Process 2 holds the shared lock. Process 3, which holds none, closes a descriptor of the node and
is then granted the exclusive lock. -/
theorem flock_grants_against_holder : ¬GrantExcludes (Transition.run lockStep .initial
    [.flock ⟨2, by decide⟩ lockSh, .close ⟨3, by decide⟩]) ⟨3, by decide⟩ lockEx := by
  intro excludes
  exact (excludes rfl rfl ⟨2, by decide⟩ (by decide)).2 rfl (by decide)

end PhotonOS.Flock
