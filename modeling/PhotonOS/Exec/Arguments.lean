import PhotonOS.Lib.ByteMemory

/-!
The argument vectors of `execve`: `copy_exec_vector` reads them from the
caller's memory into a kernel buffer, and `map_exec_stack` lays them out below
the top of the new stack.
-/

namespace PhotonOS.Exec

open ByteMemory

def execVectorMax : Nat := 32
def execStringsMax : Nat := 4096
def execStringMax : Nat := 256
def userBase : Nat := 0x1000
def userLimit : Nat := 0x0000800000000000
def elfUserStackTop : Nat := 0x0000008000800000
def elfUserStackPages : Nat := 4
def pageSize : Nat := 4096
def stackBottom : Nat := elfUserStackTop - elfUserStackPages * pageSize

/-- The caller's memory; `readable address size` is `vmm_validate_user_ptr` for reading. -/
structure UserSpace where
  byte : Memory
  readable : Nat → Nat → Bool

def scanString (user : UserSpace) : Nat → Nat → Bool
  | 0, _ => false
  | fuel + 1, address => user.readable address 1 && (user.byte address == 0 || scanString user fuel (address + 1))

def vmmValidateUserString (user : UserSpace) (address maxLen : Nat) : Bool :=
  address != 0 && maxLen != 0 && decide (userBase ≤ address) && decide (address < userLimit) &&
    scanString user maxLen address

def stringFrom (memory : Memory) : Nat → Nat → List UInt8
  | 0, _ => []
  | fuel + 1, address => if memory address = 0 then [] else memory address :: stringFrom memory fuel (address + 1)

def equalsSign : UInt8 := 61

def isAssignment (string : List UInt8) : Bool :=
  let name := string.takeWhile (· != equalsSign)
  name.length != 0 && name.length != string.length

def copyEntries (user : UserSpace) (vector : Nat) (environment : Bool) :
    Nat → Nat → List UInt8 → List Nat → Option (List UInt8 × List Nat)
  | 0, _, _, _ => none
  | fuel + 1, index, storage, offsets =>
    if !user.readable (vector + 8 * index) 8 then none
    else
      let pointer := loadWord user.byte (vector + 8 * index)
      if pointer = 0 then some (storage, offsets)
      else if index = execVectorMax ∨ !vmmValidateUserString user pointer execStringMax then none
      else
        let string := stringFrom user.byte execStringMax pointer
        if environment ∧ !isAssignment string then none
        else if storage.length + string.length + 1 > execStringsMax then none
        else copyEntries user vector environment fuel (index + 1) (storage ++ (string ++ [0]))
          (offsets ++ [storage.length])

def copyExecVector (user : UserSpace) (vector : Nat) (environment : Bool) (storage : List UInt8) :
    Option (List UInt8 × List Nat) :=
  if vector = 0 then some (storage, [])
  else copyEntries user vector environment (execVectorMax + 1) 0 storage []

structure ExecVectors where
  storage : List UInt8
  argOffsets : List Nat
  envOffsets : List Nat
  deriving DecidableEq, Repr

def copyExecVectors (user : UserSpace) (argv envp : Nat) : Option ExecVectors := do
  let (storage, argOffsets) ← copyExecVector user argv false []
  let (storage, envOffsets) ← copyExecVector user envp true storage
  return { storage := storage, argOffsets := argOffsets, envOffsets := envOffsets }

def storedString (storage : List UInt8) (offset : Nat) : List UInt8 :=
  (storage.drop offset).takeWhile (· != 0)

def placeStrings : Nat → List (List UInt8) → List Nat
  | _, [] => []
  | cursor, string :: rest =>
    let pointer := cursor - (string.length + 1)
    pointer :: placeStrings pointer rest

def belowStrings : Nat → List (List UInt8) → Nat
  | cursor, [] => cursor
  | cursor, string :: rest => belowStrings (cursor - (string.length + 1)) rest

def vectorStores (array : Nat) : Nat → List Nat → List (List UInt8) → List Store
  | index, pointer :: pointers, string :: strings =>
    ⟨pointer, string ++ [0]⟩ :: ⟨array + 8 * index, wordBytes pointer⟩ ::
      vectorStores array (index + 1) pointers strings
  | index, _, _ => [⟨array + 8 * index, wordBytes 0⟩]

structure ExecStack where
  memory : Memory
  initialRsp : Nat
  argvAddr : Nat
  envpAddr : Nat

def layOutStack (args env : List (List UInt8)) : Option ExecStack :=
  let envPointers := placeStrings elfUserStackTop env
  let cursor := belowStrings elfUserStackTop env
  let argPointers := placeStrings cursor args
  let cursor := belowStrings cursor args
  let cursor := cursor / 16 * 16
  let cursor := if (args.length + env.length) % 2 ≠ 0 then cursor - 8 else cursor
  let envArray := cursor - (env.length + 1) * 8
  let argArray := envArray - (args.length + 1) * 8
  let rsp := argArray - 8
  if rsp < stackBottom + 640 then none
  else some {
    memory := storeAll (fun _ => 0) (vectorStores envArray 0 envPointers env ++
      vectorStores argArray 0 argPointers args ++ [⟨rsp, wordBytes args.length⟩])
    initialRsp := rsp
    argvAddr := argArray
    envpAddr := envArray }

def mapExecStack (vectors : ExecVectors) : Option ExecStack :=
  layOutStack (vectors.argOffsets.map (storedString vectors.storage))
    (vectors.envOffsets.map (storedString vectors.storage))

structure IsVector (memory : Memory) (array : Nat) (strings : List (List UInt8)) : Prop where
  entry : ∀ index string, strings[index]? = some string →
    loadWord memory (array + 8 * index) ≠ 0 ∧ IsString memory (loadWord memory (array + 8 * index)) string
  ends : loadWord memory (array + 8 * strings.length) = 0

/-- The vector that a pointer argument of `execve` stands for; NULL is an empty one. -/
def InputVector (user : UserSpace) (vector : Nat) (strings : List (List UInt8)) : Prop :=
  if vector = 0 then strings = [] else IsVector user.byte vector strings

variable {user : UserSpace} {vector : Nat} {storage string : List UInt8} {result : List UInt8 × List Nat}
    {environment : Bool} {fuel : Nat} {rest : List (List UInt8)}

theorem stringFrom_isString : ∀ {address : Nat},
    scanString user fuel address = true → IsString user.byte address (stringFrom user.byte fuel address) := by
  induction fuel with
  | zero => intro address scanned; cases scanned
  | succ fuel ih =>
    intro address scanned
    simp only [scanString, Bool.and_eq_true, Bool.or_eq_true, beq_iff_eq] at scanned
    simp only [stringFrom]
    by_cases ended : user.byte address = 0
    · rw [if_pos ended]
      exact isString_nil.mpr ended
    · rw [if_neg ended]
      exact isString_cons.mpr ⟨rfl, ended, ih (scanned.2.resolve_left ended)⟩

def pack (strings : List (List UInt8)) : List UInt8 := strings.flatMap (· ++ [0])

def packedOffsets : Nat → List (List UInt8) → List Nat
  | _, [] => []
  | start, string :: rest => start :: packedOffsets (start + (string.length + 1)) rest

theorem pack_cons : pack (string :: rest) = string ++ [0] ++ pack rest := rfl

structure Copied (user : UserSpace) (vector index : Nat) (storage : List UInt8) (offsets : List Nat)
    (strings : List (List UInt8)) (result : List UInt8 × List Nat) : Prop where
  stored : result.1 = storage ++ pack strings
  placed : result.2 = offsets ++ packedOffsets storage.length strings
  entry : ∀ position string, strings[position]? = some string →
    loadWord user.byte (vector + 8 * (index + position)) ≠ 0 ∧
      IsString user.byte (loadWord user.byte (vector + 8 * (index + position))) string
  ends : loadWord user.byte (vector + 8 * (index + strings.length)) = 0
  count : index + strings.length ≤ execVectorMax
  room : result.1.length ≤ execStringsMax

theorem Copied.cons {index : Nat} {offsets : List Nat} (pointer : loadWord user.byte (vector + 8 * index) ≠ 0)
    (read : IsString user.byte (loadWord user.byte (vector + 8 * index)) string)
    (tail : Copied user vector (index + 1) (storage ++ (string ++ [0])) (offsets ++ [storage.length]) rest result) :
    Copied user vector index storage offsets (string :: rest) result := by
  have shift : ∀ position, index + (position + 1) = index + 1 + position := by omega
  constructor
  · rw [tail.stored, pack_cons, List.append_assoc]
  · rw [tail.placed, packedOffsets, List.append_assoc, List.length_append, List.length_append]
    rfl
  · intro position other found
    cases position with
    | zero =>
      obtain rfl : string = other := Option.some.inj found
      exact ⟨pointer, read⟩
    | succ position =>
      rw [shift]
      exact tail.entry position other found
  · rw [List.length_cons, shift]
    exact tail.ends
  · rw [List.length_cons, shift]
    exact tail.count
  · exact tail.room

theorem copyEntries_copied : ∀ (index : Nat) (storage : List UInt8) (offsets : List Nat),
    copyEntries user vector environment fuel index storage offsets = some result →
      index ≤ execVectorMax → storage.length ≤ execStringsMax →
      ∃ strings, Copied user vector index storage offsets strings result := by
  induction fuel with
  | zero => intro index storage offsets accepted; cases accepted
  | succ fuel ih =>
    intro index storage offsets accepted bound room
    simp only [copyEntries] at accepted
    split at accepted
    · cases accepted
    split at accepted
    next null =>
      obtain rfl := Option.some.inj accepted
      exact ⟨[], by simp [pack], by simp [packedOffsets], by simp, null, bound, room⟩
    rename_i pointer
    split at accepted
    · cases accepted
    rename_i checked
    split at accepted
    · cases accepted
    split at accepted
    · cases accepted
    obtain ⟨notLast, checked⟩ := not_or.mp checked
    have valid : vmmValidateUserString user (loadWord user.byte (vector + 8 * index)) execStringMax =
        true := by simpa using checked
    simp only [vmmValidateUserString, Bool.and_eq_true] at valid
    obtain ⟨strings, tail⟩ := ih (index + 1) _ _ accepted (by omega)
      (by simp only [List.length_append, List.length_singleton]; omega)
    exact ⟨_, tail.cons pointer (stringFrom_isString valid.2)⟩

structure Accepted (user : UserSpace) (argv envp : Nat) (args env : List (List UInt8)) (vectors : ExecVectors) :
    Prop where
  arguments : InputVector user argv args
  environment : InputVector user envp env
  storage : vectors.storage = pack args ++ pack env
  argOffsets : vectors.argOffsets = packedOffsets 0 args
  envOffsets : vectors.envOffsets = packedOffsets (pack args).length env
  clean : ∀ string ∈ args ++ env, (0 : UInt8) ∉ string
  argCount : args.length ≤ execVectorMax
  envCount : env.length ≤ execVectorMax
  room : (pack args).length + (pack env).length ≤ execStringsMax

theorem copyExecVector_copied (accepted : copyExecVector user vector environment storage = some result)
    (room : storage.length ≤ execStringsMax) :
    ∃ strings, InputVector user vector strings ∧ result.1 = storage ++ pack strings ∧
      result.2 = packedOffsets storage.length strings ∧ (∀ string ∈ strings, (0 : UInt8) ∉ string) ∧
      strings.length ≤ execVectorMax ∧ result.1.length ≤ execStringsMax := by
  unfold copyExecVector at accepted
  unfold InputVector
  split at accepted
  next null =>
    obtain rfl := Option.some.inj accepted
    refine ⟨[], ?_, ?_, rfl, ?_, Nat.zero_le _, room⟩
    · rw [if_pos null]
    · simp [pack]
    · simp
  next present =>
    obtain ⟨strings, copied⟩ := copyEntries_copied 0 storage [] accepted (Nat.zero_le _) room
    have entry := copied.entry
    have count := copied.count
    have ends := copied.ends
    simp only [Nat.zero_add] at entry count ends
    refine ⟨strings, ?_, copied.stored, copied.placed, ?_, count, copied.room⟩
    · rw [if_neg present]
      exact ⟨entry, ends⟩
    · intro string member
      obtain ⟨index, found⟩ := List.getElem?_of_mem member
      exact (entry index string found).2.2

theorem copyExecVectors_accepted {argv envp : Nat} {vectors : ExecVectors}
    (accepted : copyExecVectors user argv envp = some vectors) :
    ∃ args env, Accepted user argv envp args env vectors := by
  simp only [copyExecVectors, Option.bind_eq_bind, Option.bind_eq_some_iff] at accepted
  obtain ⟨⟨first, argOffsets⟩, copiedArgs, ⟨second, envOffsets⟩, copiedEnv, same⟩ := accepted
  obtain rfl := Option.some.inj same
  obtain ⟨args, argInput, argStored, argPlaced, argClean, argCount, argRoom⟩ :=
    copyExecVector_copied copiedArgs (Nat.zero_le _)
  obtain ⟨env, envInput, envStored, envPlaced, envClean, envCount, envRoom⟩ := copyExecVector_copied copiedEnv argRoom
  simp only [List.nil_append] at argStored
  simp only [argStored] at envStored envPlaced
  refine ⟨args, env, argInput, envInput, envStored, argPlaced, envPlaced, ?_, argCount, envCount, ?_⟩
  · exact List.forall_mem_append.mpr ⟨argClean, envClean⟩
  · rw [← List.length_append, ← envStored]
    exact envRoom

theorem takeWhile_append_zero (clean : (0 : UInt8) ∉ string) (rest : List UInt8) :
    (string ++ (0 :: rest)).takeWhile (· != 0) = string := by
  induction string with
  | nil => rfl
  | cons byte string ih =>
    simp only [List.mem_cons, not_or] at clean
    simp [Ne.symm clean.1, ih clean.2]

theorem storedString_packed (strings : List (List UInt8)) : ∀ (before after : List UInt8),
    (∀ string ∈ strings, (0 : UInt8) ∉ string) →
      (packedOffsets before.length strings).map (storedString (before ++ (pack strings ++ after))) = strings := by
  induction strings with
  | nil => intro before after _; rfl
  | cons string rest ih =>
    intro before after clean
    obtain ⟨first, later⟩ := List.forall_mem_cons.mp clean
    have split : before ++ (pack (string :: rest) ++ after) =
        before ++ (string ++ [0]) ++ (pack rest ++ after) := by simp [pack_cons]
    have next : before.length + (string.length + 1) = (before ++ (string ++ [0])).length := by simp
    simp only [packedOffsets, List.map_cons]
    rw [next, split, ih _ after later]
    congr 1
    rw [storedString, List.append_assoc, List.drop_left, List.append_assoc, List.singleton_append]
    exact takeWhile_append_zero first _

end PhotonOS.Exec
