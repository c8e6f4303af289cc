import PhotonOS.Exec.Arguments

/-!
The stack that `map_exec_stack` builds: its strings and arrays lie one below the
other between the top of the stack and `rsp`, so all of them are read back.
-/

namespace PhotonOS.Exec

open ByteMemory

theorem belowStrings_eq (strings : List (List UInt8)) : ∀ cursor, (pack strings).length ≤ cursor →
    belowStrings cursor strings = cursor - (pack strings).length := by
  induction strings with
  | nil => intro cursor _; rfl
  | cons string rest ih =>
    intro cursor room
    simp only [pack_cons, List.length_append, List.length_singleton] at room ⊢
    rw [belowStrings, ih _ (by omega)]
    omega

def InBlocks (low cursor first last : Nat) (item : Store) : Prop :=
  (low ≤ item.address ∧ item.stop ≤ cursor) ∨ (first ≤ item.address ∧ item.stop ≤ last)

structure VectorStores (array index cursor : Nat) (strings : List (List UInt8)) (items : List Store) : Prop where
  apart : items.Pairwise Apart
  inside : ∀ item ∈ items, InBlocks (cursor - (pack strings).length) cursor (array + 8 * index)
    (array + 8 * (index + strings.length + 1)) item

theorem vectorStores_spec (array : Nat) (strings : List (List UInt8)) : ∀ index cursor,
    (pack strings).length ≤ cursor → array + 8 * (index + strings.length + 1) ≤ cursor - (pack strings).length →
      VectorStores array index cursor strings (vectorStores array index (placeStrings cursor strings) strings) := by
  induction strings with
  | nil =>
    intro index cursor _ below
    refine ⟨List.pairwise_singleton _ _, ?_⟩
    intro item member
    obtain rfl := List.mem_singleton.mp member
    simp only [InBlocks, Store.stop, wordBytes_length, List.length_nil]
    omega
  | cons string rest ih =>
    intro index cursor room below
    simp only [pack_cons, List.length_append, List.length_cons, List.length_nil] at room below
    obtain ⟨apart, inside⟩ := ih (index + 1) (cursor - (string.length + 1)) (by omega) (by omega)
    simp only [placeStrings, vectorStores]
    refine ⟨?_, ?_⟩
    · rw [List.pairwise_cons, List.pairwise_cons]
      refine ⟨?_, ?_, apart⟩
      · intro item member
        rcases List.mem_cons.mp member with rfl | member
        · simp only [Apart, Store.stop, wordBytes_length, List.length_append, List.length_singleton]
          omega
        · have place := inside item member
          simp only [InBlocks, Apart, Store.stop, List.length_append, List.length_singleton] at place ⊢
          omega
      · intro item member
        have place := inside item member
        simp only [InBlocks, Apart, Store.stop, wordBytes_length] at place ⊢
        omega
    · intro item member
      simp only [pack_cons, List.length_append, List.length_cons, List.length_nil]
      rcases List.mem_cons.mp member with rfl | member
      · simp only [InBlocks, Store.stop, List.length_append, List.length_singleton]
        omega
      rcases List.mem_cons.mp member with rfl | member
      · simp only [InBlocks, Store.stop, wordBytes_length]
        omega
      · have place := inside item member
        simp only [InBlocks] at place ⊢
        omega

structure Region where
  address : Nat
  size : Nat

def Region.stop (region : Region) : Nat := region.address + region.size

def Region.Apart (first second : Region) : Prop := first.stop ≤ second.address ∨ second.stop ≤ first.address

def stringRegions (memory : Memory) (array : Nat) : Nat → List (List UInt8) → List Region
  | _, [] => []
  | index, string :: rest =>
    ⟨loadWord memory (array + 8 * index), string.length + 1⟩ :: stringRegions memory array (index + 1) rest

def ExecStack.regions (stack : ExecStack) (args env : List (List UInt8)) : List Region :=
  ⟨stack.initialRsp, 8⟩ :: ⟨stack.argvAddr, 8 * (args.length + 1)⟩ :: ⟨stack.envpAddr, 8 * (env.length + 1)⟩ ::
    (stringRegions stack.memory stack.argvAddr 0 args ++ stringRegions stack.memory stack.envpAddr 0 env)

structure ArgumentsPassed (stack : ExecStack) (args env : List (List UInt8)) : Prop where
  argc : loadWord stack.memory stack.initialRsp = args.length
  argv : IsVector stack.memory stack.argvAddr args
  envp : IsVector stack.memory stack.envpAddr env
  disjoint : (stack.regions args env).Pairwise Region.Apart
  inside : ∀ region ∈ stack.regions args env, stackBottom ≤ region.address ∧ region.stop ≤ elfUserStackTop
  aligned : stack.initialRsp % 16 = 8

structure VectorRead (memory : Memory) (array index cursor : Nat) (strings : List (List UInt8)) : Prop where
  entry : ∀ position string, strings[position]? = some string → loadWord memory (array + 8 * (index + position)) ≠ 0 ∧
      IsString memory (loadWord memory (array + 8 * (index + position))) string
  ends : loadWord memory (array + 8 * (index + strings.length)) = 0
  disjoint : (stringRegions memory array index strings).Pairwise Region.Apart
  inside : ∀ region ∈ stringRegions memory array index strings,
    cursor - (pack strings).length ≤ region.address ∧ region.stop ≤ cursor

variable {memory : Memory} {args env : List (List UInt8)}

theorem vectorStores_read (array : Nat) (strings : List (List UInt8)) : ∀ index cursor,
    (∀ string ∈ strings, (0 : UInt8) ∉ string) → (pack strings).length < cursor → cursor < 2 ^ 64 →
      (∀ item ∈ vectorStores array index (placeStrings cursor strings) strings,
        load memory item.address item.bytes.length = item.bytes) → VectorRead memory array index cursor strings := by
  induction strings with
  | nil =>
    intro index cursor _ _ _ loaded
    have last := loaded _ (List.mem_singleton_self _)
    refine ⟨by simp, ?_, List.Pairwise.nil, ?_⟩
    · exact loadWord_of_load last (by decide)
    · intro region member
      cases member
  | cons string rest ih =>
    intro index cursor clean room high loaded
    simp only [pack_cons, List.length_append, List.length_cons, List.length_nil] at room
    obtain ⟨firstClean, restClean⟩ := List.forall_mem_cons.mp clean
    simp only [placeStrings, vectorStores, List.forall_mem_cons] at loaded
    obtain ⟨stringLoaded, wordLoaded, restLoaded⟩ := loaded
    have tail := ih (index + 1) (cursor - (string.length + 1)) restClean (by omega) (by omega) restLoaded
    have pointer : loadWord memory (array + 8 * index) = cursor - (string.length + 1) :=
      loadWord_of_load (by simpa using wordLoaded) (by omega)
    have read : IsString memory (loadWord memory (array + 8 * index)) string := by
      rw [pointer]
      exact ⟨by simpa using stringLoaded, firstClean⟩
    have shift : ∀ position, index + (position + 1) = index + 1 + position := by omega
    refine ⟨?_, ?_, ?_, ?_⟩
    · intro position other found
      cases position with
      | zero =>
        obtain rfl : string = other := Option.some.inj found
        exact ⟨by rw [Nat.add_zero, pointer]; omega, read⟩
      | succ position =>
        rw [shift]
        exact tail.entry position other found
    · rw [List.length_cons, shift]
      exact tail.ends
    · refine List.pairwise_cons.mpr ⟨?_, tail.disjoint⟩
      intro region member
      have place := tail.inside region member
      refine Or.inr ?_
      rw [pointer]
      exact place.2
    · intro region member
      simp only [pack_cons, List.length_append, List.length_cons, List.length_nil]
      rcases List.mem_cons.mp member with rfl | member
      · simp only [Region.stop, pointer]
        omega
      · have place := tail.inside region member
        omega

structure Below (cursor argc envc envArray argArray rsp : Nat) : Prop where
  arguments : rsp + 8 = argArray
  environment : argArray + 8 * (argc + 1) = envArray
  strings : envArray + 8 * (envc + 1) ≤ cursor
  bottom : stackBottom + 640 ≤ rsp
  aligned : rsp % 16 = 8

theorem below_of_counts {cursor argc envc padded : Nat} (high : elfUserStackTop - execStringsMax ≤ cursor)
    (args : argc ≤ execVectorMax) (env : envc ≤ execVectorMax)
    (padding : padded = if (argc + envc) % 2 ≠ 0 then cursor / 16 * 16 - 8 else cursor / 16 * 16) :
    Below cursor argc envc (padded - (envc + 1) * 8) (padded - (envc + 1) * 8 - (argc + 1) * 8)
      (padded - (envc + 1) * 8 - (argc + 1) * 8 - 8) := by
  have bottom : stackBottom = 0x00000080007FC000 := rfl
  simp only [elfUserStackTop, execStringsMax, execVectorMax] at high args env
  subst padding
  split
  · constructor <;> omega
  · constructor <;> omega

theorem passed_of_reads {envArray argArray rsp : Nat}
    (place : Below (elfUserStackTop - (pack env).length - (pack args).length) args.length env.length envArray
      argArray rsp) (argc : loadWord memory rsp = args.length)
    (argRead : VectorRead memory argArray 0 (elfUserStackTop - (pack env).length) args)
    (envRead : VectorRead memory envArray 0 elfUserStackTop env) :
    ArgumentsPassed ⟨memory, rsp, argArray, envArray⟩ args env := by
  obtain ⟨arguments, environment, strings, bottom, aligned⟩ := place
  have argEntry := argRead.entry
  have envEntry := envRead.entry
  have argEnds := argRead.ends
  have envEnds := envRead.ends
  simp only [Nat.zero_add] at argEntry envEntry argEnds envEnds
  have above : ∀ region ∈ stringRegions memory argArray 0 args ++ stringRegions memory envArray 0 env,
      envArray + 8 * (env.length + 1) ≤ region.address ∧ region.stop ≤ elfUserStackTop := by
    intro region member
    rcases List.mem_append.mp member with member | member
    · have place := argRead.inside region member
      omega
    · have place := envRead.inside region member
      omega
  refine ⟨?_, ⟨argEntry, argEnds⟩, ⟨envEntry, envEnds⟩, ?_, ?_, aligned⟩
  · exact argc
  · have array : ∀ region : Region, region.stop ≤ envArray + 8 * (env.length + 1) →
        ∀ string ∈ stringRegions memory argArray 0 args ++ stringRegions memory envArray 0 env, region.Apart string := by
      intro region ends string member
      exact Or.inl (Nat.le_trans ends (above string member).1)
    refine List.pairwise_cons.mpr ⟨?_, List.pairwise_cons.mpr ⟨?_, List.pairwise_cons.mpr ⟨?_, ?_⟩⟩⟩
    · refine List.forall_mem_cons.mpr ⟨?_, List.forall_mem_cons.mpr ⟨?_, array _ ?_⟩⟩
      · exact Or.inl (by simp only [Region.stop]; omega)
      · exact Or.inl (by simp only [Region.stop]; omega)
      · simp only [Region.stop]
        omega
    · refine List.forall_mem_cons.mpr ⟨?_, array _ ?_⟩
      · exact Or.inl (by simp only [Region.stop]; omega)
      · simp only [Region.stop]
        omega
    · exact array _ (Nat.le_refl _)
    refine List.pairwise_append.mpr ⟨argRead.disjoint, envRead.disjoint, ?_⟩
    intro first inArgs second inEnv
    have lower := argRead.inside first inArgs
    have upper := envRead.inside second inEnv
    exact Or.inl (by omega)
  · refine List.forall_mem_cons.mpr ⟨?_, List.forall_mem_cons.mpr ⟨?_, List.forall_mem_cons.mpr ⟨?_, ?_⟩⟩⟩
    · simp only [Region.stop]
      omega
    · simp only [Region.stop]
      omega
    · simp only [Region.stop]
      omega
    · intro region member
      have place := above region member
      omega

theorem layOutStack_passed (clean : ∀ string ∈ args ++ env, (0 : UInt8) ∉ string)
    (argCount : args.length ≤ execVectorMax) (envCount : env.length ≤ execVectorMax)
    (room : (pack args).length + (pack env).length ≤ execStringsMax) :
    ∃ stack, layOutStack args env = some stack ∧ ArgumentsPassed stack args env := by
  have top : elfUserStackTop = 0x0000008000800000 := rfl
  have limit : execStringsMax = 4096 := rfl
  have envBelow := belowStrings_eq env elfUserStackTop (by omega)
  have argBelow := belowStrings_eq args (elfUserStackTop - (pack env).length) (by omega)
  have place := below_of_counts (by omega : elfUserStackTop - execStringsMax ≤
    elfUserStackTop - (pack env).length - (pack args).length) argCount envCount rfl
  simp only [layOutStack, envBelow, argBelow]
  generalize (if (args.length + env.length) % 2 ≠ 0 then
    (elfUserStackTop - (pack env).length - (pack args).length) / 16 * 16 - 8
    else (elfUserStackTop - (pack env).length - (pack args).length) / 16 * 16) = padded at place ⊢
  generalize padded - (env.length + 1) * 8 = envArray at place ⊢
  generalize envArray - (args.length + 1) * 8 = argArray at place ⊢
  generalize argArray - 8 = rsp at place ⊢
  have ⟨arguments, environment, strings, bottom, _⟩ := place
  refine ⟨_, if_neg (by omega), ?_⟩
  have envStores := vectorStores_spec envArray env 0 elfUserStackTop (by omega) (by omega)
  have argStores := vectorStores_spec argArray args 0 (elfUserStackTop - (pack env).length) (by omega) (by omega)
  have apart : (vectorStores envArray 0 (placeStrings elfUserStackTop env) env ++
      vectorStores argArray 0 (placeStrings (elfUserStackTop - (pack env).length) args) args ++
      [Store.mk rsp (wordBytes args.length)]).Pairwise Apart := by
    rw [List.pairwise_append, List.pairwise_append]
    refine ⟨⟨envStores.apart, argStores.apart, ?_⟩, List.pairwise_singleton _ _, ?_⟩
    · intro first inEnv second inArgs
      have above := envStores.inside first inEnv
      have below := argStores.inside second inArgs
      simp only [InBlocks, Apart, Store.stop] at above below ⊢
      omega
    · intro first member second last
      obtain rfl := List.mem_singleton.mp last
      rcases List.mem_append.mp member with member | member
      · have above := envStores.inside first member
        simp only [InBlocks, Apart, Store.stop, wordBytes_length] at above ⊢
        omega
      · have above := argStores.inside first member
        simp only [InBlocks, Apart, Store.stop, wordBytes_length] at above ⊢
        omega
  have loaded := load_storeAll (fun _ => 0) apart
  simp only [List.forall_mem_append, List.forall_mem_singleton] at loaded
  obtain ⟨⟨envLoaded, argLoaded⟩, rspLoaded⟩ := loaded
  have envRead := vectorStores_read envArray env 0 elfUserStackTop
    (fun string member => clean string (List.mem_append_right _ member)) (by omega) (by omega) envLoaded
  have argRead := vectorStores_read argArray args 0 (elfUserStackTop - (pack env).length)
    (fun string member => clean string (List.mem_append_left _ member)) (by omega) (by omega) argLoaded
  refine passed_of_reads place ?_ argRead envRead
  exact loadWord_of_load (by simpa using rspLoaded) (by simp only [execVectorMax] at argCount; omega)

/-- Whatever `copy_exec_vector` accepts is passed to the new program, and never refused for its size. -/
theorem exec_arguments_passed (user : UserSpace) (argv envp : Nat) (vectors : ExecVectors)
    (accepted : copyExecVectors user argv envp = some vectors) :
    ∃ args env stack, InputVector user argv args ∧ InputVector user envp env ∧
      mapExecStack vectors = some stack ∧ ArgumentsPassed stack args env := by
  obtain ⟨args, env, copied⟩ := copyExecVectors_accepted accepted
  obtain ⟨argClean, envClean⟩ := List.forall_mem_append.mp copied.clean
  have readArgs := storedString_packed args [] (pack env) argClean
  have readEnv := storedString_packed env (pack args) [] envClean
  simp only [List.length_nil, List.nil_append, List.append_nil] at readArgs readEnv
  obtain ⟨stack, built, passed⟩ := layOutStack_passed copied.clean copied.argCount copied.envCount copied.room
  refine ⟨args, env, stack, copied.arguments, copied.environment, ?_, passed⟩
  rw [mapExecStack, copied.storage, copied.argOffsets, copied.envOffsets, readArgs, readEnv]
  exact built

def sampleUser : UserSpace where
  byte := storeAll (fun _ => 0) [⟨0x2000, wordBytes 0x3000⟩, ⟨0x2008, wordBytes 0x3003⟩, ⟨0x3000, [108, 115, 0, 97]⟩]
  readable := fun _ _ => true

theorem exec_arguments_passed_sample : copyExecVectors sampleUser 0x2000 0 = some ⟨[108, 115, 0, 97, 0], [0, 3], []⟩ ∧
      ∃ args env stack, InputVector sampleUser 0x2000 args ∧ InputVector sampleUser 0 env ∧
        mapExecStack ⟨[108, 115, 0, 97, 0], [0, 3], []⟩ = some stack ∧ ArgumentsPassed stack args env :=
  ⟨by decide +kernel, exec_arguments_passed sampleUser 0x2000 0 _ (by decide +kernel)⟩

end PhotonOS.Exec
