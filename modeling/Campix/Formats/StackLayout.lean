import Mathlib.Algebra.GroupWithZero.Nat
import Mathlib.Data.List.Forall2
import Campix.Lib.Slice

/-!
# The initial stack of a process

What a program finds at its stack pointer: the number of arguments, the pointers to the arguments
and to the environment, each array with its null, the auxiliary pairs up to `(0, 0)`, and the
strings that the pointers refer to, each with its null terminator. `readStack` is the program's side
of this layout and `stackImage` are the bytes of it. A program that reads the image finds what
the image was made of.
-/

namespace Campix.Formats

open Lib.Slice

set_option autoImplicit false

section Memory

variable {read : Nat → Option UInt8} {addr : Nat}

def MemoryAt (read : Nat → Option UInt8) (addr : Nat) (bytes : List UInt8) : Prop :=
  ∀ place < bytes.length, read (addr + place) = bytes[place]?

theorem memory_at_append {front back : List UInt8} :
    MemoryAt read addr (front ++ back) ↔
      MemoryAt read addr front ∧ MemoryAt read (addr + front.length) back := by
  constructor
  · intro memory
    constructor
    · intro place inside
      rw [memory place (by rw [List.length_append]; omega), List.getElem?_append_left inside]
    · intro place inside
      rw [Nat.add_assoc, memory (front.length + place) (by rw [List.length_append]; omega),
        List.getElem?_append_right (Nat.le_add_right _ _), Nat.add_sub_cancel_left]
  · rintro ⟨first, second⟩ place inside
    rw [List.length_append] at inside
    by_cases before : place < front.length
    · rw [first place before, List.getElem?_append_left before]
    · have behind := second (place - front.length) (by omega)
      rw [List.getElem?_append_right (by omega), ← behind]
      congr 1
      omega

theorem memory_at_cons {byte : UInt8} {bytes : List UInt8}
    (memory : MemoryAt read addr (byte :: bytes)) :
    read addr = some byte ∧ MemoryAt read (addr + 1) bytes := by
  constructor
  · exact memory 0 (Nat.succ_pos _)
  · intro place inside
    rw [Nat.add_assoc, Nat.add_comm 1]
    exact memory (place + 1) (Nat.succ_lt_succ inside)

section Splice

variable {buffer bytes part : List UInt8} {offset place : Nat}

theorem memory_at_splice (inside : offset + bytes.length ≤ buffer.length) :
    MemoryAt (fun index => (splice buffer offset bytes)[index]?) offset bytes := by
  intro index within
  dsimp only
  rw [getElem?_splice inside, if_pos ⟨Nat.le_add_right _ _, Nat.add_lt_add_left within _⟩,
    Nat.add_sub_cancel_left]

theorem memory_at_splice_apart (inside : offset + bytes.length ≤ buffer.length)
    (apart : place + part.length ≤ offset ∨ offset + bytes.length ≤ place)
    (memory : MemoryAt (fun index => buffer[index]?) place part) :
    MemoryAt (fun index => (splice buffer offset bytes)[index]?) place part := by
  intro index within
  have outside : ¬(offset ≤ place + index ∧ place + index < offset + bytes.length) := by omega
  dsimp only
  rw [getElem?_splice inside, if_neg outside]
  exact memory index within

end Splice

def readBytes (read : Nat → Option UInt8) : Nat → Nat → Option (List UInt8)
  | _, 0 => some []
  | addr, count + 1 => do
      let byte ← read addr
      let bytes ← readBytes read (addr + 1) count
      return byte :: bytes

theorem read_bytes_eq (bytes : List UInt8) : ∀ {addr : Nat}, MemoryAt read addr bytes →
    readBytes read addr bytes.length = some bytes := by
  induction bytes with
  | nil => exact fun _ => rfl
  | cons byte bytes ih =>
      intro addr memory
      obtain ⟨first, rest⟩ := memory_at_cons memory
      rw [List.length_cons, readBytes, first, ih rest]
      rfl

def readWord (read : Nat → Option UInt8) (addr : Nat) : Option Nat :=
  (readBytes read addr 8).map fun bytes => readLe bytes 0 8

theorem read_word_eq {value : Nat} (bound : value < 2 ^ 64)
    (memory : MemoryAt read addr (toLe value 8)) :
    readWord read addr = some value := by
  have bytes := read_bytes_eq (toLe value 8) memory
  have shown : readLe (toLe value 8 ++ []) 0 8 = value := read_le_first (by omega)
  rw [length_to_le] at bytes
  rw [List.append_nil] at shown
  rw [readWord, bytes, Option.map_some, shown]

end Memory

structure InitialStack where
  args : List (List UInt8)
  env : List (List UInt8)
  aux : List (Nat × Nat)
  deriving DecidableEq

def readString (read : Nat → Option UInt8) : Nat → Nat → Option (List UInt8)
  | 0, _ => none
  | fuel + 1, addr => do
      let byte ← read addr
      if byte = 0 then
        return []
      else
        return byte :: (← readString read fuel (addr + 1))

/-- The strings of an array of pointers up to its null, and the address behind it. -/
def readStrings (read : Nat → Option UInt8) (limit : Nat) : Nat → Nat →
    Option (List (List UInt8) × Nat)
  | 0, _ => none
  | fuel + 1, addr => do
      let ptr ← readWord read addr
      if ptr = 0 then
        return ([], addr + 8)
      else
        let string ← readString read limit ptr
        let (strings, behind) ← readStrings read limit fuel (addr + 8)
        return (string :: strings, behind)

def readPairs (read : Nat → Option UInt8) : Nat → Nat → Option (List (Nat × Nat))
  | 0, _ => none
  | fuel + 1, addr => do
      let key ← readWord read addr
      let val ← readWord read (addr + 8)
      if (key, val) = (0, 0) then
        return []
      else
        return (key, val) :: (← readPairs read fuel (addr + 16))

def readStack (read : Nat → Option UInt8) (fuel sp : Nat) : Option InitialStack := do
  let argc ← readWord read sp
  let (args, envp) ← readStrings read fuel fuel (sp + 8)
  if args.length ≠ argc then
    none
  else
    let (env, auxv) ← readStrings read fuel fuel envp
    return { args, env, aux := ← readPairs read fuel auxv }

def wordBytes (vals : List Nat) : List UInt8 := vals.flatMap fun val => toLe val 8

def stringBytes (strings : List (List UInt8)) : List UInt8 := strings.flatMap fun s => s ++ [0]

def stringAddresses : Nat → List (List UInt8) → List Nat
  | _, [] => []
  | addr, s :: strings => addr :: stringAddresses (addr + s.length + 1) strings

def pairWords (aux : List (Nat × Nat)) : List Nat := aux.flatMap fun pair => [pair.1, pair.2]

def stringsOffset (args env : List (List UInt8)) (aux : List (Nat × Nat)) : Nat :=
  8 + (args.length + 1) * 8 + (env.length + 1) * 8 + (aux.length + 1) * 16

def totalSize (args env : List (List UInt8)) (aux : List (Nat × Nat)) : Nat :=
  stringsOffset args env aux + ((args ++ env).map fun s => s.length + 1).sum

def stackImage (bottom : Nat) (args env : List (List UInt8)) (aux : List (Nat × Nat)) :
    List UInt8 :=
  let ptrs := stringAddresses (bottom + stringsOffset args env aux) (args ++ env)
  toLe args.length 8 ++ wordBytes (ptrs.take args.length ++ [0]) ++
    wordBytes (ptrs.drop args.length ++ [0]) ++ wordBytes (pairWords aux ++ [0, 0]) ++
    stringBytes (args ++ env)

theorem length_word_bytes (vals : List Nat) : (wordBytes vals).length = 8 * vals.length := by
  induction vals with
  | nil => rfl
  | cons val vals ih =>
      rw [wordBytes, List.flatMap_cons, List.length_append, length_to_le, ← wordBytes, ih,
        List.length_cons]
      omega

theorem word_bytes_cons (val : Nat) (vals : List Nat) :
    wordBytes (val :: vals) = toLe val 8 ++ wordBytes vals :=
  List.flatMap_cons

theorem word_bytes_append (front back : List Nat) :
    wordBytes (front ++ back) = wordBytes front ++ wordBytes back :=
  List.flatMap_append

theorem string_bytes_cons (s : List UInt8) (strings : List (List UInt8)) :
    stringBytes (s :: strings) = s ++ [0] ++ stringBytes strings :=
  List.flatMap_cons

theorem length_string_bytes (strings : List (List UInt8)) :
    (stringBytes strings).length = (strings.map fun s => s.length + 1).sum := by
  induction strings with
  | nil => rfl
  | cons s strings ih =>
      rw [string_bytes_cons, List.length_append,
        List.length_append, ih, List.map_cons, List.sum_cons]
      rfl

theorem length_string_addresses (strings : List (List UInt8)) :
    ∀ addr, (stringAddresses addr strings).length = strings.length := by
  induction strings with
  | nil => exact fun _ => rfl
  | cons s strings ih =>
      intro addr
      rw [stringAddresses, List.length_cons, List.length_cons, ih]

theorem length_pair_words (aux : List (Nat × Nat)) : (pairWords aux).length = 2 * aux.length := by
  induction aux with
  | nil => rfl
  | cons pair aux ih =>
      have two : [pair.1, pair.2].length = 2 := rfl
      have more : (pair :: aux).length = aux.length + 1 := rfl
      rw [pairWords, List.flatMap_cons, List.length_append, ← pairWords, ih, two, more]
      omega

theorem length_stack_image (bottom : Nat) (args env : List (List UInt8)) (aux : List (Nat × Nat)) :
    (stackImage bottom args env aux).length = totalSize args env aux := by
  have count := length_string_addresses (args ++ env) (bottom + stringsOffset args env aux)
  rw [List.length_append] at count
  rw [stackImage]
  simp only [List.length_append, length_to_le,
    length_word_bytes, length_string_bytes, length_pair_words,
    List.length_take, List.length_drop, List.length_cons, List.length_nil, count]
  rw [totalSize, stringsOffset]
  omega

def laidOut : Nat → List Nat → List (Nat × Nat)
  | _, [] => []
  | addr, length :: lengths => (addr, length) :: laidOut (addr + length) lengths

theorem laid_out_within (lengths : List Nat) : ∀ {addr : Nat}, ∀ region ∈ laidOut addr lengths,
    addr ≤ region.1 ∧ region.1 + region.2 ≤ addr + lengths.sum := by
  induction lengths with
  | nil => exact fun region member => absurd member List.not_mem_nil
  | cons length lengths ih =>
      intro addr region member
      rw [List.sum_cons]
      cases List.mem_cons.mp member with
      | inl first =>
          subst first
          exact ⟨Nat.le_refl _, by dsimp only; omega⟩
      | inr later =>
          have inside := ih region later
          omega

theorem laid_out_apart (lengths : List Nat) : ∀ addr,
    (laidOut addr lengths).Pairwise fun left right => left.1 + left.2 ≤ right.1 := by
  induction lengths with
  | nil => exact fun _ => .nil
  | cons length lengths ih =>
      intro addr
      exact .cons (fun region later => (laid_out_within lengths region later).1) (ih _)

/-- The regions of the stack at `bottom`: the number of arguments, the two arrays of pointers, the
auxiliary pairs and the strings. -/
def stackRegions (bottom : Nat) (args env : List (List UInt8)) (aux : List (Nat × Nat)) :
    List (Nat × Nat) :=
  [(bottom, 8), (bottom + 8, (args.length + 1) * 8),
    (bottom + (8 + (args.length + 1) * 8), (env.length + 1) * 8),
    (bottom + (8 + (args.length + 1) * 8 + (env.length + 1) * 8), (aux.length + 1) * 16)] ++
  (stringAddresses (bottom + stringsOffset args env aux) (args ++ env)).zip
    ((args ++ env).map fun s => s.length + 1)

theorem string_regions (strings : List (List UInt8)) : ∀ addr,
    (stringAddresses addr strings).zip (strings.map fun s => s.length + 1) =
      laidOut addr (strings.map fun s => s.length + 1) := by
  induction strings with
  | nil => exact fun _ => rfl
  | cons s strings ih =>
      intro addr
      rw [stringAddresses, List.map_cons, List.zip_cons_cons, laidOut, Nat.add_assoc, ih]

theorem stack_regions_eq (bottom : Nat) (args env : List (List UInt8)) (aux : List (Nat × Nat)) :
    stackRegions bottom args env aux =
      laidOut bottom ([8, (args.length + 1) * 8, (env.length + 1) * 8, (aux.length + 1) * 16] ++
        (args ++ env).map fun s : List UInt8 => s.length + 1) := by
  rw [stackRegions, string_regions, stringsOffset]
  simp only [List.cons_append, List.nil_append, laidOut, Nat.add_assoc]

/-- No two regions overlap, and none reaches beyond the image. -/
theorem stack_regions_apart (bottom : Nat) (args env : List (List UInt8)) (aux : List (Nat × Nat)) :
    ((stackRegions bottom args env aux).Pairwise fun left right => left.1 + left.2 ≤ right.1) ∧
      ∀ region ∈ stackRegions bottom args env aux, bottom ≤ region.1 ∧
        region.1 + region.2 ≤ bottom + totalSize args env aux := by
  have sum : ([8, (args.length + 1) * 8, (env.length + 1) * 8, (aux.length + 1) * 16] ++
      (args ++ env).map fun s : List UInt8 => s.length + 1).sum = totalSize args env aux := by
    rw [List.sum_append, totalSize, stringsOffset]
    simp only [List.sum_cons, List.sum_nil]
    omega
  rw [stack_regions_eq, ← sum]
  exact ⟨laid_out_apart _ bottom, laid_out_within _⟩

section Reading

variable {read : Nat → Option UInt8} {addr limit : Nat}

theorem read_string_eq (s : List UInt8) (noNul : (0 : UInt8) ∉ s) :
    ∀ {addr limit : Nat}, s.length < limit → MemoryAt read addr (s ++ [0]) →
      readString read limit addr = some s := by
  induction s with
  | nil =>
      intro addr limit enough memory
      obtain ⟨fuel, rfl⟩ := Nat.exists_eq_succ_of_ne_zero (Nat.ne_of_gt enough)
      obtain ⟨ends, -⟩ := memory_at_cons memory
      rw [readString, ends]
      rfl
  | cons byte s ih =>
      intro addr limit enough memory
      obtain ⟨fuel, rfl⟩ := Nat.exists_eq_succ_of_ne_zero (Nat.ne_of_gt (Nat.zero_lt_of_lt enough))
      obtain ⟨first, rest⟩ := memory_at_cons memory
      rw [List.mem_cons, not_or] at noNul
      have more := ih noNul.2 (Nat.lt_of_succ_lt_succ enough) rest
      have nonzero : byte ≠ 0 := fun zero => noNul.1 zero.symm
      rw [readString, first, Option.bind_eq_bind, Option.bind_some, if_neg nonzero, more]
      rfl

def PointsTo (read : Nat → Option UInt8) (ptr : Nat) (s : List UInt8) : Prop :=
  0 < ptr ∧ ptr < 2 ^ 64 ∧ MemoryAt read ptr (s ++ [0])

theorem string_addresses_lead (strings : List (List UInt8)) :
    ∀ {addr : Nat}, 0 < addr → addr + (stringBytes strings).length ≤ 2 ^ 64 →
      MemoryAt read addr (stringBytes strings) →
      List.Forall₂ (PointsTo read) (stringAddresses addr strings) strings := by
  induction strings with
  | nil => exact fun _ _ _ => .nil
  | cons s strings ih =>
      intro addr positive bound memory
      rw [string_bytes_cons] at bound memory
      rw [memory_at_append] at memory
      simp only [List.length_append, List.length_cons, List.length_nil] at bound memory
      refine .cons ⟨positive, by omega, memory.1⟩ (ih (by omega) (by omega) ?_)
      rw [Nat.add_assoc]
      exact memory.2

theorem read_strings_eq {ptrs : List Nat} {strings : List (List UInt8)}
    (lead : List.Forall₂ (PointsTo read) ptrs strings) :
    ∀ {addr fuel : Nat}, (∀ s ∈ strings, (0 : UInt8) ∉ s ∧ s.length < limit) →
      strings.length < fuel →
      MemoryAt read addr (wordBytes (ptrs ++ [0])) →
      readStrings read limit fuel addr = some (strings, addr + (strings.length + 1) * 8) := by
  induction lead with
  | nil =>
      intro addr fuel _ enough memory
      obtain ⟨fuel, rfl⟩ := Nat.exists_eq_succ_of_ne_zero (Nat.ne_of_gt enough)
      have null : readWord read addr = some 0 := read_word_eq (by decide) memory
      rw [readStrings, null]
      rfl
  | @cons ptr s ptrs strings points lead ih =>
      intro addr fuel plain enough memory
      obtain ⟨fuel, rfl⟩ := Nat.exists_eq_succ_of_ne_zero (Nat.ne_of_gt (Nat.zero_lt_of_lt enough))
      obtain ⟨positive, bound, here⟩ := points
      rw [List.cons_append, word_bytes_cons, memory_at_append, length_to_le] at memory
      have pointer : readWord read addr = some ptr := read_word_eq bound memory.1
      obtain ⟨noNul, short⟩ := plain s List.mem_cons_self
      have string : readString read limit ptr = some s := read_string_eq s noNul short here
      have rest := ih (fun other member => plain other (List.mem_cons_of_mem _ member))
        (Nat.lt_of_succ_lt_succ enough) memory.2
      have behind : addr + 8 + (strings.length + 1) * 8 = addr + ((s :: strings).length + 1) *
          8 := by
        rw [List.length_cons]
        omega
      rw [readStrings, pointer, Option.bind_eq_bind, Option.bind_some,
        if_neg (Nat.ne_of_gt positive),
        string, rest, behind]
      rfl

theorem read_pairs_eq (aux : List (Nat × Nat)) :
    ∀ {addr fuel : Nat}, (∀ pair ∈ aux, pair ≠ (0, 0) ∧ pair.1 < 2 ^ 64 ∧ pair.2 < 2 ^ 64) →
      aux.length < fuel → MemoryAt read addr (wordBytes (pairWords aux ++ [0, 0])) →
      readPairs read fuel addr = some aux := by
  induction aux with
  | nil =>
      intro addr fuel _ enough memory
      obtain ⟨fuel, rfl⟩ := Nat.exists_eq_succ_of_ne_zero (Nat.ne_of_gt enough)
      change MemoryAt read addr (wordBytes [0, 0]) at memory
      rw [word_bytes_cons, memory_at_append, length_to_le] at memory
      have key : readWord read addr = some 0 := read_word_eq (by decide) memory.1
      have val : readWord read (addr + 8) = some 0 := read_word_eq (by decide) memory.2
      rw [readPairs, key, val]
      rfl
  | cons pair aux ih =>
      intro addr fuel plain enough memory
      obtain ⟨fuel, rfl⟩ := Nat.exists_eq_succ_of_ne_zero (Nat.ne_of_gt (Nat.zero_lt_of_lt enough))
      obtain ⟨nonzero, keyBound, valBound⟩ := plain pair List.mem_cons_self
      change MemoryAt read addr (wordBytes
        (pair.1 :: pair.2 :: (pairWords aux ++ [0, 0]))) at memory
      rw [word_bytes_cons, memory_at_append, length_to_le, word_bytes_cons, memory_at_append,
        length_to_le] at memory
      have key : readWord read addr = some pair.1 := read_word_eq keyBound memory.1
      have val : readWord read (addr + 8) = some pair.2 := read_word_eq valBound memory.2.1
      have rest := ih (fun other member => plain other (List.mem_cons_of_mem _ member))
        (Nat.lt_of_succ_lt_succ enough) memory.2.2
      rw [readPairs, key, val, Option.bind_eq_bind, Option.bind_some, Option.bind_eq_bind,
        Option.bind_some, if_neg nonzero, rest]
      rfl

theorem read_stack_unmapped {fuel sp : Nat} (unmapped : read sp = none) :
    readStack read fuel sp = none := by
  have noWord : readWord read sp = none := by
    rw [readWord, readBytes, unmapped]
    rfl
  rw [readStack, noWord]
  rfl

/-- The pair that ends the auxiliary pairs is never one of them. -/
theorem read_pairs_nonzero (fuel : Nat) : ∀ {addr : Nat} {aux : List (Nat × Nat)},
    readPairs read fuel addr = some aux → (0, 0) ∉ aux := by
  induction fuel with
  | zero => exact fun impossible => absurd impossible (by simp [readPairs])
  | succ fuel ih =>
      intro addr aux found
      rw [readPairs] at found
      obtain ⟨key, -, found⟩ := Option.bind_eq_some_iff.mp found
      obtain ⟨val, -, found⟩ := Option.bind_eq_some_iff.mp found
      split_ifs at found with ends
      · rw [← Option.some.inj found]
        exact List.not_mem_nil
      · obtain ⟨rest, more, same⟩ := Option.bind_eq_some_iff.mp found
        rw [← Option.some.inj same, List.mem_cons, not_or]
        exact ⟨fun equal => ends equal.symm, ih more⟩

theorem read_stack_nonzero {fuel sp : Nat} {stack : InitialStack}
    (found : readStack read fuel sp = some stack) : (0, 0) ∉ stack.aux := by
  rw [readStack] at found
  obtain ⟨argc, -, found⟩ := Option.bind_eq_some_iff.mp found
  obtain ⟨argStrings, -, found⟩ := Option.bind_eq_some_iff.mp found
  dsimp only at found
  split_ifs at found with different
  obtain ⟨envStrings, -, found⟩ := Option.bind_eq_some_iff.mp found
  obtain ⟨aux, pairs, same⟩ := Option.bind_eq_some_iff.mp found
  rw [← Option.some.inj same]
  exact read_pairs_nonzero fuel pairs

theorem length_lt_string_bytes {strings : List (List UInt8)} {s : List UInt8}
    (member : s ∈ strings) :
    s.length < (stringBytes strings).length := by
  have part : s ++ [0] <:+: stringBytes strings := by
    rw [stringBytes, List.flatMap_def]
    exact List.infix_of_mem_flatten (List.mem_map_of_mem member)
  have shorter := part.length_le
  rwa [List.length_append] at shorter

theorem stack_image_reads {bottom fuel : Nat} {args env : List (List UInt8)}
    {aux : List (Nat × Nat)}
    (plain : ∀ s ∈ args ++ env, (0 : UInt8) ∉ s)
    (pairs : ∀ pair ∈ aux, pair ≠ (0, 0) ∧ pair.1 < 2 ^ 64 ∧ pair.2 < 2 ^ 64)
    (bound : bottom + (stackImage bottom args env aux).length ≤ 2 ^ 64)
    (enough : (stackImage bottom args env aux).length ≤ fuel)
    (memory : MemoryAt read bottom (stackImage bottom args env aux)) :
    readStack read fuel bottom = some ⟨args, env, aux⟩ ∧
      readStrings read fuel fuel (bottom + 8) =
        some (args, bottom + (8 + (args.length + 1) * 8)) ∧
      readStrings read fuel fuel (bottom + (8 + (args.length + 1) * 8)) =
        some (env, bottom + (8 + (args.length + 1) * 8 + (env.length + 1) * 8)) := by
  have total := length_stack_image bottom args env aux
  rw [totalSize, ← length_string_bytes] at total
  rw [total, stringsOffset] at bound enough
  let ptrs := stringAddresses (bottom + stringsOffset args env aux) (args ++ env)
  have count : ptrs.length = args.length + env.length := by
    rw [length_string_addresses, List.length_append]
  have argPtrs : (ptrs.take args.length).length = args.length := by
    rw [List.length_take, count, Nat.min_eq_left (Nat.le_add_right _ _)]
  have envPtrs : (ptrs.drop args.length).length = env.length := by
    rw [List.length_drop, count, Nat.add_sub_cancel_left]
  have short : ∀ s ∈ args ++ env, (0 : UInt8) ∉ s ∧ s.length < fuel := by
    intro s member
    have smaller := length_lt_string_bytes member
    exact ⟨plain s member, by omega⟩
  unfold stackImage at memory
  simp only [memory_at_append, List.length_append, List.length_cons, List.length_nil, length_to_le,
    length_word_bytes, length_pair_words] at memory
  obtain ⟨⟨⟨⟨argcAt, argvAt⟩, envpAt⟩, auxvAt⟩, stringsAt⟩ := memory
  have stringsPlace : 8 + 8 * ((ptrs.take args.length).length + 1) +
      8 * ((ptrs.drop args.length).length + 1) + 8 * (2 * aux.length + 2) = stringsOffset args env
        aux := by
    rw [argPtrs, envPtrs, stringsOffset]
    omega
  have lead : List.Forall₂ (PointsTo read) ptrs (args ++ env) := by
    apply string_addresses_lead (args ++ env) (by rw [stringsOffset]; omega)
      (by rw [stringsOffset]; omega)
    rw [← stringsPlace]
    exact stringsAt
  have leadArgs : List.Forall₂ (PointsTo read) (ptrs.take args.length) args := by
    have front := List.forall₂_take args.length lead
    rwa [List.take_left] at front
  have leadEnv : List.Forall₂ (PointsTo read) (ptrs.drop args.length) env := by
    have back := List.forall₂_drop args.length lead
    rwa [List.drop_left] at back
  have argc : readWord read bottom = some args.length := read_word_eq (by omega) argcAt
  have argv : readStrings read fuel fuel (bottom + 8) = _ :=
    read_strings_eq leadArgs (fun s member => short s (List.mem_append_left _ member))
      (by omega) argvAt
  rw [Nat.add_assoc] at argv
  have envpPlace : bottom + (8 + 8 * ((ptrs.take args.length).length + 1)) =
      bottom + (8 + (args.length + 1) * 8) := by
    rw [argPtrs]
    omega
  have envpThere : MemoryAt read (bottom + (8 + (args.length + 1) * 8))
      (wordBytes (ptrs.drop args.length ++ [0])) := by
    rw [← envpPlace]
    exact envpAt
  have envp : readStrings read fuel fuel (bottom + (8 + (args.length + 1) * 8)) = _ :=
    read_strings_eq leadEnv (fun s member => short s (List.mem_append_right _ member)) (by omega)
      envpThere
  rw [Nat.add_assoc bottom] at envp
  have auxv : readPairs read fuel (bottom + (8 + (args.length + 1) * 8 + (env.length + 1) * 8)) =
      some aux := by
    apply read_pairs_eq aux pairs (by omega)
    have place : bottom + (8 + 8 * ((ptrs.take args.length).length + 1) +
        8 * ((ptrs.drop args.length).length + 1)) =
        bottom + (8 + (args.length + 1) * 8 + (env.length + 1) * 8) := by
      rw [argPtrs, envPtrs]
      omega
    rw [← place]
    exact auxvAt
  refine ⟨?_, argv, envp⟩
  have same : ¬args.length ≠ args.length := not_not_intro rfl
  rw [readStack, argc, Option.bind_eq_bind, Option.bind_some, argv, Option.bind_eq_bind,
    Option.bind_some]
  dsimp only
  rw [if_neg same, envp, Option.bind_eq_bind, Option.bind_some]
  dsimp only
  rw [auxv]
  rfl

end Reading

end Campix.Formats
