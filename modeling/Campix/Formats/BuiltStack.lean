import Campix.Formats.Image
import Campix.Formats.StackLayout
import Campix.Formats.TablesInOrder
import Campix.Paging.EntryWords

/-!
# The stack that is built

`build_stack` writes the image of the initial stack into its buffers, out of order and across the
ends of the pages, and then maps the buffers downwards from the top. The buffers behind one another
are one array of bytes, in which every write replaces a part; the pages below the top of the stack
show this array.
-/

namespace Campix.Formats

open Lib.Slice Lib.Word Lib.Fallible Lib.Outcome Lib.TableTree
open Paging

set_option autoImplicit false

variable {σ : Type} {allocator : LawfulAllocator σ} {pt : PageTable} {pages : List Nat}
variable {state : Loading σ}

def flatBytes (pages : List Nat) (machine : Machine σ) : List UInt8 :=
  pages.flatMap fun page => bytesOf (machine.mem page)

theorem length_flat_bytes (pages : List Nat) (machine : Machine σ) :
    (flatBytes pages machine).length = pages.length * pageSize := by
  induction pages with
  | nil => exact (Nat.zero_mul _).symm
  | cons page pages ih =>
      rw [flatBytes, List.flatMap_cons, List.length_append, ← flatBytes, ih, length_bytes_of,
        List.length_cons, Nat.succ_mul, Nat.add_comm]

theorem get_flat_bytes (pages : List Nat) (machine : Machine σ) :
    ∀ place, (flatBytes pages machine)[place]? =
      pages[place / pageSize]?.bind fun page =>
        (bytesOf (machine.mem page))[place % pageSize]? := by
  have positive : 0 < pageSize := by decide
  induction pages with
  | nil => exact fun _ => rfl
  | cons page pages ih =>
      intro place
      rw [flatBytes, List.flatMap_cons, ← flatBytes]
      by_cases first : place < pageSize
      · rw [List.getElem?_append_left (by rw [length_bytes_of]; exact first),
          Nat.div_eq_of_lt first,
          Nat.mod_eq_of_lt first]
        rfl
      · have below : pageSize ≤ place := Nat.le_of_not_lt first
        have quotient : place / pageSize = (place - pageSize) / pageSize + 1 :=
          Nat.div_eq_sub_div positive below
        have remainder : place % pageSize = (place - pageSize) % pageSize :=
          Nat.mod_eq_sub_mod below
        rw [List.getElem?_append_right (by rw [length_bytes_of]; exact below), length_bytes_of, ih,
          quotient, List.getElem?_cons_succ, remainder]

theorem write_byte_flat (nodup : pages.Nodup) {offset : Nat} (byte : UInt8)
    (inside : offset < pages.length * pageSize) :
    ∃ after, writeByte pages offset byte state = .ok () after ∧
      flatBytes pages after.machine = splice (flatBytes pages state.machine) offset [byte] := by
  have positive : 0 < pageSize := by decide
  have index : offset / pageSize < pages.length := (Nat.div_lt_iff_lt_mul positive).mpr inside
  have present : pages[offset / pageSize]? = some pages[offset / pageSize] :=
    List.getElem?_eq_getElem index
  let page := pages[offset / pageSize]
  let bytes := (bytesOf (state.machine.mem page)).set (offset % pageSize) byte
  refine ⟨{ state with machine := state.machine.store page (tableOf bytes) }, ?_, ?_⟩
  · rw [writeByte, present]
    rfl
  · apply List.ext_getElem?
    intro place
    have fits : offset + [byte].length ≤ (flatBytes pages state.machine).length := by
      rw [length_flat_bytes]
      exact inside
    have single : (offset ≤ place ∧ place < offset + [byte].length) ↔ place = offset := by
      change (offset ≤ place ∧ place < offset + 1) ↔ _
      omega
    rw [get_flat_bytes, getElem?_splice fits, if_congr single rfl rfl, get_flat_bytes]
    cases found : pages[place / pageSize]? with
    | none =>
        have elsewhere : place ≠ offset := by
          rintro rfl
          rw [present] at found
          exact absurd found (by simp)
        rw [if_neg elsewhere, Option.bind_none, Option.bind_none]
    | some other =>
        rw [Option.bind_some, Option.bind_some]
        by_cases same : place / pageSize = offset / pageSize
        · obtain rfl : other = page := by
            rw [same, present] at found
            exact (Option.some.inj found).symm
          rw [Machine.store_self, bytes_of_table_of (by rw [List.length_set, length_bytes_of]),
            List.getElem?_set, length_bytes_of]
          by_cases here : place = offset
          · subst here
            rw [if_pos rfl, if_pos (Nat.mod_lt _ positive), if_pos rfl, Nat.sub_self]
            rfl
          · have apart : offset % pageSize ≠ place % pageSize := fun equal => here (by
              rw [← Nat.div_add_mod place pageSize, ← Nat.div_add_mod offset pageSize, same, equal])
            rw [if_neg apart, if_neg here]
        · have different : other ≠ page := by
            rintro rfl
            obtain ⟨within, got⟩ := List.getElem?_eq_some_iff.mp found
            exact same ((List.Nodup.getElem_inj_iff nodup).mp got)
          rw [Machine.store_other _ _ different, if_neg fun equal => same (by rw [equal])]

theorem write_bytes_flat (nodup : pages.Nodup) (bytes : List UInt8) :
    ∀ {state : Loading σ} {offset : Nat}, offset + bytes.length ≤ pages.length * pageSize →
      ∃ after, writeBytes pages offset bytes state = .ok () after ∧
        flatBytes pages after.machine = splice (flatBytes pages state.machine) offset bytes := by
  induction bytes with
  | nil => exact fun _ => ⟨_, rfl, splice_nil.symm⟩
  | cons byte bytes ih =>
      intro state offset inside
      rw [List.length_cons] at inside
      obtain ⟨first, wrote, flatFirst⟩ := write_byte_flat nodup byte (by omega : offset < _)
      obtain ⟨after, rest, flatAfter⟩ : ∃ after,
          writeBytes pages (offset + 1) bytes first = .ok () after ∧ _ :=
        ih (by omega)
      refine ⟨after, (state_bind_ok wrote).trans rest, ?_⟩
      have joined : splice (splice (flatBytes pages state.machine) offset [byte])
          (offset + [byte].length) bytes = splice (flatBytes pages state.machine) offset
            ([byte] ++ bytes) :=
        splice_splice (by rw [length_flat_bytes]; change offset + 1 + bytes.length ≤ _; omega)
      rw [flatAfter, flatFirst]
      exact joined

theorem write_u64s_flat (nodup : pages.Nodup) (vals : List Nat) :
    ∀ {state : Loading σ} {offset : Nat},
      offset + (wordBytes vals).length ≤ pages.length * pageSize →
      ∃ after, writeU64s pages offset vals state = .ok () after ∧
        flatBytes pages after.machine = splice (flatBytes pages state.machine)
          offset (wordBytes vals) := by
  induction vals with
  | nil => exact fun _ => ⟨_, rfl, splice_nil.symm⟩
  | cons val vals ih =>
      intro state offset inside
      rw [word_bytes_cons, List.length_append, length_to_le] at inside
      obtain ⟨first, wrote, flatFirst⟩ := write_bytes_flat nodup (toLe val 8)
        (by rw [length_to_le]; omega : offset + (toLe val 8).length ≤ _)
      obtain ⟨after, rest, flatAfter⟩ : ∃ after,
          writeU64s pages (offset + 8) vals first = .ok () after ∧ _ :=
        ih (by omega)
      refine ⟨after, (state_bind_ok wrote).trans rest, ?_⟩
      have joined : splice (splice (flatBytes pages state.machine) offset (toLe val 8))
          (offset + (toLe val 8).length) (wordBytes vals) = _ :=
        splice_splice (by rw [length_flat_bytes, length_to_le]; omega)
      rw [length_to_le] at joined
      rw [flatAfter, flatFirst, joined, word_bytes_cons]

theorem write_strings_flat (nodup : pages.Nodup) {bottom : Nat}
    (bound : bottom + pages.length * pageSize < 2 ^ 64) (strings : List (List UInt8)) :
    ∀ {state : Loading σ} {idx : Nat},
      idx + (stringBytes strings).length ≤ pages.length * pageSize →
      ∃ after, writeStrings pages bottom idx strings state =
          .ok (stringAddresses (bottom + idx) strings, idx + (stringBytes strings).length) after ∧
        flatBytes pages after.machine =
          splice (flatBytes pages state.machine) idx (stringBytes strings) := by
  induction strings with
  | nil => exact fun _ => ⟨_, rfl, splice_nil.symm⟩
  | cons s strings ih =>
      intro state idx inside
      rw [string_bytes_cons, List.length_append, List.length_append] at inside
      change idx + (s.length + 1 + _) ≤ _ at inside
      obtain ⟨first, wrote, flatFirst⟩ := write_bytes_flat nodup s (by omega : idx + s.length ≤ _)
      obtain ⟨second, ended, flatSecond⟩ := write_byte_flat nodup 0 (by omega : idx + s.length < _)
      obtain ⟨after, rest, flatAfter⟩ :
          ∃ after, writeStrings pages bottom (idx + s.length + 1) strings second = _ ∧ _ :=
            ih (by omega)
      have addr : add64 bottom idx = bottom + idx := add64_of_lt (by omega)
      refine ⟨after, ?_, ?_⟩
      · rw [writeStrings, state_bind_ok wrote, state_bind_ok ended, state_bind_ok rest]
        dsimp only
        rw [addr, string_bytes_cons, List.length_append, List.length_append, stringAddresses]
        have place : idx + s.length + 1 + (stringBytes strings).length =
            idx + (s.length + [(0 : UInt8)].length + (stringBytes strings).length) := by
          change _ = idx + (s.length + 1 + _)
          omega
        rw [place, Nat.add_assoc bottom, Nat.add_assoc idx, Nat.add_assoc bottom, Nat.add_assoc idx]
        rfl
      · have ends : splice (splice (flatBytes pages state.machine) idx s) (idx + s.length)
            [0] = _ :=
          splice_splice (by rw [length_flat_bytes]; change idx + s.length + 1 ≤ _; omega)
        have joined : splice (splice (flatBytes pages state.machine) idx (s ++ [0]))
            (idx + (s ++ [0]).length) (stringBytes strings) = _ :=
          splice_splice (by rw [length_flat_bytes, List.length_append]; change idx + (s.length + 1) + _ ≤ _; omega)
        rw [List.length_append, ← Nat.add_assoc] at joined
        rw [flatAfter, flatSecond, flatFirst, ends, string_bytes_cons]
        exact joined

def Stored (pages : List Nat) (state : Loading σ) (offset : Nat) (bytes : List UInt8) : Prop :=
  MemoryAt (fun place => (flatBytes pages state.machine)[place]?) offset bytes

section Stored

variable {after : Loading σ} {offset place : Nat} {bytes part : List UInt8}
variable (inside : offset + bytes.length ≤ pages.length * pageSize)
variable (flat : flatBytes pages after.machine = splice (flatBytes pages state.machine)
  offset bytes)

include inside flat

theorem stored_here : Stored pages after offset bytes := by
  rw [Stored, flat]
  exact memory_at_splice (by rwa [length_flat_bytes])

theorem stored_apart (stored : Stored pages state place part)
    (apart : place + part.length ≤ offset ∨ offset + bytes.length ≤ place) :
    Stored pages after place part := by
  rw [Stored, flat]
  exact memory_at_splice_apart (by rwa [length_flat_bytes]) apart stored

end Stored

/-- What `build_stack` writes, and the offset behind it. -/
def fillPages (pages : List Nat) (stackBottom : Nat) (args env : List (List UInt8))
    (aux : List (Nat × Nat)) : Load σ Nat := do
  writeU64 pages 0 args.length
  let (stringPtrs, idx) ← writeStrings pages stackBottom (stringsOffset args env aux) (args ++ env)
  writeU64s pages 8 (stringPtrs.take args.length ++ [0])
  writeU64s pages (8 + (args.length + 1) * 8) (stringPtrs.drop args.length ++ [0])
  writeU64s pages (8 + (args.length + 1) * 8 + (env.length + 1) * 8) (pairWords aux)
  writeU64s pages (8 + (args.length + 1) * 8 + (env.length + 1) * 8 + 16 * aux.length) [0, 0]
  return idx

/-- `build_stack` up to the assertion. -/
def fillStack (allocator : LawfulAllocator σ) (stackTop : Nat) (args env : List (List UInt8))
    (aux : List (Nat × Nat)) : Load σ (List Nat) := do
  let pages ← callocPages allocator (stackPageCount args env aux)
  let totalAllocSize := stackPageCount args env aux * pageSize
  let idx ← fillPages pages (sub64 stackTop totalAllocSize) args env aux
  if idx > totalAllocSize then
    throw .panic
  else
    return pages

theorem assert_bind {Value Result : Type} {idx limit : Nat} (value : Value)
    (rest : Value → Load σ Result) :
    ((if idx > limit then throw .panic else pure value) >>= rest) =
      if idx > limit then throw .panic else rest value := by
  split_ifs <;> rfl

theorem build_stack_eq (allocator : LawfulAllocator σ) (stackTop : Nat) (pt : PageTable)
    (flags : Nat)
    (args env : List (List UInt8)) (aux : List (Nat × Nat)) :
    (buildStack allocator stackTop pt flags args env aux : Load σ _) = do
      let pages ← fillStack allocator stackTop args env aux
      let stackBottom := sub64 stackTop (stackPageCount args env aux * pageSize)
      let stack ← ThreadStack.growUsing allocator pt flags ⟨stackTop, 0, []⟩ pages.reverse
      return (stack, stackBottom, add64 stackBottom 8,
        add64 stackBottom (8 + (args.length + 1) * 8)) := by
  unfold buildStack fillStack fillPages stackPageCount stringsOffset pairWords
  simp only [bind_assoc, pure_bind]
  refine bind_congr fun pages => bind_congr fun _ => bind_congr fun written => bind_congr fun _ =>
    bind_congr fun _ => bind_congr fun _ => bind_congr fun _ => ?_
  rw [assert_bind]

theorem write_u64s_append (pages : List Nat) (front back : List Nat) :
    ∀ offset, (writeU64s pages offset (front ++ back) : Load σ Unit) =
      writeU64s pages offset front >>= fun _ =>
        writeU64s pages (offset + front.length * 8) back := by
  induction front with
  | nil => exact fun _ => rfl
  | cons val front ih =>
      intro offset
      have place : offset + 8 + front.length * 8 = offset + (val :: front).length * 8 := by
        rw [List.length_cons]
        omega
      rw [List.cons_append, writeU64s, writeU64s, bind_assoc, ← place]
      exact bind_congr fun _ => ih (offset + 8)

/-- The words behind the count of the arguments are written in the order in which they stand. -/
theorem write_tables_eq (argv envp pairs null : List Nat) {Result : Type} (rest : Load σ Result) :
    (do
      writeU64s pages 8 argv
      writeU64s pages (8 + argv.length * 8) envp
      writeU64s pages (8 + argv.length * 8 + envp.length * 8) pairs
      writeU64s pages (8 + argv.length * 8 + envp.length * 8 + pairs.length * 8) null
      rest) = (do
      writeU64s pages 8 (argv ++ (envp ++ (pairs ++ null)))
      rest : Load σ Result) := by
  rw [write_u64s_append, write_u64s_append, write_u64s_append]
  simp only [bind_assoc]

theorem fill_pages_runs (nodup : pages.Nodup) {bottom : Nat} {args env : List (List UInt8)}
    {aux : List (Nat × Nat)} (bound : bottom + pages.length * pageSize < 2 ^ 64)
    (room : (stackImage bottom args env aux).length ≤ pages.length * pageSize) :
    ∃ after, fillPages pages bottom args env aux state =
        .ok (stackImage bottom args env aux).length after ∧
      MemoryAt (fun place => (flatBytes pages after.machine)[place]?) 0
        (stackImage bottom args env aux) := by
  have total := length_stack_image bottom args env aux
  rw [totalSize, ← length_string_bytes] at total
  let ptrs := stringAddresses (bottom + stringsOffset args env aux) (args ++ env)
  let words := (ptrs.take args.length ++ [0]) ++ ((ptrs.drop args.length ++ [0]) ++
    (pairWords aux ++ [0, 0]))
  have count : ptrs.length = args.length + env.length := by
    rw [length_string_addresses, List.length_append]
  have argv : (ptrs.take args.length ++ [0]).length = args.length + 1 := by
    rw [List.length_append, List.length_take, count]
    change min _ _ + 1 = _
    omega
  have envp : (ptrs.drop args.length ++ [0]).length = env.length + 1 := by
    rw [List.length_append, List.length_drop, count]
    change _ + 1 = _
    omega
  have pairs : (pairWords aux).length * 8 = 16 * aux.length := by
    rw [length_pair_words]
    omega
  have tables : 8 + (wordBytes words).length = stringsOffset args env aux := by
    unfold stringsOffset
    rw [length_word_bytes, List.length_append, argv, List.length_append, envp, List.length_append]
    change 8 + 8 * (_ + (_ + (_ + 2))) = _
    omega
  have argcLength := length_to_le args.length 8
  have argcInside : 0 + (toLe args.length 8).length ≤ pages.length * pageSize := by omega
  have stringsInside : stringsOffset args env aux + (stringBytes (args ++ env)).length ≤
      pages.length * pageSize := by omega
  have wordsInside : 8 + (wordBytes words).length ≤ pages.length * pageSize := by omega
  obtain ⟨first, wroteArgc, flatArgc⟩ :
      ∃ first, writeU64 pages 0 args.length state = .ok () first ∧ _ :=
    write_bytes_flat nodup (toLe args.length 8) argcInside
  obtain ⟨second, wroteStrings, flatStrings⟩ : ∃ second, writeStrings pages bottom
      (stringsOffset args env aux) (args ++ env) first = .ok (ptrs, _) second ∧ _ :=
    write_strings_flat nodup bound (args ++ env) stringsInside
  obtain ⟨third, wroteWords, flatWords⟩ :
      ∃ third, writeU64s pages 8 words second = .ok () third ∧ _ :=
    write_u64s_flat nodup words wordsInside
  -- each part is written once, and the later writes are beside it
  have argcStays : Stored pages third 0 (toLe args.length 8) := by
    have written := stored_here argcInside flatArgc
    have second := stored_apart stringsInside flatStrings written (Or.inl (by omega))
    exact stored_apart wordsInside flatWords second (Or.inl (by omega))
  have stringsStay : Stored pages third (stringsOffset args env aux)
      (stringBytes (args ++ env)) :=
    stored_apart wordsInside flatWords (stored_here stringsInside flatStrings) (Or.inr (by omega))
  have wordsStay := stored_here wordsInside flatWords
  refine ⟨third, ?_, ?_⟩
  · rw [fillPages, state_bind_ok wroteArgc, state_bind_ok wroteStrings]
    dsimp only
    rw [← argv, ← envp, ← pairs, write_tables_eq, state_bind_ok wroteWords, total]
    rfl
  · have image : stackImage bottom args env aux =
        toLe args.length 8 ++ wordBytes words ++ stringBytes (args ++ env) := by
      simp only [stackImage, words, ptrs, word_bytes_append, List.append_assoc]
    rw [image, memory_at_append, memory_at_append, List.length_append, argcLength, Nat.zero_add,
      Nat.zero_add, tables]
    exact ⟨⟨argcStays, wordsStay⟩, stringsStay⟩

theorem fill_pages_settles {mappable : Nat → Prop} {inv : List Nat → Loading σ → Prop}
    (keeps : Preserves allocator pt mappable inv) (holds : inv pages state) (bottom : Nat)
    (args env : List (List UInt8)) (aux : List (Nat × Nat)) :
    Settles (fun _ => inv pages) (inv []) (fillPages pages bottom args env aux state) := by
  rw [fillPages]
  apply settles_bind (write_bytes_settles keeps _ _ holds)
  intro _ first holdsFirst
  apply settles_bind (write_strings_settles keeps _ _ _ holdsFirst)
  intro written second holdsSecond
  apply settles_bind (write_u64s_settles keeps _ _ holdsSecond)
  intro _ third holdsThird
  apply settles_bind (write_u64s_settles keeps _ _ holdsThird)
  intro _ fourth holdsFourth
  apply settles_bind (write_u64s_settles keeps _ _ holdsFourth)
  intro _ fifth holdsFifth
  apply settles_bind (write_u64s_settles keeps _ _ holdsFifth)
  intro _ sixth holdsSixth
  exact .ok holdsSixth

theorem stack_page_count_eq (args env : List (List UInt8)) (aux : List (Nat × Nat)) :
    stackPageCount args env aux = (totalSize args env aux + pageSize - 1) / pageSize := by
  rw [totalSize, List.map_append, List.sum_append, stackPageCount, stringsOffset]
  congr 1
  omega

theorem stack_room {stackTop : Nat} {args env : List (List UInt8)} {aux : List (Nat × Nat)}
    (aligned : pageSize ∣ stackTop) (room : totalSize args env aux < stackTop) :
    totalSize args env aux ≤ stackPageCount args env aux * pageSize ∧
      stackPageCount args env aux * pageSize ≤ stackTop := by
  rw [stack_page_count_eq]
  unfold pageSize at *
  omega

theorem fill_stack_runs {stackTop : Nat} {first : Loading σ} {args env : List (List UInt8)}
    {aux : List (Nat × Nat)} (tree : Tree allocator pt.pml4 [] state) (bound : stackTop < 2 ^ 64)
    (aligned : pageSize ∣ stackTop) (room : totalSize args env aux < stackTop)
    (allocated : callocPages allocator (stackPageCount args env aux) state = .ok pages first) :
    ∃ filled, fillStack allocator stackTop args env aux state = .ok pages filled ∧
      Tree allocator pt.pml4 pages filled ∧ pages.length = stackPageCount args env aux ∧
      (∀ page ∈ pages, UsablePage page) ∧ pages.Nodup ∧
      Stored pages filled 0
        (stackImage (stackTop - stackPageCount args env aux * pageSize) args env aux) := by
  obtain ⟨enough, fits⟩ := stack_room aligned room
  have keeps : Preserves allocator pt _ (Tree allocator pt.pml4) := in_order_preserves
  obtain ⟨treeFirst, length, nodup, fresh⟩ :=
    settles_ok (calloc_pages_settles keeps _ tree) allocated
  rw [List.append_nil] at treeFirst
  have bottom : sub64 stackTop (stackPageCount args env aux * pageSize) =
      stackTop - stackPageCount args env aux * pageSize := sub64_of_le fits
  have inside : (stackImage (stackTop - stackPageCount args env aux * pageSize)
      args env aux).length ≤
      pages.length * pageSize := by
    rw [length, length_stack_image]
    exact enough
  have belowTop : stackTop - stackPageCount args env aux * pageSize + pages.length * pageSize < 2 ^
      64 := by
    rw [length, Nat.sub_add_cancel fits]
    exact bound
  obtain ⟨filled, filledPages, stored⟩ : ∃ filled, fillPages pages _ args env aux first = _ ∧ _ :=
    fill_pages_runs nodup belowTop inside
  have treeFilled := settles_ok (fill_pages_settles keeps treeFirst _ args env aux) filledPages
  refine ⟨filled, ?_, treeFilled, length, fun page member => (fresh page member).1, nodup, stored⟩
  rw [fillStack, state_bind_ok allocated, bottom, state_bind_ok filledPages, length_stack_image,
    if_neg (Nat.not_lt.mpr enough)]
  rfl

def pageBelow (top above : Nat) : Nat := top - (above + 1) * pageSize

theorem small_entry_pages {left right : Nat} (same : smallEntry left = smallEntry right) :
    left / pageSize % 2 ^ 36 = right / pageSize % 2 ^ 36 := by
  simp only [smallEntry, largeEntry, List.cons.injEq, and_true, Fin.ext_iff, index_val] at same
  unfold pageSize
  omega

theorem entries_of_page {left right : Nat} (same : left / pageSize = right / pageSize) :
    smallEntry left = smallEntry right ∧ largeEntry left = largeEntry right := by
  unfold pageSize at same
  have large : largeEntry left = largeEntry right := by
    simp only [largeEntry, List.cons.injEq, and_true, Fin.ext_iff, index_val]
    omega
  refine ⟨?_, large⟩
  rw [smallEntry, smallEntry, large]
  congr 1
  rw [Fin.ext_iff, index_val, index_val]
  omega

theorem graft_other_entry {ends : List (Fin 512) → Option Nat} {value : Option Nat}
    {virt other : Nat}
    (different : smallEntry other ≠ smallEntry virt) :
    graft ends (smallEntry virt) value (smallEntry other) = ends (smallEntry other) := by
  rw [graft, if_neg different, if_neg]
  exact fun inside => different (inside.eq_of_length rfl).symm

/-- The buffers are mapped downwards from `top`, each in a page of its own; other entries of small
pages, those of large pages and the words of the buffers are as before. -/
structure MappedBelow (allocator : LawfulAllocator σ) (root top : Nat) (buffers : List Nat)
    (before after : Machine σ) : Prop where
  intact : Intact allocator root after
  untouched : Untouched allocator root before after
  mapped : ∀ above buffer, buffers[above]? = some buffer →
    leaves root after (largeEntry (pageBelow top above)) = none ∧
      leaves root after (smallEntry (pageBelow top above)) = some (sub64 buffer directMappingOffset)
  beside : ∀ virt, (∀ above < buffers.length, smallEntry virt ≠ smallEntry (pageBelow top above)) →
    leaves root after (smallEntry virt) = leaves root before (smallEntry virt)
  large : ∀ virt, leaves root after (largeEntry virt) = leaves root before (largeEntry virt)

theorem mapped_below_nil {root top : Nat} {machine : Machine σ}
    (intact : Intact allocator root machine) :
    MappedBelow allocator root top [] machine machine :=
  ⟨intact, untouched_refl, fun _ _ found => absurd found (by simp), fun _ _ => rfl, fun _ => rfl⟩

theorem page_entries_apart {top left right count : Nat} (aligned : pageSize ∣ top)
    (room : count * pageSize ≤ top) (few : count ≤ 0x6_0000_0000) (onLeft : left < count)
    (onRight : right < count) (same : smallEntry
      (pageBelow top left) = smallEntry (pageBelow top right)) :
    left = right := by
  have pages := small_entry_pages same
  unfold pageBelow pageSize at *
  omega

theorem mapped_below_cons {top buffer flags : Nat} {buffers : List Nat}
    {before middle after : Machine σ}
    (aligned : pageSize ∣ top) (room : (buffers.length + 1) * pageSize ≤ top)
    (few : buffers.length + 1 ≤ 0x6_0000_0000) (usable : UsablePage buffer)
    (valid : ValidFlags flags)
    (written : Written leaf allocator pt.pml4 before (smallEntry (pageBelow top 0))
      (leaf 3 (alignDown (sub64 buffer directMappingOffset) pageSize ||| flags)) middle)
    (rest : MappedBelow allocator pt.pml4 (pageBelow top 0) buffers middle after) :
    MappedBelow allocator pt.pml4 top (buffer :: buffers) before after := by
  have base := valid_base_of_page usable
  have value : leaf 3 (alignDown (sub64 buffer directMappingOffset) pageSize ||| flags) =
      some (sub64 buffer directMappingOffset) := by
    rw [align_down_page (base.bound.trans (by decide)), Nat.div_mul_cancel base.aligned]
    exact written_leaf base valid
  have shift : ∀ above, pageBelow (pageBelow top 0) above = pageBelow top (above + 1) := by
    intro above
    unfold pageBelow
    rw [Nat.sub_sub, ← Nat.add_mul]
    congr 2
    omega
  have grafted := written.written
  rw [value] at grafted
  refine ⟨rest.intact, untouched_trans written.untouched rest.untouched, ?_, ?_, ?_⟩
  · intro above found present
    cases above with
    | zero =>
        obtain rfl : buffer = found := Option.some.inj present
        have apart : ∀ above < buffers.length,
            smallEntry (pageBelow top 0) ≠ smallEntry (pageBelow (pageBelow top 0) above) := by
          intro above below same
          rw [shift] at same
          have equal := page_entries_apart aligned room few (Nat.succ_pos _)
            (Nat.succ_lt_succ below) same
          exact absurd equal (Nat.succ_ne_zero above).symm
        constructor
        · rw [rest.large, views, leaves] at *
          exact (congrFun grafted _).trans (graft_large.trans written.uncovered)
        · rw [rest.beside _ apart]
          exact (congrFun grafted _).trans (if_pos rfl)
    | succ above =>
        rw [← shift]
        exact rest.mapped above found present
  · intro virt apart
    have later : ∀ above < buffers.length,
        smallEntry virt ≠ smallEntry (pageBelow (pageBelow top 0) above) := by
      intro above below
      rw [shift]
      exact apart (above + 1) (Nat.succ_lt_succ below)
    rw [rest.beside virt later]
    exact (congrFun grafted _).trans (graft_other_entry (apart 0 (Nat.succ_pos _)))
  · intro virt
    rw [rest.large]
    exact (congrFun grafted _).trans graft_large

theorem grow_using_maps {flags top : Nat} (valid : ValidFlags flags) (bound : top < 2 ^ 64)
    (aligned : pageSize ∣ top) (buffers : List Nat) :
    ∀ {stack : ThreadStack} {state : Loading σ}, stack.Sized top →
      (stack.stackBuffers.length + buffers.length) * pageSize ≤ top →
        buffers.length ≤ 0x6_0000_0000 →
      (∀ buffer ∈ buffers, UsablePage buffer) → Intact allocator pt.pml4 state.machine →
      MapsAll allocator.toPageAllocator pt flags stack buffers state.machine →
      ∃ after, ThreadStack.growUsing allocator pt flags stack buffers state =
          .ok (buffers.foldl ThreadStack.pushed stack) { state with machine := after } ∧
        MappedBelow allocator pt.pml4 (top - stack.stackBuffers.length * pageSize)
          buffers state.machine
          after := by
  induction buffers with
  | nil => exact fun _ _ _ _ intact _ => ⟨_, rfl, mapped_below_nil intact⟩
  | cons buffer buffers ih =>
      intro stack state sized room few usable intact ⟨middle, stepped, rest⟩
      have counted := pushed_length stack buffer
      rw [List.length_cons] at room few
      have total : stack.stackBuffers.length + 1 + buffers.length =
          stack.stackBuffers.length + (buffers.length + 1) := by omega
      have roomHere : (stack.stackBuffers.length + 1) * pageSize ≤ top := by
        refine le_trans (Nat.mul_le_mul_right pageSize ?_) room
        omega
      have roomBelow : (buffers.length + 1) * pageSize ≤ top - stack.stackBuffers.length *
          pageSize := by
        rw [Nat.add_mul] at room
        exact Nat.le_sub_of_add_le' room
      have below : pageBelow (top - stack.stackBuffers.length * pageSize) 0 =
          top - (stack.stackBuffers.length + 1) * pageSize := by
        rw [pageBelow, Nat.zero_add, Nat.one_mul, Nat.sub_sub, Nat.succ_mul]
      have mappedFirst : stack.growUsingExistingBuffer allocator pt flags buffer state =
          .ok (stack.pushed buffer) { state with machine := middle } := by
        rw [grow_using_existing_buffer_eq, stepped, stateAfter]
      rw [pushed_bottom sized buffer roomHere bound, ← below] at stepped
      have written := map4kb_written leaf_reading intact stepped
      obtain ⟨after, grown, mapped⟩ : ∃ after, ThreadStack.growUsing allocator pt flags
          (stack.pushed buffer) buffers { state with machine := middle } = _ ∧ _ :=
        ih (sized_pushed sized buffer) (by rw [counted, total]; exact room)
          (Nat.le_of_succ_le few) (fun other member => usable other (List.mem_cons_of_mem _ member))
          written.intact rest
      refine ⟨after, ?_, ?_⟩
      · rw [ThreadStack.growUsing, state_bind_ok mappedFirst, grown, List.foldl_cons]
      · rw [counted, ← below] at mapped
        exact mapped_below_cons (Nat.dvd_sub aligned (Nat.dvd_mul_left _ _)) roomBelow few
          (usable buffer List.mem_cons_self) valid written mapped

theorem mapped_reads {top : Nat} {after : Machine σ} {filled : Loading σ}
    (tree : Tree allocator pt.pml4 pages filled) (usable : ∀ page ∈ pages, UsablePage page)
    (aligned : pageSize ∣ top) (fits : pages.length * pageSize ≤ top)
    (mapped : MappedBelow allocator pt.pml4 top pages.reverse filled.machine after) {place : Nat}
    (inside : place < pages.length * pageSize) :
    readVirtual allocator.toPageAllocator pt after (top - pages.length * pageSize + place) =
      (flatBytes pages filled.machine)[place]? := by
  have positive : 0 < pageSize := by decide
  have index : place / pageSize < pages.length := (Nat.div_lt_iff_lt_mul positive).mpr inside
  have present : pages[place / pageSize]? = some pages[place / pageSize] :=
    List.getElem?_eq_getElem index
  let buffer := pages[place / pageSize]
  have member : buffer ∈ pages := List.getElem_mem index
  let above := pages.length - 1 - place / pageSize
  have mirrored : ∀ count number : Nat, number < count →
      count - 1 - number < count ∧ count - 1 - (count - 1 - number) = number := by
    intro count number inside
    omega
  obtain ⟨aboveInside, back⟩ := mirrored _ _ index
  have reversed : pages.reverse[above]? = some buffer := by
    rw [List.getElem?_reverse aboveInside, back, present]
  obtain ⟨noLarge, small⟩ := mapped.mapped above buffer reversed
  have page : (top - pages.length * pageSize + place) / pageSize = pageBelow top above /
      pageSize := by
    have aboveValue : above = pages.length - 1 - place / pageSize := rfl
    unfold pageBelow pageSize at *
    omega
  have offset : (top - pages.length * pageSize + place) % pageSize = place % pageSize := by
    unfold pageSize at *
    omega
  obtain ⟨sameSmall, sameLarge⟩ := entries_of_page page
  obtain ⟨held, unlinked⟩ := tree.loose buffer member
  have found : lookup (leaves pt.pml4 after) (top - pages.length * pageSize + place) =
      some (sub64 buffer directMappingOffset +
        (top - pages.length * pageSize + place) % pageSize) := by
    rw [lookup, sameSmall, sameLarge, noLarge, small]
    rfl
  rw [read_of_lookup (usable buffer member) found, (mapped.untouched buffer ⟨held, unlinked⟩).2,
    offset,
    get_flat_bytes, present, Option.bind_some]

theorem stored_is_read {top : Nat} {after : Machine σ} {filled : Loading σ} {bytes : List UInt8}
    (tree : Tree allocator pt.pml4 pages filled) (usable : ∀ page ∈ pages, UsablePage page)
    (aligned : pageSize ∣ top) (fits : pages.length * pageSize ≤ top)
    (mapped : MappedBelow allocator pt.pml4 top pages.reverse filled.machine after)
    (enough : bytes.length ≤ pages.length * pageSize) (stored : Stored pages filled 0 bytes) :
    MemoryAt (readVirtual allocator.toPageAllocator pt after) (top - pages.length * pageSize)
      bytes := by
  intro place inside
  have there := stored place inside
  rw [Nat.zero_add] at there
  rw [mapped_reads tree usable aligned fits mapped (Nat.lt_of_lt_of_le inside enough)]
  exact there

theorem pushed_buffers (buffers : List Nat) : ∀ stack : ThreadStack,
    (buffers.foldl ThreadStack.pushed stack).stackBuffers = stack.stackBuffers ++ buffers := by
  induction buffers with
  | nil => exact fun stack => (List.append_nil _).symm
  | cons buffer buffers ih =>
      intro stack
      rw [List.foldl_cons, ih, ThreadStack.pushed, List.append_assoc, List.singleton_append]

/-- The stack whose buffers hold the image is mapped so that the process reads the image at the
stack pointer. -/
theorem built_stack_reads {stackTop flags : Nat} {filled : Loading σ} {args env : List (List UInt8)}
    {aux : List (Nat × Nat)} (bound : stackTop < 2 ^ 64) (aligned : pageSize ∣ stackTop)
    (room : totalSize args env aux < stackTop) (valid : ValidFlags flags)
    (filledStack : fillStack allocator stackTop args env aux state = .ok pages filled)
    (tree : Tree allocator pt.pml4 pages filled)
    (length : pages.length = stackPageCount args env aux)
    (usable : ∀ page ∈ pages, UsablePage page) (nodup : pages.Nodup)
    (stored : Stored pages filled 0
      (stackImage (stackTop - stackPageCount args env aux * pageSize) args env aux))
    (mapped : MapsAll allocator.toPageAllocator pt flags ⟨stackTop, 0, []⟩
      pages.reverse filled.machine) :
    ∃ stack after, buildStack allocator stackTop pt flags args env aux state =
        .ok (stack, stackTop - stackPageCount args env aux * pageSize,
          stackTop - stackPageCount args env aux * pageSize + 8,
          stackTop - stackPageCount args env aux * pageSize + (8 + (args.length + 1) * 8)) after ∧
      stack.stackBuffers = pages.reverse ∧
      MemoryAt (readVirtual allocator.toPageAllocator pt after.machine)
        (stackTop - stackPageCount args env aux * pageSize)
        (stackImage (stackTop - stackPageCount args env aux * pageSize) args env aux) := by
  obtain ⟨enough, fits⟩ := stack_room aligned room
  have few : pages.reverse.length ≤ 0x6_0000_0000 := by
    rw [List.length_reverse]
    exact usable_pages_bound nodup usable
  have roomBelow : (([] : List Nat).length + pages.reverse.length) * pageSize ≤ stackTop := by
    rw [List.length_nil, Nat.zero_add, List.length_reverse, length]
    exact fits
  obtain ⟨after, grown, below⟩ : ∃ after, ThreadStack.growUsing allocator pt flags ⟨stackTop, 0, []⟩
      pages.reverse filled = _ ∧ _ :=
    grow_using_maps valid bound aligned pages.reverse (new_stack_sized stackTop) roomBelow few
      (fun page member => usable page (List.mem_reverse.mp member)) tree.intact mapped
  rw [List.length_nil, Nat.zero_mul, Nat.sub_zero] at below
  have bottom : sub64 stackTop (stackPageCount args env aux * pageSize) =
      stackTop - stackPageCount args env aux * pageSize := sub64_of_le fits
  have small : 8 + (args.length + 1) * 8 ≤ totalSize args env aux := by
    unfold totalSize stringsOffset
    omega
  have argv : add64 (stackTop - stackPageCount args env aux * pageSize) 8 =
      stackTop - stackPageCount args env aux * pageSize + 8 := add64_of_lt (by omega)
  have envp : add64 (stackTop - stackPageCount args env aux * pageSize)
      (8 + (args.length + 1) * 8) =
      stackTop - stackPageCount args env aux * pageSize + (8 + (args.length + 1) * 8) :=
    add64_of_lt (by omega)
  refine ⟨_, { filled with machine := after },
    ?_, pushed_buffers pages.reverse ⟨stackTop, 0, []⟩, ?_⟩
  · rw [build_stack_eq, state_bind_ok filledStack, bottom, state_bind_ok grown, argv, envp]
    rfl
  · rw [← length] at fits enough ⊢
    apply stored_is_read tree usable aligned fits below
    · rw [length_stack_image]
      exact enough
    · rw [length]
      exact stored

/-- A process that is started on the stack finds there what the stack was built from. The pages are
there for every write and for the assertion; where all of them are mapped, they show the layout, in
which no two regions overlap. -/
theorem initial_stack_decodes (allocator : LawfulAllocator σ) (pt : PageTable)
    (state first : Loading σ)
    (intact : Intact allocator pt.pml4 state.machine) (stackTop flags : Nat)
    (args env : List (List UInt8)) (aux : List (Nat × Nat)) (pages : List Nat)
    (plain : ∀ s ∈ args ++ env, (0 : UInt8) ∉ s)
    (words : ∀ pair ∈ aux, pair.1 < 2 ^ 64 ∧ pair.2 < 2 ^ 64) (ends : (0, 0) ∉ aux)
    (bound : stackTop < 2 ^ 64) (aligned : pageSize ∣ stackTop)
    (room : totalSize args env aux < stackTop) (valid : ValidFlags flags)
    (allocated : callocPages allocator (stackPageCount args env aux) state = .ok pages first) :
    ∃ filled, fillStack allocator stackTop args env aux state = .ok pages filled ∧
      (MapsAll allocator.toPageAllocator pt flags ⟨stackTop, 0, []⟩ pages.reverse filled.machine →
        ∃ stack rsp argv envp after,
          buildStack allocator stackTop pt flags args env aux state = .ok (stack, rsp, argv, envp)
            after ∧
          stack.stackBuffers = pages.reverse ∧
          (∀ fuel, totalSize args env aux ≤ fuel →
            let read := readVirtual allocator.toPageAllocator pt after.machine
            readStack read fuel rsp = some ⟨args, env, aux⟩ ∧
              (readStrings read fuel fuel argv).map Prod.fst = some args ∧
              (readStrings read fuel fuel envp).map Prod.fst = some env) ∧
          ((stackRegions rsp args env aux).Pairwise fun left right => left.1 + left.2 ≤ right.1) ∧
          ∀ region ∈ stackRegions rsp args env aux, rsp ≤ region.1 ∧
            region.1 + region.2 ≤ stackTop) := by
  obtain ⟨filled, filledStack, tree, length, usable, nodup, stored⟩ :=
    fill_stack_runs (tree_of_intact intact) bound aligned room allocated
  refine ⟨filled, filledStack, fun mapped => ?_⟩
  obtain ⟨enough, fits⟩ := stack_room aligned room
  obtain ⟨stack, after, built, buffers, memory⟩ :=
    built_stack_reads bound aligned room valid filledStack tree length usable nodup stored mapped
  have size := length_stack_image (stackTop - stackPageCount args env aux * pageSize) args env aux
  have pairs : ∀ pair ∈ aux, pair ≠ (0, 0) ∧ pair.1 < 2 ^ 64 ∧ pair.2 < 2 ^ 64 :=
    fun pair member => ⟨fun null => ends (null ▸ member), words pair member⟩
  refine ⟨stack, _, _, _, after, built, buffers, fun fuel large => ?_, ?_, fun region member => ?_⟩
  · obtain ⟨whole, argv, envp⟩ :=
      stack_image_reads plain pairs (by omega) (size.le.trans large) memory
    exact ⟨whole, by rw [argv]; rfl, by rw [envp]; rfl⟩
  · exact (stack_regions_apart _ args env aux).1
  · have inside := (stack_regions_apart _ args env aux).2 region member
    exact ⟨inside.1, by omega⟩

def emptySpace : Loading FreeList := ⟨⟨fun _ _ => 0, tenPages⟩, []⟩

theorem empty_space_intact : Intact FreeList.lawful firstPage.pml4 emptySpace.machine := by
  have held : firstPage.pml4 ∈ FreeList.lawful.held emptySpace.machine := by
    constructor
    · decide +kernel
    · decide +kernel
  exact (absent_intact held fun _ => Nat.zero_and _).1

def emptySpaceMaps (args env : List (List UInt8)) (aux : List (Nat × Nat)) : Bool :=
  match fillStack FreeList.lawful 0x10_0000 args env aux emptySpace with
  | .ok pages filled => decide (MapsAll FreeList.lawful.toPageAllocator firstPage pageFlags
      ⟨0x10_0000, 0, []⟩ pages.reverse filled.machine)
  | .error _ _ => false

theorem empty_space_run {args env : List (List UInt8)} {aux : List (Nat × Nat)}
    (checked : emptySpaceMaps args env aux = true) :
    ∃ pages first filled,
      callocPages FreeList.lawful (stackPageCount args env aux) emptySpace = .ok pages first ∧
      fillStack FreeList.lawful 0x10_0000 args env aux emptySpace = .ok pages filled ∧
      MapsAll FreeList.lawful.toPageAllocator firstPage pageFlags ⟨0x10_0000, 0, []⟩ pages.reverse
        filled.machine := by
  rw [emptySpaceMaps] at checked
  cases outcome : fillStack FreeList.lawful 0x10_0000 args env aux emptySpace with
  | error failure after =>
      rw [outcome] at checked
      exact absurd checked (by simp)
  | ok pages filled =>
      rw [outcome] at checked
      have returned := outcome
      rw [fillStack] at returned
      obtain ⟨found, first, allocated, rest⟩ := state_bind_returned returned
      obtain ⟨idx, after, -, last⟩ := state_bind_returned rest
      split_ifs at last with overflow
      · exact (not_returned_of_throw last).elim
      · obtain rfl : found = pages := (EStateM.Result.ok.inj last).1
        exact ⟨found, first, filled, allocated, rfl, of_decide_eq_true checked⟩

/-- The arguments `ls` and `-l`. -/
def listArgs : List (List UInt8) := [[0x6C, 0x73], [0x2D, 0x6C]]

/-- The first string is longer than a page. -/
def longEnv : List (List UInt8) := [List.replicate 4100 0x41, [0x48]]

theorem long_stack_decodes :
    ∃ stack rsp argv envp after,
      buildStack FreeList.lawful 0x10_0000 firstPage pageFlags listArgs longEnv [(6, 4096)]
          emptySpace = .ok (stack, rsp, argv, envp) after ∧
        stack.stackBuffers.length = 2 ∧
        let read := readVirtual FreeList.lawful.toPageAllocator firstPage after.machine
        readStack read 5000 rsp = some ⟨listArgs, longEnv, [(6, 4096)]⟩ ∧
          (readStrings read 5000 5000 argv).map Prod.fst = some listArgs ∧
          (readStrings read 5000 5000 envp).map Prod.fst = some longEnv := by
  obtain ⟨pages, first, filled, allocated, filledStack, mapped⟩ :=
    empty_space_run (by decide +kernel : emptySpaceMaps listArgs longEnv [(6, 4096)] = true)
  obtain ⟨same, filledAgain, decodes⟩ :=
    initial_stack_decodes FreeList.lawful firstPage emptySpace first empty_space_intact 0x10_0000
      pageFlags listArgs longEnv [(6, 4096)] pages (by decide +kernel) (by decide) (by decide)
      (by decide) (by decide) (by decide +kernel) ⟨by decide, by decide⟩ allocated
  obtain rfl : same = filled := (EStateM.Result.ok.inj (filledAgain.symm.trans filledStack)).2
  obtain ⟨stack, rsp, argv, envp, after, built, buffers, reads, -⟩ := decodes mapped
  obtain ⟨_, _, _, count, -⟩ := fill_stack_runs (tree_of_intact empty_space_intact)
    (show 0x10_0000 < 2 ^ 64 by decide) (by decide) (by decide +kernel) allocated
  refine ⟨stack, rsp, argv, envp, after, built, ?_, reads 5000 (by decide +kernel)⟩
  rw [buffers, List.length_reverse, count]
  decide +kernel

/-- The pair `(0, 0)` ends the auxiliary pairs wherever it stands. -/
theorem null_pair_not_decoded :
    ∃ stack rsp argv envp after,
      buildStack FreeList.lawful 0x10_0000 firstPage pageFlags [] [] [(0, 0)] emptySpace =
        .ok (stack, rsp, argv, envp) after ∧
      ∀ fuel, readStack (readVirtual FreeList.lawful.toPageAllocator firstPage after.machine)
        fuel rsp ≠
        some ⟨[], [], [(0, 0)]⟩ := by
  have returns : (match buildStack FreeList.lawful 0x10_0000 firstPage pageFlags [] [] [(0, 0)]
      emptySpace with
    | .ok _ _ => true
    | .error _ _ => false) = true := by
    decide +kernel
  cases outcome : buildStack FreeList.lawful 0x10_0000 firstPage pageFlags [] [] [(0, 0)]
    emptySpace with
  | error failure after =>
      rw [outcome] at returns
      exact absurd returns (by simp)
  | ok result after =>
      obtain ⟨stack, rsp, argv, envp⟩ := result
      refine ⟨stack, rsp, argv, envp, after, rfl, fun fuel found => ?_⟩
      exact read_stack_nonzero found List.mem_cons_self

def readonlyPage : PageTable := ⟨0x1000, true, first_page_aligned, first_page_mapped⟩

theorem readonly_stack_not_decoded :
    ∃ stack rsp argv envp after,
      buildStack FreeList.lawful 0x10_0000 readonlyPage pageFlags [] [] [] emptySpace =
        .ok (stack, rsp, argv, envp) after ∧
      ∀ fuel, readStack (readVirtual FreeList.lawful.toPageAllocator readonlyPage after.machine)
        fuel rsp =
        none := by
  have returns : (match buildStack FreeList.lawful 0x10_0000 readonlyPage pageFlags [] [] []
      emptySpace with
    | .ok (_, rsp, _, _) after =>
        (readVirtual FreeList.lawful.toPageAllocator readonlyPage after.machine rsp).isNone
    | .error _ _ => false) = true := by
    decide +kernel
  cases outcome : buildStack FreeList.lawful 0x10_0000 readonlyPage pageFlags [] [] []
    emptySpace with
  | error failure after =>
      rw [outcome] at returns
      exact absurd returns (by simp)
  | ok result after =>
      rw [outcome] at returns
      obtain ⟨stack, rsp, argv, envp⟩ := result
      refine ⟨stack, rsp, argv, envp, after, rfl, fun fuel => ?_⟩
      exact read_stack_unmapped (Option.isNone_iff_eq_none.mp returns)

/-- Neither a list with the pair `(0, 0)` nor a stack that could not be mapped is read back. -/
theorem stacks_not_decoded :
    (∃ stack rsp argv envp after,
      buildStack FreeList.lawful 0x10_0000 firstPage pageFlags [] [] [(0, 0)] emptySpace =
        .ok (stack, rsp, argv, envp) after ∧
      ∀ fuel, readStack (readVirtual FreeList.lawful.toPageAllocator firstPage after.machine)
        fuel rsp ≠
        some ⟨[], [], [(0, 0)]⟩) ∧
      ∃ stack rsp argv envp after,
        buildStack FreeList.lawful 0x10_0000 readonlyPage pageFlags [] [] [] emptySpace =
          .ok (stack, rsp, argv, envp) after ∧
        ∀ fuel, readStack (readVirtual FreeList.lawful.toPageAllocator readonlyPage
          after.machine) fuel
          rsp = none :=
  ⟨null_pair_not_decoded, readonly_stack_not_decoded⟩

end Campix.Formats
