import Campix.Formats.CreateProcess
import Campix.Paging.NewSpaces
import Mathlib.Data.Finset.Card

/-!
# Loading and the kernel's mappings

`create_process` checks nothing about the addresses of a segment, so a segment of the
higher half is mapped through the tables that the process shares with the kernel. When
all segments lie in the lower half, and the page that becomes the PML4 does not look
like one already, the kernel's tables are left alone.
-/

namespace Campix.Formats

open Lib.Slice Lib.Word Lib.Fallible Lib.Outcome Paging
  Process

set_option autoImplicit false

variable {σ : Type}

/-- Operations that fail by a panic only. -/
inductive Settles {Value : Type} (post : Value → Loading σ → Prop) (halted : Loading σ → Prop) :
    EStateM.Result LoadFailure (Loading σ) Value → Prop
  | ok {value : Value} {after : Loading σ} (holds : post value after) :
      Settles post halted (.ok value after)
  | panic {after : Loading σ} (holds : halted after) : Settles post halted (.error .panic after)

section Rules

variable {Value Result : Type} {post : Value → Loading σ → Prop} {halted : Loading σ → Prop}

theorem settles_bind {first : Load σ Value} {rest : Value → Load σ Result}
    {final : Result → Loading σ → Prop} {before : Loading σ}
    (begins : Settles post halted (first before))
    (continues : ∀ value after, post value after → Settles final halted (rest value after)) :
    Settles final halted ((first >>= rest) before) := by
  cases outcome : first before with
  | ok value after =>
      rw [state_bind_ok outcome]
      rw [outcome] at begins
      cases begins with
      | ok holds => exact continues value after holds
  | error error after =>
      rw [state_bind_error outcome]
      rw [outcome] at begins
      cases begins with
      | panic holds => exact .panic holds

theorem settles_weaken {result : EStateM.Result LoadFailure (Loading σ) Value}
    {weaker : Value → Loading σ → Prop} {haltedWeaker : Loading σ → Prop}
    (settles : Settles post halted result)
    (onOk : ∀ value after, post value after → weaker value after)
    (onPanic : ∀ after, halted after →
      haltedWeaker after) : Settles weaker haltedWeaker result := by
  cases settles with
  | ok holds => exact .ok (onOk _ _ holds)
  | panic holds => exact .panic (onPanic _ holds)

theorem settles_ok {result : EStateM.Result LoadFailure (Loading σ) Value} {value : Value}
    {after : Loading σ} (settles : Settles post halted result)
    (returned : result = .ok value after) :
    post value after := by
  rw [returned] at settles
  cases settles with
  | ok holds => exact holds

theorem settles_not_error {result : EStateM.Result LoadFailure (Loading σ) Value} {error : ElfError}
    {after : Loading σ} (settles : Settles post halted result) : result ≠ .error
    (.error error) after := by
  rintro rfl
  cases settles

end Rules

/-- The steps of which loading consists keep a condition on the state. The pages in the
list are buffers that may still be written, and `mappable` are the addresses at which a
page may be mapped; afterwards the buffers are no longer known to be private. -/
structure Preserves (allocator : LawfulAllocator σ) (pt : PageTable) (mappable : Nat → Prop)
    (inv : List Nat → Loading σ → Prop) : Prop where
  fewer : ∀ {pages fewer : List Nat} {state : Loading σ}, inv pages state → fewer ⊆ pages →
    inv fewer state
  alloc : ∀ {pages : List Nat} {state : Loading σ} {page : Nat} {after : Machine σ},
    inv pages state → allocator.allocPage state.machine = .ok page after →
    inv (page :: pages) { state with machine := after }
  refuse : ∀ {pages : List Nat} {state : Loading σ} {after : Machine σ},
    inv pages state → allocator.allocPage state.machine = .error () after →
    inv [] { state with machine := after }
  store : ∀ {pages : List Nat} {state : Loading σ} {page : Nat} (words : Table),
    inv pages state → page ∈ pages →
    inv pages { state with machine := state.machine.store page words }
  map : ∀ {pages : List Nat} {state : Loading σ} {virt : Nat} (phys flags : Nat),
    inv pages state → mappable virt →
    inv [] { state with
      machine := stateAfter (pt.map4kb allocator.toPageAllocator virt phys flags state.machine) }

structure Taken (allocator : LawfulAllocator σ) (before after : Machine σ) (page : Nat) : Prop where
  usable : UsablePage page
  fresh : page ∉ allocator.held before
  held : allocator.held after = insert page (allocator.held before)

theorem ignoring_state (operation : Attempt σ Unit) (before : Loading σ) :
    ignoring operation before =
      .ok () { before with machine := stateAfter (operation before.machine) } := by
  unfold ignoring
  cases operation before.machine <;> rfl

section Preserves

variable {allocator : LawfulAllocator σ} {pt : PageTable} {mappable : Nat → Prop}
variable {inv : List Nat → Loading σ → Prop} {pages : List Nat} {state : Loading σ}
variable (keeps : Preserves allocator pt mappable inv)

include keeps

theorem alloc_boxed_slice_settles (holds : inv pages state) :
    Settles (fun page after => Taken allocator state.machine after.machine page ∧
        inv (page :: pages) after) (inv []) (allocBoxedSlice allocator state) := by
  unfold allocBoxedSlice onMachine
  cases allocated : allocator.allocPage state.machine with
  | error nothing after => exact .panic (keeps.refuse holds allocated)
  | ok page after =>
      obtain ⟨fresh, held, usable, -⟩ := allocator.alloc_some allocated
      exact .ok ⟨⟨usable, fresh, held⟩, keeps.alloc holds allocated⟩

theorem store_page_settles {page : Nat} (holds : inv pages state) (member : page ∈ pages)
    (bytes : List UInt8) :
    Settles (fun _ => inv pages) (inv []) (storePage page bytes state) :=
  .ok (keeps.store (tableOf bytes) holds member)

theorem calloc_boxed_slice_settles (holds : inv pages state) :
    Settles (fun page after => Taken allocator state.machine after.machine page ∧
        inv (page :: pages) after) (inv []) (callocBoxedSlice allocator state) := by
  unfold callocBoxedSlice
  apply settles_bind (alloc_boxed_slice_settles keeps holds)
  rintro page after ⟨taken, holdsAfter⟩
  refine .ok ⟨⟨taken.usable, taken.fresh, ?_⟩, keeps.store _ holdsAfter List.mem_cons_self⟩
  have owned : page ∈ allocator.held after.machine := by
    rw [taken.held]
    exact Set.mem_insert _ _
  exact (held_store owned _).trans taken.held

theorem map_settles {virt : Nat} (holds : inv pages state) (allowed : mappable virt)
    (phys flags : Nat) :
    Settles (fun _ => inv []) (inv [])
      (ignoring (pt.map4kb allocator.toPageAllocator virt phys flags) state) := by
  rw [ignoring_state]
  exact .ok (keeps.map phys flags holds allowed)

end Preserves

theorem load_page_settles {holds halted : Loading σ → Prop} {state : Loading σ} (now : holds state)
    (page : Nat) : Settles (fun _ => holds) halted (loadPage page state) :=
  .ok now

def Private (allocator : LawfulAllocator σ) (root : Nat) (kept : Set Nat) (machine : Machine σ)
    (page : Nat) : Prop :=
  page ∈ allocator.held machine ∧ page ∉ kept ∧ ∀ level, page ∉ ownTables root machine level

def Loading.mapped (state : Loading σ) : List Nat := state.allocatedCode.map Prod.fst

/-- The pages mapped for segments are `virts`. Where every page mapped lies in the
lower half, the kernel's pages are kept and the buffers in `pages` are private. -/
structure Quiet (allocator : LawfulAllocator σ) (root : Nat) (kept : Set Nat) (base : Machine σ)
    (lower : Prop) (virts pages : List Nat) (state : Loading σ) : Prop where
  mapped : state.mapped = virts
  isolated : lower → Isolated allocator root kept base state.machine
  private_ : lower → ∀ page ∈ pages, Private allocator root kept state.machine page

section Keeps

variable {allocator : LawfulAllocator σ} {pt : PageTable} {kept : Set Nat} {base : Machine σ}
variable {lower : Prop} {virts pages : List Nat} {state : Loading σ}

theorem quiet_alloc {page : Nat} {after : Machine σ}
    (quiet : Quiet allocator pt.pml4 kept base lower virts pages state)
    (allocated : allocator.allocPage state.machine = .ok page after) :
    Quiet allocator pt.pml4 kept base lower virts (page :: pages)
      { state with machine := after } := by
  obtain ⟨fresh, held, usable, frame⟩ := allocator.alloc_some allocated
  refine ⟨quiet.mapped, fun low => ?_, fun low other member => ?_⟩
  · exact (isolated_alloc (quiet.isolated low) allocated).1
  · obtain ⟨-, heldPage, outside, unlinked, tables⟩ := isolated_alloc (quiet.isolated low) allocated
    rcases List.mem_cons.mp member with rfl | before
    · exact ⟨heldPage, outside, unlinked⟩
    · obtain ⟨heldOther, outsideOther, unlinkedOther⟩ := quiet.private_ low other before
      refine ⟨?_, outsideOther, fun level => ?_⟩
      · change other ∈ allocator.held after
        rw [held]
        exact Set.mem_insert_of_mem _ heldOther
      · change other ∉ ownTables pt.pml4 after level
        rw [tables]
        exact unlinkedOther level

theorem quiet_store {page : Nat}
    (quiet : Quiet allocator pt.pml4 kept base lower virts pages state) (member : page ∈ pages)
    (words : Table) :
    Quiet allocator pt.pml4 kept base lower virts pages
      { state with machine := state.machine.store page words } := by
  refine ⟨quiet.mapped, fun low => ?_, fun low other inside => ?_⟩
  · obtain ⟨held, outside, unlinked⟩ := quiet.private_ low page member
    exact (isolated_store (quiet.isolated low) held outside unlinked words).1
  · obtain ⟨held, outside, unlinked⟩ := quiet.private_ low page member
    obtain ⟨heldOther, outsideOther, unlinkedOther⟩ := quiet.private_ low other inside
    have tables := (isolated_store (quiet.isolated low) held outside unlinked words).2
    refine ⟨(held_store held words).symm.subset heldOther, outsideOther, fun level => ?_⟩
    rw [tables]
    exact unlinkedOther level

theorem quiet_preserves :
    Preserves allocator pt (fun virt => lower → virt < lowerHalfEnd)
      (Quiet allocator pt.pml4 kept base lower virts) where
  fewer := fun quiet subset =>
    ⟨quiet.mapped, quiet.isolated, fun low page member => quiet.private_ low page (subset member)⟩
  alloc := quiet_alloc
  refuse := fun quiet failed =>
    ⟨quiet.mapped, fun low => isolated_alloc_error (quiet.isolated low) failed,
      fun _ _ member => absurd member List.not_mem_nil⟩
  store := fun words quiet member => quiet_store quiet member words
  map := fun phys flags quiet low =>
    ⟨quiet.mapped, fun allLow => map4kb_isolated (low allLow) phys flags (quiet.isolated allLow),
      fun _ _ member => absurd member List.not_mem_nil⟩

theorem load_pages_settles (ph : Elf64ProgramHeader) (segment : List UInt8) (more : List Nat) :
    ∀ {virts : List Nat} {state : Loading σ} (codeI : Nat),
      Quiet allocator pt.pml4 kept base lower virts [] state →
      (lower → ∀ virt ∈ more, virt < lowerHalfEnd) →
      Settles (fun _ => Quiet allocator pt.pml4 kept base lower (virts ++ more) [])
        (fun after => ∃ done, done <+: more ∧
          Quiet allocator pt.pml4 kept base lower (virts ++ done) [] after)
        (loadPages allocator pt ph segment codeI more state) := by
  induction more with
  | nil =>
      intro virts state codeI quiet _
      exact .ok (by rwa [List.append_nil])
  | cons virt more ih =>
      intro virts state codeI quiet low
      have before : ∀ after, Quiet allocator pt.pml4 kept base lower virts [] after →
          ∃ done, done <+: virt :: more ∧
            Quiet allocator pt.pml4 kept base lower (virts ++ done) [] after :=
        fun after quietAfter => ⟨[], List.nil_prefix, by rwa [List.append_nil]⟩
      rw [loadPages]
      apply settles_bind (settles_weaken (alloc_boxed_slice_settles quiet_preserves quiet)
        (fun _ _ taken => taken) before)
      rintro buffer first ⟨-, quietFirst⟩
      apply settles_bind (load_page_settles quietFirst buffer)
      intro bytes second quietSecond
      cases filled : fillPage ph segment virt codeI bytes with
      | none => exact .panic (before second (quiet_preserves.fewer quietSecond (List.nil_subset _)))
      | some page =>
          apply settles_bind (settles_weaken
            (store_page_settles quiet_preserves quietSecond List.mem_cons_self page.1)
            (fun _ _ same => same) before)
          intro _ third quietThird
          apply settles_bind (settles_weaken
            (map_settles quiet_preserves quietThird
              (fun allLow => low allLow virt List.mem_cons_self)
              (sub64 buffer directMappingOffset) pageFlags) (fun _ _ same => same) before)
          intro _ fourth quietFourth
          have pushed : Quiet allocator pt.pml4 kept base lower (virts ++ [virt]) []
              { fourth with allocatedCode := fourth.allocatedCode ++ [(virt, buffer)] } := by
            refine ⟨?_, quietFourth.isolated, quietFourth.private_⟩
            rw [← quietFourth.mapped, Loading.mapped, Loading.mapped, List.map_append]
            rfl
          have rest := ih page.2 pushed fun allLow other member =>
            low allLow other (List.mem_cons_of_mem _ member)
          rw [List.append_assoc] at rest
          refine settles_weaken rest (fun _ _ same => same) ?_
          rintro after ⟨done, inside, quietAfter⟩
          rw [List.append_assoc] at quietAfter
          exact ⟨virt :: done, (List.prefix_cons_inj virt).mpr inside, quietAfter⟩

/-- What is left behind when loading returns or halts: all of the pages to be mapped
are, unless the kernel halted before. -/
inductive Leaves {Value : Type} (returns : Value → Prop) (quiet : List Nat → Loading σ → Prop)
    (all : List Nat) : EStateM.Result LoadFailure (Loading σ) Value → Prop
  | ok {value : Value} {after : Loading σ} (returned : returns value) (holds : quiet all after) :
      Leaves returns quiet all (.ok value after)
  | refused {offset filesz : Nat} {after : Loading σ} (holds : quiet all after) :
      Leaves returns quiet all (.error (.error (.invalidSegmentOffset offset filesz)) after)
  | panic {done : List Nat} {after : Loading σ} (inside : done <+: all) (holds : quiet done after) :
      Leaves returns quiet all (.error .panic after)

theorem settles_leave {Value : Type} {returns : Value → Prop}
    {quiet : List Nat → Loading σ → Prop} {all : List Nat}
    {result : EStateM.Result LoadFailure (Loading σ) Value}
    (settles : Settles (fun value after => returns value ∧ quiet all after) (quiet all) result) :
    Leaves returns quiet all result := by
  cases settles with
  | ok holds => exact .ok holds.1 holds.2
  | panic holds => exact .panic (List.prefix_refl _) holds

/-- `continue`, or a segment that the file holds. -/
def passes (file : Elf64File) (ph : Elf64ProgramHeader) : Bool :=
  decide (ph.segmentType ≠ .load) || (segmentData file ph).isSome

def loadedSegments (file : Elf64File) (headers : List Elf64ProgramHeader) :
    List Elf64ProgramHeader :=
  (headers.takeWhile (passes file)).filter fun ph => ph.segmentType = .load

def segmentPages (segments : List Elf64ProgramHeader) : List Nat :=
  segments.flatMap fun ph => pagesBetween ph.beginMap ph.endMap

theorem load_segments_leaves (file : Elf64File) (headers : List Elf64ProgramHeader) :
    ∀ {virts : List Nat} {state : Loading σ},
      Quiet allocator pt.pml4 kept base lower virts [] state →
      (lower → ∀ virt ∈ segmentPages (loadedSegments file headers), virt < lowerHalfEnd) →
      Leaves (fun _ => True) (fun virts => Quiet allocator pt.pml4 kept base lower virts [])
        (virts ++ segmentPages (loadedSegments file headers))
        (loadSegments allocator pt file headers state) := by
  induction headers with
  | nil =>
      intro virts state quiet _
      exact .ok trivial (by rwa [loadedSegments, segmentPages, List.takeWhile_nil, List.filter_nil,
        List.flatMap_nil, List.append_nil])
  | cons ph headers ih =>
      intro virts state quiet low
      rw [loadSegments]
      by_cases other : ph.segmentType ≠ .load
      · have skipped : loadedSegments file (ph :: headers) = loadedSegments file headers := by
          simp [loadedSegments, passes, other]
        rw [if_pos other, skipped]
        rw [skipped] at low
        exact ih quiet low
      · rw [if_neg other]
        have isLoad : ph.segmentType = .load := not_not.mp other
        cases held : segmentData file ph with
        | none =>
            have stops : loadedSegments file (ph :: headers) = [] := by
              simp [loadedSegments, passes, isLoad, held]
            rw [stops]
            exact .refused (by rwa [segmentPages, List.flatMap_nil, List.append_nil])
        | some segment =>
            have loads : loadedSegments file (ph :: headers) =
                ph :: loadedSegments file headers := by
              simp [loadedSegments, passes, isLoad, held]
            have split : segmentPages (ph :: loadedSegments file headers) =
                pagesBetween ph.beginMap ph.endMap ++ segmentPages (loadedSegments file headers) :=
              List.flatMap_cons
            rw [loads, split] at low ⊢
            have first := load_pages_settles ph segment (pagesBetween ph.beginMap ph.endMap) 0 quiet
              fun allLow virt member => low allLow virt (List.mem_append_left _ member)
            dsimp only
            cases outcome : loadPages allocator pt ph segment 0 (pagesBetween ph.beginMap ph.endMap)
                state with
            | ok value after =>
                rw [state_bind_ok outcome]
                rw [outcome] at first
                cases first with
                | ok quietAfter =>
                    rw [← List.append_assoc]
                    exact ih quietAfter fun allLow virt member =>
                      low allLow virt (List.mem_append_right _ member)
            | error failure after =>
                rw [state_bind_error outcome]
                rw [outcome] at first
                cases first with
                | panic halted =>
                    obtain ⟨done, inside, quietAfter⟩ := halted
                    refine .panic ?_ quietAfter
                    exact (List.prefix_append_right_inj virts).mpr
                      (inside.trans (List.prefix_append _ _))

end Keeps

theorem usable_pages_bound {some_ : List Nat} (nodup : some_.Nodup)
    (usable : ∀ page ∈ some_, UsablePage page) : some_.length ≤ 0x6_0000_0000 := by
  have inside : some_.toFinset ⊆
      (Finset.range 0x6_0000_0000).image fun page => directMappingOffset + page * pageSize := by
    intro page member
    obtain ⟨⟨number, aligned⟩, low, high⟩ := usable page (List.mem_toFinset.mp member)
    rw [Finset.mem_image]
    refine ⟨number - directMappingOffset / pageSize, ?_, ?_⟩
    · rw [Finset.mem_range]
      unfold directMappingOffset pageSize at *
      omega
    · unfold directMappingOffset pageSize at *
      omega
  rw [← List.toFinset_card_of_nodup nodup]
  exact (Finset.card_le_card inside).trans (Finset.card_image_le.trans (Finset.card_range _).le)

def stackPageCount (args env : List (List UInt8)) (aux : List (Nat × Nat)) : Nat :=
  (8 + (args.length + 1) * 8 + (env.length + 1) * 8 + (aux.length + 1) * 16 +
    (args.map fun s => s.length + 1).sum + (env.map fun s => s.length + 1).sum + pageSize - 1) /
      pageSize

def StackOf (count : Nat) (stack : ThreadStack) : Prop :=
  stack.stackTop = lowerHalfEnd ∧ stack.stackSize = count * pageSize

def stackPage (above : Nat) : Nat := lowerHalfEnd - (above + 1) * pageSize

section Stack

variable {allocator : LawfulAllocator σ} {pt : PageTable} {mappable : Nat → Prop}
variable {inv : List Nat → Loading σ → Prop} (keeps : Preserves allocator pt mappable inv)

include keeps

theorem calloc_pages_settles (count : Nat) :
    ∀ {pages : List Nat} {state : Loading σ}, inv pages state →
      Settles (fun new after => inv (new ++ pages) after ∧ new.length = count ∧ new.Nodup ∧
          ∀ page ∈ new, UsablePage page ∧ page ∉ allocator.held state.machine)
        (inv []) (callocPages allocator count state) := by
  induction count with
  | zero =>
      intro pages state holds
      exact .ok ⟨holds, rfl, List.nodup_nil, fun page member => absurd member List.not_mem_nil⟩
  | succ count ih =>
      intro pages state holds
      rw [callocPages]
      apply settles_bind (calloc_boxed_slice_settles keeps holds)
      rintro page first ⟨taken, holdsFirst⟩
      apply settles_bind (ih holdsFirst)
      rintro rest after ⟨holdsAfter, length, nodup, fresh⟩
      have distinct : page ∉ rest := by
        intro member
        apply (fresh page member).2
        rw [taken.held]
        exact Set.mem_insert _ _
      refine .ok ⟨keeps.fewer holdsAfter ?_, congrArg (· + 1) length,
        List.nodup_cons.mpr ⟨distinct, nodup⟩, ?_⟩
      · intro other member
        rw [List.cons_append, List.mem_cons, List.mem_append] at member
        rw [List.mem_append, List.mem_cons]
        tauto
      · intro other member
        rcases List.mem_cons.mp member with rfl | later
        · exact ⟨taken.usable, taken.fresh⟩
        · refine ⟨(fresh other later).1, fun held => (fresh other later).2 ?_⟩
          rw [taken.held]
          exact Set.mem_insert_of_mem _ held

theorem write_byte_settles {pages : List Nat} {state : Loading σ} (holds : inv pages state)
    (offset : Nat) (byte : UInt8) :
    Settles (fun _ => inv pages) (inv []) (writeByte pages offset byte state) := by
  unfold writeByte
  cases present : pages[offset / pageSize]? with
  | none => exact .panic (keeps.fewer holds (List.nil_subset _))
  | some page =>
      apply settles_bind (load_page_settles holds page)
      intro bytes after holdsAfter
      exact store_page_settles keeps holdsAfter (List.mem_of_getElem? present) _

theorem write_bytes_settles {pages : List Nat} (bytes : List UInt8) :
    ∀ {state : Loading σ} (offset : Nat), inv pages state →
      Settles (fun _ => inv pages) (inv []) (writeBytes pages offset bytes state) := by
  induction bytes with
  | nil => exact fun offset holds => .ok holds
  | cons byte bytes ih =>
      intro state offset holds
      rw [writeBytes]
      exact settles_bind (write_byte_settles keeps holds offset byte) fun _ after holdsAfter =>
        ih (offset + 1) holdsAfter

theorem write_u64s_settles {pages : List Nat} (vals : List Nat) :
    ∀ {state : Loading σ} (offset : Nat), inv pages state →
      Settles (fun _ => inv pages) (inv []) (writeU64s pages offset vals state) := by
  induction vals with
  | nil => exact fun offset holds => .ok holds
  | cons val vals ih =>
      intro state offset holds
      rw [writeU64s]
      exact settles_bind (write_bytes_settles keeps (toLe val 8) offset holds)
        fun _ after holdsAfter =>
        ih (offset + 8) holdsAfter

theorem write_strings_settles {pages : List Nat} (stackBottom : Nat) (strings : List (List UInt8)) :
    ∀ {state : Loading σ} (idx : Nat), inv pages state →
      Settles (fun _ => inv pages) (inv []) (writeStrings pages stackBottom idx strings state) := by
  induction strings with
  | nil => exact fun idx holds => .ok holds
  | cons s strings ih =>
      intro state idx holds
      rw [writeStrings]
      apply settles_bind (write_bytes_settles keeps s idx holds)
      intro _ first holdsFirst
      apply settles_bind (write_byte_settles keeps holdsFirst (idx + s.length) 0)
      intro _ second holdsSecond
      exact settles_bind (ih (idx + s.length + 1) holdsSecond) fun _ after holdsAfter =>
        .ok holdsAfter

theorem grow_using_existing_buffer_settles {count buffer flags : Nat} {stack : ThreadStack}
    {pages : List Nat} {state : Loading σ} (holds : inv pages state) (shape : StackOf count stack)
    (room : count ≤ 0x6_0000_0000) (allowed : mappable (stackPage count)) :
    Settles (fun grown after => inv [] after ∧ StackOf (count + 1) grown) (inv [])
      (stack.growUsingExistingBuffer allocator pt flags buffer state) := by
  obtain ⟨top, size⟩ := shape
  have grown : add64 stack.stackSize pageSize = (count + 1) * pageSize := by
    rw [size, add64_of_lt (by unfold pageSize; omega), Nat.succ_mul]
  have inside : (count + 1) * pageSize ≤ lowerHalfEnd := by
    unfold pageSize lowerHalfEnd
    omega
  unfold ThreadStack.growUsingExistingBuffer
  dsimp only
  refine settles_bind (map_settles keeps holds ?_ _ flags) ?_
  · rwa [ThreadStack.getBottom, grown, top, sub64_of_le inside]
  · intro _ after holdsAfter
    exact .ok ⟨holdsAfter, top, grown⟩

theorem grow_using_settles (flags : Nat) (buffers : List Nat) :
    ∀ {count : Nat} {state : Loading σ} {pages : List Nat} {stack : ThreadStack},
      inv pages state → StackOf count stack → count + buffers.length ≤ 0x6_0000_0000 →
      (∀ above < count + buffers.length, mappable (stackPage above)) →
      Settles (fun grown after => inv [] after ∧ StackOf (count + buffers.length) grown) (inv [])
        (ThreadStack.growUsing allocator pt flags stack buffers state) := by
  induction buffers with
  | nil => exact fun holds shape _ _ => .ok ⟨keeps.fewer holds (List.nil_subset _), shape⟩
  | cons buffer buffers ih =>
      intro count state pages stack holds shape room allowed
      rw [List.length_cons] at room allowed ⊢
      rw [ThreadStack.growUsing]
      apply settles_bind (grow_using_existing_buffer_settles keeps holds shape (by omega)
        (allowed count (by omega)))
      rintro grown after ⟨holdsAfter, shapeAfter⟩
      have total : count + (buffers.length + 1) = count + 1 + buffers.length := by omega
      rw [total] at allowed ⊢
      exact ih holdsAfter shapeAfter (by omega) allowed

theorem build_stack_settles {state : Loading σ} (flags : Nat) (args env : List (List UInt8))
    (aux : List (Nat × Nat)) (holds : inv [] state)
    (allowed : ∀ above < stackPageCount args env aux, above < 0x6_0000_0000 →
      mappable (stackPage above)) :
    Settles (fun built after => inv [] after ∧ StackOf (stackPageCount args env aux) built.1 ∧
        stackPageCount args env aux ≤ 0x6_0000_0000)
      (inv []) (buildStack allocator lowerHalfEnd pt flags args env aux state) := by
  unfold buildStack
  dsimp only
  apply settles_bind (calloc_pages_settles keeps _ holds)
  rintro pages first ⟨holdsFirst, length, nodup, fresh⟩
  change pages.length = stackPageCount args env aux at length
  rw [List.append_nil] at holdsFirst
  have room : pages.length ≤ 0x6_0000_0000 :=
    usable_pages_bound nodup fun page member => (fresh page member).1
  apply settles_bind (write_bytes_settles keeps _ _ holdsFirst)
  intro _ second holdsSecond
  apply settles_bind (write_strings_settles keeps _ _ _ holdsSecond)
  intro written third holdsThird
  apply settles_bind (write_u64s_settles keeps _ _ holdsThird)
  intro _ fourth holdsFourth
  apply settles_bind (write_u64s_settles keeps _ _ holdsFourth)
  intro _ fifth holdsFifth
  apply settles_bind (write_u64s_settles keeps _ _ holdsFifth)
  intro _ sixth holdsSixth
  apply settles_bind (write_u64s_settles keeps _ _ holdsSixth)
  intro _ seventh holdsSeventh
  split_ifs with overflow
  · exact .panic (keeps.fewer holdsSeventh (List.nil_subset _))
  · have empty : StackOf 0 ⟨lowerHalfEnd, 0, []⟩ := ⟨rfl, (Nat.zero_mul _).symm⟩
    have total : 0 + pages.reverse.length = stackPageCount args env aux := by
      rw [List.length_reverse, Nat.zero_add, length]
    apply settles_bind (grow_using_settles keeps flags pages.reverse holdsSeventh empty
      (by omega) fun above below => allowed above (by omega) (by omega))
    rintro stack after ⟨holdsAfter, shape⟩
    rw [total] at shape
    exact .ok ⟨holdsAfter, shape, by omega⟩

theorem grow_settles {count flags : Nat} {stack : ThreadStack} {pages : List Nat}
    {state : Loading σ} (holds : inv pages state) (shape : StackOf count stack)
    (room : count ≤ 0x6_0000_0000) (allowed : mappable (stackPage count)) :
    Settles (fun _ => inv []) (inv []) (stack.grow allocator pt flags state) := by
  rw [ThreadStack.grow]
  apply settles_bind (calloc_boxed_slice_settles keeps holds)
  rintro buffer after ⟨-, holdsAfter⟩
  exact settles_weaken (grow_using_existing_buffer_settles keeps holdsAfter shape room allowed)
    (fun _ _ grown => grown.1) fun _ same => same

/-- What follows the segments in `create_process`. -/
theorem stack_settles {state : Loading σ} (file : Elf64File)
    (cmdline environment : List (List UInt8))
    (holds : inv [] state)
    (allowed : ∀ above ≤ stackPageCount cmdline environment [], above ≤ 0x6_0000_0000 →
      mappable (stackPage above)) :
    Settles (fun options after => options.pageTable = pt ∧ inv [] after) (inv [])
      ((do
        let (stack, rsp, argv, envp) ←
          buildStack allocator lowerHalfEnd pt pageFlags cmdline environment []
        let stack ← stack.grow allocator pt pageFlags
        return {
          pageTable := pt, stack, argc := cmdline.length, argv, envp
          rip := file.header.entryOffset, rsp } : Load σ CreateProcessOptions) state) := by
  apply settles_bind (build_stack_settles keeps pageFlags cmdline environment [] holds
    fun above below room => allowed above below.le room.le)
  rintro ⟨stack, rsp, argv, envp⟩ built ⟨holdsBuilt, shape, room⟩
  apply settles_bind (grow_settles keeps holdsBuilt shape room (allowed _ (Nat.le_refl _) room))
  intro grown final holdsFinal
  exact .ok ⟨rfl, holdsFinal⟩

end Stack

section Load

variable {allocator : LawfulAllocator σ} {pt : PageTable} {kept : Set Nat} {base : Machine σ}
variable {lower : Prop} {state : Loading σ}

theorem load_into_leaves (file : Elf64File) (cmdline environment : List (List UInt8))
    (quiet : Quiet allocator pt.pml4 kept base lower [] [] state)
    (low : lower → ∀ virt ∈ segmentPages (loadedSegments file file.iterProgramHeaders),
      virt < lowerHalfEnd) :
    Leaves (fun options : CreateProcessOptions => options.pageTable = pt)
      (fun virts => Quiet allocator pt.pml4 kept base lower virts [])
      (segmentPages (loadedSegments file file.iterProgramHeaders))
      (file.loadInto allocator pt cmdline environment state) := by
  have loaded := load_segments_leaves file file.iterProgramHeaders quiet low
  rw [List.nil_append] at loaded
  rw [Elf64File.loadInto]
  cases outcome : loadSegments allocator pt file file.iterProgramHeaders state with
  | error failure after =>
      rw [state_bind_error outcome]
      rw [outcome] at loaded
      cases loaded with
      | refused holds => exact .refused holds
      | panic inside holds => exact .panic inside holds
  | ok value after =>
      rw [state_bind_ok outcome]
      rw [outcome] at loaded
      cases loaded with
      | ok _ quietAfter =>
          -- the stack changes none of the mapped pages and fails by a panic only
          apply settles_leave
          apply stack_settles quiet_preserves file cmdline environment quietAfter
          intro above _ room _
          unfold stackPage pageSize lowerHalfEnd
          omega

end Load

section Refused

variable {allocator : LawfulAllocator σ} {pt : PageTable} {kept : Set Nat} {file : Elf64File}

theorem load_pages_spare (writable : pt.readonly = false) (ph : Elf64ProgramHeader)
    (segment : List UInt8) (virts : List Nat) :
    ∀ {state : Loading σ} (codeI : Nat),
      Spare allocator pt.pml4 kept state.buffers state.machine →
        (∀ virt ∈ virts, virt < lowerHalfEnd) →
      Settles (fun _ after => Spare allocator pt.pml4 kept after.buffers after.machine)
        (fun _ => True)
        (loadPages allocator pt ph segment codeI virts state) := by
  induction virts with
  | nil => exact fun codeI holds _ => .ok holds
  | cons virt virts ih =>
      intro state codeI holds low
      rw [loadPages, allocBoxedSlice]
      cases allocated : allocator.allocPage state.machine with
      | error nothing between =>
          have refused : onMachine .panic allocator.allocPage state =
              .error .panic { state with machine := between } := by
            rw [onMachine, allocated]
          rw [state_bind_error refused]
          exact .panic trivial
      | ok buffer between =>
          have taken : onMachine .panic allocator.allocPage state =
              .ok buffer { state with machine := between } := by
            rw [onMachine, allocated]
          have fresh := spare_alloc holds allocated
          rw [state_bind_ok taken]
          let given : Loading σ := { state with machine := between }
          have reads : Settles (fun _ second => second = given) (fun _ => True)
              (loadPage buffer given) := .ok rfl
          apply settles_bind reads
          rintro bytes _ rfl
          cases fillPage ph segment virt codeI bytes with
          | none => exact .panic trivial
          | some page =>
              have stored := spare_store fresh List.mem_cons_self (tableOf page.1)
              have mapped := spare_map stored writable (low virt List.mem_cons_self)
                (sub64 buffer directMappingOffset) pageFlags
              have stores : storePage buffer page.1 given =
                  .ok () { state with machine := between.store buffer (tableOf page.1) } := rfl
              dsimp only
              rw [state_bind_ok stores, state_bind_ok (ignoring_state _ _)]
              refine ih page.2 ?_ fun other member => low other (List.mem_cons_of_mem _ member)
              rw [Loading.buffers, List.map_append]
              exact spare_perm mapped (List.perm_append_singleton buffer state.buffers).symm

theorem load_segments_spare (writable : pt.readonly = false) (headers : List Elf64ProgramHeader)
    {error : ElfError} {after : Loading σ} :
    ∀ {state : Loading σ}, Spare allocator pt.pml4 kept state.buffers state.machine →
      (∀ virt ∈ segmentPages (loadedSegments file headers), virt < lowerHalfEnd) →
      loadSegments allocator pt file headers state = .error (.error error) after →
      Spare allocator pt.pml4 kept after.buffers after.machine ∧
        ∃ ph ∈ headers, ph.segmentType = .load ∧ segmentData file ph = none := by
  induction headers with
  | nil =>
      intro state _ _ failed
      exact absurd failed (by simp [loadSegments, pure, EStateM.pure])
  | cons ph headers ih =>
      intro state holds low failed
      rw [loadSegments] at failed
      by_cases other : ph.segmentType ≠ .load
      · have skipped : loadedSegments file (ph :: headers) = loadedSegments file headers := by
          simp [loadedSegments, passes, other]
        rw [if_pos other] at failed
        rw [skipped] at low
        obtain ⟨spare, later, member, missing⟩ := ih holds low failed
        exact ⟨spare, later, List.mem_cons_of_mem _ member, missing⟩
      · rw [if_neg other] at failed
        have isLoad : ph.segmentType = .load := not_not.mp other
        cases held : segmentData file ph with
        | none =>
            rw [held] at failed
            obtain ⟨-, rfl⟩ := EStateM.Result.error.inj failed
            exact ⟨holds, ph, List.mem_cons_self, isLoad, held⟩
        | some segment =>
            have loads : loadedSegments file (ph :: headers) = ph :: loadedSegments file
                headers := by
              simp [loadedSegments, passes, isLoad, held]
            have split : segmentPages (ph :: loadedSegments file headers) =
                pagesBetween ph.beginMap ph.endMap ++ segmentPages (loadedSegments file headers) :=
              List.flatMap_cons
            rw [loads, split] at low
            rw [held] at failed
            dsimp only at failed
            have first := load_pages_spare writable ph segment
              (pagesBetween ph.beginMap ph.endMap) 0
              holds fun virt member => low virt (List.mem_append_left _ member)
            cases outcome : loadPages allocator pt ph segment 0 (pagesBetween ph.beginMap ph.endMap)
                state with
            | error failure between =>
                rw [state_bind_error outcome] at failed
                rw [outcome] at first
                obtain ⟨rfl, -⟩ := EStateM.Result.error.inj failed
                cases first
            | ok value between =>
                rw [state_bind_ok outcome] at failed
                rw [outcome] at first
                cases first with
                | ok spareBetween =>
                    obtain ⟨spare, later, member, missing⟩ := ih spareBetween
                      (fun virt member => low virt (List.mem_append_right _ member)) failed
                    exact ⟨spare, later, List.mem_cons_of_mem _ member, missing⟩

end Refused

/-- The kernel's PML4 and the tables behind the entries that all address spaces share. -/
def kernelPages (kernel : PageTable) (machine : Machine σ) : Set Nat :=
  {page | page = kernel.pml4 ∨ ∃ path top, path.getLast? = some top ∧ Shared top ∧
    tables kernel.pml4 machine path = some page}

/-- The pages mapped for segments lie in the lower half, and the kernel's tables and the
entries shared with them are the same after loading as before. -/
structure KernelUntouched (kernel : PageTable) (before : Machine σ)
    (result : EStateM.Result LoadFailure (Loading σ) CreateProcessOptions) : Prop where
  lower : ∀ virt ∈ (stateAfter result).mapped, virt < lowerHalfEnd
  same : ∀ page ∈ kernelPages kernel before, (stateAfter result).machine.mem page = before.mem page
  shared : ∀ options after, result = .ok options after → ∀ idx, Shared idx →
    after.machine.mem options.pageTable.pml4 idx = before.mem kernel.pml4 idx

/-- Every segment that is loaded ends in the lower half, or has no pages at all. -/
def SafeSegments (file : Elf64File) : Prop :=
  ∀ ph ∈ loadedSegments file file.iterProgramHeaders, ph.endMap ≤ max ph.beginMap lowerHalfEnd

/-- Loading was not cut short by a panic or for want of a page for the PML4. -/
inductive Finished : EStateM.Result LoadFailure (Loading σ) CreateProcessOptions → Prop
  | ok {options : CreateProcessOptions} {after : Loading σ} : Finished (.ok options after)
  | refused {offset filesz : Nat} {after : Loading σ} :
      Finished (.error (.error (.invalidSegmentOffset offset filesz)) after)

theorem mem_pages_between_iff {begin_ end_ virt : Nat} :
    virt ∈ pagesBetween begin_ end_ ↔ ∃ page, begin_ + page * pageSize = virt ∧ virt < end_ := by
  unfold pagesBetween
  rw [List.mem_map]
  simp only [List.mem_range]
  constructor
  · rintro ⟨page, inside, rfl⟩
    refine ⟨page, rfl, ?_⟩
    unfold pageSize at *
    omega
  · rintro ⟨page, rfl, inside⟩
    refine ⟨page, ?_, rfl⟩
    unfold pageSize at *
    omega

theorem begin_map_eq (ph : Elf64ProgramHeader) :
    ph.beginMap = ph.pVaddr.toNat / pageSize * pageSize :=
  align_down_page ph.pVaddr.toNat_lt

theorem end_map_aligned (ph : Elf64ProgramHeader) : pageSize ∣ ph.endMap := by
  have bound : ∀ addr, sub64 (add64 addr pageSize) 1 < 2 ^ 64 := by
    intro addr
    have small := add64_lt addr pageSize
    unfold sub64
    split_ifs <;> omega
  rw [Elf64ProgramHeader.endMap, alignUp]
  exact Dvd.intro_left _ (align_down_page (bound _)).symm

theorem safe_segment_iff (ph : Elf64ProgramHeader) :
    (∀ virt ∈ pagesBetween ph.beginMap ph.endMap, virt < lowerHalfEnd) ↔
      ph.endMap ≤ max ph.beginMap lowerHalfEnd := by
  obtain ⟨last, ends⟩ := end_map_aligned ph
  have begins := begin_map_eq ph
  constructor
  · intro below
    by_contra past
    rw [not_le, max_lt_iff] at past
    -- the last page of the segment
    have lastPage : ph.endMap - pageSize ∈ pagesBetween ph.beginMap ph.endMap := by
      rw [mem_pages_between_iff]
      refine ⟨last - 1 - ph.pVaddr.toNat / pageSize, ?_, ?_⟩
      · unfold pageSize at *
        omega
      · unfold pageSize
        omega
    have inside := below _ lastPage
    unfold pageSize lowerHalfEnd at *
    omega
  · intro ordered virt member
    obtain ⟨page, rfl, inside⟩ := mem_pages_between_iff.mp member
    rcases le_max_iff.mp ordered with empty | low <;> omega

theorem safe_segments_iff (file : Elf64File) :
    (∀ virt ∈ segmentPages (loadedSegments file file.iterProgramHeaders), virt < lowerHalfEnd) ↔
      SafeSegments file := by
  simp only [segmentPages, SafeSegments, List.mem_flatMap, ← safe_segment_iff]
  exact ⟨fun below ph member virt inside => below virt ⟨ph, member, inside⟩,
    fun below virt ⟨ph, member, inside⟩ => below ph member virt inside⟩

theorem alloc_new_error {allocator : LawfulAllocator σ} {machine after : Machine σ}
    (failed : PageTable.allocNew allocator machine = .error () after) :
    ∀ page ∈ allocator.held machine, after.mem page = machine.mem page := by
  unfold PageTable.allocNew at failed
  split at failed
  · rename_i between allocated
    rw [EStateM.Result.error.injEq] at failed
    exact failed.2 ▸ (allocator.alloc_none allocated).2
  · exact absurd failed (by simp)

theorem dropping_on_error_ok {Value : Type} {allocator : LawfulAllocator σ} {pt : PageTable}
    {rounds active : Nat} {load : Load σ Value} {state after : Loading σ} {value : Value}
    (returned : droppingOnError allocator pt rounds active load state = .ok value after) :
    load state = .ok value after := by
  unfold droppingOnError at returned
  split at returned
  · dsimp only at returned
    split at returned
    · exact absurd returned (by simp)
    · exact absurd returned (by simp)
    · exact absurd returned (by simp)
  · exact returned

/-- What is dropped is gone whether or not the drop comes to its end. -/
theorem dropping_on_error_state {Value : Type} {allocator : LawfulAllocator σ} {pt : PageTable}
    {rounds active : Nat} {load : Load σ Value} {state after : Loading σ} {error : ElfError}
    (failed : load state = .error (.error error) after) :
    ∃ failure, droppingOnError allocator pt rounds active load state = .error failure
      { after with machine := stateAfter (pt.drop allocator.toPageAllocator rounds active
          (freePages allocator.toPageAllocator after.buffers after.machine)) } := by
  unfold droppingOnError
  rw [failed]
  dsimp only
  cases pt.drop allocator.toPageAllocator rounds active
      (freePages allocator.toPageAllocator after.buffers after.machine) with
  | ok _ machine => exact ⟨_, rfl⟩
  | error failure machine =>
      cases failure with
      | panic => exact ⟨_, rfl⟩
      | running => exact ⟨_, rfl⟩

theorem create_process_eq (file : Elf64File) (allocator : LawfulAllocator σ) (kernel : PageTable)
    (rounds active : Nat) (cmdline environment : List (List UInt8)) (machine : Machine σ) :
    file.createProcess allocator kernel rounds active cmdline environment ⟨machine, []⟩ =
      match PageTable.allocNew allocator machine with
      | .ok pt after => droppingOnError allocator pt rounds active
          (file.loadInto allocator pt cmdline environment)
          ⟨stateAfter (pt.mapGlobalHigherHalf kernel after), []⟩
      | .error _ after => .error (.error .invalidPageTableAllocation) ⟨after, []⟩ := by
  rw [Elf64File.createProcess]
  cases created : PageTable.allocNew allocator machine with
  | error nothing after =>
      have failed : onMachine (.error .invalidPageTableAllocation) (PageTable.allocNew allocator)
          (⟨machine, []⟩ : Loading σ) = .error
            (.error .invalidPageTableAllocation) ⟨after, []⟩ := by
        rw [onMachine, created]
      rw [state_bind_error failed]
  | ok pt after =>
      have returned : onMachine (.error .invalidPageTableAllocation) (PageTable.allocNew allocator)
          (⟨machine, []⟩ : Loading σ) = .ok pt ⟨after, []⟩ := by
        rw [onMachine, created]
      rw [state_bind_ok returned, state_bind_ok (ignoring_state _ _)]

/-- The program loads a segment that the file does not hold, so loading gives up. -/
def MissesSegment (file : Elf64File) : Prop :=
  ∃ ph ∈ file.iterProgramHeaders, ph.segmentType = .load ∧ segmentData file ph = none

theorem load_into_refused {allocator : LawfulAllocator σ} {pt : PageTable} {kept : Set Nat}
    {base : Machine σ} {lower : Prop} {file : Elf64File} {cmdline environment : List (List UInt8)}
    {state after : Loading σ} {error : ElfError}
    (quiet : Quiet allocator pt.pml4 kept base lower [] [] state)
    (low : lower → ∀ virt ∈ segmentPages (loadedSegments file file.iterProgramHeaders),
      virt < lowerHalfEnd)
    (failed : file.loadInto allocator pt cmdline environment state = .error (.error error) after) :
    loadSegments allocator pt file file.iterProgramHeaders state = .error (.error error) after := by
  have loaded := load_segments_leaves file file.iterProgramHeaders quiet low
  rw [List.nil_append] at loaded
  rw [Elf64File.loadInto] at failed
  cases outcome : loadSegments allocator pt file file.iterProgramHeaders state with
  | error failure between =>
      rw [state_bind_error outcome] at failed
      obtain ⟨rfl, rfl⟩ := EStateM.Result.error.inj failed
      rfl
  | ok value between =>
      rw [state_bind_ok outcome] at failed
      rw [outcome] at loaded
      cases loaded with
      | ok _ quietBetween =>
          -- the stack fails by a panic only
          have settles := stack_settles quiet_preserves file cmdline environment quietBetween
            fun above _ room _ => by
              unfold stackPage pageSize lowerHalfEnd
              omega
          exact absurd failed (settles_not_error settles)

/-- The kernel's tables after loading gave up and dropped what it had. -/
theorem refused_keeps {allocator : LawfulAllocator σ} {kernel pt : PageTable}
    {machine after : Machine σ}
    {state : Loading σ} {file : Elf64File} {error : ElfError} (rounds active : Nat)
    (owned : kernelPages kernel machine ⊆ allocator.held machine)
    (created : PageTable.allocNew allocator machine = .ok pt after) (safe : SafeSegments file)
    (blank : BlankPml4 allocator machine) (clean : MissesSegment file → CleanPml4 allocator machine)
    (isolated : Isolated allocator pt.pml4 (kernelPages kernel machine)
      (stateAfter (pt.mapGlobalHigherHalf kernel after)) state.machine)
    (failed : loadSegments allocator pt file file.iterProgramHeaders
      ⟨stateAfter (pt.mapGlobalHigherHalf kernel after), []⟩ = .error (.error error) state) :
    ∀ page ∈ kernelPages kernel machine,
      (stateAfter (pt.drop allocator.toPageAllocator rounds active
        (freePages allocator.toPageAllocator state.buffers state.machine))).mem page =
          state.machine.mem page := by
  obtain ⟨writable, between, allocated, -⟩ := alloc_new_ok created
  obtain ⟨spare, missing⟩ := load_segments_spare writable file.iterProgramHeaders
    (new_space_spare created blank owned) ((safe_segments_iff file).mpr safe) failed
  obtain ⟨freed, sameRoot, same⟩ := free_pages_spare state.buffers spare
  have absent : ∀ idx : Fin 512, 384 ≤ idx.val →
      (freePages allocator.toPageAllocator state.buffers state.machine).mem pt.pml4 idx &&&
        pagePresent = 0 := by
    intro idx high
    have outside : ¬Shared idx := fun shared => absurd shared.2 (Nat.not_lt.mpr high)
    rw [sameRoot, isolated.upper idx (by omega)]
    exact new_pml4_absent_slot allocated created (clean missing _ _ allocated) outside
  have dropped := settles_state (drop_keeps rounds active freed.intact absent freed.beside)
  exact fun page member => (dropped page member).trans (same page member)

/-- The kernel's mappings are safe from a program exactly if all of its segments end in
the lower half, provided that the page which becomes its PML4 holds no stale entries
there, nor behind the shared ones if loading gives up and drops the table. The provision
is not needed for the converse, which is about the runs that get to the end of the
segments. -/
theorem create_process_untouched_iff (allocator : LawfulAllocator σ) (kernel : PageTable)
    (machine : Machine σ) (owned : kernelPages kernel machine ⊆ allocator.held machine)
    (file : Elf64File) (rounds active : Nat) (cmdline environment : List (List UInt8)) :
    let result := file.createProcess allocator kernel rounds active cmdline environment
      ⟨machine, []⟩
    (SafeSegments file ∧ BlankPml4 allocator machine ∧
        (MissesSegment file → CleanPml4 allocator machine) →
          KernelUntouched kernel machine result) ∧
      (Finished result → KernelUntouched kernel machine result → SafeSegments file) := by
  intro result
  have unfolded : result = _ :=
    create_process_eq file allocator kernel rounds active cmdline environment machine
  cases created : PageTable.allocNew allocator machine with
  | error nothing after =>
      rw [created] at unfolded
      rw [unfolded]
      constructor
      · intro _
        refine ⟨fun virt member => absurd member List.not_mem_nil, ?_, ?_⟩
        · exact fun page member => alloc_new_error created page (owned member)
        · intro options final returned
          exact absurd returned (by simp)
      · intro finished
        cases finished
  | ok pt after =>
      rw [created] at unfolded
      dsimp only at unfolded
      obtain ⟨sameKernel, sharedEntries, isolated⟩ :=
        new_address_space_isolated owned (Or.inl rfl : kernel.pml4 ∈ kernelPages kernel machine)
          created
      -- loading is quiet where the condition holds
      have quiet : Quiet allocator pt.pml4 (kernelPages kernel machine)
          (stateAfter (pt.mapGlobalHigherHalf kernel after))
          (SafeSegments file ∧ BlankPml4 allocator machine) [] []
          ⟨stateAfter (pt.mapGlobalHigherHalf kernel after), []⟩ :=
        ⟨rfl, fun safe => isolated safe.2, fun _ _ member => absurd member List.not_mem_nil⟩
      have pagesLow : SafeSegments file ∧ BlankPml4 allocator machine →
          ∀ virt ∈ segmentPages (loadedSegments file file.iterProgramHeaders),
            virt < lowerHalfEnd :=
        fun safe => (safe_segments_iff file).mpr safe.1
      have leaves := load_into_leaves file cmdline environment quiet pagesLow
      have kept : ∀ {virts : List Nat} {final : Loading σ}, SafeSegments file ∧
          BlankPml4 allocator machine →
          Quiet allocator pt.pml4 (kernelPages kernel machine)
            (stateAfter (pt.mapGlobalHigherHalf kernel after))
            (SafeSegments file ∧ BlankPml4 allocator machine) virts [] final →
          ∀ page ∈ kernelPages kernel machine, final.machine.mem page = machine.mem page :=
        fun safe quietFinal page member =>
          ((quietFinal.isolated safe).same page member).trans (sameKernel page member)
      generalize loaded : file.loadInto allocator pt cmdline environment
        ⟨stateAfter (pt.mapGlobalHigherHalf kernel after), []⟩ = outcome at leaves
      cases leaves with
      | @ok options final pageTable holds =>
          have returned : result = .ok options final := by
            rw [unfolded, droppingOnError, loaded]
          rw [returned]
          constructor
          · rintro ⟨safe, blank, -⟩
            refine ⟨fun virt member => pagesLow ⟨safe, blank⟩ virt (holds.mapped ▸ member),
              kept ⟨safe, blank⟩ holds, ?_⟩
            intro _ _ same idx inside
            obtain ⟨rfl, rfl⟩ := EStateM.Result.ok.inj same
            rw [pageTable, (holds.isolated ⟨safe, blank⟩).upper idx inside.1]
            exact sharedEntries idx inside
          · intro _ untouched
            rw [← safe_segments_iff]
            exact holds.mapped ▸ untouched.lower
      | @refused offset filesz final holds =>
          obtain ⟨failure, dropped⟩ := dropping_on_error_state loaded
          rw [← unfolded] at dropped
          rw [dropped]
          constructor
          · rintro ⟨safe, blank, clean⟩
            refine ⟨fun virt member => pagesLow ⟨safe, blank⟩ virt (holds.mapped ▸ member),
              fun page member => ?_, ?_⟩
            · refine (refused_keeps rounds active owned created safe blank clean
                (holds.isolated ⟨safe, blank⟩) (load_into_refused quiet pagesLow loaded)
                page member).trans ?_
              exact kept ⟨safe, blank⟩ holds page member
            · intro options state same
              exact absurd same (by simp)
          · intro _ untouched
            rw [← safe_segments_iff]
            exact holds.mapped ▸ untouched.lower
      | @panic done final inside holds =>
          have halted : result = .error .panic final := by
            rw [unfolded, droppingOnError, loaded]
          rw [halted]
          constructor
          · rintro ⟨safe, blank, -⟩
            refine ⟨fun virt member =>
                pagesLow ⟨safe, blank⟩ virt (inside.subset (holds.mapped ▸ member)),
              kept ⟨safe, blank⟩ holds, ?_⟩
            intro options state same
            exact absurd same (by simp)
          · intro finished
            cases finished

/-- An executable for x86-64 whose only segment is its own header, to be loaded at
`vaddr`. -/
def oneSegment (vaddr : Nat) : List UInt8 :=
  elfMagic ++ [2, 1, 1, 0, 0, 0, 0, 0, 0, 0, 0, 0, 2, 0, 62, 0, 1, 0, 0, 0] ++ toLe vaddr 8 ++
    toLe 64 8 ++ toLe 0 8 ++ [0, 0, 0, 0, 64, 0, 56, 0, 1, 0, 64, 0, 0, 0, 0, 0] ++
    [1, 0, 0, 0, 5, 0, 0, 0] ++ toLe 0 8 ++ toLe vaddr 8 ++ toLe vaddr 8 ++
    toLe 64 8 ++ toLe 64 8 ++ toLe 0x1000 8

def oneSegmentFile (vaddr : Nat) : Elf64File where
  contents := oneSegment vaddr
  header := {
    magic := elfMagic, bits := .class64, endianness := .little, headerVersion := .current
    osAbi := 0, elfType := .executable, instructionSet := .x86_64, elfVersion := .current
    entryOffset := vaddr, programHeaderTableOffset := 64, sectionHeaderTableOffset := 0, flags := 0
    headerSize := 64, programHeaderEntrySize := 56, programHeaderEntryCount := 1
    sectionHeaderEntrySize := 64, sectionHeaderEntryCount := 0
    indexOfSectionHeaderStringTable := 0 }

def tenPages : FreeList :=
  ⟨(List.range 10).map fun page => 0xFFFF_A000_0000_5000 + page * 0x1000, by decide +kernel,
    by decide +kernel⟩

theorem zeroed_pages_clean (pages : FreeList) :
    CleanPml4 FreeList.lawful ⟨fun _ _ => 0, pages⟩ := by
  intro pml4 after allocated idx _
  change FreeList.allocPage ⟨fun _ _ => 0, pages⟩ = .ok pml4 after at allocated
  rw [(FreeList.alloc_page_ok allocated).1]
  exact Nat.zero_and _

/-- The same executable with a second segment that lies behind the end of the file. -/
def missingSegment (vaddr : Nat) : List UInt8 :=
  elfMagic ++ [2, 1, 1, 0, 0, 0, 0, 0, 0, 0, 0, 0, 2, 0, 62, 0, 1, 0, 0, 0] ++ toLe vaddr 8 ++
    toLe 64 8 ++ toLe 0 8 ++ [0, 0, 0, 0, 64, 0, 56, 0, 2, 0, 64, 0, 0, 0, 0, 0] ++
    [1, 0, 0, 0, 5, 0, 0, 0] ++ toLe 0 8 ++ toLe vaddr 8 ++ toLe vaddr 8 ++
    toLe 64 8 ++ toLe 64 8 ++ toLe 0x1000 8 ++
    [1, 0, 0, 0, 5, 0, 0, 0] ++ toLe 0x1000 8 ++ toLe vaddr 8 ++ toLe vaddr 8 ++
    toLe 64 8 ++ toLe 64 8 ++ toLe 0x1000 8

def missingSegmentFile (vaddr : Nat) : Elf64File where
  contents := missingSegment vaddr
  header := { (oneSegmentFile vaddr).header with programHeaderEntryCount := 2 }

/-- A kernel that has mapped nothing yet, and a program that is loaded and one that is not. -/
theorem lower_segment_untouched :
    (SafeSegments (oneSegmentFile 0x40_0000) ∧
      KernelUntouched firstPage ⟨fun _ _ => 0, tenPages⟩
        ((oneSegmentFile 0x40_0000).createProcess FreeList.lawful firstPage 0 0x1000 [] []
          ⟨⟨fun _ _ => 0, tenPages⟩, []⟩)) ∧
      MissesSegment (missingSegmentFile 0x40_0000) ∧ SafeSegments (missingSegmentFile 0x40_0000) ∧
        KernelUntouched firstPage ⟨fun _ _ => 0, tenPages⟩
          ((missingSegmentFile 0x40_0000).createProcess FreeList.lawful firstPage 600 0x1000 [] []
            ⟨⟨fun _ _ => 0, tenPages⟩, []⟩) := by
  have safe : SafeSegments (oneSegmentFile 0x40_0000) := by
    unfold SafeSegments
    decide +kernel
  have safeMissing : SafeSegments (missingSegmentFile 0x40_0000) := by
    unfold SafeSegments
    decide +kernel
  have missing : MissesSegment (missingSegmentFile 0x40_0000) := by
    unfold MissesSegment
    decide +kernel
  have owned : kernelPages firstPage ⟨fun _ _ => 0, tenPages⟩ ⊆
      FreeList.lawful.held ⟨fun _ _ => 0, tenPages⟩ := by
    rintro page (rfl | ⟨path, top, last, -, found⟩)
    · exact ⟨by decide +kernel, by decide +kernel⟩
    · cases path with
      | nil => exact absurd last (by simp)
      | cons idx path =>
          rw [tables, Lib.TableTree.tableAt] at found
          simp only [(zero_is_blank _).1, Option.bind_fun_none] at found
          exact absurd found (by simp)
  have clean := zeroed_pages_clean tenPages
  refine ⟨⟨safe, ?_⟩, missing, safeMissing, ?_⟩
  · exact (create_process_untouched_iff FreeList.lawful firstPage _ owned _ 0 0x1000 [] []).1
      ⟨safe, clean.blank, fun _ => clean⟩
  · exact (create_process_untouched_iff FreeList.lawful firstPage _ owned _ 600 0x1000 [] []).1
      ⟨safeMissing, clean.blank, fun _ => clean⟩

def kernelMachine : Machine FreeList :=
  ⟨(stateAfter (firstPage.map4kb FreeList.lawful.toPageAllocator higherHalfBegin 0xF000
    (pagePresent ||| pageRw) threePages)).mem, tenPages⟩

theorem higher_segment_remaps_kernel :
    Elf64File.tryParse (oneSegment 0xFFFF_8000_0000_0000) =
        .ok (oneSegmentFile 0xFFFF_8000_0000_0000) ∧
      leaves firstPage.pml4 kernelMachine (smallEntry 0xFFFF_8000_0000_0000) = some 0xF000 ∧
      let result := (oneSegmentFile 0xFFFF_8000_0000_0000).createProcess FreeList.lawful firstPage
        0 0x1000 [] [] ⟨kernelMachine, []⟩
      leaves firstPage.pml4 (stateAfter result).machine (smallEntry 0xFFFF_8000_0000_0000) =
          some 0x6000 ∧
        ¬KernelUntouched firstPage kernelMachine result := by
  refine ⟨by rfl, by decide +kernel, by decide +kernel, ?_⟩
  intro untouched
  have higher : 0xFFFF_8000_0000_0000 ∈ (stateAfter
      ((oneSegmentFile 0xFFFF_8000_0000_0000).createProcess FreeList.lawful firstPage 0 0x1000 [] []
        ⟨kernelMachine, []⟩)).mapped := by
    decide +kernel
  exact absurd (untouched.lower _ higher) (by decide)

end Campix.Formats
