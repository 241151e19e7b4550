import Campix.Formats.Loading
import Campix.Paging.NewSpaces

/-!
# The tables of a loaded program

The page table that `create_process` returns shares the kernel's tables. Together with its own they
form one tree, whatever addresses the segments have, as long as the kernel's do and the page that
becomes the PML4 holds no stale entries. A condition on the leaves that mapping a page keeps is kept
by everything that loading is made of.
-/

namespace Campix.Formats

open Lib.Word Lib.Fallible Lib.Outcome Lib.TableTree
open Paging Process

set_option autoImplicit false

variable {σ : Type} {allocator : LawfulAllocator σ} {root : Nat} {pages : List Nat}
variable {Holds : (List (Fin 512) → Option Nat) → Prop} {state : Loading σ} {pt : PageTable}

/-- The tables are a tree whose leaves satisfy `Holds`, and the buffers in `pages` are none of them.
-/
structure InOrder (allocator : LawfulAllocator σ) (root : Nat)
    (Holds : (List (Fin 512) → Option Nat) → Prop) (pages : List Nat)
    (state : Loading σ) : Prop where
  intact : Intact allocator root state.machine
  holds : Holds (leaves root state.machine)
  loose : ∀ page ∈ pages, page ∈ allocator.held state.machine ∧
    ∀ path, tables root state.machine path ≠ some page

theorem in_order_fewer {fewer : List Nat} (inOrder : InOrder allocator root Holds pages state)
    (subset : fewer ⊆ pages) : InOrder allocator root Holds fewer state :=
  ⟨inOrder.intact, inOrder.holds, fun page member => inOrder.loose page (subset member)⟩

theorem in_order_congr {after : Machine σ} (inOrder : InOrder allocator root Holds pages state)
    (grows : allocator.held state.machine ⊆ allocator.held after)
    (same : ∀ path table, tables root state.machine path = some table →
      after.mem table = state.machine.mem table) :
    InOrder allocator root Holds pages { state with machine := after } ∧
      tables root after = tables root state.machine := by
  obtain ⟨intact, sameTables, sameLeaves⟩ := intact_congr inOrder.intact fun path table found =>
    ⟨same path table found, grows (inOrder.intact.held path table found)⟩
  refine ⟨⟨intact, ?_, fun page member =>
    ⟨grows (inOrder.loose page member).1, fun path found => ?_⟩⟩,
    sameTables⟩
  · change Holds (leaves root after)
    rw [sameLeaves]
    exact inOrder.holds
  · exact (inOrder.loose page member).2 path (sameTables ▸ found)

theorem in_order_alloc {page : Nat} {after : Machine σ}
    (inOrder : InOrder allocator root Holds pages state)
    (allocated : allocator.allocPage state.machine = .ok page after) :
    InOrder allocator root Holds (page :: pages) { state with machine := after } := by
  obtain ⟨fresh, held, -, frame⟩ := allocator.alloc_some allocated
  have grows : allocator.held state.machine ⊆ allocator.held after := by
    rw [held]
    exact Set.subset_insert _ _
  obtain ⟨stays, sameTables⟩ := in_order_congr inOrder grows fun path table found =>
    frame table (inOrder.intact.held path table found)
  have taken : page ∈ allocator.held after := by
    rw [held]
    exact Set.mem_insert _ _
  refine ⟨stays.intact, stays.holds,
    List.forall_mem_cons.mpr ⟨⟨taken, fun path found => ?_⟩, stays.loose⟩⟩
  change tables root after path = some page at found
  rw [sameTables] at found
  exact fresh (inOrder.intact.held path page found)

theorem in_order_refuse {after : Machine σ} (inOrder : InOrder allocator root Holds pages state)
    (failed : allocator.allocPage state.machine = .error () after) :
    InOrder allocator root Holds pages { state with machine := after } := by
  obtain ⟨held, frame⟩ := allocator.alloc_none failed
  exact (in_order_congr inOrder held.symm.subset fun path table found =>
    frame table (inOrder.intact.held path table found)).1

theorem in_order_store {page : Nat} (words : Table)
    (inOrder : InOrder allocator root Holds pages state)
    (member : page ∈ pages) :
    InOrder allocator root Holds pages
      { state with machine := state.machine.store page words } := by
  obtain ⟨owned, unlinked⟩ := inOrder.loose page member
  refine (in_order_congr inOrder (held_store owned words).symm.subset fun path table found => ?_).1
  exact Machine.store_other _ _ fun same => unlinked path (same ▸ found)

/-- Mapping a page at `virt` keeps the condition. -/
def Insensitive (Holds : (List (Fin 512) → Option Nat) → Prop) (virt : Nat) : Prop :=
  ∀ leaves value, leaves (largeEntry virt) = none → Holds leaves →
    Holds (graft leaves (smallEntry virt) value)

theorem in_order_map {virt : Nat} (phys flags : Nat)
    (inOrder : InOrder allocator pt.pml4 Holds pages state)
    (insensitive : Insensitive Holds virt) :
    InOrder allocator pt.pml4 Holds [] { state with
      machine := stateAfter (pt.map4kb allocator.toPageAllocator virt phys flags state.machine)
        } := by
  have grafts := map4kb_grafts virt phys flags inOrder.intact
  revert grafts
  generalize pt.map4kb allocator.toPageAllocator virt phys flags state.machine = result
  rintro (@⟨after, intact, uncovered, grafted⟩ | @⟨after, kept⟩)
  · have holds : Holds (leaves pt.pml4 after) := by
      rw [grafted]
      exact insensitive _ _ uncovered inOrder.holds
    exact ⟨intact, holds, fun page member => absurd member List.not_mem_nil⟩
  · have holds : Holds (leaves pt.pml4 after) := by
      rw [kept.leaves]
      exact inOrder.holds
    exact ⟨kept.intact, holds, fun page member => absurd member List.not_mem_nil⟩

theorem in_order_preserves :
    Preserves allocator pt (Insensitive Holds) (InOrder allocator pt.pml4 Holds) where
  fewer := in_order_fewer
  alloc := in_order_alloc
  refuse := fun inOrder failed =>
    in_order_fewer (in_order_refuse inOrder failed) (List.nil_subset _)
  store := in_order_store
  map := fun phys flags => in_order_map phys flags

abbrev Tree (allocator : LawfulAllocator σ) (root : Nat) : List Nat → Loading σ → Prop :=
  InOrder allocator root fun _ => True

theorem tree_of_intact (intact : Intact allocator root state.machine) :
    Tree allocator root [] state :=
  ⟨intact, trivial, fun _ member => absurd member List.not_mem_nil⟩

theorem insensitive_true (virt : Nat) : Insensitive (fun _ => True) virt :=
  fun _ _ _ _ => trivial

theorem load_pages_tree (ph : Elf64ProgramHeader) (segment : List UInt8) (virts : List Nat) :
    ∀ {state : Loading σ} (codeI : Nat), Tree allocator pt.pml4 [] state →
      Settles (fun _ => Tree allocator pt.pml4 []) (Tree allocator pt.pml4 [])
        (loadPages allocator pt ph segment codeI virts state) := by
  induction virts with
  | nil => exact fun codeI tree => .ok tree
  | cons virt virts ih =>
      intro state codeI tree
      rw [loadPages]
      apply settles_bind (alloc_boxed_slice_settles in_order_preserves tree)
      rintro buffer first ⟨-, treeFirst⟩
      apply settles_bind (load_page_settles treeFirst buffer)
      intro bytes second treeSecond
      cases fillPage ph segment virt codeI bytes with
      | none => exact .panic (in_order_fewer treeSecond (List.nil_subset _))
      | some filled =>
          obtain ⟨filledBytes, position⟩ := filled
          apply settles_bind (store_page_settles in_order_preserves treeSecond List.mem_cons_self _)
          intro _ third treeThird
          apply settles_bind (map_settles in_order_preserves treeThird (insensitive_true virt) _ _)
          intro _ fourth treeFourth
          have recorded : Tree allocator pt.pml4 []
              { fourth with allocatedCode := fourth.allocatedCode ++ [(virt, buffer)] } :=
            tree_of_intact treeFourth.intact
          exact ih position recorded

theorem load_segments_tree (file : Elf64File) (headers : List Elf64ProgramHeader)
    {after : Loading σ} :
    ∀ {state : Loading σ}, Tree allocator pt.pml4 [] state →
      loadSegments allocator pt file headers state = .ok () after →
        Tree allocator pt.pml4 [] after := by
  induction headers with
  | nil =>
      intro state tree loaded
      obtain rfl : state = after := (EStateM.Result.ok.inj loaded).2
      exact tree
  | cons ph headers ih =>
      intro state tree loaded
      rw [loadSegments] at loaded
      split_ifs at loaded with skipped
      · exact ih tree loaded
      · cases held : segmentData file ph with
        | none =>
            rw [held] at loaded
            exact (not_returned_of_throw loaded).elim
        | some segment =>
            rw [held] at loaded
            dsimp only at loaded
            have settles := load_pages_tree ph segment (pagesBetween ph.beginMap ph.endMap) 0 tree
            cases pagesLoaded : loadPages allocator pt ph segment 0
                (pagesBetween ph.beginMap ph.endMap) state with
            | error failure between =>
                rw [state_bind_error pagesLoaded] at loaded
                exact absurd loaded (by simp)
            | ok value between =>
                rw [state_bind_ok pagesLoaded] at loaded
                have treeBetween := settles_ok settles pagesLoaded
                exact ih treeBetween loaded

theorem load_into_tree {file : Elf64File} {cmdline environment : List (List UInt8)}
    {after : Loading σ}
    {options : CreateProcessOptions} (tree : Tree allocator pt.pml4 [] state)
    (returned : file.loadInto allocator pt cmdline environment state = .ok options after) :
    options.pageTable = pt ∧ Tree allocator pt.pml4 [] after := by
  rw [Elf64File.loadInto] at returned
  cases loaded : loadSegments allocator pt file file.iterProgramHeaders state with
  | error failure between =>
      rw [state_bind_error loaded] at returned
      exact absurd returned (by simp)
  | ok value between =>
      rw [state_bind_ok loaded] at returned
      have between := load_segments_tree file file.iterProgramHeaders tree loaded
      exact settles_ok (stack_settles in_order_preserves file cmdline environment between
        fun above _ _ => insensitive_true _) returned

/-- The tables of a new process are in order if the kernel's were and the page of the PML4 was
clean. -/
theorem create_process_tree {file : Elf64File} {kernel : PageTable} {machine : Machine σ}
    {rounds active : Nat} {cmdline environment : List (List UInt8)} {options : CreateProcessOptions}
    {after : Loading σ}
    (intact : Intact allocator kernel.pml4 machine) (clean : CleanPml4 allocator machine)
    (returned : file.createProcess allocator
      kernel rounds active cmdline environment ⟨machine, []⟩ =
      .ok options after) :
    Intact allocator options.pageTable.pml4 after.machine := by
  rw [create_process_eq] at returned
  cases created : PageTable.allocNew allocator machine with
  | error nothing between =>
      rw [created] at returned
      exact absurd returned (by simp)
  | ok pt between =>
      rw [created] at returned
      replace returned := dropping_on_error_ok returned
      obtain ⟨sameTable, tree⟩ :=
        load_into_tree (tree_of_intact (new_space_intact clean intact created)) returned
      rw [sameTable]
      exact tree.intact

def ThreadStack.Sized (top : Nat) (stack : ThreadStack) : Prop :=
  stack.stackTop = top ∧ stack.stackSize = stack.stackBuffers.length * pageSize % 2 ^ 64

def ThreadStack.pushed (stack : ThreadStack) (buffer : Nat) : ThreadStack where
  stackTop := stack.stackTop
  stackSize := add64 stack.stackSize pageSize
  stackBuffers := stack.stackBuffers ++ [buffer]

theorem pushed_length (stack : ThreadStack) (buffer : Nat) :
    (stack.pushed buffer).stackBuffers.length = stack.stackBuffers.length + 1 := by
  rw [ThreadStack.pushed, List.length_append, List.length_singleton]

theorem pushed_top (stack : ThreadStack) (buffer : Nat) :
    (stack.pushed buffer).stackTop = stack.stackTop := by
  rw [ThreadStack.pushed]

theorem sized_pushed {top : Nat} {stack : ThreadStack} (sized : stack.Sized top) (buffer : Nat) :
    (stack.pushed buffer).Sized top := by
  obtain ⟨sameTop, size⟩ := sized
  have grows : (stack.pushed buffer).stackSize = add64 stack.stackSize pageSize := rfl
  constructor
  · rw [pushed_top, sameTop]
  · rw [pushed_length, grows, size, add64, Nat.add_one_mul]
    exact Nat.mod_add_mod _ _ _

/-- The page below the stack, as long as the addresses do not run out. -/
theorem pushed_bottom {top : Nat} {stack : ThreadStack} (sized : stack.Sized top) (buffer : Nat)
    (room : (stack.stackBuffers.length + 1) * pageSize ≤ top) (bound : top < 2 ^ 64) :
    (stack.pushed buffer).getBottom = top - (stack.stackBuffers.length + 1) * pageSize := by
  obtain ⟨sameTop, size⟩ := sized_pushed sized buffer
  rw [pushed_length, Nat.mod_eq_of_lt (room.trans_lt bound)] at size
  rw [ThreadStack.getBottom, sameTop, size, sub64_of_le room]

theorem grow_using_existing_buffer_eq (stack : ThreadStack) (flags buffer : Nat)
    (state : Loading σ) :
    stack.growUsingExistingBuffer allocator pt flags buffer state = .ok (stack.pushed buffer)
      { state with machine := stateAfter (pt.map4kb allocator.toPageAllocator
        (stack.pushed buffer).getBottom (sub64 buffer directMappingOffset) flags state.machine)
          } := by
  rw [ThreadStack.growUsingExistingBuffer]
  exact state_bind_ok (ignoring_state _ _)

/-- Every `map_4kb` returns `Some` while the buffers are added to the stack. -/
def MapsAll (allocator : PageAllocator σ) (pt : PageTable) (flags : Nat) :
    ThreadStack → List Nat → Machine σ → Prop
  | _, [], _ => True
  | stack, buffer :: buffers, machine => ∃ after,
      pt.map4kb allocator (stack.pushed buffer).getBottom (sub64 buffer directMappingOffset) flags
        machine = .ok () after ∧
      MapsAll allocator pt flags (stack.pushed buffer) buffers after

instance decidableMapsAll (allocator : PageAllocator σ) (pt : PageTable) (flags : Nat) :
    ∀ (stack : ThreadStack) (buffers : List Nat) (machine : Machine σ),
      Decidable (MapsAll allocator pt flags stack buffers machine)
  | _, [], _ => .isTrue trivial
  | stack, buffer :: buffers, machine =>
      match mapped : pt.map4kb allocator (stack.pushed buffer).getBottom
          (sub64 buffer directMappingOffset) flags machine with
      | .ok () after =>
          match decidableMapsAll allocator pt flags (stack.pushed buffer) buffers after with
          | .isTrue rest => .isTrue ⟨after, mapped, rest⟩
          | .isFalse rest => .isFalse fun ⟨_, same, others⟩ => by
              rw [mapped] at same
              exact rest ((EStateM.Result.ok.inj same).2 ▸ others)
      | .error () after => .isFalse fun ⟨_, same, _⟩ => by
          rw [mapped] at same
          exact absurd same (by simp)

section Gives

variable {Value Result : Type} {Post : Value → Prop}

/-- What a computation that returns says about its value, from any state. -/
def Gives (Post : Value → Prop) (computation : Load σ Value) : Prop :=
  ∀ before value after, computation before = .ok value after → Post value

theorem gives_bind {first : Load σ Value} {rest : Value → Load σ Result} {Final : Result → Prop}
    (begins : Gives Post first) (continues : ∀ value, Post value → Gives Final (rest value)) :
    Gives Final (first >>= rest) := by
  intro before value after returned
  cases outcome : first before with
  | error failure between =>
      rw [state_bind_error outcome] at returned
      exact absurd returned (by simp)
  | ok middle between =>
      rw [state_bind_ok outcome] at returned
      exact continues middle (begins _ _ _ outcome) between value after returned

theorem gives_any (computation : Load σ Value) : Gives (fun _ => True) computation :=
  fun _ _ _ _ => trivial

theorem gives_pure {value : Value} (holds : Post value) :
    Gives Post (pure value : Load σ Value) := by
  intro before result after returned
  obtain rfl : value = result := (EStateM.Result.ok.inj returned).1
  exact holds

theorem gives_throw (failure : LoadFailure) : Gives Post (throw failure : Load σ Value) := by
  intro before result after returned
  exact (not_returned_of_throw returned).elim

end Gives

section Sized

variable {top : Nat} {stack : ThreadStack}

theorem grow_using_existing_buffer_sized (sized : stack.Sized top) (flags buffer : Nat) :
    Gives (ThreadStack.Sized top) (stack.growUsingExistingBuffer allocator pt flags buffer) := by
  intro before grown after returned
  rw [grow_using_existing_buffer_eq, EStateM.Result.ok.injEq] at returned
  exact returned.1 ▸ sized_pushed sized buffer

theorem grow_sized (sized : stack.Sized top) (flags : Nat) :
    Gives (ThreadStack.Sized top) (stack.grow allocator pt flags) :=
  gives_bind (gives_any _) fun buffer _ => grow_using_existing_buffer_sized sized flags buffer

theorem grow_using_sized (flags : Nat) (buffers : List Nat) :
    ∀ {stack : ThreadStack}, stack.Sized top →
      Gives (ThreadStack.Sized top) (ThreadStack.growUsing allocator pt flags stack buffers) := by
  induction buffers with
  | nil => exact fun sized => gives_pure sized
  | cons buffer buffers ih =>
      intro stack sized
      rw [ThreadStack.growUsing]
      exact gives_bind (grow_using_existing_buffer_sized sized flags buffer) fun grown sizedGrown =>
        ih sizedGrown

theorem new_stack_sized (top : Nat) : (⟨top, 0, []⟩ : ThreadStack).Sized top := by
  refine ⟨rfl, ?_⟩
  rw [List.length_nil, Nat.zero_mul, Nat.zero_mod]

theorem build_stack_sized (stackTop flags : Nat) (args env : List (List UInt8))
    (aux : List (Nat × Nat)) :
    Gives (fun built => ThreadStack.Sized stackTop built.1)
      (buildStack allocator stackTop pt flags args env aux) := by
  unfold buildStack
  dsimp only
  refine gives_bind (gives_any _) fun pages _ => gives_bind (gives_any _) fun _ _ =>
    gives_bind (gives_any _) fun written _ => gives_bind (gives_any _) fun _ _ =>
    gives_bind (gives_any _) fun _ _ => gives_bind (gives_any _) fun _ _ =>
    gives_bind (gives_any _) fun _ _ => ?_
  split_ifs with overflow
  · exact gives_throw _
  · exact gives_bind (grow_using_sized flags pages.reverse (new_stack_sized stackTop))
      fun stack sized =>
      gives_pure sized

theorem load_into_sized (file : Elf64File) (cmdline environment : List (List UInt8)) :
    Gives (fun options => options.stack.Sized lowerHalfEnd)
      (file.loadInto allocator pt cmdline environment) := by
  unfold Elf64File.loadInto
  refine gives_bind (gives_any _) fun _ _ => ?_
  refine gives_bind (build_stack_sized lowerHalfEnd pageFlags cmdline environment [])
    fun built sized => ?_
  exact gives_bind (grow_sized sized pageFlags) fun grown sizedGrown => gives_pure sizedGrown

theorem create_process_sized (file : Elf64File) (kernel : PageTable) (rounds active : Nat)
    (cmdline environment : List (List UInt8)) :
    Gives (fun options => options.stack.Sized lowerHalfEnd)
      (file.createProcess allocator kernel rounds active cmdline environment) := by
  unfold Elf64File.createProcess
  refine gives_bind (gives_any _) fun table _ => gives_bind (gives_any _) fun _ _ => ?_
  intro before options after returned
  exact load_into_sized file cmdline environment _ _ _ (dropping_on_error_ok returned)

end Sized

end Campix.Formats
