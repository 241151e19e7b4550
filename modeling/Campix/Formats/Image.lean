import Campix.Formats.Loading
import Campix.Formats.SegmentPages
import Campix.Paging.LowerHalf

/-!
# The image of a loaded program

Every segment is copied page by page into fresh buffers that are zero outside its own
bytes, and each buffer is mapped in place of whatever was at its page. A page that two
segments share therefore shows the bytes of the later one only: the image is the program
exactly if the earlier one had nothing but zeros there.
-/

namespace Campix.Formats

open Lib.Slice Lib.Word Lib.Fallible Lib.Outcome Lib.TableTree
open Paging Process

set_option autoImplicit false

variable {σ : Type}

/-- The pages in `shown` are mapped to buffers with those bytes, and nothing is mapped by
large pages. The buffers in `pages` are not mapped. -/
structure Shows (allocator : LawfulAllocator σ) (root : Nat) (shown : Nat → Option (List UInt8))
    (pages : List Nat) (state : Loading σ) : Prop where
  intact : Intact allocator root (state.machine.lowerHalf root)
  small : ∀ virt, leaves root (state.machine.lowerHalf root) (largeEntry virt) = none
  aligned : ∀ virt bytes, shown virt = some bytes → pageSize ∣ virt ∧ virt < lowerHalfEnd
  buffers : ∀ virt bytes, shown virt = some bytes → ∃ buffer, UsablePage buffer ∧ buffer ∉ pages ∧
    Data allocator root state.machine buffer ∧
    leaves root (state.machine.lowerHalf root) (smallEntry virt) =
      some (sub64 buffer directMappingOffset) ∧
    bytesOf (state.machine.mem buffer) = bytes
  private_ : ∀ page ∈ pages, Data allocator root state.machine page

section Shows

variable {allocator : LawfulAllocator σ} {pt : PageTable} {root : Nat}
variable {shown : Nat → Option (List UInt8)} {pages : List Nat} {state : Loading σ}

theorem shows_machine {other : Loading σ} (same : other.machine = state.machine)
    (shows_ : Shows allocator root shown pages state) : Shows allocator root shown pages other := by
  obtain ⟨machine, code⟩ := other
  obtain rfl : machine = state.machine := same
  exact ⟨shows_.intact, shows_.small, shows_.aligned, shows_.buffers, shows_.private_⟩

theorem shows_fewer {fewer : List Nat} (shows_ : Shows allocator root shown pages state)
    (subset : fewer ⊆ pages) : Shows allocator root shown fewer state := by
  refine ⟨shows_.intact, shows_.small, shows_.aligned, fun virt bytes visible => ?_,
    fun page member => shows_.private_ page (subset member)⟩
  obtain ⟨buffer, usable, unlisted, rest⟩ := shows_.buffers virt bytes visible
  exact ⟨buffer, usable, fun member => unlisted (subset member), rest⟩

/-- A step that changes no leaf and no data but that of `pages`. -/
theorem shows_kept {after : Machine σ} (shows_ : Shows allocator root shown pages state)
    (kept : Kept allocator root (state.machine.lowerHalf root) (after.lowerHalf root))
    (data : ∀ page, Data allocator root state.machine page → Data allocator root after page)
    (same : ∀ page, Data allocator root state.machine page → page ∉ pages →
      after.mem page = state.machine.mem page) :
    Shows allocator root shown pages { state with machine := after } := by
  refine ⟨kept.intact, fun virt => (congrFun kept.leaves _).trans (shows_.small virt),
    shows_.aligned,
    fun virt bytes visible => ?_, fun page member => data page (shows_.private_ page member)⟩
  obtain ⟨buffer, usable, unlisted, dataBuffer, mapped, holds⟩ := shows_.buffers virt bytes visible
  refine ⟨buffer, usable, unlisted,
    data buffer dataBuffer, (congrFun kept.leaves _).trans mapped, ?_⟩
  rw [same buffer dataBuffer unlisted]
  exact holds

theorem shows_extended {after : Machine σ} (shows_ : Shows allocator root shown pages state)
    (extended : Extended allocator root state.machine after) :
    Shows allocator root shown pages { state with machine := after } :=
  shows_kept shows_ extended.kept (fun page data => (extended.data page data).1)
    fun page data _ => (extended.data page data).2

theorem shows_alloc {page : Nat} {after : Machine σ}
    (shows_ : Shows allocator root shown pages state)
    (allocated : allocator.allocPage state.machine = .ok page after) :
    Shows allocator root shown (page :: pages) { state with machine := after } := by
  obtain ⟨extended, dataPage⟩ := alloc_extends shows_.intact allocated
  have kept := shows_extended shows_ extended
  have fresh := (allocator.alloc_some allocated).1
  refine ⟨kept.intact, kept.small, kept.aligned, fun virt bytes visible => ?_, ?_⟩
  · obtain ⟨buffer, usable, unlisted, data, mapped, holds⟩ := shows_.buffers virt bytes visible
    obtain ⟨dataAfter, same⟩ := extended.data buffer data
    refine ⟨buffer, usable, ?_, dataAfter, (congrFun extended.kept.leaves _).trans mapped, ?_⟩
    · rw [List.mem_cons, not_or]
      exact ⟨fun equal => fresh (equal ▸ data.1), unlisted⟩
    · rw [same]
      exact holds
  · exact List.forall_mem_cons.mpr ⟨dataPage, kept.private_⟩

theorem shows_store {page : Nat} (words : Table) (shows_ : Shows allocator root shown pages state)
    (member : page ∈ pages) :
    Shows allocator root shown pages { state with machine := state.machine.store page words } := by
  obtain ⟨kept, data⟩ := store_extends shows_.intact (shows_.private_ page member) words
  refine shows_kept shows_ kept data fun other _ unlisted => ?_
  exact Machine.store_other _ _ fun equal => unlisted (equal ▸ member)

theorem canonical_lower {addr : Nat} (low : addr < lowerHalfEnd) : Canonical addr :=
  Or.inl low

theorem graft_other {leaves : List (Fin 512) → Option Nat} {value : Option Nat} {virt other : Nat}
    (low : virt < lowerHalfEnd) (lowOther : other < lowerHalfEnd) (aligned : pageSize ∣ virt)
    (alignedOther : pageSize ∣ other) (different : other ≠ virt) :
    graft leaves (smallEntry virt) value (smallEntry other) = leaves (smallEntry other) := by
  have apart : smallEntry other ≠ smallEntry virt := by
    intro equal
    rw [small_entry_eq_iff (canonical_lower lowOther) (canonical_lower low)] at equal
    exact different ((Nat.div_left_inj alignedOther aligned).mp equal)
  rw [graft, if_neg apart, if_neg]
  exact fun inside => apart (inside.eq_of_length rfl).symm

theorem graft_large {leaves : List (Fin 512) → Option Nat} {value : Option Nat} {virt addr : Nat} :
    graft leaves (smallEntry virt) value (largeEntry addr) = leaves (largeEntry addr) := by
  have longer : ¬smallEntry virt <:+ largeEntry addr := fun inside => by
    simpa [smallEntry, largeEntry] using inside.length_le
  rw [graft, if_neg, if_neg longer]
  intro equal
  exact longer (equal ▸ List.suffix_refl _)

/-- The page at `virt` goes to a buffer with the bytes of `target`, if there are any. -/
theorem shows_remapped {after : Machine σ} {virt : Nat} {value : Option Nat}
    (target : Option (List UInt8)) (shows_ : Shows allocator root shown pages state)
    (low : virt < lowerHalfEnd) (aligned : pageSize ∣ virt)
    (remapped : Remapped allocator root state.machine after virt value)
    (goes : ∀ bytes, target = some bytes → ∃ buffer, UsablePage buffer ∧
      Data allocator root state.machine buffer ∧ value = some (sub64 buffer directMappingOffset) ∧
      bytesOf (state.machine.mem buffer) = bytes) :
    Shows allocator root (Function.update shown virt target) []
      { state with machine := after } := by
  refine ⟨remapped.intact, fun addr => ?_, fun other bytes visible => ?_,
    fun other bytes visible => ?_, fun page member => absurd member List.not_mem_nil⟩
  · exact (congrFun remapped.leaves _).trans (graft_large.trans (shows_.small addr))
  · by_cases here : other = virt
    · exact here ▸ ⟨aligned, low⟩
    · rw [Function.update_of_ne here] at visible
      exact shows_.aligned other bytes visible
  · by_cases here : other = virt
    · subst here
      rw [Function.update_self] at visible
      obtain ⟨buffer, usable, data, goesTo, holds⟩ := goes bytes visible
      obtain ⟨dataAfter, same⟩ := remapped.data buffer data
      refine ⟨buffer, usable, List.not_mem_nil, dataAfter, ?_, ?_⟩
      · rw [← goesTo]
        exact (congrFun remapped.leaves _).trans (if_pos rfl)
      · rw [same]
        exact holds
    · rw [Function.update_of_ne here] at visible
      obtain ⟨alignedOther, lowOther⟩ := shows_.aligned other bytes visible
      obtain ⟨buffer, usable, -, data, mapped, holds⟩ := shows_.buffers other bytes visible
      obtain ⟨dataAfter, same⟩ := remapped.data buffer data
      refine ⟨buffer, usable, List.not_mem_nil, dataAfter, ?_, ?_⟩
      · rw [← mapped]
        exact (congrFun remapped.leaves _).trans
          (graft_other low lowOther aligned alignedOther here)
      · rw [same]
        exact holds

theorem shows_preserves (writable : pt.readonly = false) :
    Preserves allocator pt (fun virt => virt < lowerHalfEnd ∧ pageSize ∣ virt ∧ shown virt = none)
      (Shows allocator pt.pml4 shown) where
  fewer := shows_fewer
  alloc := shows_alloc
  refuse := fun shows_ failed =>
    shows_fewer (shows_extended shows_ (alloc_error_extends shows_.intact failed))
      (List.nil_subset _)
  store := shows_store
  map := by
    rintro pages state virt phys flags shows_ ⟨low, aligned, hidden⟩
    have same : Function.update shown virt none = shown := by
      rw [← hidden]
      exact Function.update_eq_self virt shown
    have mapped := map4kb_lower writable low phys flags shows_.intact
    revert mapped
    generalize pt.map4kb allocator.toPageAllocator virt phys flags state.machine = result
    rintro (remapped | ⟨extended, -⟩)
    · have hides := shows_remapped none shows_ low aligned remapped (by simp)
      rwa [same] at hides
    · exact shows_fewer (shows_extended shows_ extended) (List.nil_subset _)

/-- Mapping a buffer of bytes for a segment; it fails only for want of a page. -/
theorem map_segment_page {virt buffer : Nat} {bytes : List UInt8} (writable : pt.readonly = false)
    (shows_ : Shows allocator pt.pml4 shown pages state) (low : virt < lowerHalfEnd)
    (aligned : pageSize ∣ virt) (usable : UsablePage buffer) (member : buffer ∈ pages)
    (holds : bytesOf (state.machine.mem buffer) = bytes) :
    Yields (fun _ after => Shows allocator pt.pml4 (Function.update shown virt (some bytes)) []
        { state with machine := after }) (Refused allocator)
      (pt.map4kb allocator.toPageAllocator virt (sub64 buffer directMappingOffset) pageFlags
        state.machine) := by
  have base := valid_base_of_page usable
  have written : leaf 3 (alignDown (sub64 buffer directMappingOffset) pageSize ||| pageFlags) =
      some (sub64 buffer directMappingOffset) := by
    rw [align_down_page (base.bound.trans (by decide)), Nat.div_mul_cancel base.aligned]
    exact written_leaf base ⟨by decide, by decide⟩
  apply yields_weaken (map4kb_lower writable low _ _ shows_.intact)
  · intro _ after remapped
    rw [written] at remapped
    apply shows_remapped (some bytes) shows_ low aligned remapped
    intro _ same
    exact ⟨buffer, usable, shows_.private_ buffer member, rfl, holds.trans (Option.some.inj same)⟩
  · rintro after ⟨-, refused | covered⟩
    · exact refused
    · exact absurd (shows_.small virt) covered

/-- An allocation that failed fails again when it is tried at once. -/
def KeepsRefusing (allocator : LawfulAllocator σ) : Prop :=
  ∀ machine page after, Refused allocator machine → allocator.allocPage machine ≠ .ok page after

theorem refused_halts (again : KeepsRefusing allocator)
    (refused : Refused allocator state.machine) :
    ∃ after, allocBoxedSlice allocator state = .error .panic after := by
  unfold allocBoxedSlice onMachine
  cases allocated : allocator.allocPage state.machine with
  | ok page after => exact absurd allocated (again _ page after refused)
  | error nothing after => exact ⟨_, rfl⟩

def showSegment (shown : Nat → Option (List UInt8)) (ph : Elf64ProgramHeader)
    (segment : List UInt8) (virts : List Nat) : Nat → Option (List UInt8) := fun virt =>
  if virt ∈ virts then some (pageBytes ph segment virt) else shown virt

theorem show_segment_cons (ph : Elf64ProgramHeader) (segment : List UInt8) (virt : Nat)
    (virts : List Nat) :
    showSegment (Function.update shown virt (some (pageBytes ph segment virt))) ph segment virts =
      showSegment shown ph segment (virt :: virts) := by
  funext other
  unfold showSegment
  by_cases later : other ∈ virts
  · rw [if_pos later, if_pos (List.mem_cons_of_mem _ later)]
  · by_cases here : other = virt
    · rw [if_neg later, here, Function.update_self, if_pos List.mem_cons_self]
    · rw [if_neg later, Function.update_of_ne here, if_neg]
      rw [List.mem_cons, not_or]
      exact ⟨here, later⟩

def pagesFrom (start : Nat) : Nat → List Nat
  | 0 => []
  | count + 1 => start :: pagesFrom (start + pageSize) count

theorem pages_between_from (begin_ end_ : Nat) :
    pagesBetween begin_ end_ = pagesFrom begin_ ((end_ - begin_ + pageSize - 1) / pageSize) := by
  have shifted : ∀ count start, (List.range count).map (fun page => start + page * pageSize) =
      pagesFrom start count := by
    intro count
    induction count with
    | zero => exact fun start => rfl
    | succ count ih =>
        intro start
        rw [pagesFrom, ← ih, List.range_succ_eq_map, List.map_cons, List.map_map, Nat.zero_mul,
          Nat.add_zero]
        congr 1
        apply List.map_congr_left
        intro page _
        rw [Function.comp_apply, Nat.succ_mul, Nat.add_comm (page * pageSize), ← Nat.add_assoc]
  exact shifted _ _

theorem refused_load_pages (again : KeepsRefusing allocator) {ph : Elf64ProgramHeader}
    {segment : List UInt8} {codeI : Nat} {virts : List Nat} {after : Loading σ}
    (refused : Refused allocator state.machine)
    (loaded : loadPages allocator pt ph segment codeI virts state = .ok () after) :
    Refused allocator after.machine := by
  cases virts with
  | nil =>
      obtain rfl : state = after := (EStateM.Result.ok.inj loaded).2
      exact refused
  | cons virt virts =>
      obtain ⟨between, halted⟩ := refused_halts again refused
      rw [loadPages, state_bind_error halted] at loaded
      exact absurd loaded (by simp)

theorem load_pages_shows (again : KeepsRefusing allocator) (writable : pt.readonly = false)
    {ph : Elf64ProgramHeader} {segment : List UInt8} (length : segment.length = ph.pFilesz.toNat)
    (bound : ph.pVaddr.toNat + ph.pFilesz.toNat ≤ lowerHalfEnd) (count : Nat) :
    ∀ {start : Nat} {shown : Nat → Option (List UInt8)} {state after : Loading σ},
      pageSize ∣ start → ph.pVaddr.toNat < start + pageSize →
      start + count * pageSize ≤ lowerHalfEnd → Shows allocator pt.pml4 shown [] state →
      loadPages allocator pt ph segment (positionAt ph start) (pagesFrom start count) state =
        .ok () after →
      Shows allocator pt.pml4 (showSegment shown ph segment (pagesFrom start count)) [] after ∨
        Refused allocator after.machine := by
  induction count with
  | zero =>
      intro start shown state after _ _ _ shows_ loaded
      obtain rfl : state = after := (EStateM.Result.ok.inj loaded).2
      exact Or.inl shows_
  | succ count ih =>
      intro start shown state after aligned near room shows_ loaded
      have pageRoom : 0 < pageSize := by decide
      have words : lowerHalfEnd < 2 ^ 64 := by decide
      rw [Nat.succ_mul] at room
      rw [pagesFrom, loadPages] at loaded
      have allocated := alloc_boxed_slice_settles (shows_preserves writable) shows_
      cases taken : allocBoxedSlice allocator state with
      | error failure between =>
          rw [state_bind_error taken] at loaded
          exact absurd loaded (by simp)
      | ok buffer first =>
          rw [taken] at allocated
          cases allocated with
          | ok holds =>
              obtain ⟨fresh, showsFirst⟩ := holds
              rw [state_bind_ok taken, state_bind_ok (by rfl : loadPage buffer first = _),
                fill_page_eq length (length_bytes_of _) near (by omega) (by omega)] at loaded
              dsimp only at loaded
              rw [state_bind_ok (by rfl : storePage buffer _ first = _),
                state_bind_ok (ignoring_state _ _)] at loaded
              have pageLength : (pageBytes ph segment start).length = pageSize := by
                rw [pageBytes, List.length_map, List.length_range]
              have stored := shows_store (tableOf (pageBytes ph segment start)) showsFirst
                List.mem_cons_self
              have mapped := map_segment_page writable stored (by omega : start < lowerHalfEnd)
                aligned
                fresh.usable List.mem_cons_self
                ((congrArg bytesOf (Machine.store_self _ _ _)).trans (bytes_of_table_of pageLength))
              revert mapped loaded
              generalize pt.map4kb allocator.toPageAllocator start _ pageFlags _ = result
              intro loaded mapped
              have rest : loadPages allocator pt ph segment (positionAt ph (start + pageSize))
                  (pagesFrom (start + pageSize) count)
                  ⟨stateAfter result, first.allocatedCode ++ [(start, buffer)]⟩ = .ok () after :=
                loaded
              cases mapped with
              | ok showsMapped =>
                  rw [pagesFrom, ← show_segment_cons]
                  refine ih (Nat.dvd_add aligned (Nat.dvd_refl _)) (by omega) (by omega) ?_ rest
                  exact shows_machine (by rfl) showsMapped
              | error refused => exact Or.inr (refused_load_pages again refused rest)

def segmentOf (file : Elf64File) (ph : Elf64ProgramHeader) : List UInt8 :=
  (file.contents.drop ph.pOffset.toNat).take ph.pFilesz.toNat

theorem segment_data_some {file : Elf64File} {ph : Elf64ProgramHeader} {segment : List UInt8}
    (held : segmentData file ph = some segment) :
    segment = segmentOf file ph ∧ segment.length = ph.pFilesz.toNat := by
  have offsetBound := ph.pOffset.toNat_lt
  have sizeBound := ph.pFilesz.toNat_lt
  rw [segmentData, getSlice] at held
  split_ifs at held with inside
  obtain ⟨ordered, within⟩ := inside
  have total : add64 ph.pOffset.toNat ph.pFilesz.toNat = ph.pOffset.toNat + ph.pFilesz.toNat := by
    unfold add64 at ordered ⊢
    omega
  rw [total] at held within
  have shape : segment = segmentOf file ph := by
    rw [← Option.some.inj held, segmentOf, List.drop_take, Nat.add_sub_cancel_left]
  refine ⟨shape, ?_⟩
  rw [shape, segmentOf, List.length_take, List.length_drop]
  omega

theorem end_map_of_fits {ph : Elf64ProgramHeader}
    (fits : ph.pVaddr.toNat + ph.pMemsz.toNat + pageSize ≤ 2 ^ 64) :
    ph.endMap = (ph.pVaddr.toNat + ph.pMemsz.toNat + pageSize - 1) / pageSize * pageSize := by
  have positive : 0 < pageSize := by decide
  have total : add64 ph.pVaddr.toNat ph.pMemsz.toNat = ph.pVaddr.toNat + ph.pMemsz.toNat :=
    add64_of_lt (by omega)
  rw [Elf64ProgramHeader.endMap, total]
  exact align_up_of_le page_size_pow (by decide) fits

theorem end_map_eq {ph : Elf64ProgramHeader}
    (lower : ph.pVaddr.toNat + ph.pMemsz.toNat ≤ lowerHalfEnd) :
    ph.endMap = (ph.pVaddr.toNat + ph.pMemsz.toNat + pageSize - 1) / pageSize * pageSize := by
  apply end_map_of_fits
  unfold lowerHalfEnd at lower
  unfold pageSize
  omega

theorem load_segments_filter (file : Elf64File) (headers : List Elf64ProgramHeader) :
    loadSegments allocator pt file headers =
      loadSegments allocator pt file (headers.filter fun ph => ph.segmentType = .load) := by
  induction headers with
  | nil => rfl
  | cons ph headers ih =>
      by_cases isLoad : ph.segmentType = .load
      · rw [List.filter_cons_of_pos (by simpa using isLoad), loadSegments, loadSegments, ih]
      · rw [List.filter_cons_of_neg (by simpa using isLoad), loadSegments, if_pos isLoad, ih]

def lastCovering : List Elf64ProgramHeader → Nat → Option Elf64ProgramHeader
  | [], _ => none
  | ph :: segments, virt => (lastCovering segments virt).or
      (if virt ∈ pagesBetween ph.beginMap ph.endMap then some ph else none)

def showSegments (file : Elf64File) (segments : List Elf64ProgramHeader)
    (shown : Nat → Option (List UInt8)) : Nat → Option (List UInt8) := fun virt =>
  ((lastCovering segments virt).map fun ph => pageBytes ph (segmentOf file ph) virt).or (shown virt)

theorem show_segments_cons (file : Elf64File) (ph : Elf64ProgramHeader)
    (segments : List Elf64ProgramHeader) (shown : Nat → Option (List UInt8)) :
    showSegments file segments (showSegment shown ph (segmentOf file ph)
        (pagesBetween ph.beginMap ph.endMap)) = showSegments file (ph :: segments) shown := by
  funext virt
  rw [showSegments, showSegments, lastCovering, showSegment]
  cases lastCovering segments virt with
  | some later => rfl
  | none =>
      by_cases covered : virt ∈ pagesBetween ph.beginMap ph.endMap
      · rw [if_pos covered, if_pos covered]
        rfl
      · rw [if_neg covered, if_neg covered]
        rfl

theorem load_segment_shows (again : KeepsRefusing allocator) (writable : pt.readonly = false)
    {ph : Elf64ProgramHeader} {segment : List UInt8} {after : Loading σ}
    (length : segment.length = ph.pFilesz.toNat) (sized : ph.pFilesz.toNat ≤ ph.pMemsz.toNat)
    (lower : ph.pVaddr.toNat + ph.pMemsz.toNat ≤ lowerHalfEnd)
    (before : Shows allocator pt.pml4 shown [] state ∨ Refused allocator state.machine)
    (loaded : loadPages allocator pt ph segment 0 (pagesBetween ph.beginMap ph.endMap) state =
      .ok () after) :
    Shows allocator pt.pml4
        (showSegment shown ph segment (pagesBetween ph.beginMap ph.endMap)) [] after ∨
      Refused allocator after.machine := by
  rcases before with shows_ | refused
  · have begins := begin_map_eq ph
    have ends := end_map_eq lower
    have start : positionAt ph ph.beginMap = 0 := by
      rw [positionAt, begins]
      unfold pageSize
      omega
    rw [pages_between_from] at loaded ⊢
    apply load_pages_shows again writable length (by omega) _ _ _ _ shows_ (start ▸ loaded)
    · rw [begins]
      exact Nat.dvd_mul_left _ _
    · rw [begins]
      unfold pageSize
      omega
    · rw [begins, ends]
      unfold pageSize lowerHalfEnd at *
      omega
  · exact Or.inr (refused_load_pages again refused loaded)

theorem load_segments_shows (again : KeepsRefusing allocator) (writable : pt.readonly = false)
    (file : Elf64File) (segments : List Elf64ProgramHeader) :
    ∀ {shown : Nat → Option (List UInt8)} {state after : Loading σ},
      (∀ ph ∈ segments, ph.segmentType = .load ∧ ph.pFilesz.toNat ≤ ph.pMemsz.toNat ∧
        ph.pVaddr.toNat + ph.pMemsz.toNat ≤ lowerHalfEnd) →
      Shows allocator pt.pml4 shown [] state ∨ Refused allocator state.machine →
      loadSegments allocator pt file segments state = .ok () after →
      Shows allocator pt.pml4 (showSegments file segments shown) [] after ∨
        Refused allocator after.machine := by
  induction segments with
  | nil =>
      intro shown state after _ before loaded
      obtain rfl : state = after := (EStateM.Result.ok.inj loaded).2
      exact before
  | cons ph segments ih =>
      intro shown state after formed before loaded
      obtain ⟨isLoad, sized, lower⟩ := formed ph List.mem_cons_self
      rw [loadSegments, if_neg (not_not.mpr isLoad)] at loaded
      cases held : segmentData file ph with
      | none =>
          rw [held] at loaded
          exact (not_returned_of_throw loaded).elim
      | some segment =>
          obtain ⟨rfl, length⟩ := segment_data_some held
          rw [held] at loaded
          dsimp only at loaded
          cases pagesLoaded : loadPages allocator pt ph (segmentOf file ph) 0
              (pagesBetween ph.beginMap ph.endMap) state with
          | error failure between =>
              rw [state_bind_error pagesLoaded] at loaded
              exact absurd loaded (by simp)
          | ok value between =>
              rw [state_bind_ok pagesLoaded] at loaded
              rw [← show_segments_cons]
              exact ih (fun later member => formed later (List.mem_cons_of_mem _ member))
                (load_segment_shows again writable length sized lower before pagesLoaded) loaded

theorem refused_build_stack (again : KeepsRefusing allocator) {stackTop flags : Nat}
    {args env : List (List UInt8)} {aux : List (Nat × Nat)}
    (refused : Refused allocator state.machine) :
    ∃ after, buildStack allocator stackTop pt flags args env aux state = .error .panic after := by
  obtain ⟨after, halted⟩ := refused_halts again refused
  refine ⟨after, ?_⟩
  obtain ⟨fewer, positive⟩ : ∃ fewer, stackPageCount args env aux = fewer + 1 := by
    apply Nat.exists_eq_succ_of_ne_zero
    unfold stackPageCount pageSize
    omega
  have noPage : callocBoxedSlice allocator state = .error .panic after := state_bind_error halted
  have noPages : callocPages allocator (stackPageCount args env aux)
      state = .error .panic after := by
    rw [positive, callocPages]
    exact state_bind_error noPage
  exact state_bind_error noPages

end Shows

def readVirtual (allocator : PageAllocator σ) (pt : PageTable) (machine : Machine σ) (addr : Nat) :
    Option UInt8 :=
  match pt.translate allocator addr machine with
  | .ok phys _ =>
      (bytesOf (machine.mem (add64 (alignDown phys pageSize) directMappingOffset)))[phys %
        pageSize]?
  | .error _ _ => none

def pageOf (addr : Nat) : Nat := addr / pageSize * pageSize

theorem read_of_lookup {allocator : PageAllocator σ} {pt : PageTable} {machine : Machine σ}
    {addr buffer : Nat} (usable : UsablePage buffer)
    (found : lookup (leaves pt.pml4 machine) addr =
      some (sub64 buffer directMappingOffset + addr % pageSize)) :
    readVirtual allocator pt machine addr = (bytesOf (machine.mem buffer))[addr % pageSize]? := by
  have base := valid_base_of_page usable
  have inside : addr % pageSize < pageSize := Nat.mod_lt _ (by decide)
  have small : sub64 buffer directMappingOffset + addr % pageSize < 2 ^ 64 := by
    have bound := base.bound
    unfold pageSize at *
    omega
  have page : alignDown (sub64 buffer directMappingOffset + addr % pageSize) pageSize =
      sub64 buffer directMappingOffset := by
    obtain ⟨number, aligned⟩ := base.aligned
    rw [align_down_page small, aligned]
    unfold pageSize at *
    omega
  have offset : (sub64 buffer directMappingOffset + addr % pageSize) % pageSize = addr %
      pageSize := by
    obtain ⟨number, aligned⟩ := base.aligned
    rw [aligned]
    unfold pageSize at *
    omega
  have back : add64 (sub64 buffer directMappingOffset) directMappingOffset = buffer := by
    obtain ⟨-, above, high⟩ := usable
    rw [sub64_of_le above, add64_of_lt (by omega), Nat.sub_add_cancel above]
  rw [readVirtual, translate_lookup, found, answer]
  dsimp only
  rw [page, offset, back]

theorem shows_read {allocator : LawfulAllocator σ} {pt : PageTable} {addr : Nat}
    {shown : Nat → Option (List UInt8)} {pages : List Nat} {state : Loading σ} {bytes : List UInt8}
    (shows_ : Shows allocator pt.pml4 shown pages state) (low : addr < lowerHalfEnd)
    (visible : shown (pageOf addr) = some bytes) :
    readVirtual allocator.toPageAllocator pt state.machine addr = bytes[addr % pageSize]? := by
  obtain ⟨buffer, usable, -, -, mapped, holds⟩ := shows_.buffers _ bytes visible
  have below : pageOf addr ≤ addr := Nat.div_mul_le_self _ _
  have entry : smallEntry addr = smallEntry (pageOf addr) := by
    rw [small_entry_eq_iff (canonical_lower low) (canonical_lower (below.trans_lt low)), pageOf,
      Nat.mul_div_cancel _ (by decide : 0 < pageSize)]
  have found : lookup (leaves pt.pml4 state.machine) addr =
      some (sub64 buffer directMappingOffset + addr % pageSize) := by
    rw [lookup_lower shows_.intact low, lookup, shows_.small, entry, mapped]
    rfl
  rw [read_of_lookup usable found, holds]

def loadHeaders (file : Elf64File) : List Elf64ProgramHeader :=
  file.iterProgramHeaders.filter fun ph => ph.segmentType = .load

def Elf64ProgramHeader.Holds (ph : Elf64ProgramHeader) (addr : Nat) : Prop :=
  ph.pVaddr.toNat ≤ addr ∧ addr < ph.pVaddr.toNat + ph.pMemsz.toNat

/-- What the program has at an address of the segment: the byte of the file, and zero
behind the part that the file holds. -/
def programByte (file : Elf64File) (ph : Elf64ProgramHeader) (addr : Nat) : Option UInt8 :=
  if addr < ph.pVaddr.toNat + ph.pFilesz.toNat then
    file.contents[ph.pOffset.toNat + (addr - ph.pVaddr.toNat)]?
  else
    some 0

/-- The segments are disjoint and lie in the lower half and in the file, none with more
bytes in the file than in memory. -/
structure WellFormed (file : Elf64File) : Prop where
  disjoint : (loadHeaders file).Pairwise fun left right => ∀ addr, left.Holds addr →
    ¬right.Holds addr
  lower : ∀ ph ∈ loadHeaders file, ph.pVaddr.toNat + ph.pMemsz.toNat ≤ lowerHalfEnd
  inside : ∀ ph ∈ loadHeaders file, ph.pOffset.toNat + ph.pFilesz.toNat ≤ file.contents.length
  sized : ∀ ph ∈ loadHeaders file, ph.pFilesz.toNat ≤ ph.pMemsz.toNat

/-- The process reads the program at the addresses of its segments. -/
def ImageLoaded (file : Elf64File) (allocator : PageAllocator σ) (pt : PageTable)
    (machine : Machine σ) : Prop :=
  ∀ ph ∈ loadHeaders file, ∀ addr, ph.Holds addr →
    readVirtual allocator pt machine addr = programByte file ph addr

/-- Where a later segment has bytes in the same page, the earlier one has zeros only. -/
def NoMixedPages (file : Elf64File) : Prop :=
  (loadHeaders file).Pairwise fun earlier later => ∀ addr, earlier.Holds addr →
    pageOf addr ∈ pagesBetween later.beginMap later.endMap → programByte file earlier addr = some 0

def ClearOfStack (file : Elf64File) (cmdline environment : List (List UInt8)) : Prop :=
  ∀ virt ∈ segmentPages (loadHeaders file), virt < stackPage (stackPageCount cmdline environment [])

theorem segment_byte_program {file : Elf64File} {ph : Elf64ProgramHeader} {addr : Nat}
    (inside : ph.pOffset.toNat + ph.pFilesz.toNat ≤ file.contents.length)
    (holds : ph.Holds addr) :
    programByte file ph addr = some (segmentByte ph (segmentOf file ph) addr) := by
  have length : (segmentOf file ph).length = ph.pFilesz.toNat := by
    rw [segmentOf, List.length_take, List.length_drop]
    omega
  rw [programByte]
  by_cases inFile : addr < ph.pVaddr.toNat + ph.pFilesz.toNat
  · have low := holds.1
    rw [if_pos inFile, ← segment_byte_file length holds.1 inFile, segmentOf,
      List.getElem?_take_of_lt (by omega), List.getElem?_drop]
  · rw [if_neg inFile, segment_byte_zero (Or.inr (not_lt.mp inFile))]

theorem segment_byte_outside {ph : Elf64ProgramHeader} {segment : List UInt8} {addr : Nat}
    (sized : ph.pFilesz.toNat ≤ ph.pMemsz.toNat) (outside : ¬ph.Holds addr) :
    segmentByte ph segment addr = 0 := by
  apply segment_byte_zero
  unfold Elf64ProgramHeader.Holds at outside
  omega

theorem holds_page {ph : Elf64ProgramHeader} {addr : Nat}
    (lower : ph.pVaddr.toNat + ph.pMemsz.toNat ≤ lowerHalfEnd) (holds : ph.Holds addr) :
    pageOf addr ∈ pagesBetween ph.beginMap ph.endMap := by
  obtain ⟨low, high⟩ := holds
  rw [mem_pages_between_iff, begin_map_eq, end_map_eq lower, pageOf]
  refine ⟨addr / pageSize - ph.pVaddr.toNat / pageSize, ?_, ?_⟩
  · have ordered : ph.pVaddr.toNat / pageSize ≤ addr / pageSize := Nat.div_le_div_right low
    rw [← Nat.add_mul, Nat.add_sub_of_le ordered]
  · unfold pageSize
    omega

theorem last_covering_mem {segments : List Elf64ProgramHeader} {virt : Nat}
    {ph : Elf64ProgramHeader}
    (last : lastCovering segments virt = some ph) :
    ph ∈ segments ∧ virt ∈ pagesBetween ph.beginMap ph.endMap := by
  induction segments with
  | nil => exact absurd last (by simp [lastCovering])
  | cons first segments ih =>
      rw [lastCovering] at last
      cases later : lastCovering segments virt with
      | some found =>
          rw [later] at last
          obtain ⟨member, covered⟩ := ih (later.trans last)
          exact ⟨List.mem_cons_of_mem _ member, covered⟩
      | none =>
          rw [later, Option.none_or] at last
          split_ifs at last with covered
          obtain rfl := Option.some.inj last
          exact ⟨List.mem_cons_self, covered⟩

theorem last_covering_some {segments : List Elf64ProgramHeader} {virt : Nat}
    {ph : Elf64ProgramHeader} (member : ph ∈ segments)
    (covered : virt ∈ pagesBetween ph.beginMap ph.endMap) :
    ∃ last, lastCovering segments virt = some last := by
  induction segments with
  | nil => exact absurd member List.not_mem_nil
  | cons first segments ih =>
      rw [lastCovering]
      cases later : lastCovering segments virt with
      | some found => exact ⟨found, rfl⟩
      | none =>
          rcases List.mem_cons.mp member with rfl | inRest
          · rw [if_pos covered]
            exact ⟨ph, rfl⟩
          · obtain ⟨last, found⟩ := ih inRest
            rw [later] at found
            exact absurd found (by simp)

/-- The last segment of a page has what every segment has there exactly if the segments
before it have zeros. -/
theorem last_covering_agrees_iff {file : Elf64File} {segments : List Elf64ProgramHeader}
    (disjoint : segments.Pairwise fun left right => ∀ addr, left.Holds addr → ¬right.Holds addr)
    (formed : ∀ ph ∈ segments, ph.pFilesz.toNat ≤ ph.pMemsz.toNat ∧
      ph.pVaddr.toNat + ph.pMemsz.toNat ≤ lowerHalfEnd) :
    (∀ ph ∈ segments, ∀ addr, ph.Holds addr →
      ∀ last, lastCovering segments (pageOf addr) = some last →
        segmentByte last (segmentOf file last) addr = segmentByte ph (segmentOf file ph) addr) ↔
      segments.Pairwise fun earlier later => ∀ addr, earlier.Holds addr →
        pageOf addr ∈ pagesBetween later.beginMap later.endMap →
        segmentByte earlier (segmentOf file earlier) addr = 0 := by
  induction segments with
  | nil => simp
  | cons ph segments ih =>
      obtain ⟨apart, disjointRest⟩ := List.pairwise_cons.mp disjoint
      have formedRest : ∀ later ∈ segments, later.pFilesz.toNat ≤ later.pMemsz.toNat ∧
          later.pVaddr.toNat + later.pMemsz.toNat ≤ lowerHalfEnd :=
        fun later member => formed later (List.mem_cons_of_mem _ member)
      have later : ∀ {addr : Nat} {last : Elf64ProgramHeader},
          lastCovering segments (pageOf addr) = some last →
          lastCovering (ph :: segments) (pageOf addr) = some last := by
        intro addr last found
        rw [lastCovering, found, Option.some_or]
      -- a segment behind the first one does not hold the addresses of the first one
      have zero : ∀ {addr : Nat} {last : Elf64ProgramHeader}, ph.Holds addr →
          lastCovering segments (pageOf addr) = some last →
          segmentByte last (segmentOf file last) addr = 0 := by
        intro addr last holds found
        have member := (last_covering_mem found).1
        exact segment_byte_outside (formedRest last member).1 (apart last member addr holds)
      rw [List.pairwise_cons, ← ih disjointRest formedRest]
      constructor
      · intro agrees
        refine ⟨fun other member addr holds covered => ?_,
          fun other member addr holds last found => ?_⟩
        · obtain ⟨last, found⟩ := last_covering_some member covered
          rw [← agrees ph List.mem_cons_self addr holds last (later found), zero holds found]
        · exact agrees other (List.mem_cons_of_mem _ member) addr holds last (later found)
      · rintro ⟨zeros, agrees⟩ other member addr holds last found
        rcases List.mem_cons.mp member with rfl | inRest
        · cases behind : lastCovering segments (pageOf addr) with
          | some next =>
              obtain rfl := Option.some.inj ((later behind).symm.trans found)
              obtain ⟨inRest, covered⟩ := last_covering_mem behind
              rw [zero holds behind, zeros next inRest addr holds covered]
          | none =>
              rw [lastCovering, behind, Option.none_or] at found
              split_ifs at found with covered
              rw [Option.some.inj found]
        · obtain ⟨next, behind⟩ := last_covering_some inRest
            (holds_page (formedRest other inRest).2 holds)
          obtain rfl := Option.some.inj ((later behind).symm.trans found)
          exact agrees other inRest addr holds next behind

theorem shows_image_iff {file : Elf64File} {allocator : LawfulAllocator σ} {pt : PageTable}
    {pages : List Nat} {state : Loading σ} (formed : WellFormed file)
    (shows_ : Shows allocator pt.pml4 (showSegments file (loadHeaders file) fun _ => none)
      pages state) :
    ImageLoaded file allocator.toPageAllocator pt state.machine ↔ NoMixedPages file := by
  have each : ∀ ph ∈ loadHeaders file, ph.pFilesz.toNat ≤ ph.pMemsz.toNat ∧
      ph.pVaddr.toNat + ph.pMemsz.toNat ≤ lowerHalfEnd :=
    fun ph member => ⟨formed.sized ph member, formed.lower ph member⟩
  have expected : ∀ {ph : Elf64ProgramHeader} {addr : Nat}, ph ∈ loadHeaders file → ph.Holds addr →
      programByte file ph addr = some (segmentByte ph (segmentOf file ph) addr) :=
    fun member holds => segment_byte_program (formed.inside _ member) holds
  have reads : ∀ {ph last : Elf64ProgramHeader} {addr : Nat}, ph ∈ loadHeaders file →
      ph.Holds addr →
      lastCovering (loadHeaders file) (pageOf addr) = some last →
      readVirtual allocator.toPageAllocator pt state.machine addr =
        some (segmentByte last (segmentOf file last) addr) := by
    intro ph last addr member holds found
    have visible : showSegments file (loadHeaders file) (fun _ => none) (pageOf addr) =
        some (pageBytes last (segmentOf file last) (pageOf addr)) := by
      rw [showSegments, found]
      rfl
    have place : pageOf addr + addr % pageSize = addr := Nat.div_add_mod' addr pageSize
    rw [shows_read shows_ (holds.2.trans_le (formed.lower ph member)) visible,
      get_elem_page_bytes (Nat.mod_lt _ (by decide)), place]
  have agrees : ImageLoaded file allocator.toPageAllocator pt state.machine ↔
      ∀ ph ∈ loadHeaders file, ∀ addr, ph.Holds addr → ∀ last,
        lastCovering (loadHeaders file) (pageOf addr) = some last →
        segmentByte last (segmentOf file last) addr = segmentByte ph (segmentOf file ph) addr := by
    constructor
    · intro image ph member addr holds last found
      have read := image ph member addr holds
      rw [reads member holds found, expected member holds] at read
      exact Option.some.inj read
    · intro same ph member addr holds
      obtain ⟨last, found⟩ := last_covering_some member (holds_page (formed.lower ph member) holds)
      rw [reads member holds found, expected member holds, same ph member addr holds last found]
  rw [agrees, last_covering_agrees_iff formed.disjoint each, NoMixedPages]
  refine List.Pairwise.iff_of_mem fun {earlier later} inEarlier _ => ?_
  constructor
  · intro zeros addr holds covered
    rw [expected inEarlier holds, zeros addr holds covered]
  · intro zeros addr holds covered
    have byte := zeros addr holds covered
    rw [expected inEarlier holds] at byte
    exact Option.some.inj byte

theorem new_space_shows {allocator : LawfulAllocator σ} {kernel pt : PageTable}
    {machine after : Machine σ} (created : PageTable.allocNew allocator machine = .ok pt after)
    (blank : BlankPml4 allocator machine) :
    Shows allocator pt.pml4 (fun _ => none) []
      ⟨stateAfter (pt.mapGlobalHigherHalf kernel after), []⟩ := by
  obtain ⟨intact, noLeaf, -⟩ := @new_space_lower _ allocator machine kernel pt after created blank
  exact ⟨intact, fun virt => noLeaf _ _, by simp, by simp, by simp⟩

theorem load_into_shows {allocator : LawfulAllocator σ} {pt : PageTable} {file : Elf64File}
    {cmdline environment : List (List UInt8)} {state after : Loading σ}
    {options : CreateProcessOptions} (again : KeepsRefusing allocator)
    (writable : pt.readonly = false) (formed : WellFormed file)
    (clear : ClearOfStack file cmdline environment)
    (shows_ : Shows allocator pt.pml4 (fun _ => none) [] state)
    (returned : file.loadInto allocator pt cmdline environment state = .ok options after) :
    options.pageTable = pt ∧
      Shows allocator pt.pml4 (showSegments file (loadHeaders file) fun _ => none) [] after := by
  rw [Elf64File.loadInto, load_segments_filter] at returned
  cases loaded : loadSegments allocator pt file
      (file.iterProgramHeaders.filter fun ph => ph.segmentType = .load) state with
  | error failure between =>
      rw [state_bind_error loaded] at returned
      exact absurd returned (by simp)
  | ok value between =>
      rw [state_bind_ok loaded] at returned
      have isLoad : ∀ ph ∈ loadHeaders file, ph.segmentType = .load :=
        fun ph member => of_decide_eq_true (List.mem_filter.mp member).2
      have segments := load_segments_shows again writable file (loadHeaders file)
        (fun ph member => ⟨isLoad ph member, formed.sized ph member, formed.lower ph member⟩)
        (Or.inl shows_) loaded
      rcases segments with showsSegments | refused
      · have allowed : ∀ above ≤ stackPageCount cmdline environment [], above ≤ 0x6_0000_0000 →
            stackPage above < lowerHalfEnd ∧ pageSize ∣ stackPage above ∧
              showSegments file (loadHeaders file) (fun _ => none) (stackPage above) = none := by
          intro above lowest room
          refine ⟨?_, ?_, ?_⟩
          · unfold stackPage lowerHalfEnd pageSize
            omega
          · exact Nat.dvd_sub (by decide) (Nat.dvd_mul_left _ _)
          · rw [showSegments, Option.or_none, Option.map_eq_none_iff]
            cases last : lastCovering (loadHeaders file) (stackPage above) with
            | none => rfl
            | some ph =>
                obtain ⟨member, covered⟩ := last_covering_mem last
                have below := clear _ (List.mem_flatMap.mpr ⟨ph, member, covered⟩)
                have deeper : (above + 1) * pageSize ≤
                    (stackPageCount cmdline environment [] + 1) * pageSize :=
                  Nat.mul_le_mul_right _ (by omega)
                unfold stackPage at below
                omega
        exact settles_ok (stack_settles (shows_preserves writable) file cmdline environment
          showsSegments allowed) returned
      · obtain ⟨halted, panics⟩ := refused_build_stack again refused
        rw [state_bind_error panics] at returned
        exact absurd returned (by simp)

/-- A program whose segments keep clear of the stack is loaded as it is exactly if no
page is shared by segments that both have something to show there. The page that becomes
the PML4 must not hold stale entries, and an allocator that has run out must not recover
by itself. -/
theorem loaded_image_iff (allocator : LawfulAllocator σ) (again : KeepsRefusing allocator)
    (kernel : PageTable) (machine : Machine σ) (blank : BlankPml4 allocator machine)
    (file : Elf64File) (formed : WellFormed file) (cmdline environment : List (List UInt8))
    (clear : ClearOfStack file cmdline environment) (rounds active : Nat)
    (options : CreateProcessOptions) (after : Loading σ)
    (returned : file.createProcess allocator
      kernel rounds active cmdline environment ⟨machine, []⟩ =
      .ok options after) :
    ImageLoaded file allocator.toPageAllocator options.pageTable after.machine ↔
      NoMixedPages file := by
  rw [create_process_eq] at returned
  cases created : PageTable.allocNew allocator machine with
  | error nothing between =>
      rw [created] at returned
      exact absurd returned (by simp)
  | ok pt between =>
      rw [created] at returned
      replace returned := dropping_on_error_ok returned
      obtain ⟨sameTable, shows_⟩ := load_into_shows again (alloc_new_ok created).1 formed clear
        (new_space_shows created blank) returned
      rw [sameTable]
      exact shows_image_iff formed shows_

theorem free_list_keeps_refusing : KeepsRefusing FreeList.lawful := by
  rintro machine page after ⟨before, failed⟩ allocated
  obtain rfl : machine = before := FreeList.alloc_page_error failed
  exact absurd (failed.symm.trans allocated) (by simp)

/-- An executable for x86-64 with two segments, its own header at `first` and at `second`. -/
def twoSegments (first second : Nat) : List UInt8 :=
  elfMagic ++ [2, 1, 1, 0, 0, 0, 0, 0, 0, 0, 0, 0, 2, 0, 62, 0, 1, 0, 0, 0] ++ toLe first 8 ++
    toLe 64 8 ++ toLe 0 8 ++ [0, 0, 0, 0, 64, 0, 56, 0, 2, 0, 64, 0, 0, 0, 0, 0] ++
    [1, 0, 0, 0, 5, 0, 0, 0] ++ toLe 0 8 ++ toLe first 8 ++ toLe first 8 ++
    toLe 64 8 ++ toLe 64 8 ++ toLe 0x1000 8 ++
    [1, 0, 0, 0, 5, 0, 0, 0] ++ toLe 0 8 ++ toLe second 8 ++ toLe second 8 ++
    toLe 64 8 ++ toLe 64 8 ++ toLe 0x1000 8

def twoSegmentFile (first second : Nat) : Elf64File where
  contents := twoSegments first second
  header := { (oneSegmentFile first).header with programHeaderEntryCount := 2 }

def twelvePages : FreeList :=
  ⟨(List.range 12).map fun page => 0xFFFF_A000_0000_5000 + page * 0x1000, by decide +kernel,
    by decide +kernel⟩

/-- The memory of the first segment reaches behind its bytes into the page in which the second
one begins. -/
def meetingFile : Elf64File where
  contents := splice (twoSegments 0x40_0000 0x40_1800) (64 + 40) (toLe 0x1800 8)
  header := (twoSegmentFile 0x40_0000 0x40_1800).header

theorem meeting_headers : (loadHeaders meetingFile).Pairwise fun earlier later =>
    earlier.pVaddr.toNat + earlier.pMemsz.toNat ≤ later.pVaddr.toNat ∧
      earlier.pVaddr.toNat + earlier.pFilesz.toNat ≤ later.pVaddr.toNat / pageSize * pageSize ∧
      later.beginMap = later.pVaddr.toNat / pageSize * pageSize := by
  decide +kernel

theorem meeting_formed : WellFormed meetingFile where
  disjoint := meeting_headers.imp fun {_ _} behind addr inLeft inRight =>
    absurd (inLeft.2.trans_le behind.1) (not_lt.mpr inRight.1)
  lower := by decide +kernel
  inside := by decide +kernel
  sized := by decide +kernel

theorem meeting_unmixed : NoMixedPages meetingFile := by
  refine meeting_headers.imp fun {earlier later} behind addr holds covered => ?_
  obtain ⟨page, -, above⟩ := List.mem_map.mp covered
  have below : pageOf addr ≤ addr := Nat.div_mul_le_self addr pageSize
  have start := behind.2.2
  have ends := behind.2.1
  rw [programByte, if_neg (by omega)]

/-- The page at 0x401000 holds the last zeros of the first segment and the second segment. -/
theorem meeting_segments_loaded :
    Elf64File.tryParse meetingFile.contents = .ok meetingFile ∧
      (∃ earlier ∈ loadHeaders meetingFile, ∃ later ∈ loadHeaders meetingFile,
        earlier.pVaddr ≠ later.pVaddr ∧ earlier.Holds 0x40_1000 ∧
        0x40_1000 ∈ pagesBetween later.beginMap later.endMap) ∧
      ∃ options after, meetingFile.createProcess FreeList.lawful firstPage 0 0x1000 [] []
          ⟨⟨fun _ _ => 0, twelvePages⟩, []⟩ = .ok options after ∧
        ImageLoaded meetingFile FreeList.lawful.toPageAllocator options.pageTable
          after.machine := by
  have returns : (match meetingFile.createProcess FreeList.lawful firstPage 0 0x1000 [] []
      ⟨⟨fun _ _ => 0, twelvePages⟩, []⟩ with
    | .ok _ _ => true
    | .error _ _ => false) = true := by
    decide +kernel
  have clear : ClearOfStack meetingFile [] [] := by
    unfold ClearOfStack
    decide +kernel
  have meet : ∃ earlier ∈ loadHeaders meetingFile, ∃ later ∈ loadHeaders meetingFile,
      earlier.pVaddr ≠ later.pVaddr ∧
        (earlier.pVaddr.toNat ≤ 0x40_1000 ∧
          0x40_1000 < earlier.pVaddr.toNat + earlier.pMemsz.toNat) ∧
        0x40_1000 ∈ pagesBetween later.beginMap later.endMap := by
    decide +kernel
  refine ⟨by rfl, meet, ?_⟩
  cases outcome : meetingFile.createProcess FreeList.lawful firstPage 0 0x1000 [] []
      ⟨⟨fun _ _ => 0, twelvePages⟩, []⟩ with
  | error failure after =>
      rw [outcome] at returns
      exact absurd returns (by simp)
  | ok options after =>
      have blank := (zeroed_pages_clean twelvePages).blank
      exact ⟨options, after, rfl, (loaded_image_iff FreeList.lawful free_list_keeps_refusing
        firstPage _ blank _ meeting_formed [] [] clear 0 0x1000 options after
        outcome).mpr meeting_unmixed⟩

theorem two_segments_formed : WellFormed (twoSegmentFile 0x40_0000 0x40_0800) where
  disjoint := by
    have ordered : (loadHeaders (twoSegmentFile 0x40_0000 0x40_0800)).Pairwise fun left right =>
        left.pVaddr.toNat + left.pMemsz.toNat ≤ right.pVaddr.toNat := by
      decide +kernel
    refine ordered.imp fun {left right} behind addr inLeft inRight => ?_
    exact absurd (inLeft.2.trans_le behind) (not_lt.mpr inRight.1)
  lower := by decide +kernel
  inside := by decide +kernel
  sized := by decide +kernel

/-- The second segment's page replaces the first one's: the magic number reads as zero. -/
theorem shared_page_reads_zero :
    Elf64File.tryParse (twoSegments 0x40_0000 0x40_0800) =
        .ok (twoSegmentFile 0x40_0000 0x40_0800) ∧
      WellFormed (twoSegmentFile 0x40_0000 0x40_0800) ∧
      ∃ options after, (twoSegmentFile 0x40_0000 0x40_0800).createProcess FreeList.lawful firstPage
          0 0x1000 [] [] ⟨⟨fun _ _ => 0, twelvePages⟩, []⟩ = .ok options after ∧
        readVirtual FreeList.lawful.toPageAllocator options.pageTable after.machine 0x40_0000 =
          some 0 ∧
        ¬ImageLoaded (twoSegmentFile 0x40_0000 0x40_0800) FreeList.lawful.toPageAllocator
          options.pageTable after.machine := by
  refine ⟨by rfl, two_segments_formed, ?_⟩
  have reads : (match (twoSegmentFile 0x40_0000 0x40_0800).createProcess FreeList.lawful firstPage
      0 0x1000 [] [] ⟨⟨fun _ _ => 0, twelvePages⟩, []⟩ with
    | .ok options after => decide (readVirtual FreeList.lawful.toPageAllocator options.pageTable
        after.machine 0x40_0000 = some 0)
    | .error _ _ => false) = true := by
    decide +kernel
  cases outcome : (twoSegmentFile 0x40_0000 0x40_0800).createProcess FreeList.lawful firstPage
      0 0x1000 [] [] ⟨⟨fun _ _ => 0, twelvePages⟩, []⟩ with
  | error failure after =>
      rw [outcome] at reads
      exact absurd reads (by simp)
  | ok options after =>
      rw [outcome] at reads
      have zero := of_decide_eq_true reads
      refine ⟨options, after, rfl, zero, fun image => ?_⟩
      obtain ⟨ph, member, begins, magic⟩ : ∃ ph ∈ loadHeaders (twoSegmentFile 0x40_0000 0x40_0800),
          (ph.pVaddr.toNat ≤ 0x40_0000 ∧ 0x40_0000 < ph.pVaddr.toNat + ph.pMemsz.toNat) ∧
            programByte (twoSegmentFile 0x40_0000 0x40_0800) ph 0x40_0000 = some 0x7F := by
        decide +kernel
      have read := image ph member 0x40_0000 begins
      rw [zero, magic] at read
      exact absurd read (by decide)

end Campix.Formats
