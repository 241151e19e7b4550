import Campix.Formats.Image

/-!
# The buffers of a segment

The page loop of `create_process` for a segment of any size and place: every page from the
first to the last one gets a buffer, and all bytes of each buffer are those of the segment,
whatever the buffer held when it was allocated.
-/

namespace Campix.Formats

open Lib.Fallible Lib.Slice Lib.Word Paging

set_option autoImplicit false

variable {σ : Type}

def placePages (allocator : LawfulAllocator σ) (pt : PageTable) (content : Nat → List UInt8) :
    List Nat → Load σ Unit
  | [] => pure ()
  | virt :: virts => do
      let buffer ← allocBoxedSlice allocator
      storePage buffer (content virt)
      ignoring (pt.map4kb allocator.toPageAllocator virt (sub64 buffer directMappingOffset)
        pageFlags)
      modify fun state => { state with allocatedCode := state.allocatedCode ++ [(virt, buffer)] }
      placePages allocator pt content virts

def fileByte (file : Elf64File) (ph : Elf64ProgramHeader) (addr : Nat) : UInt8 :=
  if ph.pVaddr.toNat ≤ addr ∧ addr < ph.pVaddr.toNat + ph.pFilesz.toNat then
    file.contents.getD (ph.pOffset.toNat + (addr - ph.pVaddr.toNat)) 0
  else
    0

def filePage (file : Elf64File) (ph : Elf64ProgramHeader) (virt : Nat) : List UInt8 :=
  (List.range pageSize).map fun offset => fileByte file ph (virt + offset)

/-- The part of the file lies in the file, and no address of the segment overflows. -/
structure Elf64ProgramHeader.Fits (ph : Elf64ProgramHeader) (file : Elf64File) : Prop where
  inFile : ph.pOffset.toNat + ph.pFilesz.toNat ≤ file.contents.length
  offsets : ph.pOffset.toNat + ph.pFilesz.toNat < 2 ^ 64
  fileEnd : ph.pVaddr.toNat + ph.pFilesz.toNat < 2 ^ 64
  memoryEnd : ph.pVaddr.toNat + ph.pMemsz.toNat + pageSize ≤ 2 ^ 64

variable {file : Elf64File} {ph : Elf64ProgramHeader} {segment : List UInt8}

theorem segment_data_eq (fits : ph.Fits file) : segmentData file ph = some (segmentOf file ph) := by
  have total : add64 ph.pOffset.toNat ph.pFilesz.toNat = ph.pOffset.toNat + ph.pFilesz.toNat :=
    add64_of_lt fits.offsets
  rw [segmentData, total, get_slice_eq (Nat.le_add_right _ _) fits.inFile, Nat.add_sub_cancel_left]
  rfl

theorem length_segment_of (fits : ph.Fits file) :
    (segmentOf file ph).length = ph.pFilesz.toNat := by
  have inFile := fits.inFile
  rw [segmentOf, List.length_take, List.length_drop]
  omega

theorem segment_byte_eq (addr : Nat) :
    segmentByte ph (segmentOf file ph) addr = fileByte file ph addr := by
  unfold segmentByte fileByte
  by_cases held : ph.pVaddr.toNat ≤ addr ∧ addr < ph.pVaddr.toNat + ph.pFilesz.toNat
  · rw [if_pos held, if_pos held, segmentOf, List.getD_eq_getElem?_getD, List.getD_eq_getElem?_getD,
      List.getElem?_take_of_lt (by omega), List.getElem?_drop]
  · rw [if_neg held, if_neg held]

theorem page_bytes_eq (virt : Nat) :
    pageBytes ph (segmentOf file ph) virt = filePage file ph virt := by
  unfold pageBytes filePage
  apply List.map_congr_left
  intro offset _
  exact segment_byte_eq _

/-- One page of the loop: whatever the new buffer holds, it becomes the bytes of its page. -/
theorem load_page_cons {allocator : LawfulAllocator σ} {pt : PageTable} {virt : Nat}
    {virts : List Nat}
    (length : segment.length = ph.pFilesz.toNat) (near : ph.pVaddr.toNat < virt + pageSize)
    (bound : ph.pVaddr.toNat + ph.pFilesz.toNat < 2 ^ 64) (low : virt + pageSize < 2 ^ 64) :
    loadPages allocator pt ph segment (positionAt ph virt) (virt :: virts) = (do
      let buffer ← allocBoxedSlice allocator
      storePage buffer (pageBytes ph segment virt)
      ignoring (pt.map4kb allocator.toPageAllocator virt (sub64 buffer directMappingOffset)
        pageFlags)
      modify fun state => { state with allocatedCode := state.allocatedCode ++ [(virt, buffer)] }
      loadPages allocator pt ph segment (positionAt ph (virt + pageSize)) virts) := by
  funext state
  rw [loadPages]
  cases taken : allocBoxedSlice allocator state with
  | error failure between => rw [state_bind_error taken, state_bind_error taken]
  | ok buffer first =>
      rw [state_bind_ok taken, state_bind_ok taken,
        state_bind_ok (by rfl : loadPage buffer first = _),
        fill_page_eq length (length_bytes_of _) near bound low]

theorem load_pages_eq {allocator : LawfulAllocator σ} {pt : PageTable}
    (length : segment.length = ph.pFilesz.toNat)
    (bound : ph.pVaddr.toNat + ph.pFilesz.toNat < 2 ^ 64)
    (count : Nat) {start : Nat} (near : ph.pVaddr.toNat < start + pageSize)
    (room : start + count * pageSize < 2 ^ 64) :
    loadPages allocator pt ph segment (positionAt ph start) (pagesFrom start count) =
      placePages allocator pt (pageBytes ph segment) (pagesFrom start count) := by
  induction count generalizing start with
  | zero => rfl
  | succ count ih =>
      rw [Nat.succ_mul] at room
      have rest := @ih (start + pageSize) (by omega) (by omega)
      rw [pagesFrom, load_page_cons length near bound (by omega), rest]
      rfl

/-- The loop comes to a page with all pages before it placed and with the counter that belongs to
the page. -/
theorem load_pages_to {allocator : LawfulAllocator σ} {pt : PageTable} {virt : Nat}
    {back : List Nat} (length : segment.length = ph.pFilesz.toNat)
    (bound : ph.pVaddr.toNat + ph.pFilesz.toNat < 2 ^ 64) (front : List Nat) :
    ∀ {count start : Nat}, ph.pVaddr.toNat < start + pageSize →
      start + count * pageSize < 2 ^ 64 → pagesFrom start count = front ++ virt :: back →
        loadPages allocator pt ph segment (positionAt ph start) (pagesFrom start count) = (do
          placePages allocator pt (pageBytes ph segment) front
          loadPages allocator pt ph segment (positionAt ph virt) (virt :: back)) ∧
        start ≤ virt := by
  induction front with
  | nil =>
      intro count start _ _ split
      cases count with
      | zero => cases split
      | succ count =>
          obtain ⟨rfl, rest⟩ := List.cons.inj split
          exact ⟨by rw [split]; rfl, le_rfl⟩
  | cons first front ih =>
      intro count start near room split
      cases count with
      | zero => cases split
      | succ count =>
          obtain ⟨rfl, rest⟩ := List.cons.inj split
          rw [Nat.succ_mul] at room
          obtain ⟨later, least⟩ := @ih count (start + pageSize) (by omega) (by omega) rest
          refine ⟨?_, by omega⟩
          rw [pagesFrom, load_page_cons length near bound (by omega), later, placePages]
          simp only [bind_assoc]

/-- Every page that a byte of the segment lies in, and the first one of a segment that
begins inside a page, has a buffer. -/
theorem mem_segment_pages_iff (fits : ph.Fits file) {virt : Nat} :
    virt ∈ pagesBetween ph.beginMap ph.endMap ↔
      pageSize ∣ virt ∧ ph.pVaddr.toNat / pageSize * pageSize ≤ virt ∧
        virt < (ph.pVaddr.toNat + ph.pMemsz.toNat + pageSize - 1) / pageSize * pageSize := by
  rw [mem_pages_between_iff, begin_map_eq, end_map_of_fits fits.memoryEnd]
  constructor
  · rintro ⟨page, rfl, below⟩
    exact ⟨Nat.dvd_add (Nat.dvd_mul_left _ _) (Nat.dvd_mul_left _ _), Nat.le_add_right _ _, below⟩
  · rintro ⟨⟨page, rfl⟩, least, below⟩
    refine ⟨page - ph.pVaddr.toNat / pageSize, ?_, below⟩
    have behind : ph.pVaddr.toNat / pageSize ≤ page := by
      rw [Nat.mul_comm] at least
      exact Nat.le_of_mul_le_mul_left least (by decide)
    rw [← Nat.add_mul, Nat.add_sub_of_le behind, Nat.mul_comm]

/-- The pages of a segment are those from `align_down(p_vaddr)` to `align_up(p_vaddr +
p_memsz)`, and the loop of `create_process` makes the buffer of each page the bytes that the
segment has there. Nothing in the loop is out of range: all that can fail is an allocation. At
each page, `code_i` is at most `filesz` and `p_vaddr - virt` at most `PAGE_SIZE`. -/
theorem segment_pages_filled (file : Elf64File) (ph : Elf64ProgramHeader) (fits : ph.Fits file) :
    (∀ virt, virt ∈ pagesBetween ph.beginMap ph.endMap ↔
      pageSize ∣ virt ∧ ph.pVaddr.toNat / pageSize * pageSize ≤ virt ∧
        virt < (ph.pVaddr.toNat + ph.pMemsz.toNat + pageSize - 1) / pageSize * pageSize) ∧
      ∃ segment, segmentData file ph = some segment ∧
        (∀ {σ : Type} (allocator : LawfulAllocator σ) (pt : PageTable),
          loadPages allocator pt ph segment 0 (pagesBetween ph.beginMap ph.endMap) =
            placePages allocator pt (filePage file ph) (pagesBetween ph.beginMap ph.endMap)) ∧
        ∀ front virt back, pagesBetween ph.beginMap ph.endMap = front ++ virt :: back →
          ∃ codeI ≤ ph.pFilesz.toNat, ph.pVaddr.toNat - virt ≤ pageSize ∧
            ∀ {σ : Type} (allocator : LawfulAllocator σ) (pt : PageTable),
              loadPages allocator pt ph segment 0 (front ++ virt :: back) = (do
                placePages allocator pt (filePage file ph) front
                loadPages allocator pt ph segment codeI (virt :: back)) := by
  have begins := begin_map_eq ph
  have ends := end_map_of_fits fits.memoryEnd
  have memoryEnd := fits.memoryEnd
  have start : positionAt ph ph.beginMap = 0 := by
    rw [positionAt, begins]
    unfold pageSize
    omega
  have bytes : filePage file ph = pageBytes ph (segmentOf file ph) := funext fun virt =>
    (page_bytes_eq virt).symm
  have near : ph.pVaddr.toNat < ph.beginMap + pageSize := by
    rw [begins]
    unfold pageSize
    omega
  have room : ph.beginMap + (ph.endMap - ph.beginMap + pageSize - 1) / pageSize * pageSize < 2 ^
      64 := by
    rw [begins, ends]
    unfold pageSize at *
    omega
  refine ⟨fun virt => mem_segment_pages_iff fits, segmentOf file ph, segment_data_eq fits, ?_, ?_⟩
  · intro σ allocator pt
    have filled := @load_pages_eq σ ph (segmentOf file ph) allocator pt (length_segment_of fits)
      fits.fileEnd _ _ near room
    rw [pages_between_from, bytes, ← filled, start]
  · intro front virt back split
    rw [pages_between_from] at split
    have reaches := fun {σ : Type} (allocator : LawfulAllocator σ) (pt : PageTable) =>
      @load_pages_to σ ph (segmentOf file ph) allocator pt virt back (length_segment_of fits)
        fits.fileEnd front _ _ near room split
    have least : ph.beginMap ≤ virt := (reaches FreeList.lawful firstPage).2
    refine ⟨positionAt ph virt, Nat.min_le_left _ _, by omega, fun {σ} allocator pt => ?_⟩
    rw [← split, bytes, ← start]
    exact (reaches allocator pt).1

/-- A segment that begins and ends inside a page, with more memory than bytes in the file. -/
def unevenSegment : Elf64ProgramHeader :=
    ⟨.load, 6, 0x10, 0x40_0800, 0x40_0800, 0x30, 0x1900, 0x1000⟩

theorem uneven_segment_filled :
    (∀ virt, virt ∈ pagesBetween unevenSegment.beginMap unevenSegment.endMap ↔
      pageSize ∣ virt ∧ 0x40_0800 / pageSize * pageSize ≤ virt ∧
        virt < (0x40_0800 + 0x1900 + pageSize - 1) / pageSize * pageSize) ∧
      ∃ segment, segmentData (oneSegmentFile 0x40_0000) unevenSegment = some segment ∧
        (∀ {σ : Type} (allocator : LawfulAllocator σ) (pt : PageTable),
          loadPages allocator pt unevenSegment segment 0
              (pagesBetween unevenSegment.beginMap unevenSegment.endMap) =
            placePages allocator pt (filePage (oneSegmentFile 0x40_0000) unevenSegment)
              (pagesBetween unevenSegment.beginMap unevenSegment.endMap)) ∧
        ∃ codeI ≤ 0x30, 0x40_0800 - 0x40_1000 ≤ pageSize ∧
          ∀ {σ : Type} (allocator : LawfulAllocator σ) (pt : PageTable),
            loadPages allocator pt unevenSegment segment 0 ([0x40_0000] ++ [0x40_1000, 0x40_2000]) =
              (do
                placePages allocator pt (filePage (oneSegmentFile 0x40_0000) unevenSegment)
                  [0x40_0000]
                loadPages allocator pt unevenSegment segment codeI [0x40_1000, 0x40_2000]) := by
  obtain ⟨pages, segment, data, filled, reaches⟩ :=
    segment_pages_filled (oneSegmentFile 0x40_0000) unevenSegment
      ⟨by decide +kernel, by decide +kernel, by decide +kernel, by decide +kernel⟩
  exact ⟨pages, segment, data, filled,
    reaches [0x40_0000] 0x40_1000 [0x40_2000] (by decide +kernel)⟩

end Campix.Formats
