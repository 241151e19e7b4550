import Campix.Formats.CreateProcess

/-!
# The pages of a segment

The buffer that `create_process` fills for a page holds the bytes of the segment that
belong there, wherever the segment begins and ends in its pages, and zeros elsewhere.
-/

namespace Campix.Formats

open Lib.Slice Lib.Word Paging

set_option autoImplicit false

theorem length_bytes_of (words : Table) : (bytesOf words).length = pageSize := by
  rw [bytesOf, List.length_map, List.length_range]

theorem shift_digits (bytes : List UInt8) :
    ∀ place : Nat, UInt8.ofNat (bytes.foldr (fun byte rest => byte.toNat + 256 * rest)
      0 >>> (8 * place)) =
      bytes.getD place 0 := by
  induction bytes with
  | nil =>
      intro place
      rw [List.foldr_nil, Nat.zero_shiftRight]
      rfl
  | cons byte bytes ih =>
      intro place
      rw [List.foldr_cons]
      have small := byte.toNat_lt
      cases place with
      | zero =>
          rw [Nat.mul_zero, Nat.shiftRight_zero, List.getD_cons_zero]
          apply UInt8.toNat_inj.mp
          rw [UInt8.toNat_ofNat']
          omega
      | succ place =>
          rw [List.getD_cons_succ, ← ih place, Nat.mul_succ, Nat.add_comm (8 * place) 8,
            Nat.shiftRight_add, Nat.shiftRight_eq_div_pow _ 8]
          congr 2
          omega

theorem bytes_of_table_of {bytes : List UInt8} (length : bytes.length = pageSize) :
    bytesOf (tableOf bytes) = bytes := by
  apply List.ext_getElem (by rw [length_bytes_of, length])
  intro offset inside within
  rw [length] at within
  have word : (Fin.ofNat 512 (offset / 8)).val = offset / 8 := by
    unfold pageSize at within
    exact Nat.mod_eq_of_lt (by omega)
  simp only [bytesOf, tableOf, List.getElem_map, List.getElem_range, word]
  rw [readLe, shift_digits]
  have place : 8 * (offset / 8) + offset % 8 = offset := Nat.div_add_mod offset 8
  rw [List.getD_eq_getElem?_getD, List.getElem?_take_of_lt (Nat.mod_lt offset (by decide)),
    List.getElem?_drop, place, List.getElem?_eq_getElem (by omega), Option.getD_some]

theorem fill_zero_eq {buffer : List UInt8} {begin_ end_ : Nat} (ordered : begin_ ≤ end_)
    (inside : end_ ≤ buffer.length) :
    fillZero buffer begin_ end_ = some (splice buffer begin_ (List.replicate (end_ - begin_) 0)) :=
  copy_from_slice_eq List.length_replicate ordered inside

def segmentByte (ph : Elf64ProgramHeader) (segment : List UInt8) (addr : Nat) : UInt8 :=
  if ph.pVaddr.toNat ≤ addr ∧ addr < ph.pVaddr.toNat + ph.pFilesz.toNat then
    segment.getD (addr - ph.pVaddr.toNat) 0
  else
    0

def pageBytes (ph : Elf64ProgramHeader) (segment : List UInt8) (virt : Nat) : List UInt8 :=
  (List.range pageSize).map fun offset => segmentByte ph segment (virt + offset)

/-- How much of the segment's part of the file comes before an address. -/
def positionAt (ph : Elf64ProgramHeader) (virt : Nat) : Nat :=
  min ph.pFilesz.toNat (virt - ph.pVaddr.toNat)

theorem get_elem_page_bytes {ph : Elf64ProgramHeader} {segment : List UInt8} {virt offset : Nat}
    (inside : offset < pageSize) :
    (pageBytes ph segment virt)[offset]? = some (segmentByte ph segment (virt + offset)) := by
  rw [pageBytes, List.getElem?_map, List.getElem?_range inside, Option.map_some]

theorem eq_page_bytes {ph : Elf64ProgramHeader} {segment buffer : List UInt8} {virt : Nat}
    (length : buffer.length = pageSize)
    (same : ∀ offset < pageSize, buffer[offset]? = some (segmentByte ph segment (virt + offset))) :
    buffer = pageBytes ph segment virt := by
  apply List.ext_getElem?
  intro offset
  by_cases inside : offset < pageSize
  · rw [same offset inside, get_elem_page_bytes inside]
  · have total : (pageBytes ph segment virt).length = pageSize := by
      rw [pageBytes, List.length_map, List.length_range]
    rw [List.getElem?_eq_none (by omega), List.getElem?_eq_none (by omega)]

section Fill

variable {ph : Elf64ProgramHeader} {segment buffer : List UInt8} {virt : Nat}

theorem segment_byte_file {addr : Nat} (length : segment.length = ph.pFilesz.toNat)
    (low : ph.pVaddr.toNat ≤ addr) (high : addr < ph.pVaddr.toNat + ph.pFilesz.toNat) :
    segment[addr - ph.pVaddr.toNat]? = some (segmentByte ph segment addr) := by
  rw [segmentByte, if_pos ⟨low, high⟩, List.getD_eq_getElem?_getD,
    List.getElem?_eq_getElem (by omega), Option.getD_some]

theorem segment_byte_zero {addr : Nat}
    (outside : addr < ph.pVaddr.toNat ∨ ph.pVaddr.toNat + ph.pFilesz.toNat ≤ addr) :
    segmentByte ph segment addr = 0 := by
  rw [segmentByte, if_neg (by omega)]

theorem length_zeroed {begin_ end_ : Nat} (ordered : begin_ ≤ end_)
    (inside : end_ ≤ buffer.length) :
    (splice buffer begin_ (List.replicate (end_ - begin_) 0)).length = buffer.length := by
  apply length_splice
  rw [List.length_replicate]
  omega

theorem get_elem_zeroed {begin_ end_ : Nat} (ordered : begin_ ≤ end_)
    (inside : end_ ≤ buffer.length)
    (offset : Nat) :
    (splice buffer begin_ (List.replicate (end_ - begin_) 0))[offset]? =
      if begin_ ≤ offset ∧ offset < end_ then some 0 else buffer[offset]? := by
  have total : begin_ + (end_ - begin_) = end_ := Nat.add_sub_of_le ordered
  rw [getElem?_splice (by rw [List.length_replicate]; omega), List.length_replicate, total]
  by_cases filled : begin_ ≤ offset ∧ offset < end_
  · rw [if_pos filled, if_pos filled, List.getElem?_replicate_of_lt (by omega)]
  · rw [if_neg filled, if_neg filled]

/-- Copying a part of the segment into a buffer that is right elsewhere. -/
theorem splice_page {begin_ codeI rem : Nat} (length : segment.length = ph.pFilesz.toNat)
    (size : buffer.length = pageSize) (inPage : begin_ + rem ≤ pageSize)
    (inFile : codeI + rem ≤ ph.pFilesz.toNat)
    (aligned : 0 < rem → ph.pVaddr.toNat + codeI = virt + begin_)
    (elsewhere : ∀ offset < pageSize, offset < begin_ ∨ begin_ + rem ≤ offset →
      buffer[offset]? = some (segmentByte ph segment (virt + offset))) :
    splice buffer begin_ ((segment.drop codeI).take rem) = pageBytes ph segment virt := by
  have pieceLength : ((segment.drop codeI).take rem).length = rem := by
    rw [List.length_take, List.length_drop]
    omega
  apply eq_page_bytes
  · rw [length_splice (by omega), size]
  · intro offset inside
    rw [getElem?_splice (by omega), pieceLength]
    by_cases copied : begin_ ≤ offset ∧ offset < begin_ + rem
    · have begins := aligned (by omega)
      have place : codeI + (offset - begin_) = virt + offset - ph.pVaddr.toNat := by omega
      rw [if_pos copied, List.getElem?_take_of_lt (by omega), List.getElem?_drop, place]
      exact segment_byte_file length (by omega) (by omega)
    · rw [if_neg copied]
      exact elsewhere offset inside (by omega)

theorem fill_first_page (length : segment.length = ph.pFilesz.toNat)
    (size : buffer.length = pageSize) (before : virt < ph.pVaddr.toNat)
    (near : ph.pVaddr.toNat < virt + pageSize) :
    fillPage ph segment virt 0 buffer =
      some (pageBytes ph segment virt, positionAt ph (virt + pageSize)) := by
  have zerosBound : ph.pVaddr.toNat - virt < pageSize := by omega
  have remEq : min (sub64 pageSize (ph.pVaddr.toNat - virt)) (sub64 ph.pFilesz.toNat 0) =
      positionAt ph (virt + pageSize) := by
    rw [sub64_of_le zerosBound.le, sub64_of_le (Nat.zero_le _), positionAt]
    omega
  have inFile : 0 + positionAt ph (virt + pageSize) ≤ ph.pFilesz.toNat := by
    rw [Nat.zero_add]
    exact Nat.min_le_left _ _
  have inPage : ph.pVaddr.toNat - virt + positionAt ph (virt + pageSize) ≤ pageSize := by
    rw [positionAt]
    omega
  have ends : ph.pVaddr.toNat - virt + positionAt ph (virt + pageSize) < pageSize →
      positionAt ph (virt + pageSize) = ph.pFilesz.toNat := by
    rw [positionAt]
    omega
  have slice : getSlice segment 0 (positionAt ph (virt + pageSize)) =
      some ((segment.drop 0).take (positionAt ph (virt + pageSize))) :=
    get_slice_eq (Nat.zero_le _) (by omega)
  have clearedLength : (splice buffer 0 (List.replicate (ph.pVaddr.toNat - virt - 0) 0)).length =
      pageSize := by
    rw [length_zeroed (Nat.zero_le _) (by omega), size]
  have zeroed : ∀ offset < ph.pVaddr.toNat - virt,
      (splice buffer 0 (List.replicate (ph.pVaddr.toNat - virt - 0) 0))[offset]? =
        some (segmentByte ph segment (virt + offset)) := by
    intro offset front
    rw [get_elem_zeroed (Nat.zero_le _) (by omega), if_pos ⟨Nat.zero_le _, front⟩,
      segment_byte_zero (by omega)]
  have pieceLength : ((segment.drop 0).take (positionAt ph (virt + pageSize))).length =
      ph.pVaddr.toNat - virt + positionAt ph (virt + pageSize) - (ph.pVaddr.toNat - virt) := by
    rw [List.length_take, List.length_drop]
    omega
  have aligned : ph.pVaddr.toNat + 0 = virt + (ph.pVaddr.toNat - virt) := by omega
  rw [fillPage]
  simp only [if_pos before, remEq, Nat.zero_add]
  rw [fill_zero_eq (Nat.zero_le _) (by omega), slice]
  simp only [bind, Option.bind_some]
  generalize splice buffer 0 (List.replicate (ph.pVaddr.toNat - virt - 0) 0) = front at *
  by_cases partial_ : ph.pVaddr.toNat - virt + positionAt ph (virt + pageSize) < pageSize
  · -- the segment also ends in this page
    have tailLength : (splice front (ph.pVaddr.toNat - virt + positionAt ph (virt + pageSize))
        (List.replicate (front.length -
          (ph.pVaddr.toNat - virt + positionAt ph (virt + pageSize))) 0)).length = pageSize := by
      rw [length_zeroed (by omega) (Nat.le_refl _), clearedLength]
    rw [if_pos partial_, fill_zero_eq (by omega) (Nat.le_refl _), Option.bind_some,
      copy_from_slice_eq pieceLength (by omega) (by omega), Option.bind_some,
      splice_page length tailLength inPage inFile (fun _ => aligned), Option.pure_def]
    intro offset inside other
    rw [get_elem_zeroed (by omega) (Nat.le_refl _)]
    by_cases front : offset < ph.pVaddr.toNat - virt
    · rw [if_neg (by omega), zeroed offset front]
    · have fileEnd := ends partial_
      rw [if_pos (by omega), segment_byte_zero (by omega)]
  · rw [if_neg partial_, copy_from_slice_eq pieceLength (by omega) (by omega), Option.bind_some,
      splice_page length clearedLength inPage inFile (fun _ => aligned), Option.pure_def]
    intro offset inside other
    exact zeroed offset (by omega)

theorem rest_then_zeros (length : segment.length = ph.pFilesz.toNat)
    (size : buffer.length = pageSize) (behind : ph.pVaddr.toNat ≤ virt)
    (inPage : ph.pFilesz.toNat - positionAt ph virt ≤ pageSize) :
    splice (splice buffer 0 ((segment.drop (positionAt ph virt)).take
        (segment.length - positionAt ph virt))) (ph.pFilesz.toNat - positionAt ph virt)
      (List.replicate (pageSize - (ph.pFilesz.toNat - positionAt ph virt)) 0) =
      pageBytes ph segment virt := by
  have pieceLength : ((segment.drop (positionAt ph virt)).take
      (segment.length - positionAt ph virt)).length = ph.pFilesz.toNat - positionAt ph virt := by
    rw [List.length_take, List.length_drop]
    omega
  have copiedLength : (splice buffer 0 ((segment.drop (positionAt ph virt)).take
      (segment.length - positionAt ph virt))).length = pageSize := by
    rw [length_splice (by omega), size]
  apply eq_page_bytes
  · rw [length_zeroed inPage copiedLength.ge, copiedLength]
  · intro offset inside
    rw [get_elem_zeroed inPage copiedLength.ge]
    by_cases behindFile : ph.pFilesz.toNat - positionAt ph virt ≤ offset
    · have past : ph.pVaddr.toNat + ph.pFilesz.toNat ≤ virt + offset := by
        rw [positionAt] at behindFile
        omega
      rw [if_pos ⟨behindFile, inside⟩, segment_byte_zero (Or.inr past)]
    · have reached : positionAt ph virt = virt - ph.pVaddr.toNat := by
        rw [positionAt] at behindFile ⊢
        omega
      have place : positionAt ph virt + offset = virt + offset - ph.pVaddr.toNat := by omega
      rw [if_neg (by omega), getElem?_splice (by omega), if_pos (by omega), Nat.sub_zero,
        List.getElem?_take_of_lt (by omega), List.getElem?_drop, place]
      exact segment_byte_file length (by omega) (by omega)

theorem fill_later_page (length : segment.length = ph.pFilesz.toNat)
    (size : buffer.length = pageSize) (behind : ph.pVaddr.toNat ≤ virt)
    (bound : ph.pVaddr.toNat + ph.pFilesz.toNat < 2 ^ 64) (low : virt + pageSize < 2 ^ 64) :
    fillPage ph segment virt (positionAt ph virt) buffer =
      some (pageBytes ph segment virt, positionAt ph (virt + pageSize)) := by
  have endCode : add64 ph.pVaddr.toNat ph.pFilesz.toNat = ph.pVaddr.toNat + ph.pFilesz.toNat :=
    add64_of_lt bound
  have next : add64 virt pageSize = virt + pageSize := add64_of_lt low
  have inFile : positionAt ph virt ≤ ph.pFilesz.toNat := Nat.min_le_left _ _
  rw [fillPage]
  simp only [if_neg (not_lt.mpr behind), endCode, next]
  by_cases last : virt + pageSize ≥ ph.pVaddr.toNat + ph.pFilesz.toNat
  · -- the rest of the segment's part of the file, or nothing behind it
    have position : positionAt ph (virt + pageSize) = ph.pFilesz.toNat := by
      rw [positionAt]
      omega
    have inPage : ph.pFilesz.toNat - positionAt ph virt ≤ pageSize := by
      rw [positionAt]
      omega
    have remEq : sub64 ph.pFilesz.toNat (positionAt ph virt) =
        ph.pFilesz.toNat - positionAt ph virt := sub64_of_le inFile
    have pieceLength : ((segment.drop (positionAt ph virt)).take
        (segment.length - positionAt ph virt)).length =
        ph.pFilesz.toNat - positionAt ph virt - 0 := by
      rw [List.length_take, List.length_drop]
      omega
    have copiedLength : (splice buffer 0 ((segment.drop (positionAt ph virt)).take
        (segment.length - positionAt ph virt))).length = pageSize := by
      rw [length_splice (by omega), size]
    have copied := rest_then_zeros length size behind inPage
    rw [if_pos last, remEq, get_slice_eq (by omega) (Nat.le_refl _)]
    simp only [bind, Option.bind_some]
    rw [copy_from_slice_eq pieceLength (Nat.zero_le _) (by omega), Option.bind_some, copiedLength,
      fill_zero_eq inPage copiedLength.ge, Option.bind_some, copied, position,
      Nat.add_sub_of_le inFile, Option.pure_def]
  · -- a whole page from the file
    have reached : positionAt ph virt = virt - ph.pVaddr.toNat := by
      rw [positionAt]
      omega
    have whole : min (ph.pFilesz.toNat - positionAt ph virt) pageSize = pageSize := by
      omega
    have position : positionAt ph (virt + pageSize) = positionAt ph virt + pageSize := by
      rw [positionAt, positionAt]
      omega
    have pieceLength : ((segment.drop (positionAt ph virt)).take
        (positionAt ph virt + pageSize - positionAt ph virt)).length = pageSize - 0 := by
      rw [List.length_take, List.length_drop]
      omega
    have copied : splice buffer 0 ((segment.drop (positionAt ph virt)).take
        (positionAt ph virt + pageSize - positionAt ph virt)) = pageBytes ph segment virt := by
      rw [Nat.add_sub_cancel_left]
      apply splice_page length size (by omega) (by omega) (by omega)
      omega
    rw [if_neg last, if_neg (by omega), whole, get_slice_eq (by omega) (by omega)]
    simp only [bind, Option.bind_some]
    rw [copy_from_slice_eq pieceLength (Nat.zero_le _) size.ge, Option.bind_some, position, copied,
      Option.pure_def]

theorem fill_page_eq (length : segment.length = ph.pFilesz.toNat) (size : buffer.length = pageSize)
    (near : ph.pVaddr.toNat < virt + pageSize)
    (bound : ph.pVaddr.toNat + ph.pFilesz.toNat < 2 ^ 64) (low : virt + pageSize < 2 ^ 64) :
    fillPage ph segment virt (positionAt ph virt) buffer =
      some (pageBytes ph segment virt, positionAt ph (virt + pageSize)) := by
  by_cases before : virt < ph.pVaddr.toNat
  · have start : positionAt ph virt = 0 := by
      rw [positionAt]
      omega
    rw [start]
    exact fill_first_page length size before near
  · exact fill_later_page length size (not_lt.mp before) bound low

end Fill

end Campix.Formats
