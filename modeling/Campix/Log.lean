import Campix.Lib.Slice
import Campix.Paging.PageTable

/-!
# The kernel log

`KernelStdout` of `log.rs`. The log is kept in a fixed buffer, then in pages on the heap,
and then goes to a file; the switches hand over what was written so far. `none` is a halt
of the kernel. The fixed buffer is the bytes behind its pointer, as many as its size, and
the file is the bytes written to it, each of which it accepts.
-/

namespace Campix.Log

open Lib.Slice Paging

set_option autoImplicit false

inductive KernelStdoutState where
  | uninitialized
  | fixedSizeBuffer (buffer : List UInt8) (pos : Nat)
  | growableBuffer (pastBuffers : List (List UInt8)) (currentBuffer : List UInt8)
      (currentBufferPos : Nat)
  | pipeTo (file : List UInt8)

namespace KernelStdoutState

/-- The position in the current page stays where it is when a byte is stored there. -/
def writeCharImpl : KernelStdoutState → UInt8 → Option KernelStdoutState
  | .uninitialized, _ => none
  | .fixedSizeBuffer buffer pos, c =>
      if pos < buffer.length then some (.fixedSizeBuffer (buffer.set pos c) (pos + 1)) else none
  | .growableBuffer pastBuffers currentBuffer currentBufferPos, c =>
      if currentBufferPos < currentBuffer.length then
        some (.growableBuffer pastBuffers (currentBuffer.set currentBufferPos c) currentBufferPos)
      else
        let newBuf := (List.replicate pageSize 0).set 0 c
        some (.growableBuffer (pastBuffers ++ [currentBuffer]) newBuf 1)
  | .pipeTo file, c => some (.pipeTo (file ++ [c]))

def unsafeSetFixedSizeBuffer (buffer : List UInt8) : KernelStdoutState → Option KernelStdoutState
  | .uninitialized => some (.fixedSizeBuffer buffer 0)
  | _ => none

/-- The pages that `switch_to_heap` copies the fixed buffer to, from this position on. -/
def copyPages (buffer : List UInt8) : Nat → Nat → Nat → List (List UInt8)
  | 0, _, _ => []
  | count + 1, pos, rem =>
      let copy := min rem pageSize
      ((buffer.drop pos).take copy ++ List.replicate (pageSize - copy) 0) ::
        copyPages buffer count (pos + copy) (rem - copy)

def switchToHeap : KernelStdoutState → Option KernelStdoutState
  | .uninitialized => some (.growableBuffer [] (List.replicate pageSize 0) 0)
  | .growableBuffer pastBuffers currentBuffer currentBufferPos =>
      some (.growableBuffer pastBuffers currentBuffer currentBufferPos)
  | .pipeTo _ => none
  | .fixedSizeBuffer buffer pos =>
      let total := min pos buffer.length
      let buffers := copyPages buffer ((total + pageSize - 1) / pageSize) 0 total
      match buffers.getLast? with
      | none => some (.growableBuffer [] (List.replicate pageSize 0) 0)
      | some lastBuf => some (.growableBuffer buffers.dropLast lastBuf (total % pageSize))

/-- `file` is what the file holds already. -/
def switchToPipe (file : List UInt8) : KernelStdoutState → KernelStdoutState
  | .uninitialized => .pipeTo file
  | .fixedSizeBuffer buffer pos => .pipeTo (file ++ buffer.take (min buffer.length pos))
  | .growableBuffer pastBuffers currentBuffer currentBufferPos =>
      let file := file ++ pastBuffers.flatten
      if currentBufferPos > 0 then
        .pipeTo (file ++ currentBuffer.take currentBufferPos)
      else
        .pipeTo file
  | .pipeTo _ => .pipeTo file

end KernelStdoutState

def asU8 (c : Char) : UInt8 := UInt8.ofNat c.toNat

inductive Write where
  | str (s : List Char)
  | char (c : Char)

def Write.bytes : Write → List UInt8
  | .str s => s.flatMap fun c => if c = '\n' then [0x0D, asU8 c] else [asU8 c]
  | .char c => [asU8 c]

def bytesOf (writes : List Write) : List UInt8 := writes.flatMap Write.bytes

def writeAll (writes : List Write) (state : KernelStdoutState) : Option KernelStdoutState :=
  (bytesOf writes).foldlM KernelStdoutState.writeCharImpl state

/-- The switches in their order, with what is written before, between and after them. -/
def session (buffer : List UInt8) (before fixed heap after : List Write) :
    Option KernelStdoutState := do
  let state ← writeAll before .uninitialized
  let state ← state.unsafeSetFixedSizeBuffer buffer
  let state ← writeAll fixed state
  let state ← state.switchToHeap
  let state ← writeAll heap state
  writeAll after (state.switchToPipe [])

/-- The file holds what was written since initialisation, unless the kernel was halted by a
write before that. -/
def Kept (buffer : List UInt8) (before fixed heap after : List Write) : Prop :=
  match session buffer before fixed heap after with
  | some state => state = .pipeTo (bytesOf fixed ++ bytesOf heap ++ bytesOf after)
  | none => bytesOf before ≠ []

namespace KernelStdoutState

theorem write_uninitialized {bytes : List UInt8} (some_ : bytes ≠ []) :
    bytes.foldlM writeCharImpl .uninitialized = none := by
  cases bytes with
  | nil => exact absurd rfl some_
  | cons c bytes => rfl

theorem write_fixed (bytes : List UInt8) : ∀ (buffer : List UInt8) (pos : Nat),
    pos + bytes.length ≤ buffer.length →
    bytes.foldlM writeCharImpl (.fixedSizeBuffer buffer pos) =
      some (.fixedSizeBuffer (splice buffer pos bytes) (pos + bytes.length)) := by
  induction bytes with
  | nil =>
      intro buffer pos _
      rw [splice_nil]
      rfl
  | cons c bytes ih =>
      intro buffer pos fits
      rw [List.length_cons] at fits
      have first : writeCharImpl (.fixedSizeBuffer buffer pos) c =
          some (.fixedSizeBuffer (splice buffer pos [c]) (pos + 1)) := by
        have set : buffer.set pos c = splice buffer pos [c] := by
          rw [List.set_eq_take_append_cons_drop, if_pos (by omega), splice, List.append_assoc]
          rfl
        rw [writeCharImpl, if_pos (by omega), set]
      have sized : (splice buffer pos [c]).length = buffer.length :=
        length_splice (by rw [List.length_singleton]; omega)
      rw [List.foldlM_cons, first]
      change bytes.foldlM writeCharImpl (.fixedSizeBuffer (splice buffer pos [c]) (pos + 1)) = _
      rw [ih _ _ (by rw [sized]; omega)]
      have joined : splice (splice buffer pos [c]) (pos + 1)
          bytes = splice buffer pos (c :: bytes) :=
        splice_splice (by rw [List.length_singleton]; omega)
      rw [joined, List.length_cons]
      congr 2
      omega

/-- On the heap every byte goes to one place, behind all that is kept. -/
theorem write_growable (bytes : List UInt8) : ∀ (past : List (List UInt8)) (current : List UInt8)
    (pos : Nat), pos < current.length →
    ∃ after : List UInt8, bytes.foldlM writeCharImpl (.growableBuffer past current pos) =
        some (.growableBuffer past after pos) ∧ after.take pos = current.take pos := by
  induction bytes with
  | nil =>
      intro past current pos _
      exact ⟨current, rfl, rfl⟩
  | cons c bytes ih =>
      intro past current pos inside
      have first : writeCharImpl (.growableBuffer past current pos) c =
          some (.growableBuffer past (current.set pos c) pos) := by
        rw [writeCharImpl, if_pos inside]
      obtain ⟨after, written, kept⟩ := ih past (current.set pos c) pos (by rwa [List.length_set])
      refine ⟨after, ?_, ?_⟩
      · rw [List.foldlM_cons, first]
        exact written
      · rw [kept, List.take_set_of_le (Nat.le_refl pos)]

theorem write_pipe (bytes : List UInt8) : ∀ file : List UInt8,
    bytes.foldlM writeCharImpl (.pipeTo file) = some (.pipeTo (file ++ bytes)) := by
  induction bytes with
  | nil =>
      intro file
      rw [List.append_nil]
      rfl
  | cons c bytes ih =>
      intro file
      rw [List.foldlM_cons]
      change bytes.foldlM writeCharImpl (.pipeTo (file ++ [c])) = _
      rw [ih, List.append_assoc]
      rfl

theorem length_copy_pages (buffer : List UInt8) (count : Nat) : ∀ pos rem,
    (copyPages buffer count pos rem).length = count := by
  induction count with
  | zero =>
      intro pos rem
      rfl
  | succ count ih =>
      intro pos rem
      rw [copyPages, List.length_cons, ih]

theorem flatten_copy_pages (buffer : List UInt8) (count : Nat) : ∀ pos rem,
    pos + rem ≤ buffer.length → rem ≤ count * pageSize →
    (copyPages buffer count pos rem).flatten =
      (buffer.drop pos).take rem ++ List.replicate (count * pageSize - rem) 0 := by
  induction count with
  | zero =>
      intro pos rem _ few
      have none : rem = 0 := by omega
      rw [none]
      simp [copyPages]
  | succ count ih =>
      intro pos rem inside few
      rw [copyPages, List.flatten_cons]
      rw [Nat.succ_mul] at few
      by_cases last : rem ≤ pageSize
      · have zeros : pageSize - rem + (count * pageSize - 0) = (count + 1) * pageSize - rem := by
          rw [Nat.succ_mul]
          omega
        rw [Nat.min_eq_left last, Nat.sub_self, ih _ _ (by omega) (Nat.zero_le _), List.take_zero,
          List.nil_append, List.append_assoc, ← List.replicate_add, zeros]
      · have zeros : count * pageSize - (rem - pageSize) = (count + 1) * pageSize - rem := by
          rw [Nat.succ_mul]
          omega
        have copied : pageSize + (rem - pageSize) = rem := by omega
        have front : (buffer.drop pos).take rem = (buffer.drop pos).take pageSize ++
            (buffer.drop (pos + pageSize)).take (rem - pageSize) := by
          rw [← List.drop_drop, ← List.take_add, copied]
        rw [Nat.min_eq_right (by omega), Nat.sub_self, List.replicate_zero, List.append_nil,
          ih _ _ (by omega) (by omega), zeros, front, List.append_assoc]

theorem length_of_copied_page (buffer : List UInt8) (count : Nat) : ∀ pos rem,
    pos + rem ≤ buffer.length → ∀ page ∈ copyPages buffer count pos rem,
      page.length = pageSize := by
  induction count with
  | zero =>
      intro pos rem _ page member
      exact absurd member List.not_mem_nil
  | succ count ih =>
      intro pos rem inside page member
      rw [copyPages] at member
      cases List.mem_cons.mp member with
      | inl first =>
          rw [first, List.length_append, List.length_take, List.length_drop, List.length_replicate]
          omega
      | inr later => exact ih _ _ (by omega) page later

theorem length_flatten_pages {pages : List (List UInt8)}
    (sized : ∀ page ∈ pages, page.length = pageSize) :
    pages.flatten.length = pages.length * pageSize := by
  rw [List.length_flatten, List.map_congr_left sized, List.map_const', List.sum_replicate_nat]

/-- How much of the fixed buffer is in front of the position that the heap starts at. -/
def handedOver (pos : Nat) : Nat := if pos % pageSize = 0 then pos - pageSize else pos

theorem handed_over_le (count : Nat) : handedOver count ≤ count := by
  rw [handedOver]
  split
  · exact Nat.sub_le _ _
  · exact Nat.le_refl _

theorem switch_to_heap_spec {buffer : List UInt8} {pos : Nat} (inside : pos ≤ buffer.length) :
    ∃ past current, switchToHeap (.fixedSizeBuffer buffer pos) =
        some (.growableBuffer past current (pos % pageSize)) ∧
      pos % pageSize < current.length ∧
      past.flatten ++ current.take (pos % pageSize) = buffer.take (handedOver pos) := by
  have positive : 0 < pageSize := by decide
  rw [switchToHeap, Nat.min_eq_left inside]
  by_cases empty : pos = 0
  · subst empty
    refine ⟨[], List.replicate pageSize 0, rfl, ?_, rfl⟩
    rw [List.length_replicate]
    exact Nat.mod_lt _ positive
  · obtain ⟨k, count⟩ : ∃ k, (pos + pageSize - 1) / pageSize = k + 1 := by
      have some_ : 0 < (pos + pageSize - 1) / pageSize := Nat.div_pos (by omega) positive
      exact ⟨_, (Nat.succ_pred_eq_of_pos some_).symm⟩
    have pages := length_copy_pages buffer (k + 1) 0 pos
    have sized := length_of_copied_page buffer (k + 1) 0 pos (by omega)
    have enough : pos ≤ (k + 1) * pageSize := by
      rw [← count]
      have bound := Nat.div_add_mod (pos + pageSize - 1) pageSize
      have low := Nat.mod_lt (pos + pageSize - 1) positive
      rw [Nat.mul_comm] at bound
      omega
    have all := flatten_copy_pages buffer (k + 1) 0 pos (by omega) enough
    rw [count]
    generalize copyPages buffer (k + 1) 0 pos = copied at pages sized all
    obtain ⟨first, last, rfl⟩ := List.eq_nil_or_concat copied |>.resolve_left (by
      rintro rfl
      exact absurd pages (by simp))
    rw [List.concat_eq_append] at pages sized all ⊢
    have lastSized : last.length = pageSize := sized last (by simp)
    have firstSized : first.flatten.length = k * pageSize := by
      rw [length_flatten_pages fun page member => sized page (List.mem_append_left _ member)]
      rw [List.length_append, List.length_singleton] at pages
      congr 1
      omega
    refine ⟨first, last, by simp, by rw [lastSized]; exact Nat.mod_lt _ positive, ?_⟩
    -- the part in front of the position is a part of the concatenation of all pages
    have part : first.flatten ++ last.take (pos % pageSize) =
        (first ++ [last]).flatten.take (k * pageSize + pos % pageSize) := by
      rw [List.flatten_append, List.flatten_singleton, ← firstSized, List.take_length_add_append]
    have place : k * pageSize + pos % pageSize = handedOver pos := by
      have quotient := Nat.div_add_mod pos pageSize
      have low := Nat.mod_lt pos positive
      rw [handedOver]
      split
      next whole =>
        have shifted : (pos + pageSize - 1) / pageSize = pos / pageSize := by
          rw [show pos + pageSize - 1 = (pageSize - 1) + pageSize * (pos / pageSize) by omega,
            Nat.add_mul_div_left _ _ positive, Nat.div_eq_of_lt (by omega), Nat.zero_add]
        rw [shifted] at count
        rw [count, Nat.mul_comm, Nat.succ_mul] at quotient
        omega
      next part =>
        have shifted : (pos + pageSize - 1) / pageSize = pos / pageSize + 1 := by
          rw [show pos + pageSize - 1 = (pos % pageSize - 1) + pageSize * (pos / pageSize + 1) by
            rw [Nat.mul_succ]; omega,
            Nat.add_mul_div_left _ _ positive, Nat.div_eq_of_lt (by omega), Nat.zero_add]
        rw [shifted] at count
        rw [show pos / pageSize = k by omega, Nat.mul_comm] at quotient
        exact quotient
    have small := handed_over_le pos
    rw [part, all, place, List.drop_zero, List.take_append_of_le_length (by
      rw [List.length_take]; omega), List.take_take, Nat.min_eq_left small]

end KernelStdoutState

open KernelStdoutState

/-- What is in the file at the end: the pages in front of the position on the heap, and what
came after the last switch. -/
theorem session_eq {buffer : List UInt8} {before fixed : List Write} (heap after : List Write)
    (quiet : bytesOf before = []) (fits : (bytesOf fixed).length ≤ buffer.length) :
    session buffer before fixed heap after =
      some (.pipeTo ((bytesOf fixed).take
        (handedOver (bytesOf fixed).length) ++ bytesOf after)) := by
  have filled : (splice buffer 0 (bytesOf fixed)).length = buffer.length :=
    length_splice (by omega)
  obtain ⟨past, current, switched, inside, kept⟩ := switch_to_heap_spec
    (show (bytesOf fixed).length ≤ (splice buffer 0 (bytesOf fixed)).length by
      rw [filled]; exact fits)
  obtain ⟨last, written, same⟩ := write_growable (bytesOf heap) past current _ inside
  have small := handed_over_le (bytesOf fixed).length
  have front : (splice buffer 0 (bytesOf fixed)).take (handedOver (bytesOf fixed).length) =
      (bytesOf fixed).take (handedOver (bytesOf fixed).length) := by
    rw [splice, List.take_zero, List.nil_append, List.take_append_of_le_length small]
  have first : writeAll before .uninitialized = some .uninitialized := by
    rw [writeAll, quiet]
    rfl
  have fixedPhase : writeAll fixed (.fixedSizeBuffer buffer 0) =
      some (.fixedSizeBuffer (splice buffer 0 (bytesOf fixed)) (bytesOf fixed).length) := by
    have phase := write_fixed (bytesOf fixed) buffer 0 (by omega)
    rwa [Nat.zero_add] at phase
  have heapPhase : writeAll heap (.growableBuffer past current
      ((bytesOf fixed).length % pageSize)) =
      some (.growableBuffer past last ((bytesOf fixed).length % pageSize)) := written
  have piped : switchToPipe [] (.growableBuffer past last ((bytesOf fixed).length % pageSize)) =
      .pipeTo ((bytesOf fixed).take (handedOver (bytesOf fixed).length)) := by
    rw [switchToPipe]
    rw [← front, ← kept, ← same]
    by_cases start : (bytesOf fixed).length % pageSize > 0
    · rw [if_pos start, List.nil_append]
    · have zero : (bytesOf fixed).length % pageSize = 0 := by omega
      rw [if_neg start, List.nil_append, zero, List.take_zero, List.append_nil]
  have pipePhase := write_pipe (bytesOf after)
    ((bytesOf fixed).take (handedOver (bytesOf fixed).length))
  rw [session, first]
  change ((writeAll fixed (.fixedSizeBuffer buffer 0)).bind fun state => _) = _
  rw [fixedPhase]
  change ((switchToHeap _).bind fun state => _) = _
  rw [switched]
  change ((writeAll heap _).bind fun state => _) = _
  rw [heapPhase]
  change writeAll after _ = _
  rw [piped]
  exact pipePhase

theorem early_write_halts {buffer : List UInt8} {before : List Write}
    (fixed heap after : List Write)
    (early : bytesOf before ≠ []) : session buffer before fixed heap after = none := by
  have first : writeAll before .uninitialized = none := write_uninitialized early
  rw [session, first]
  rfl

theorem handed_over_all_iff {count : Nat} : handedOver count = count ↔ count = 0 ∨
    ¬pageSize ∣ count := by
  have positive : 0 < pageSize := by decide
  rw [handedOver, Nat.dvd_iff_mod_eq_zero]
  split
  next whole =>
    constructor
    · intro same
      left
      omega
    · intro cases_
      have zero := cases_.resolve_right (fun part => part whole)
      rw [zero]
      rfl
  next part => exact iff_of_true rfl (.inr part)

/-- What is kept is no longer than what was in the fixed buffer and what came at the end. -/
theorem all_handed_over {buffer : List UInt8} {before fixed heap after : List Write}
    (quiet : bytesOf before = []) (fits : (bytesOf fixed).length ≤ buffer.length)
    (kept : Kept buffer before fixed heap after) :
    bytesOf heap = [] ∧ handedOver (bytesOf fixed).length = (bytesOf fixed).length := by
  rw [Kept, session_eq heap after quiet fits] at kept
  have same := pipeTo.inj kept
  rw [List.append_left_inj] at same
  have lengths := congrArg List.length same
  have small := handed_over_le (bytesOf fixed).length
  rw [List.length_take, List.length_append] at lengths
  exact ⟨List.length_eq_zero_iff.mp (by omega), by omega⟩

/-- The log is kept exactly if nothing is written while it is on the heap and the fixed buffer
was not filled with whole pages. -/
theorem log_kept_iff (buffer : List UInt8) (before fixed heap after : List Write)
    (fits : (bytesOf fixed).length ≤ buffer.length) :
    Kept buffer before fixed heap after ↔
      bytesOf before ≠ [] ∨
        bytesOf heap = [] ∧ ((bytesOf fixed).length = 0 ∨ ¬pageSize ∣ (bytesOf fixed).length) := by
  rw [← handed_over_all_iff]
  by_cases quiet : bytesOf before = []
  · constructor
    · intro kept
      exact .inr (all_handed_over quiet fits kept)
    · intro condition
      obtain ⟨nothing, whole⟩ := condition.resolve_left (fun early => early quiet)
      rw [Kept, session_eq heap after quiet fits, nothing, whole, List.take_length, List.append_nil]
  · rw [Kept, early_write_halts fixed heap after quiet]
    exact iff_of_true quiet (.inl quiet)

/-- Two characters in the fixed buffer and one in the file. -/
theorem early_log_kept : Kept [0, 0, 0] [] [.str ['o', 'k']] [] [.char '!'] := by
  apply (log_kept_iff [0, 0, 0] [] [.str ['o', 'k']] [] [.char '!'] (by decide)).mpr
  exact .inr ⟨rfl, .inr (by decide)⟩

/-- A character written while the log is on the heap does not reach the file. -/
theorem heap_character_lost : ¬Kept [0, 0, 0] [] [.str ['o', 'k']] [.char '!'] [] := by
  apply mt (all_handed_over rfl (by decide))
  intro both
  exact absurd both.1 (by decide)

end Campix.Log
