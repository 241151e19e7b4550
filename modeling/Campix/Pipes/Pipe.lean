import Campix.Lib.Ring
import Campix.Lib.Word

/-!
# Pipes

`Pipe` of `pipefs.rs`: a ring buffer with a position to read at, a position to write at
and the number of bytes in it, each kept on its own. A slice out of range is a panic.
The times of the pipe are always 0 and are left out.
-/

namespace Campix.Pipes

open Lib.Ring Lib.Slice Lib.Word

set_option autoImplicit false

structure Pipe where
  data : List UInt8
  dataLen : Nat
  writePos : Nat
  readPos : Nat
  readers : Nat
  writers : Nat
  closed : Bool

namespace Pipe

def newAnonymous (bufSize : Nat) : Pipe where
  data := List.replicate bufSize 0
  dataLen := 0
  writePos := 0
  readPos := 0
  readers := 0
  writers := 0
  closed := false

def readableBytes (self : Pipe) : Nat := self.dataLen

def writableBytes (self : Pipe) : Nat := sub64 self.data.length self.dataLen

def isFull (self : Pipe) : Bool := self.dataLen ≥ self.data.length

def isEmpty (self : Pipe) : Bool := self.dataLen = 0

def read (self : Pipe) (buf : List UInt8) : Option (Nat × List UInt8 × Pipe) := do
  let toRead := min self.readableBytes buf.length
  if toRead = 0 then
    return (0, buf, self)
  else
    let len := self.data.length
    let toEnd := sub64 len self.readPos
    let taken := { self with dataLen := sub64 self.dataLen toRead }
    if toRead > toEnd then
      let buf ← copyFromSlice buf 0 toEnd (← getSlice self.data self.readPos len)
      let buf ← copyFromSlice buf toEnd toRead (← getSlice self.data 0 (toRead - toEnd))
      return (toRead, buf, { taken with readPos := toRead - toEnd })
    else
      let buf ← copyFromSlice buf 0 toRead
        (← getSlice self.data self.readPos (self.readPos + toRead))
      return (toRead, buf, { taken with readPos := (self.readPos + toRead) % len })

def write (self : Pipe) (buf : List UInt8) : Option (Nat × Pipe) := do
  let toWrite := min self.writableBytes buf.length
  if toWrite = 0 then
    return (0, self)
  else
    let len := self.data.length
    let toEnd := sub64 len self.writePos
    let filled := { self with dataLen := self.dataLen + toWrite }
    if toWrite > toEnd then
      let data ← copyFromSlice self.data self.writePos len (← getSlice buf 0 toEnd)
      let data ← copyFromSlice data 0 (toWrite - toEnd) (← getSlice buf toEnd toWrite)
      return (toWrite, { filled with data := data, writePos := toWrite - toEnd })
    else
      let data ← copyFromSlice self.data self.writePos (self.writePos + toWrite)
        (← getSlice buf 0 toWrite)
      return (toWrite, { filled with data := data, writePos := (self.writePos + toWrite) % len })

def queue (self : Pipe) : List UInt8 := window self.data self.readPos self.dataLen

/-- The positions are at most once around the buffer and as far apart as the pipe is
full; an empty buffer has neither. -/
structure Ring (pipe : Pipe) : Prop where
  bounded : pipe.dataLen ≤ pipe.data.length
  begins : 0 < pipe.data.length → pipe.readPos < pipe.data.length
  ends : 0 < pipe.data.length → pipe.writePos = wrap pipe.data.length (pipe.readPos + pipe.dataLen)

theorem ring_new (bufSize : Nat) : (newAnonymous bufSize).Ring := by
  refine ⟨Nat.zero_le _, fun positive => positive, fun positive => ?_⟩
  exact (if_pos positive).symm

/-- A position at most once around. -/
theorem wrap_eq_mod {length place : Nat} (below : place ≤ length) (positive : 0 < length) :
    wrap length place = place % length := by
  unfold wrap
  split_ifs with inside
  · exact (Nat.mod_eq_of_lt inside).symm
  · obtain rfl : place = length := by omega
    rw [Nat.sub_self, Nat.mod_self]

def taken (self : Pipe) (count : Nat) : Pipe :=
  { self with readPos := wrap self.data.length (self.readPos + count), dataLen := self.dataLen - count }

theorem ring_taken {self : Pipe} {count : Nat} (ring : self.Ring) (positive : 0 < self.data.length)
    (fewer : count ≤ self.dataLen) :
    (self.taken count).Ring ∧ (self.taken count).queue = self.queue.drop count := by
  have bounded := ring.bounded
  have begins := ring.begins positive
  have ends := ring.ends positive
  have place : wrap self.data.length (self.readPos + count) < self.data.length := by
    unfold wrap
    split_ifs <;> omega
  have behind : self.writePos = wrap self.data.length
      (wrap self.data.length (self.readPos + count) + (self.dataLen - count)) := by
    rw [ends]
    unfold wrap
    split_ifs <;> omega
  have fewerBytes : (self.taken count).dataLen ≤ (self.taken count).data.length :=
    show self.dataLen - count ≤ self.data.length by omega
  exact ⟨⟨fewerBytes, fun _ => place, fun _ => behind⟩, (drop_window begins bounded fewer).symm⟩

theorem read_eq {self : Pipe} {buf : List UInt8} {count : Nat} (ring : self.Ring)
    (countEq : min self.dataLen buf.length = count) (some_ : count ≠ 0) :
    self.read buf = some (count, splice buf 0 (self.queue.take count), self.taken count) := by
  have bounded := ring.bounded
  have positive : 0 < self.data.length := by omega
  have begins := ring.begins positive
  have toEnd : sub64 self.data.length self.readPos = self.data.length - self.readPos :=
    sub64_of_le (by omega)
  have rest : sub64 self.dataLen count = self.dataLen - count := sub64_of_le (by omega)
  have front : self.queue.take count = window self.data self.readPos count := take_window (by omega)
  unfold read readableBytes
  rw [countEq]
  simp only [if_neg some_, toEnd, rest, front]
  by_cases around : count > self.data.length - self.readPos
  · have tail : getSlice self.data self.readPos self.data.length = some
        (self.data.drop self.readPos) := by
      rw [get_slice_eq (by omega) (by omega), List.take_of_length_le (by rw [List.length_drop])]
    have head : getSlice self.data 0 (count - (self.data.length - self.readPos)) =
        some (self.data.take (count - (self.data.length - self.readPos))) := by
      rw [get_slice_eq (by omega) (by omega), List.drop_zero, Nat.sub_zero]
    have tailLength : (self.data.drop self.readPos).length = self.data.length - self.readPos :=
      List.length_drop
    have headLength : (self.data.take (count - (self.data.length - self.readPos))).length =
        count - (self.data.length - self.readPos) := by
      rw [List.length_take]
      omega
    have first : copyFromSlice buf 0 (self.data.length - self.readPos)
        (self.data.drop self.readPos) =
        some (splice buf 0 _) := copy_from_slice_eq (by omega) (by omega) (by omega)
    have firstLength : (splice buf 0 (self.data.drop self.readPos)).length = buf.length :=
      length_splice (by omega)
    have second : copyFromSlice (splice buf 0 (self.data.drop self.readPos))
        (self.data.length - self.readPos) count
        (self.data.take (count - (self.data.length - self.readPos))) = some (splice _ _ _) :=
      copy_from_slice_eq (by omega) (by omega) (by omega)
    have whole : window self.data self.readPos count = self.data.drop self.readPos ++
        self.data.take (count - (self.data.length - self.readPos)) := by
      rw [window_of_gt (by omega) (by omega)]
      congr 2
      omega
    have place : count - (self.data.length - self.readPos) =
        wrap self.data.length (self.readPos + count) := by
      unfold wrap
      split_ifs <;> omega
    have joined := splice_splice (show 0 + (self.data.drop self.readPos).length +
      (self.data.take (count - (self.data.length - self.readPos))).length ≤ buf.length by omega)
    rw [Nat.zero_add, tailLength] at joined
    rw [if_pos around, tail, head, whole]
    simp only [Option.bind_eq_bind, Option.bind_some, first, second, joined]
    rw [taken, ← place]
    rfl
  · have slice : getSlice self.data self.readPos (self.readPos + count) =
        some (window self.data self.readPos count) := by
      rw [get_slice_eq (by omega) (by omega), window_of_le (by omega), Nat.add_sub_cancel_left]
    have length : (window self.data self.readPos count).length = count := length_window (by omega)
    have copy : copyFromSlice buf 0 count (window self.data self.readPos count) = some
        (splice buf 0 _) :=
      copy_from_slice_eq (by omega) (by omega) (by omega)
    rw [if_neg around, slice, taken, wrap_eq_mod (by omega) positive]
    simp only [Option.bind_eq_bind, Option.bind_some, copy]
    rfl

def filled (self : Pipe) (bytes : List UInt8) : Pipe :=
  { self with
    data := put self.data self.writePos bytes
    writePos := wrap self.data.length (self.writePos + bytes.length)
    dataLen := self.dataLen + bytes.length }

theorem write_pos_lt {self : Pipe} (ring : self.Ring) (positive : 0 < self.data.length) :
    self.writePos < self.data.length := by
  have bounded := ring.bounded
  have begins := ring.begins positive
  rw [ring.ends positive]
  unfold wrap
  split_ifs <;> omega

theorem ring_filled {self : Pipe} {bytes : List UInt8} (ring : self.Ring)
    (positive : 0 < self.data.length)
    (room : self.dataLen + bytes.length ≤ self.data.length) :
    (self.filled bytes).Ring ∧ (self.filled bytes).queue = self.queue ++ bytes ∧
      (self.filled bytes).data.length = self.data.length := by
  have begins := ring.begins positive
  have ends := ring.ends positive
  have writes := write_pos_lt ring positive
  have length : (put self.data self.writePos bytes).length = self.data.length :=
    length_put (by omega) (by omega)
  have queue : (self.filled bytes).queue = self.queue ++ bytes := by
    change window (put self.data self.writePos bytes) self.readPos (self.dataLen + bytes.length) = _
    rw [ends]
    exact window_put begins room
  refine ⟨⟨?_, ?_, ?_⟩, queue, length⟩
  · change self.dataLen + bytes.length ≤ (put self.data self.writePos bytes).length
    omega
  · intro _
    change self.readPos < (put self.data self.writePos bytes).length
    omega
  · intro _
    change wrap self.data.length (self.writePos + bytes.length) =
      wrap (put self.data self.writePos bytes).length (self.readPos + (self.dataLen + bytes.length))
    rw [length, ends]
    unfold wrap
    split_ifs <;> omega

theorem write_eq {self : Pipe} {buf : List UInt8} {count : Nat} (ring : self.Ring)
    (countEq : min (self.data.length - self.dataLen) buf.length = count) (some_ : count ≠ 0) :
    self.write buf = some (count, self.filled (buf.take count)) := by
  have bounded := ring.bounded
  have positive : 0 < self.data.length := by omega
  have writes := write_pos_lt ring positive
  have room : sub64 self.data.length self.dataLen = self.data.length - self.dataLen :=
    sub64_of_le bounded
  have toEnd : sub64 self.data.length self.writePos = self.data.length - self.writePos :=
    sub64_of_le (by omega)
  have length : (buf.take count).length = count := by
    rw [List.length_take]
    omega
  unfold write writableBytes filled
  rw [room, countEq, length, put, length]
  simp only [if_neg some_, toEnd]
  by_cases around : count > self.data.length - self.writePos
  · have first : getSlice buf 0 (self.data.length - self.writePos) =
        some (buf.take (self.data.length - self.writePos)) := by
      rw [get_slice_eq (by omega) (by omega), List.drop_zero, Nat.sub_zero]
    have second : getSlice buf (self.data.length - self.writePos) count =
        some ((buf.take count).drop (self.data.length - self.writePos)) := by
      rw [get_slice_eq (by omega) (by omega), List.drop_take]
    have firstLength : (buf.take (self.data.length - self.writePos)).length =
        self.data.length - self.writePos := by
      rw [List.length_take]
      omega
    have secondLength : ((buf.take count).drop (self.data.length - self.writePos)).length =
        count - (self.data.length - self.writePos) := by
      rw [List.length_drop, length]
    have firstCopy : copyFromSlice self.data self.writePos self.data.length
        (buf.take (self.data.length - self.writePos)) = some (splice self.data self.writePos _) :=
      copy_from_slice_eq (by omega) (by omega) (by omega)
    have firstCopied : (splice self.data self.writePos
        (buf.take (self.data.length - self.writePos))).length = self.data.length :=
      length_splice (by omega)
    have secondCopy : copyFromSlice
        (splice self.data self.writePos (buf.take (self.data.length - self.writePos))) 0
        (count - (self.data.length - self.writePos))
        ((buf.take count).drop (self.data.length - self.writePos)) = some (splice _ 0 _) :=
      copy_from_slice_eq (by omega) (by omega) (by omega)
    have inner : (buf.take count).take (self.data.length - self.writePos) =
        buf.take (self.data.length - self.writePos) := by
      rw [List.take_take, Nat.min_eq_left (by omega)]
    have place : count - (self.data.length - self.writePos) =
        wrap self.data.length (self.writePos + count) := by
      unfold wrap
      split_ifs <;> omega
    rw [if_pos around, if_neg (show ¬self.writePos + count ≤ self.data.length by omega), first,
      second,
      inner, ← place]
    simp only [Option.bind_eq_bind, Option.bind_some, firstCopy, secondCopy]
    rfl
  · have slice : getSlice buf 0 count = some (buf.take count) := by
      rw [get_slice_eq (by omega) (by omega), List.drop_zero, Nat.sub_zero]
    have copy : copyFromSlice self.data self.writePos (self.writePos + count) (buf.take count) =
        some (splice self.data self.writePos _) :=
          copy_from_slice_eq (by omega) (by omega) (by omega)
    rw [if_neg around, if_pos (show self.writePos + count ≤ self.data.length by omega), slice,
      wrap_eq_mod (by omega) positive]
    simp only [Option.bind_eq_bind, Option.bind_some, copy]
    rfl

theorem read_spec {self : Pipe} (ring : self.Ring) (buf : List UInt8) :
    ∃ after, self.read buf = some (min self.dataLen buf.length,
        splice buf 0 (self.queue.take (min self.dataLen buf.length)), after) ∧
      after.Ring ∧ after.queue = self.queue.drop (min self.dataLen buf.length) ∧
      after = { self with readPos := after.readPos, dataLen := after.dataLen } := by
  by_cases nothing : min self.dataLen buf.length = 0
  · refine ⟨self, ?_, ring, ?_, rfl⟩
    · unfold read readableBytes
      rw [if_pos nothing, nothing, List.take_zero, splice_nil]
      rfl
    · rw [nothing, List.drop_zero]
  · have bounded := ring.bounded
    obtain ⟨after, queue⟩ := ring_taken ring (by omega) (Nat.min_le_left self.dataLen buf.length)
    exact ⟨_, read_eq ring rfl nothing, after, queue, rfl⟩

theorem write_spec {self : Pipe} (ring : self.Ring) (buf : List UInt8) :
    ∃ after, self.write buf = some (min (self.data.length - self.dataLen) buf.length, after) ∧
      after.Ring ∧ after.queue = self.queue ++ buf.take
        (min (self.data.length - self.dataLen) buf.length) ∧
      after.data.length = self.data.length ∧
      after = { self with data := after.data, writePos := after.writePos, dataLen := after.dataLen } := by
  have room : sub64 self.data.length self.dataLen = self.data.length - self.dataLen :=
    sub64_of_le ring.bounded
  by_cases nothing : min (self.data.length - self.dataLen) buf.length = 0
  · refine ⟨self, ?_, ring, ?_, rfl, rfl⟩
    · unfold write writableBytes
      rw [room, if_pos nothing, nothing]
      rfl
    · rw [nothing, List.take_zero, List.append_nil]
  · have length : (buf.take (min (self.data.length - self.dataLen) buf.length)).length =
        min (self.data.length - self.dataLen) buf.length := by
      rw [List.length_take]
      omega
    have bounded := ring.bounded
    obtain ⟨after, queue, same⟩ := ring_filled ring (by omega)
      (show self.dataLen + (buf.take (min (self.data.length - self.dataLen) buf.length)).length ≤
        self.data.length by omega)
    exact ⟨_, write_eq ring rfl nothing, after, queue, same, rfl⟩

theorem length_queue {self : Pipe} (ring : self.Ring) : self.queue.length = self.dataLen := by
  have bounded := ring.bounded
  by_cases positive : 0 < self.data.length
  · have begins := ring.begins positive
    exact length_window (by omega)
  · have empty : self.dataLen = 0 := by omega
    rw [queue, window, empty, List.take_zero, List.length_nil]

end Pipe

inductive Call where
  | write (buf : List UInt8)
  | read (buf : List UInt8)

/-- A pipe with all the bytes that it took and all that it gave back. -/
structure History where
  pipe : Pipe
  accepted : List UInt8
  returned : List UInt8

/-- `None` is a slice out of range. -/
def History.call (history : History) : Call → Option History
  | .write buf => do
      let (count, pipe) ← history.pipe.write buf
      return { history with pipe, accepted := history.accepted ++ buf.take count }
  | .read buf => do
      let (count, buf, pipe) ← history.pipe.read buf
      return { history with pipe, returned := history.returned ++ buf.take count }

structure Fifo (bufSize : Nat) (history : History) : Prop where
  ring : history.pipe.Ring
  size : history.pipe.data.length = bufSize
  order : history.accepted = history.returned ++ history.pipe.queue

theorem fifo_call {bufSize : Nat} {history : History} (fifo : Fifo bufSize history) (call : Call) :
    ∃ next, history.call call = some next ∧ Fifo bufSize next := by
  cases call with
  | write buf =>
      obtain ⟨after, written, ring, queue, size, -⟩ := Pipe.write_spec fifo.ring buf
      generalize min (history.pipe.data.length - history.pipe.dataLen)
        buf.length = count at written queue
      have order : history.accepted ++ buf.take count = history.returned ++ after.queue := by
        rw [queue, fifo.order, List.append_assoc]
      refine ⟨⟨after, history.accepted ++ buf.take count, history.returned⟩, ?_, ring,
        size.trans fifo.size, order⟩
      simp only [History.call, written, Option.bind_eq_bind, Option.bind_some]
      rfl
  | read buf =>
      obtain ⟨after, read, ring, queue, rest⟩ := Pipe.read_spec fifo.ring buf
      have length := Pipe.length_queue fifo.ring
      have size : after.data.length = bufSize := by
        rw [rest]
        exact fifo.size
      have fits : min history.pipe.dataLen buf.length ≤ buf.length := Nat.min_le_right ..
      have fewer : min history.pipe.dataLen buf.length ≤ history.pipe.queue.length := by omega
      generalize min history.pipe.dataLen buf.length = count at read queue fits fewer
      have partLength : (history.pipe.queue.take count).length = count := by
        rw [List.length_take]
        omega
      have part : (splice buf 0 (history.pipe.queue.take count)).take count =
          history.pipe.queue.take count := take_splice_zero partLength fits
      have order : history.accepted =
          history.returned ++ (splice buf 0 (history.pipe.queue.take count)).take count ++
            after.queue := by
        rw [part, queue, fifo.order, List.append_assoc, List.take_append_drop]
      refine ⟨⟨after, history.accepted, history.returned ++ _⟩, ?_, ring, size, order⟩
      simp only [History.call, read, Option.bind_eq_bind, Option.bind_some]
      rfl

theorem fifo_calls {bufSize : Nat} (calls : List Call) {history : History}
    (fifo : Fifo bufSize history) :
    ∃ final, calls.foldlM History.call history = some final ∧ Fifo bufSize final := by
  induction calls generalizing history with
  | nil => exact ⟨history, rfl, fifo⟩
  | cons call calls ih =>
      obtain ⟨next, called, kept⟩ := fifo_call fifo call
      obtain ⟨final, rest, ended⟩ := ih kept
      exact ⟨final, by rw [List.foldlM_cons, called]; exact rest, ended⟩

/-- A pipe is a bounded queue: no call goes out of range, the bytes returned and those in
the pipe are the bytes accepted, in order, and every call moves as many bytes as it can. -/
theorem pipe_is_bounded_fifo (bufSize : Nat) (calls : List Call) :
    ∃ final, calls.foldlM History.call ⟨.newAnonymous bufSize, [], []⟩ = some final ∧
      final.pipe.readableBytes ≤ bufSize ∧
      final.accepted = final.returned ++ final.pipe.queue ∧
      final.pipe.queue.length = final.pipe.readableBytes ∧
      (∀ buf, ∃ after, final.pipe.write buf =
        some (min buf.length (bufSize - final.pipe.readableBytes), after)) ∧
      ∀ buf, ∃ after, final.pipe.read buf =
        some (min buf.length final.pipe.readableBytes,
          final.pipe.queue.take (min buf.length final.pipe.readableBytes) ++
            buf.drop (min buf.length final.pipe.readableBytes), after) := by
  have start : Fifo bufSize ⟨.newAnonymous bufSize, [], []⟩ :=
    ⟨Pipe.ring_new bufSize, List.length_replicate, rfl⟩
  obtain ⟨final, ran, fifo⟩ := fifo_calls calls start
  have bounded := fifo.ring.bounded
  have length := Pipe.length_queue fifo.ring
  refine ⟨final, ran, fifo.size ▸ bounded, fifo.order, length, ?_, ?_⟩
  · intro buf
    obtain ⟨after, written, -⟩ := Pipe.write_spec fifo.ring buf
    rw [fifo.size, Nat.min_comm] at written
    exact ⟨after, written⟩
  · intro buf
    obtain ⟨after, read, -⟩ := Pipe.read_spec fifo.ring buf
    have partLength : (final.pipe.queue.take (min final.pipe.dataLen buf.length)).length =
        min final.pipe.dataLen buf.length := by
      rw [List.length_take]
      omega
    rw [splice, List.take_zero, List.nil_append, Nat.zero_add, partLength, Nat.min_comm] at read
    exact ⟨after, read⟩

end Campix.Pipes
