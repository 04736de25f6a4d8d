import Mathlib.Data.List.Induction
import TwitchChatWorker.ByteBuffer

/-!
The ring buffer is a bounded queue of bytes: `contents` is the queue, the
invariant `Ring` names the two encodings of the tail, and every call does to the
contents what the queue does.
-/

namespace TwitchChatWorker.ByteQueue

open TwitchChatWorker.Lib.CircularStore
open TwitchChatWorker.ByteBuffer

variable {C : Nat}

/-- The tail is `head + size` around the buffer, where both `0` and `C` may
stand for its end; a buffer that starts at `0` is not wrapped. -/
structure Ring (b : BufferStatic C) : Prop where
  length_buffer : b.buffer.length = C
  size_le : b.size ≤ C
  head_le : b.head ≤ C
  tail_le : b.tail ≤ C
  placed : b.tail = b.head + b.size ∨ b.tail + C = b.head + b.size
  home : b.head = 0 → b.tail = b.size

/-- The bytes that the buffer holds, first in first. -/
def contents (b : BufferStatic C) : List UInt8 :=
  window b.buffer b.head b.size

theorem ring_empty : Ring (.empty : BufferStatic C) where
  length_buffer := by simp [BufferStatic.empty]
  size_le := Nat.zero_le _
  head_le := Nat.zero_le _
  tail_le := Nat.zero_le _
  placed := Or.inl rfl
  home := fun _ => rfl

@[simp] theorem contents_empty : contents (.empty : BufferStatic C) = [] := by
  simp [contents, BufferStatic.empty]

theorem Ring.length_contents {b : BufferStatic C} (h : Ring b) :
    (contents b).length = b.size :=
  length_window (by rw [h.length_buffer]; exact h.size_le)

/-! ### Appending -/

theorem append_fails {b : BufferStatic C} (h : Ring b) (data : List UInt8)
    (hroom : b.size < C → C < b.size + data.length) :
    b.append data = b.fails (if C < data.length then .invalidLen else .bufferFull) := by
  have hsize := h.size_le
  have hplaced := h.placed
  unfold BufferStatic.append
  simp only
  split
  · rfl
  · split
    · rfl
    · have hover := hroom (by omega)
      have htail := h.tail_le
      split
      · rw [if_neg (by omega), if_neg (by omega)]
      · rw [if_neg (by omega)]

/-- What an accepted append leaves. -/
structure Appended (b : BufferStatic C) (data : List UInt8) (outcome : Outcome C) : Prop where
  result : outcome.result = some .ok
  ring : Ring outcome.next
  contents : contents outcome.next = contents b ++ data

theorem appended_done {b : BufferStatic C} (h : Ring b) {data : List UInt8}
    {memory : Memory} {tail : Nat} (hlength : memory.buffer.length = C)
    (hcontents : window memory.buffer b.head (b.size + data.length) = contents b ++ data)
    (hroom : b.size + data.length ≤ C) (htail : tail ≤ C)
    (hplaced : tail = b.head + (b.size + data.length) ∨
      tail + C = b.head + (b.size + data.length))
    (hhome : b.head = 0 → tail = b.size + data.length) :
    Appended b data
      (BufferStatic.done (some .ok) memory (b.size + data.length) b.head tail) where
  result := rfl
  ring := ⟨hlength, hroom, h.head_le, htail, hplaced, hhome⟩
  contents := hcontents

theorem appended_block {b : BufferStatic C} (h : Ring b) {data : List UInt8}
    (hroom : b.size + data.length ≤ C)
    (htail : b.tail = b.head + b.size ∧ b.tail + data.length ≤ C ∨
      b.tail + C = b.head + b.size) :
    Appended b data (BufferStatic.done (some .ok)
      (({ buffer := b.buffer, data } : Memory).memcpy ⟨.buffer, b.tail, .data, 0, data.length⟩)
      (b.size + data.length) b.head (b.tail + data.length)) := by
  have hlength := h.length_buffer
  have hhead := h.head_le
  have hhome := h.home
  have hbuffer :
      (({ buffer := b.buffer, data } : Memory).memcpy
        ⟨.buffer, b.tail, .data, 0, data.length⟩).buffer = writeBlock b.buffer b.tail data := by
    simp [Memory.memcpy_buffer, Memory.cells, readBlock_start]
  apply appended_done h
  · rw [hbuffer, length_writeBlock (by omega), hlength]
  · rw [hbuffer]
    rcases htail with ⟨htail, hfits⟩ | htail
    · rw [htail]
      exact window_writeBlock (by omega)
    · have hat : b.tail = b.head + b.size - b.buffer.length := by omega
      rw [hat]
      exact window_writeBlock_wrapped (by omega) (by omega) (by omega)
  all_goals omega

theorem appended_split {b : BufferStatic C} (h : Ring b) {data : List UInt8}
    (hroom : b.size + data.length ≤ C) (htail : b.tail = b.head + b.size)
    (hover : C < b.tail + data.length) :
    Appended b data (BufferStatic.done (some .ok)
      ((if 0 < C - b.tail then
          ({ buffer := b.buffer, data } : Memory).memcpy ⟨.buffer, b.tail, .data, 0, C - b.tail⟩
        else { buffer := b.buffer, data }).memcpy
          ⟨.buffer, 0, .data, C - b.tail, data.length - (C - b.tail)⟩)
      (b.size + data.length) b.head (data.length - (C - b.tail))) := by
  have hlength := h.length_buffer
  have hhead := h.head_le
  have hle := h.tail_le
  have hhome := h.home
  let first := data.take (C - b.tail)
  let second := data.drop (C - b.tail)
  have hfirst : first.length = C - b.tail := by
    simp only [first, List.length_take]
    omega
  have hsecond : second.length = data.length - (C - b.tail) := by
    simp only [second, List.length_drop]
  have hbuffer :
      ((if 0 < C - b.tail then
          ({ buffer := b.buffer, data } : Memory).memcpy ⟨.buffer, b.tail, .data, 0, C - b.tail⟩
        else { buffer := b.buffer, data }).memcpy
          ⟨.buffer, 0, .data, C - b.tail, data.length - (C - b.tail)⟩).buffer =
        writeBlock (writeBlock b.buffer b.tail first) 0 second := by
    have hrest : readBlock data (C - b.tail) (data.length - (C - b.tail)) = second :=
      readBlock_rest (by omega)
    split
    · simp [Memory.memcpy_buffer, Memory.memcpy_data, Memory.cells, readBlock_start, hrest, first]
    · have hnone : first = [] := List.eq_nil_of_length_eq_zero (by omega)
      simp [Memory.memcpy_buffer, Memory.cells, hrest, hnone]
  have hwritten : (writeBlock b.buffer b.tail first).length = b.buffer.length :=
    length_writeBlock (by omega)
  apply appended_done h
  · rw [hbuffer, length_writeBlock (by omega), hwritten, hlength]
  · have hblocks : window (writeBlock b.buffer b.tail first) b.head (b.size + first.length) =
        contents b ++ first := by
      rw [htail]
      exact window_writeBlock (by omega)
    have hsum : b.size + data.length = b.size + first.length + second.length := by omega
    have hat : 0 = b.head + (b.size + first.length) -
        (writeBlock b.buffer b.tail first).length := by omega
    rw [hbuffer, hsum, hat, window_writeBlock_wrapped (by omega) (by omega) (by omega),
      hblocks, List.append_assoc, List.take_append_drop]
  all_goals omega

theorem append_ok {b : BufferStatic C} (h : Ring b) {data : List UInt8}
    (hroom : b.size + data.length ≤ C) (hfull : b.size < C) :
    Appended b data (b.append data) := by
  have hplaced := h.placed
  unfold BufferStatic.append
  simp only
  rw [if_neg (by omega), if_neg (by omega)]
  split
  next hlinear =>
    have htail : b.tail = b.head + b.size := by omega
    split
    next hfits => exact appended_block h hroom (Or.inl ⟨htail, hfits⟩)
    next hover =>
      rw [if_pos (by omega)]
      exact appended_split h hroom htail (by omega)
  next hwrapped =>
    rw [if_pos (by omega)]
    exact appended_block h hroom (Or.inr (by omega))

/-! ### Reading -/

theorem getDataFrom_fails {b : BufferStatic C} (out : Bool) {len : Nat}
    {peek moveHeadOnly : Bool} (hmode : (peek && moveHeadOnly) = false)
    (hlen : b.size = 0 ∨ b.size < len) :
    b.getDataFrom out len peek moveHeadOnly =
      b.fails (if b.size = 0 then .noData else .invalidLen) := by
  have hvalid : b.validateBuffer len = if b.size = 0 then .noData else .invalidLen := by
    unfold BufferStatic.validateBuffer
    split
    · rfl
    · rw [if_pos (by omega)]
  have hfails : b.validateBuffer len ≠ .ok := by
    rw [hvalid]
    split <;> simp
  simp only [BufferStatic.getDataFrom, hmode, Bool.false_eq_true, if_false]
  rw [if_pos hfails, hvalid]

/-- What an accepted read leaves: `peek` keeps the buffer, `moveHeadOnly` copies
nothing. -/
structure Taken (b : BufferStatic C) (len : Nat) (peek moveHeadOnly : Bool)
    (outcome : Outcome C) : Prop where
  result : outcome.result = some .ok
  out : moveHeadOnly = false → outcome.out = (contents b).take len
  next_peek : peek = true → outcome.next = b
  ring : Ring outcome.next
  contents : peek = false → contents outcome.next = (contents b).drop len

theorem taken_done {b : BufferStatic C} (h : Ring b) {len head : Nat} {peek moveHeadOnly : Bool}
    {memory : Memory} (hlen : len ≤ b.size)
    (hbuffer : memory.buffer = b.buffer)
    (hout : moveHeadOnly = false → memory.out = (contents b).take len)
    (hhead : b.head + len ≤ C ∧ head = b.head + len ∨
      C < b.head + len ∧ head + C = b.head + len) :
    Taken b len peek moveHeadOnly
      (BufferStatic.done (some .ok) memory (if peek then b.size else b.size - len)
        (if peek then b.head else head) b.tail) := by
  have hlength := h.length_buffer
  have hle := h.head_le
  have hsize := h.size_le
  have htail := h.tail_le
  have hplaced := h.placed
  have hhome := h.home
  cases peek with
  | true =>
      have hnext : (BufferStatic.done (some .ok) memory b.size b.head b.tail : Outcome C).next =
          b := by
        simp [BufferStatic.done, hbuffer]
      exact ⟨rfl, hout, fun _ => hnext, by simpa [hnext] using h, by simp⟩
  | false =>
      refine ⟨rfl, hout, by simp, ?_, fun _ => ?_⟩
      · refine ⟨(congrArg List.length hbuffer).trans hlength, ?_, ?_, htail, ?_, ?_⟩
        all_goals simp only [BufferStatic.done, Bool.false_eq_true, if_false]
        all_goals omega
      · simp only [ByteQueue.contents, BufferStatic.done, hbuffer, Bool.false_eq_true, if_false]
        rcases hhead with ⟨hfits, hhead⟩ | ⟨hover, hhead⟩
        · rw [hhead, drop_window (by omega)]
        · have hat : head = b.head + len - b.buffer.length := by omega
          rw [hat, drop_window_wrapped (by omega) (by omega) (by omega) hlen]

theorem getDataFrom_ok {b : BufferStatic C} (h : Ring b) {out : Bool} {len : Nat}
    {peek moveHeadOnly : Bool} (hmode : (peek && moveHeadOnly) = false)
    (hout : moveHeadOnly = false → out = true) (hsome : 0 < b.size) (hlen : len ≤ b.size) :
    Taken b len peek moveHeadOnly (b.getDataFrom out len peek moveHeadOnly) := by
  have hlength := h.length_buffer
  have hle := h.head_le
  have htail := h.tail_le
  have hplaced := h.placed
  have hsize := h.size_le
  have hvalid : b.validateBuffer len = .ok := by
    rw [BufferStatic.validateBuffer, if_neg (by omega), if_neg (by omega)]
  have htake : (contents b).take len = window b.buffer b.head len := take_window hlen
  simp only [BufferStatic.getDataFrom, hmode, hvalid, ne_eq, not_true_eq_false, if_false,
    Bool.false_eq_true]
  split
  next hlinear =>
    rw [if_pos (by omega)]
    apply taken_done h hlen
    · split <;> simp [Memory.memcpy_buffer]
    · intro hmove
      simp only [hmove, hout hmove, Bool.not_false, Bool.and_self, if_true, Memory.memcpy_out,
        Memory.cells]
      rw [htake, window_eq_readBlock (by omega)]
      simp [writeBlock]
    · exact Or.inl ⟨by omega, rfl⟩
  next hwrapped =>
    split
    next hfits =>
      apply taken_done h hlen
      · split <;> simp [Memory.memcpy_buffer]
      · intro hmove
        simp only [hmove, Bool.not_false, if_true, Memory.memcpy_out, Memory.cells]
        rw [htake, window_eq_readBlock (by omega)]
        simp [writeBlock]
      · exact Or.inl ⟨hfits, rfl⟩
    next hover =>
      rw [if_pos (by omega)]
      apply taken_done h hlen
      · split <;> simp [Memory.memcpy_buffer]
      · intro hmove
        have hfirst : (readBlock b.buffer b.head (C - b.head)).length = C - b.head :=
          length_readBlock (by omega)
        simp only [hmove, Bool.not_false, if_true, Memory.memcpy_out, Memory.cells]
        have hout : writeBlock ([] : List UInt8) 0 (readBlock b.buffer b.head (C - b.head)) =
            readBlock b.buffer b.head (C - b.head) :=
          writeBlock_length [] _
        rw [htake, window_eq_readBlock_append (by omega), hlength, hout]
        nth_rewrite 2 [← hfirst]
        simp [writeBlock_length, Memory.memcpy_buffer]
      · exact Or.inr ⟨by omega, by omega⟩

/-! ### Moving the data -/

theorem getLinearAppendPtr_ring {b : BufferStatic C} (h : Ring b) :
    Ring b.getLinearAppendPtr.2 := by
  have htail := h.tail_le
  have hplaced := h.placed
  have hsize := h.size_le
  have hhead := h.head_le
  have hhome := h.home
  simp only [BufferStatic.getLinearAppendPtr]
  split
  · refine ⟨h.length_buffer, hsize, hhead, Nat.zero_le _, ?_, ?_⟩
    all_goals simp only
    all_goals omega
  · exact h

theorem getLinearAppendPtr_contents (b : BufferStatic C) :
    contents b.getLinearAppendPtr.2 = contents b := by
  simp only [BufferStatic.getLinearAppendPtr]
  split <;> rfl

/-- What `normilize` leaves: the same queue from the first cell on. -/
structure Normal (b : BufferStatic C) (outcome : Outcome C) : Prop where
  ring : Ring outcome.next
  contents : contents outcome.next = contents b
  head : outcome.next.head = 0
  tail : outcome.next.tail = b.size

theorem normal_done {b : BufferStatic C} (h : Ring b) {memory : Memory}
    (hlength : memory.buffer.length = C)
    (hcontents : readBlock memory.buffer 0 b.size = contents b) :
    Normal b (BufferStatic.done none memory b.size 0 b.size) where
  ring := ⟨hlength, h.size_le, Nat.zero_le _, h.size_le, Or.inl (Nat.zero_add _).symm,
    fun _ => rfl⟩
  contents := by
    have hsize := h.size_le
    rw [← hcontents, ← window_eq_readBlock (by omega)]
    rfl
  head := rfl
  tail := rfl

theorem normilize_normal {b : BufferStatic C} (h : Ring b) : Normal b b.normilize := by
  have hlength := h.length_buffer
  have htail := h.tail_le
  have hplaced := h.placed
  have hsize := h.size_le
  have hle := h.head_le
  have hcontents := h.length_contents
  simp only [BufferStatic.normilize]
  split
  next hhome => exact ⟨h, rfl, hhome, h.home hhome⟩
  next hhead =>
  split
  next hempty =>
    apply normal_done h hlength
    simp [contents, hempty]
  next hsome =>
  split
  next hlinear =>
    have hblock : readBlock b.buffer b.head b.size = contents b :=
      (window_eq_readBlock (by omega)).symm
    have hbuffer : (({ buffer := b.buffer } : Memory).memcpy
        ⟨.buffer, 0, .buffer, b.head, b.size⟩).buffer = writeBlock b.buffer 0 (contents b) := by
      simp only [Memory.memcpy_buffer, Memory.cells, if_true, hblock]
    apply normal_done h
    · rw [hbuffer, length_writeBlock (by omega), hlength]
    · rw [hbuffer, ← hcontents]
      exact readBlock_writeBlock (by omega)
  next hwrapped =>
    let first := readBlock b.buffer b.head (C - b.head)
    let second := readBlock b.buffer 0 (b.size - (C - b.head))
    have hfirst : first.length = C - b.head := length_readBlock (by omega)
    have hsecond : second.length = b.size - (C - b.head) := length_readBlock (by omega)
    have hblocks : contents b = first ++ second := by
      rw [contents, window_eq_readBlock_append (by omega), hlength]
    have hbuffer : (((({ buffer := b.buffer } : Memory).memcpy
        ⟨.temp, 0, .buffer, 0, b.size - (C - b.head)⟩).memcpy
        ⟨.buffer, 0, .buffer, b.head, C - b.head⟩).memcpy
        ⟨.buffer, C - b.head, .temp, 0, b.size - (C - b.head)⟩).buffer =
          writeBlock (writeBlock b.buffer 0 first) first.length second := by
      have htemp : readBlock (writeBlock ([] : List UInt8) 0 second) 0
          (b.size - (C - b.head)) = second := by
        simp [writeBlock, readBlock_start, ← hsecond]
      simp [Memory.memcpy_buffer, Memory.memcpy_temp, Memory.cells, hfirst, htemp, first, second]
    have hwritten : (writeBlock b.buffer 0 first).length = C := by
      rw [length_writeBlock (by omega), hlength]
    apply normal_done h
    · rw [hbuffer, length_writeBlock (by omega), hwritten]
    · have hstart : window (writeBlock b.buffer 0 first) 0 first.length = first := by
        simpa using window_writeBlock (show 0 + 0 + first.length ≤ b.buffer.length by omega)
      have hboth := window_writeBlock
        (show 0 + first.length + second.length ≤ (writeBlock b.buffer 0 first).length by omega)
      rw [Nat.zero_add, hstart] at hboth
      have hsum : b.size = first.length + second.length := by omega
      rw [hblocks, hbuffer, ← window_eq_readBlock (by rw [length_writeBlock] <;> omega), hsum]
      exact hboth

theorem clear_ring {b : BufferStatic C} (h : Ring b) : Ring b.clear where
  length_buffer := h.length_buffer
  size_le := Nat.zero_le _
  head_le := Nat.zero_le _
  tail_le := Nat.zero_le _
  placed := Or.inl rfl
  home := fun _ => rfl

/-! ### The queue -/

/-- What a call does to a queue that holds `q` before it and `q'` after it, as
seen through the buffer `b`. -/
def FifoStep (b : BufferStatic C) (q : List UInt8) (call : Call) (outcome : Outcome C)
    (q' : List UInt8) : Prop :=
  match call with
  | .append data =>
      (data ≠ [] → (outcome.result = some .ok ↔ data.length ≤ C - q.length)) ∧
        (outcome.result = some .ok → q' = q ++ data) ∧
        (outcome.result ≠ some .ok → q' = q ∧ outcome.next = b ∧
          outcome.result = some (if C < data.length then .invalidLen else .bufferFull))
  | .getData len =>
      (0 < len → (outcome.result = some .ok ↔ len ≤ q.length)) ∧
        (outcome.result = some .ok → outcome.out = q.take len ∧ q' = q.drop len) ∧
        (outcome.result ≠ some .ok → q' = q ∧ outcome.next = b ∧
          outcome.result = some (if q = [] then .noData else .invalidLen))
  | .peekData len =>
      (0 < len → (outcome.result = some .ok ↔ len ≤ q.length)) ∧
        (outcome.result = some .ok → outcome.out = q.take len) ∧
        (outcome.result ≠ some .ok →
          outcome.result = some (if q = [] then .noData else .invalidLen)) ∧
        q' = q ∧ outcome.next = b
  | .seekData len =>
      (0 < len → (outcome.result = some .ok ↔ len ≤ q.length)) ∧
        (outcome.result = some .ok → q' = q.drop len) ∧
        (outcome.result ≠ some .ok → q' = q ∧ outcome.next = b ∧
          outcome.result = some (if q = [] then .noData else .invalidLen))
  | .normilize => q' = q ∧ outcome.next.head = 0 ∧ outcome.next.tail = q.length
  | .clear => q' = []
  | .getLinearAppendPtr => q' = q

theorem Ring.contents_eq_nil_iff {b : BufferStatic C} (h : Ring b) :
    contents b = [] ↔ b.size = 0 := by
  rw [← h.length_contents, List.length_eq_zero_iff]

theorem append_step {b : BufferStatic C} (h : Ring b) (data : List UInt8) :
    Ring (b.append data).next ∧
      FifoStep b (contents b) (.append data) (b.append data) (contents (b.append data).next) := by
  have hlength := h.length_contents
  have hsize := h.size_le
  by_cases hroom : b.size < C ∧ b.size + data.length ≤ C
  · obtain ⟨hresult, hring, hcontents⟩ := append_ok h hroom.2 hroom.1
    refine ⟨hring, fun _ => ?_, fun _ => hcontents, fun hfails => absurd hresult hfails⟩
    simp only [hresult, true_iff]
    omega
  · have hfails := append_fails h data (by omega)
    have hok : (b.append data).result ≠ some .ok := by
      rw [hfails]
      simp only [BufferStatic.fails, ne_eq, Option.some.injEq]
      split <;> simp
    refine ⟨by rw [hfails]; exact h, fun hdata => ?_, fun hresult => absurd hresult hok,
      fun _ => by rw [hfails]; exact ⟨rfl, rfl, rfl⟩⟩
    have hpos := List.length_pos_iff.mpr hdata
    simp only [hok, false_iff]
    omega

/-- The answer of the three reading calls and the queue they leave. -/
structure Reads (b : BufferStatic C) (len : Nat) (peek moveHeadOnly : Bool)
    (outcome : Outcome C) : Prop where
  ring : Ring outcome.next
  ok_iff : 0 < len → (outcome.result = some .ok ↔ len ≤ (contents b).length)
  out : outcome.result = some .ok → moveHeadOnly = false → outcome.out = (contents b).take len
  drop : outcome.result = some .ok → peek = false →
    contents outcome.next = (contents b).drop len
  kept : outcome.result ≠ some .ok ∨ peek = true → outcome.next = b
  error : outcome.result ≠ some .ok →
    outcome.result = some (if contents b = [] then .noData else .invalidLen)

theorem getDataFrom_reads {b : BufferStatic C} (h : Ring b) (out : Bool) (len : Nat)
    {peek moveHeadOnly : Bool} (hmode : (peek && moveHeadOnly) = false)
    (hout : moveHeadOnly = false → out = true) :
    Reads b len peek moveHeadOnly (b.getDataFrom out len peek moveHeadOnly) := by
  have hlength := h.length_contents
  by_cases hlen : 0 < b.size ∧ len ≤ b.size
  · have hok := getDataFrom_ok h hmode hout hlen.1 hlen.2
    exact
      { ring := hok.ring
        ok_iff := fun _ => by simp only [hok.result, true_iff]; omega
        out := fun _ => hok.out
        drop := fun _ => hok.contents
        kept := fun hkept => hok.next_peek (hkept.resolve_left fun hne => hne hok.result)
        error := fun hne => absurd hok.result hne }
  · have hfails := getDataFrom_fails out hmode (show b.size = 0 ∨ b.size < len by omega)
    have hne : (b.getDataFrom out len peek moveHeadOnly).result ≠ some .ok := by
      rw [hfails]
      simp only [BufferStatic.fails, ne_eq, Option.some.injEq]
      split <;> simp
    exact
      { ring := by rw [hfails]; exact h
        ok_iff := fun _ => by simp only [hne, false_iff]; omega
        out := fun hresult => absurd hresult hne
        drop := fun hresult => absurd hresult hne
        kept := fun _ => by rw [hfails]; rfl
        error := fun _ => by rw [hfails]; simp only [h.contents_eq_nil_iff, BufferStatic.fails] }

theorem call_step {b : BufferStatic C} (h : Ring b) (call : Call) :
    Ring (b.call call).next ∧
      FifoStep b (contents b) call (b.call call) (contents (b.call call).next) := by
  cases call with
  | append data => exact append_step h data
  | getData len =>
      have hreads := getDataFrom_reads h true len
        (show (false && false) = false from rfl) fun _ => rfl
      refine ⟨hreads.ring, hreads.ok_iff,
        fun hok => ⟨hreads.out hok rfl, hreads.drop hok rfl⟩, fun hne => ?_⟩
      exact ⟨congrArg contents (hreads.kept (Or.inl hne)), hreads.kept (Or.inl hne),
        hreads.error hne⟩
  | peekData len =>
      have hreads := getDataFrom_reads h true len
        (show (true && false) = false from rfl) fun _ => rfl
      have hkept := hreads.kept (Or.inr rfl)
      exact ⟨hreads.ring, hreads.ok_iff, fun hok => hreads.out hok rfl, hreads.error,
        congrArg contents hkept, hkept⟩
  | seekData len =>
      have hreads := getDataFrom_reads h false len
        (show (false && true) = false from rfl) (by simp)
      refine ⟨hreads.ring, hreads.ok_iff, fun hok => hreads.drop hok rfl, fun hne => ?_⟩
      exact ⟨congrArg contents (hreads.kept (Or.inl hne)), hreads.kept (Or.inl hne),
        hreads.error hne⟩
  | normilize =>
      have hnormal := normilize_normal h
      exact ⟨hnormal.ring, hnormal.contents, hnormal.head,
        hnormal.tail.trans h.length_contents.symm⟩
  | clear =>
      refine ⟨clear_ring h, ?_⟩
      simp [FifoStep, BufferStatic.call, contents, BufferStatic.clear]
  | getLinearAppendPtr =>
      exact ⟨getLinearAppendPtr_ring h, getLinearAppendPtr_contents b⟩

theorem run_ring (calls : List Call) : Ring (run C calls) := by
  induction calls using List.reverseRecOn with
  | nil => exact ring_empty
  | append_singleton calls call ih =>
      rw [run_snoc]
      exact (call_step ih call).1

/-- Over every sequence of calls on the empty buffer there is one queue that
every call works on as a bounded queue does. -/
theorem boundedFifo :
    ∃ queue : List Call → List UInt8, queue [] = [] ∧
      ∀ calls, (queue calls).length = (run C calls).getSize ∧ (queue calls).length ≤ C ∧
        ∀ call, FifoStep (run C calls) (queue calls) call ((run C calls).call call)
          (queue (calls ++ [call])) := by
  refine ⟨fun calls => contents (run C calls), contents_empty, fun calls => ?_⟩
  have hring := run_ring (C := C) calls
  refine ⟨hring.length_contents, ?_, fun call => ?_⟩
  · rw [hring.length_contents]
    exact hring.size_le
  · simp only [run_snoc]
    exact (call_step hring call).2

end TwitchChatWorker.ByteQueue
