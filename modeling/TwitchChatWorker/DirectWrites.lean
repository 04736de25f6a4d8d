import TwitchChatWorker.ByteQueue
import TwitchChatWorker.Lib.Runs

/-!
Writing into the ring buffer without `append`: the caller asks for the free
linear space, writes at the pointer and moves the tail with `expandSize`.  A
buffer whose head and tail meet is empty or full, and only the size tells which.
-/

namespace TwitchChatWorker.DirectWrites

open TwitchChatWorker.ByteBuffer
open TwitchChatWorker.ByteQueue
open TwitchChatWorker.Lib.CircularStore
open TwitchChatWorker.Lib.Runs

variable {C : Nat}

/-- The caller copies the data to the pointer and expands the size. -/
def directWrite (b : BufferStatic C) (data : List UInt8) : Outcome C :=
  let ptr := b.getLinearAppendPtr
  let memory := ({ buffer := ptr.2.buffer, data } : Memory).memcpy
    ⟨.buffer, ptr.1, .data, 0, data.length⟩
  let expanded := BufferStatic.expandSize { ptr.2 with buffer := memory.buffer } data.length
  { result := some expanded.1
    copies := memory.copies
    next := expanded.2 }

/-- Calls and writes through the pointer that `getLinearAppendPtr` returned. -/
inductive Access where
  | call (call : Call)
  | direct (data : List UInt8)

/-- A direct write takes no more bytes than the free linear space. -/
def access (b : BufferStatic C) : Access → Option (BufferStatic C)
  | .call call => some (b.call call).next
  | .direct data =>
      if data.length ≤ b.getLinearFreeSpace then some (directWrite b data).next else none

/-- Where the i-th stored byte is. -/
def storedAt (b : BufferStatic C) (i : Nat) : Nat :=
  if b.head + i < C then b.head + i else b.head + i - C

/-- A direct write extends the data and does no harm to it. -/
structure WritesSafe (b : BufferStatic C) : Prop where
  same : b.getLinearAppendPtr.2.getLinearFreeSpace = b.getLinearFreeSpace
  le_total : b.getLinearFreeSpace ≤ b.getTotalFreeSpace
  inside : b.getLinearAppendPtr.1 + b.getLinearFreeSpace ≤ C
  free : ∀ i < b.size, storedAt b i < b.getLinearAppendPtr.1 ∨
    b.getLinearAppendPtr.1 + b.getLinearFreeSpace ≤ storedAt b i
  pos : 0 < b.getTotalFreeSpace → 0 < b.getLinearFreeSpace
  expand : ∀ data : List UInt8, data.length ≤ b.getLinearFreeSpace →
    (directWrite b data).result = some .ok ∧
      contents (directWrite b data).next = contents b ++ data

/-- The buffer is full and its data goes around the end. -/
def FullAround (b : BufferStatic C) : Prop := b.size = C ∧ b.head = b.tail ∧ b.tail < C

instance : DecidablePred (FullAround (C := C)) := fun _ => inferInstanceAs (Decidable (_ ∧ _))

theorem getLinearAppendPtr_fst (b : BufferStatic C) :
    b.getLinearAppendPtr.1 = if b.tail = C ∧ C ≠ b.size then 0 else b.tail := by
  simp only [BufferStatic.getLinearAppendPtr]
  split_ifs <;> rfl

theorem getLinearAppendPtr_snd (b : BufferStatic C) :
    b.getLinearAppendPtr.2 = { b with tail := b.getLinearAppendPtr.1 } := by
  simp only [BufferStatic.getLinearAppendPtr]
  split_ifs <;> rfl

theorem getLinearFreeSpace_getLinearAppendPtr {b : BufferStatic C} (h : Ring b) :
    b.getLinearAppendPtr.2.getLinearFreeSpace = b.getLinearFreeSpace := by
  have hsize := h.size_le
  have hhead := h.head_le
  have hplaced := h.placed
  have hhome := h.home
  rw [getLinearAppendPtr_snd, getLinearAppendPtr_fst]
  simp only [BufferStatic.getLinearFreeSpace, BufferStatic.getTotalFreeSpace]
  split_ifs <;> omega

theorem getLinearAppendPtr_add_le {b : BufferStatic C} (h : Ring b) :
    b.getLinearAppendPtr.1 + b.getLinearFreeSpace ≤ C := by
  have hhead := h.head_le
  have htail := h.tail_le
  rw [getLinearAppendPtr_fst]
  simp only [BufferStatic.getLinearFreeSpace, BufferStatic.getTotalFreeSpace]
  split_ifs <;> omega

theorem getLinearFreeSpace_le_iff {b : BufferStatic C} (h : Ring b) :
    b.getLinearFreeSpace ≤ b.getTotalFreeSpace ↔ ¬FullAround b := by
  have hsize := h.size_le
  have htail := h.tail_le
  have hplaced := h.placed
  simp only [BufferStatic.getLinearFreeSpace, BufferStatic.getTotalFreeSpace, FullAround]
  split_ifs <;> omega

theorem storedAt_outside {b : BufferStatic C} (h : Ring b) (hfull : ¬FullAround b) {i : Nat}
    (hi : i < b.size) : storedAt b i < b.getLinearAppendPtr.1 ∨
      b.getLinearAppendPtr.1 + b.getLinearFreeSpace ≤ storedAt b i := by
  have hsize := h.size_le
  have hhead := h.head_le
  have htail := h.tail_le
  have hplaced := h.placed
  have hhome := h.home
  rw [getLinearAppendPtr_fst]
  simp only [FullAround] at hfull
  simp only [BufferStatic.getLinearFreeSpace, BufferStatic.getTotalFreeSpace, storedAt]
  split_ifs <;> omega

theorem getLinearFreeSpace_pos {b : BufferStatic C} (h : Ring b)
    (hroom : 0 < b.getTotalFreeSpace) : 0 < b.getLinearFreeSpace := by
  have htail := h.tail_le
  simp only [BufferStatic.getLinearFreeSpace, BufferStatic.getTotalFreeSpace] at hroom ⊢
  split_ifs <;> omega

theorem directWrite_appended (hC : C < 1024 * 100) {b : BufferStatic C} (h : Ring b)
    (hfull : ¬FullAround b) {data : List UInt8} (hdata : data.length ≤ b.getLinearFreeSpace) :
    Appended b data (directWrite b data) := by
  obtain ⟨moved, hmoved⟩ : ∃ moved, moved = b.getLinearAppendPtr.2 := ⟨_, rfl⟩
  have hat : moved.tail = b.getLinearAppendPtr.1 := by rw [hmoved, getLinearAppendPtr_snd]
  have hsize : moved.size = b.size := by rw [hmoved, getLinearAppendPtr_snd]
  have hring : Ring moved := hmoved ▸ getLinearAppendPtr_ring h
  have hcontents : contents moved = contents b := hmoved ▸ getLinearAppendPtr_contents b
  have hplaced := hring.placed
  have hinside := getLinearAppendPtr_add_le h
  have hroom : moved.size + data.length ≤ C := by
    have hle := (getLinearFreeSpace_le_iff h).mpr hfull
    simp only [BufferStatic.getTotalFreeSpace] at hle
    have hsize' := h.size_le
    omega
  have heq : directWrite b data = BufferStatic.done (some .ok)
      (({ buffer := moved.buffer, data } : Memory).memcpy
        ⟨.buffer, moved.tail, .data, 0, data.length⟩)
      (moved.size + data.length) moved.head (moved.tail + data.length) := by
    have htail : moved.tail + data.length < 2 ^ 32 := by omega
    have hsum : moved.size + data.length < 2 ^ 32 := by omega
    simp only [directWrite, ← hmoved, ← hat, BufferStatic.expandSize, Nat.mod_eq_of_lt htail,
      Nat.mod_eq_of_lt hsum, if_neg (Nat.not_lt.mpr hroom)]
    rfl
  have happended := appended_block hring hroom (by omega)
  rw [heq]
  exact ⟨happended.result, happended.ring, hcontents ▸ happended.contents⟩

/-- A full buffer does not grow, but the bytes are written into it. -/
theorem directWrite_next_of_fullAround (hC : C < 1024 * 100) {b : BufferStatic C}
    (hfull : FullAround b) {data : List UInt8} (hdata : data.length ≤ b.getLinearFreeSpace) :
    (directWrite b data).next = { b with buffer := writeBlock b.buffer b.tail data } := by
  obtain ⟨hsize, hmet, htail⟩ := hfull
  have hptr : b.getLinearAppendPtr = (b.tail, b) := by
    simp [BufferStatic.getLinearAppendPtr, hsize]
  have hwritten : (({ buffer := b.buffer, data } : Memory).memcpy
      ⟨.buffer, b.tail, .data, 0, data.length⟩).buffer = writeBlock b.buffer b.tail data := by
    simp [Memory.memcpy_buffer, Memory.cells, readBlock_start]
  have hshort : data.length ≤ C - b.tail := by
    simpa [BufferStatic.getLinearFreeSpace, Nat.ne_of_lt htail, hmet] using hdata
  simp only [directWrite, hptr, hwritten, BufferStatic.expandSize]
  rw [Nat.mod_eq_of_lt (show b.size + data.length < 2 ^ 32 by omega),
    Nat.mod_eq_of_lt (show b.tail + data.length < 2 ^ 32 by omega)]
  split_ifs with hgrows
  · rfl
  · have hnone : data.length = 0 := by omega
    simp [hnone]

theorem access_ring (hC : C < 1024 * 100) {b b' : BufferStatic C} {a : Access} (h : Ring b)
    (haccess : access b a = some b') : Ring b' := by
  cases a with
  | call call => exact Option.some.inj haccess ▸ (call_step h call).1
  | direct data =>
      simp only [access] at haccess
      split_ifs at haccess with hdata
      obtain rfl := Option.some.inj haccess
      by_cases hfull : FullAround b
      · have hinside := getLinearAppendPtr_add_le h
        have hat : b.getLinearAppendPtr.1 = b.tail := by
          rw [getLinearAppendPtr_fst, if_neg (fun hend => Nat.ne_of_lt hfull.2.2 hend.1)]
        have hlength : (writeBlock b.buffer b.tail data).length = C := by
          rw [length_writeBlock (by rw [h.length_buffer]; omega), h.length_buffer]
        rw [directWrite_next_of_fullAround hC hfull hdata]
        exact ⟨hlength, h.size_le, h.head_le, h.tail_le, h.placed, h.home⟩
      · exact (directWrite_appended hC h hfull hdata).ring

/-- In every state that calls and direct writes reach, a direct write is safe
exactly when the buffer is not full with its data around the end. -/
theorem writesSafe_iff (hC : C < 1024 * 100) {tr : List (Transition (BufferStatic C) Access)}
    {b : BufferStatic C} (hrun : Run access .empty tr b) : WritesSafe b ↔ ¬FullAround b := by
  have hring : Ring b :=
    hrun.always ring_empty fun _ _ _ h haccess => access_ring hC h haccess
  constructor
  · intro hsafe
    exact (getLinearFreeSpace_le_iff hring).mp hsafe.le_total
  · intro hfull
    exact
      { same := getLinearFreeSpace_getLinearAppendPtr hring
        le_total := (getLinearFreeSpace_le_iff hring).mpr hfull
        inside := getLinearAppendPtr_add_le hring
        free := fun i hi => storedAt_outside hring hfull hi
        pos := getLinearFreeSpace_pos hring
        expand := fun data hdata =>
          have happended := directWrite_appended hC hring hfull hdata
          ⟨happended.result, happended.contents⟩ }

theorem writesSafe_iff_four :
    (exec access (.empty : BufferStatic 4)
      [.direct [1, 2, 3], .call (.getData 2), .direct [4], .call (.append [5])]).isSome ∧
    ∀ b ∈ exec access (.empty : BufferStatic 4)
      [.direct [1, 2, 3], .call (.getData 2), .direct [4], .call (.append [5])],
      WritesSafe b := by
  refine ⟨by decide, fun b hb => ?_⟩
  obtain rfl := Option.get_of_mem (by decide) hb
  exact (writesSafe_iff (by decide) (run_trace _ (by decide))).mpr (by decide)

/-- Two bytes, one read and one appended: the tail meets the head. -/
theorem not_writesSafe_fullAround :
    ¬∀ (C : Nat) (tr : List (Transition (BufferStatic C) Access)) (b : BufferStatic C),
      0 < C → C < 1024 * 100 → Run access .empty tr b → WritesSafe b := by
  intro hall
  have hsafe := hall 2 _ _ (by decide) (by decide) (run_trace
    [.call (.append [1, 2]), .call (.getData 1), .call (.append [3])] (by decide))
  exact absurd hsafe.le_total (by decide)

end TwitchChatWorker.DirectWrites
