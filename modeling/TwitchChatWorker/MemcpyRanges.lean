import TwitchChatWorker.ByteQueue

/-!
The ranges of every `memcpy` in the ring buffer.  The arrays of the caller and
the temporary of `normilize` are disjoint from the internal one, so two ranges
can only overlap inside the internal one.
-/

namespace TwitchChatWorker.MemcpyRanges

open TwitchChatWorker.ByteBuffer
open TwitchChatWorker.ByteQueue

variable {C : Nat}

/-- The copy stays in the buffer, and its ranges do not overlap. -/
structure Legal (C : Nat) (copy : Memcpy) : Prop where
  dst_inside : copy.dst = .buffer → copy.dstAt + copy.len ≤ C
  src_inside : copy.src = .buffer → copy.srcAt + copy.len ≤ C
  apart : copy.dst = copy.src →
    copy.dstAt + copy.len ≤ copy.srcAt ∨ copy.srcAt + copy.len ≤ copy.dstAt

/-- The block that starts at the head and ends with the data or the buffer is no
longer than the space before it. -/
def MovesApart (b : BufferStatic C) : Prop := b.head = 0 ∨ min b.size (C - b.head) ≤ b.head

instance : DecidablePred (MovesApart (C := C)) := fun _ => inferInstanceAs (Decidable (_ ∨ _))

theorem legal_of_regions_ne {copy : Memcpy} (hne : copy.dst ≠ copy.src)
    (hdst : copy.dst = .buffer → copy.dstAt + copy.len ≤ C)
    (hsrc : copy.src = .buffer → copy.srcAt + copy.len ≤ C) : Legal C copy :=
  ⟨hdst, hsrc, fun heq => absurd heq hne⟩

theorem legal_into {at_ from_ len : Nat} (hinside : at_ + len ≤ C) :
    Legal C ⟨.buffer, at_, .data, from_, len⟩ :=
  legal_of_regions_ne (by simp) (fun _ => hinside) (by simp)

theorem legal_out {at_ from_ len : Nat} (hinside : from_ + len ≤ C) :
    Legal C ⟨.out, at_, .buffer, from_, len⟩ :=
  legal_of_regions_ne (by simp) (by simp) fun _ => hinside

/-- A block moved to the beginning of the buffer must not reach its old place. -/
theorem legal_move_iff {from_ len : Nat} (hfrom : 0 < from_) (hinside : from_ + len ≤ C) :
    Legal C ⟨.buffer, 0, .buffer, from_, len⟩ ↔ len ≤ from_ := by
  constructor
  · rintro ⟨-, -, hapart⟩
    have hranges := hapart rfl
    simp only at hranges
    omega
  · intro hle
    refine ⟨fun _ => ?_, fun _ => hinside, fun _ => Or.inl ?_⟩
    all_goals simp only
    all_goals omega

def AllLegal (C : Nat) (copies : List Memcpy) : Prop := ∀ copy ∈ copies, Legal C copy

@[simp] theorem allLegal_nil : AllLegal C [] := by simp [AllLegal]

theorem allLegal_memcpy {memory : Memory} {copy : Memcpy} :
    AllLegal C (memory.memcpy copy).copies ↔ AllLegal C memory.copies ∧ Legal C copy := by
  simp [AllLegal, Memory.memcpy_copies, or_imp, forall_and]

theorem allLegal_append {b : BufferStatic C} (h : Ring b) (data : List UInt8) :
    AllLegal C (b.append data).copies := by
  have hhead := h.head_le
  have htail := h.tail_le
  unfold BufferStatic.append
  simp only
  split
  · exact allLegal_nil
  next hlen =>
  split
  · exact allLegal_nil
  next hfull =>
  split
  next hlinear =>
    split
    next hfits => exact allLegal_memcpy.mpr ⟨allLegal_nil, legal_into hfits⟩
    next hover =>
      split
      next hroom =>
        refine allLegal_memcpy.mpr ⟨?_, legal_into (by omega)⟩
        split
        · exact allLegal_memcpy.mpr ⟨allLegal_nil, legal_into (by omega)⟩
        · exact allLegal_nil
      next => exact allLegal_nil
  next haround =>
    split
    next hroom => exact allLegal_memcpy.mpr ⟨allLegal_nil, legal_into (by omega)⟩
    next => exact allLegal_nil

theorem allLegal_getDataFrom {b : BufferStatic C} (h : Ring b) (out : Bool) (len : Nat)
    (peek moveHeadOnly : Bool) : AllLegal C (b.getDataFrom out len peek moveHeadOnly).copies := by
  have hhead := h.head_le
  have htail := h.tail_le
  have hsize := h.size_le
  unfold BufferStatic.getDataFrom
  simp only
  split
  · exact allLegal_nil
  split
  · exact allLegal_nil
  next hvalid =>
  have hlen : len ≤ b.size := by
    by_contra hshort
    apply hvalid
    unfold BufferStatic.validateBuffer
    split
    · simp
    · rw [if_pos (by omega)]
      simp
  split
  next hlinear =>
    split
    next hfits =>
      simp only [BufferStatic.done]
      split
      · exact allLegal_memcpy.mpr ⟨allLegal_nil, legal_out (by omega)⟩
      · exact allLegal_nil
    next => exact allLegal_nil
  next haround =>
    split
    next hfits =>
      simp only [BufferStatic.done]
      split
      · exact allLegal_memcpy.mpr ⟨allLegal_nil, legal_out hfits⟩
      · exact allLegal_nil
    next hover =>
      split
      next hroom =>
        simp only [BufferStatic.done]
        split
        · exact allLegal_memcpy.mpr
            ⟨allLegal_memcpy.mpr ⟨allLegal_nil, legal_out (by omega)⟩, legal_out (by omega)⟩
        · exact allLegal_nil
      next => exact allLegal_nil

theorem allLegal_normilize_iff {b : BufferStatic C} (h : Ring b) :
    AllLegal C b.normilize.copies ↔ MovesApart b := by
  have hhead := h.head_le
  have htail := h.tail_le
  have hsize := h.size_le
  have hplaced := h.placed
  unfold BufferStatic.normilize MovesApart
  simp only
  split
  next hhome => simp [hhome]
  next hhome =>
  split
  next hempty => simp [hempty, BufferStatic.done]
  next hsome =>
  split
  next hlinear =>
    have hmin : min b.size (C - b.head) = b.size := by omega
    simp only [BufferStatic.done, allLegal_memcpy, allLegal_nil, true_and, hhome, false_or, hmin]
    exact legal_move_iff (by omega) (by omega)
  next haround =>
    have hmin : min b.size (C - b.head) = C - b.head := by omega
    have htemp : Legal C ⟨.temp, 0, .buffer, 0, b.size - (C - b.head)⟩ :=
      legal_of_regions_ne (by simp) (by simp) fun _ => by simp only; omega
    have hback : Legal C ⟨.buffer, C - b.head, .temp, 0, b.size - (C - b.head)⟩ :=
      legal_of_regions_ne (by simp) (fun _ => by simp only; omega) (by simp)
    simp only [BufferStatic.done, allLegal_memcpy, allLegal_nil, true_and, hhome, false_or, hmin,
      htemp, hback, and_true]
    exact legal_move_iff (by omega) (by omega)

theorem allLegal_call_iff {b : BufferStatic C} (h : Ring b) (call : Call) :
    AllLegal C (b.call call).copies ↔ (call = .normilize → MovesApart b) := by
  cases call with
  | append data => exact iff_of_true (allLegal_append h data) (by simp)
  | getData len => exact iff_of_true (allLegal_getDataFrom h true len false false) (by simp)
  | peekData len => exact iff_of_true (allLegal_getDataFrom h true len true false) (by simp)
  | seekData len => exact iff_of_true (allLegal_getDataFrom h false len false true) (by simp)
  | normilize =>
      rw [BufferStatic.call, allLegal_normilize_iff h]
      simp
  | clear => simp [BufferStatic.call]
  | getLinearAppendPtr => simp [BufferStatic.call]

/-- In a sequence of calls every `memcpy` is legal exactly when every `normilize`
has enough space before the block it moves. -/
theorem allLegal_iff (calls : List Call) :
    (∀ past call, past ++ [call] <+: calls → AllLegal C ((run C past).call call).copies) ↔
      ∀ past, past ++ [.normilize] <+: calls → MovesApart (run C past) := by
  constructor
  · intro hlegal past hpast
    exact (allLegal_call_iff (run_ring past) .normilize).mp (hlegal past _ hpast) rfl
  · intro hapart past call hpast
    refine (allLegal_call_iff (run_ring past) call).mpr ?_
    rintro rfl
    exact hapart past hpast

/-- Five bytes at position two are moved to the beginning. -/
theorem not_allLegal_overlap :
    ¬∀ (C : Nat) (calls past : List Call) (call : Call), 0 < C → C < 1024 * 100 →
      past ++ [call] <+: calls → AllLegal C ((run C past).call call).copies := by
  intro hall
  have hlegal := hall 16 _ [.append [1, 2, 3, 4, 5, 6, 7], .getData 2] .normilize (by decide)
    (by decide) (List.prefix_refl _)
  have hapart := (hlegal ⟨.buffer, 0, .buffer, 2, 5⟩ (by decide)).apart rfl
  exact absurd hapart (by decide)

end TwitchChatWorker.MemcpyRanges
