import TwitchChatWorker.ByteQueue
import TwitchChatWorker.Lib.Runs

/-!
`expandSize` after any use of the ring buffer.  Its guard adds the length to the
size, as `unsigned int`s, and so looks at the free space on both sides of the
data; its update moves the tail in the linear space.
-/

namespace TwitchChatWorker.SizeExpansion

open TwitchChatWorker.ByteBuffer
open TwitchChatWorker.ByteQueue
open TwitchChatWorker.Lib.CircularStore
open TwitchChatWorker.Lib.Runs

variable {C : Nat}

/-- A call, or a write into the buffer with the announcement that follows it. -/
inductive Access where
  | call (call : Call)
  | write (data : List UInt8)
  | expandSize (len : UInt32)
  deriving DecidableEq

/-- Bytes that are written through the pointer to the tail stay in the buffer. -/
def access (b : BufferStatic C) : Access → Option (BufferStatic C)
  | .call call => some (b.call call).next
  | .write data =>
      if b.tail + data.length ≤ C then
        some { b with buffer := writeBlock b.buffer b.tail data }
      else none
  | .expandSize len => some (b.expandSize len.toNat).2

/-- `size` is what `head` and `tail` say, where they say it. -/
structure Represented (b : BufferStatic C) : Prop where
  tail_le : b.tail ≤ C
  size_le : b.size ≤ C
  linear : b.head < b.tail → b.size = b.tail - b.head
  around : b.tail < b.head → b.size = C - b.head + b.tail
  met : b.head = b.tail → b.size = 0 ∨ b.size = C

/-- A length that does not fit is rejected without a trace, and one that is taken
leaves a buffer. -/
structure ExpandsWell (b : BufferStatic C) (len : UInt32) : Prop where
  rejects : C < b.size + len.toNat → (b.expandSize len.toNat).1 = .invalidLen
  answers : (b.expandSize len.toNat).1 = .invalidLen ∧
      (b.expandSize len.toNat).2.size = b.size ∧ (b.expandSize len.toNat).2.head = b.head ∧
      (b.expandSize len.toNat).2.tail = b.tail ∨
    (b.expandSize len.toNat).1 = .ok ∧ Represented (b.expandSize len.toNat).2

/-- The sum does not wrap, and a length with room in total has room behind the
tail. -/
def Fits (b : BufferStatic C) (len : UInt32) : Prop :=
  b.size + len.toNat < 2 ^ 32 ∧ (C < b.size + len.toNat ∨ b.tail + len.toNat ≤ C)

instance (b : BufferStatic C) (len : UInt32) : Decidable (Fits b len) :=
  inferInstanceAs (Decidable (_ ∧ _))

/-- The condition on a step of a run. -/
def FitsAt (b : BufferStatic C) : Access → Prop
  | .expandSize len => Fits b len
  | _ => True

instance (b : BufferStatic C) : DecidablePred (FitsAt b)
  | .call _ => inferInstanceAs (Decidable True)
  | .write _ => inferInstanceAs (Decidable True)
  | .expandSize len => inferInstanceAs (Decidable (Fits b len))

theorem represented_of_ring {b : BufferStatic C} (h : Ring b) : Represented b := by
  have hsize := h.size_le
  have hhead := h.head_le
  have htail := h.tail_le
  have hplaced := h.placed
  refine ⟨htail, hsize, ?_, ?_, ?_⟩ <;> omega

/-- Without a wrap the call rejects what exceeds the total free space and moves
the tail by anything else. -/
theorem expandSize_eq (hC : C < 1024 * 100) {b : BufferStatic C} (h : Ring b) {len : Nat}
    (hsum : b.size + len < 2 ^ 32) :
    b.expandSize len =
      if C < b.size + len then (.invalidLen, b)
      else (.ok, { b with tail := b.tail + len, size := b.size + len }) := by
  have htail := h.tail_le
  rw [BufferStatic.expandSize, Nat.mod_eq_of_lt hsum]
  split
  · rfl
  next hroom => rw [Nat.mod_eq_of_lt (show b.tail + len < 2 ^ 32 by omega)]

theorem expandSize_ok_of_wraps (hC : C < 1024 * 100) {b : BufferStatic C} (h : Ring b)
    {len : Nat} (hlen : len < 2 ^ 32) (hwraps : 2 ^ 32 ≤ b.size + len) :
    (b.expandSize len).1 = .ok := by
  have hsize := h.size_le
  have hmod : (b.size + len) % 2 ^ 32 = b.size + len - 2 ^ 32 := by
    rw [Nat.mod_eq_sub_mod hwraps, Nat.mod_eq_of_lt (by omega)]
  rw [BufferStatic.expandSize, hmod, if_neg (by omega)]

theorem expandSize_ring (hC : C < 1024 * 100) {b : BufferStatic C} (h : Ring b) {len : UInt32}
    (hfits : Fits b len) : Ring (b.expandSize len.toNat).2 := by
  rw [expandSize_eq hC h hfits.1]
  split
  · exact h
  next hroom =>
    have htail := hfits.2.resolve_left hroom
    have hplaced := h.placed
    have hhome := h.home
    refine ⟨h.length_buffer, ?_, h.head_le, htail, ?_, ?_⟩
    all_goals simp only
    all_goals omega

theorem access_ring (hC : C < 1024 * 100) {b b' : BufferStatic C} {a : Access} (h : Ring b)
    (hfits : FitsAt b a) (haccess : access b a = some b') : Ring b' := by
  cases a with
  | call call =>
      obtain rfl := Option.some.inj haccess
      exact (call_step h call).1
  | write data =>
      simp only [access] at haccess
      split at haccess
      next hinside =>
        obtain rfl := Option.some.inj haccess
        have hlength : (writeBlock b.buffer b.tail data).length = C := by
          rw [length_writeBlock (by rw [h.length_buffer]; exact hinside), h.length_buffer]
        exact ⟨hlength, h.size_le, h.head_le, h.tail_le, h.placed, h.home⟩
      next => simp at haccess
  | expandSize len =>
      obtain rfl := Option.some.inj haccess
      exact expandSize_ring hC h hfits

theorem expandsWell_iff_of_ring (hC : C < 1024 * 100) {b : BufferStatic C} (h : Ring b)
    (len : UInt32) : ExpandsWell b len ↔ Fits b len := by
  constructor
  · rintro ⟨hrejects, hanswers⟩
    have hsum : b.size + len.toNat < 2 ^ 32 := by
      by_contra hwraps
      have hok := expandSize_ok_of_wraps hC h len.toNat_lt (Nat.not_lt.mp hwraps)
      rw [hrejects (by omega)] at hok
      exact absurd hok (by decide)
    refine ⟨hsum, ?_⟩
    by_contra hnone
    obtain ⟨hroom, hover⟩ := not_or.mp hnone
    rw [expandSize_eq hC h hsum, if_neg hroom] at hanswers
    rcases hanswers with ⟨hinvalid, -⟩ | ⟨-, hrepresented⟩
    · exact absurd hinvalid (by simp)
    · exact hover hrepresented.tail_le
  · intro hfits
    have hring := expandSize_ring hC h hfits
    have heq := expandSize_eq hC h hfits.1
    refine ⟨fun hover => by rw [heq, if_pos hover], ?_⟩
    by_cases hover : C < b.size + len.toNat
    · left
      rw [heq, if_pos hover]
      exact ⟨rfl, rfl, rfl, rfl⟩
    · right
      exact ⟨by rw [heq, if_neg hover], represented_of_ring hring⟩

/-- As long as all accepted lengths have fitted, the next one is treated well
exactly when it fits. -/
theorem expandsWell_iff (hC : C < 1024 * 100) {tr : List (Transition (BufferStatic C) Access)}
    {b : BufferStatic C} (hrun : Run access .empty tr b)
    (hfits : ∀ t ∈ tr, FitsAt t.pre t.event) (len : UInt32) :
    ExpandsWell b len ↔ Fits b len := by
  have hring : Ring b := by
    refine hrun.invariant (fun t => FitsAt t.pre t.event) ring_empty ?_ hfits
    intro s a s' hs hguard haccess
    exact access_ring hC hs hguard haccess
  exact expandsWell_iff_of_ring hC hring len

theorem expandsWell_iff_seven :
    (exec access (.empty : BufferStatic 16)
      [.write [1, 2, 3], .expandSize 3, .call (.append [4, 5, 6, 7, 8, 9]),
        .call (.getData 5)]).isSome ∧
    ∀ b ∈ exec access (.empty : BufferStatic 16)
      [.write [1, 2, 3], .expandSize 3, .call (.append [4, 5, 6, 7, 8, 9]), .call (.getData 5)],
      ExpandsWell b 7 ∧ ExpandsWell b 13 ∧ ¬ExpandsWell b 8 := by
  refine ⟨by decide, fun b hb => ?_⟩
  obtain rfl := Option.get_of_mem (by decide) hb
  have hwell := expandsWell_iff (by decide) (@run_trace (BufferStatic 16) Access access .empty
    [.write [1, 2, 3], .expandSize 3, .call (.append [4, 5, 6, 7, 8, 9]), .call (.getData 5)]
    (by decide)) (by decide)
  exact ⟨(hwell 7).mpr (by decide), (hwell 13).mpr (by decide),
    fun h => absurd ((hwell 8).mp h) (by decide)⟩

/-- Ten bytes in and out: then ten more have room, but not behind the tail. -/
theorem not_expandsWell_drained :
    ¬∀ (C : Nat) (tr : List (Transition (BufferStatic C) Access)) (b : BufferStatic C)
      (len : UInt32), 0 < C → C < 1024 * 100 → Run access .empty tr b → ExpandsWell b len := by
  intro hall
  obtain ⟨-, hanswers⟩ := hall 16 _ _ 10 (by decide) (by decide) (run_trace
    [.expandSize 10, .call (.seekData 10)] (by decide))
  rcases hanswers with ⟨hinvalid, -⟩ | ⟨-, hrepresented⟩
  · exact absurd hinvalid (by decide)
  · exact absurd hrepresented.tail_le (by decide)

end TwitchChatWorker.SizeExpansion
