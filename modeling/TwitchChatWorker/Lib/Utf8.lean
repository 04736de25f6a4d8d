import Mathlib.Data.List.Basic
import Mathlib.Tactic.Common

/-!
Well-formed UTF-8.  A decoder reads bytes one after another and knows in which
ranges the next bytes of the character that it is in must lie.
-/

namespace TwitchChatWorker.Lib.Utf8

/-- The least and the greatest byte that may come. -/
abbrev Range := Nat × Nat

def tail : Range := (0x80, 0xBF)

/-- What the first byte of a character asks of the bytes after it.  The narrower
ranges leave out overlong forms, surrogates and what lies beyond U+10FFFF. -/
def leading (b : Nat) : Option (List Range) :=
  if b < 0x80 then some []
  else if b < 0xC2 then none
  else if b < 0xE0 then some [tail]
  else if b = 0xE0 then some [(0xA0, 0xBF), tail]
  else if b = 0xED then some [(0x80, 0x9F), tail]
  else if b < 0xF0 then some [tail, tail]
  else if b = 0xF0 then some [(0x90, 0xBF), tail, tail]
  else if b < 0xF4 then some [tail, tail, tail]
  else if b = 0xF4 then some [(0x80, 0x8F), tail, tail]
  else none

/-- One byte, given what is owed to the character before. -/
def decode : List Range → Nat → Option (List Range)
  | [], b => leading b
  | range :: owed, b => if range.1 ≤ b ∧ b ≤ range.2 then some owed else none

/-- The bytes end where a character ends. -/
def wellFormed (bytes : List Nat) : Bool := bytes.foldlM decode [] = some []

/-- Nothing below 0x80 is owed to a character. -/
def High (owed : List Range) : Prop := ∀ range ∈ owed, 0x80 ≤ range.1

theorem high_leading {b : Nat} {owed : List Range} (h : leading b = some owed) : High owed := by
  unfold leading at h
  split_ifs at h <;> obtain rfl := Option.some.inj h <;> simp [High, tail]

theorem High.decode {owed owed' : List Range} (hhigh : High owed) {b : Nat}
    (h : decode owed b = some owed') : High owed' := by
  cases owed with
  | nil => exact high_leading h
  | cons range owed =>
      simp only [Utf8.decode, Option.ite_none_right_eq_some, Option.some.injEq] at h
      exact h.2 ▸ fun r hr => hhigh r (List.mem_cons_of_mem _ hr)

theorem decode_ascii {owed : List Range} (hhigh : High owed) {b : Nat} (hb : b < 0x80) :
    decode owed b = if owed = [] then some [] else none := by
  cases owed with
  | nil => simp [decode, leading, hb]
  | cons range owed =>
      have hlow : 0x80 ≤ range.1 := hhigh range List.mem_cons_self
      simp only [decode, reduceCtorEq, if_false, ite_eq_right_iff]
      omega

theorem foldlM_ascii {bytes : List Nat} (hascii : ∀ b ∈ bytes, b < 0x80) :
    bytes.foldlM decode [] = some [] := by
  induction bytes with
  | nil => rfl
  | cons b bytes ih =>
      rw [List.forall_mem_cons] at hascii
      have hhigh : High [] := by simp [High]
      rw [List.foldlM_cons, decode_ascii hhigh hascii.1, if_pos rfl]
      exact ih hascii.2

theorem wellFormed_of_ascii {bytes : List Nat} (hascii : ∀ b ∈ bytes, b < 0x80) :
    wellFormed bytes = true :=
  decide_eq_true (foldlM_ascii hascii)

example : wellFormed [0xF0, 0x9F, 0x98, 0x80, 0x41] = true ∧ wellFormed [0xC0, 0xAF] = false ∧
    wellFormed [0xED, 0xA0, 0x80] = false ∧ wellFormed [0xE2, 0x82] = false := by decide

end TwitchChatWorker.Lib.Utf8
