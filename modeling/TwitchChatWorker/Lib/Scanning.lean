import Mathlib.Data.List.TakeWhile
import Mathlib.Tactic.Common

/-!
Scanning loops that read up to a delimiter: `takeWhile` is what they read,
`dropWhile` what they leave.  A scanner that can fail is followed call by call.
-/

namespace TwitchChatWorker.Lib.Scanning

variable {α : Type*} {p : α → Bool}

/-- The loop does not go into the text: it is empty or begins with a delimiter. -/
def Stops (p : α → Bool) (rest : List α) : Prop := ∀ c, rest.head? = some c → p c = false

theorem stops_nil : Stops p [] := by simp [Stops]

theorem stops_cons {c : α} {rest : List α} : Stops p (c :: rest) ↔ p c = false := by
  simp [Stops]

theorem stops_dropWhile (xs : List α) : Stops p (xs.dropWhile p) := by
  induction xs with
  | nil => exact stops_nil
  | cons x xs ih =>
      cases hx : p x with
      | true => rwa [List.dropWhile_cons_of_pos hx]
      | false =>
          rw [List.dropWhile_cons_of_neg (by simp [hx]), stops_cons]
          exact hx

theorem Stops.append {xs rest : List α} (hxs : Stops p xs) (hrest : Stops p rest) :
    Stops p (xs ++ rest) := by
  cases xs with
  | nil => exact hrest
  | cons x xs => exact stops_cons.mpr (stops_cons.mp hxs)

theorem takeWhile_of_stops {rest : List α} (h : Stops p rest) : rest.takeWhile p = [] := by
  cases rest with
  | nil => rfl
  | cons c rest => simp [stops_cons.mp h]

theorem dropWhile_of_stops {rest : List α} (h : Stops p rest) : rest.dropWhile p = rest := by
  cases rest with
  | nil => rfl
  | cons c rest => simp [stops_cons.mp h]

theorem takeWhile_append_of_stops {xs rest : List α} (hxs : ∀ c ∈ xs, p c = true)
    (hrest : Stops p rest) : (xs ++ rest).takeWhile p = xs := by
  rw [List.takeWhile_append_of_pos hxs, takeWhile_of_stops hrest, List.append_nil]

theorem dropWhile_append_of_stops {xs rest : List α} (hxs : ∀ c ∈ xs, p c = true)
    (hrest : Stops p rest) : (xs ++ rest).dropWhile p = rest := by
  rw [List.dropWhile_append_of_pos hxs, dropWhile_of_stops hrest]

theorem scanned_of_not_mem [DecidableEq α] {d : α} {xs : List α} (h : d ∉ xs) :
    ∀ c ∈ xs, decide (c ≠ d) = true := by
  intro c hc
  exact decide_eq_true fun heq => h (heq ▸ hc)

theorem stops_delimiter [DecidableEq α] (d : α) (rest : List α) :
    Stops (fun c => decide (c ≠ d)) (d :: rest) :=
  stops_cons.mpr (by simp)

theorem not_mem_takeWhile_ne [DecidableEq α] (d : α) (xs : List α) :
    d ∉ xs.takeWhile (· ≠ d) := by
  intro hmem
  have hscanned := List.mem_takeWhile_imp hmem
  simp at hscanned

/-- Behind a scan for `d` stands `d`, or nothing. -/
theorem head?_dropWhile_ne [DecidableEq α] {d : α} {xs : List α} :
    ∀ c, (xs.dropWhile (· ≠ d)).head? = some c → c = d := by
  intro c hc
  simpa using stops_dropWhile (p := (decide <| · ≠ d)) xs c hc

theorem exists_split_of_mem_takeWhile [DecidableEq α] {c d : α} {xs : List α}
    (h : c ∈ xs.takeWhile (· ≠ d)) : ∃ a b, xs = a ++ c :: b ∧ c ∉ a ∧ d ∉ a := by
  induction xs with
  | nil => simp at h
  | cons x xs ih =>
      by_cases hc : x = c
      · exact ⟨[], xs, by rw [hc, List.nil_append], by simp, by simp⟩
      · by_cases hd : x = d
        · rw [List.takeWhile_cons_of_neg (by simp [hd])] at h
          simp at h
        · rw [List.takeWhile_cons_of_pos (by simp [hd]), List.mem_cons] at h
          obtain ⟨a, b, rfl, hca, hda⟩ := ih (h.resolve_left (Ne.symm hc))
          exact ⟨x :: a, b, rfl, by simp [Ne.symm hc, hca], by simp [Ne.symm hd, hda]⟩

theorem exists_last_split {c : α} {xs : List α} (h : c ∈ xs) :
    ∃ a b, xs = a ++ c :: b ∧ c ∉ b := by
  obtain ⟨a, b, heq, hc⟩ := List.eq_append_cons_of_mem (List.mem_reverse.mpr h)
  refine ⟨b.reverse, a.reverse, ?_, by simpa using hc⟩
  simpa using congrArg List.reverse heq

section Failing

theorem exists_of_bind_eq_ok {ε α β : Type} {x : Except ε α} {f : α → Except ε β} {b : β}
    (h : (x >>= f) = .ok b) : ∃ a, x = .ok a ∧ f a = .ok b := by
  cases x with
  | error e => exact absurd h (by simp [bind, Except.bind])
  | ok a => exact ⟨a, rfl, h⟩

end Failing

end TwitchChatWorker.Lib.Scanning
