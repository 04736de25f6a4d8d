import Mathlib.Data.Nat.Find
import Mathlib.Tactic.Common

/-!
A loop that makes one attempt after another until an attempt settles the
outcome.  The fuel bounds the attempts that are looked at.
-/

namespace TwitchChatWorker.Lib.Attempts

variable {α : Type*} {outcome : Nat → Option α}

/-- The first outcome from the n-th attempt on, with its attempt. -/
def firstOutcome (outcome : Nat → Option α) : Nat → Nat → Option (α × Nat)
  | 0, _ => none
  | fuel + 1, n =>
      match outcome n with
      | some a => some (a, n)
      | none => firstOutcome outcome fuel (n + 1)

theorem firstOutcome_eq_some_iff {fuel n m : Nat} {a : α} :
    firstOutcome outcome fuel n = some (a, m) ↔
      n ≤ m ∧ m < n + fuel ∧ outcome m = some a ∧ ∀ k, n ≤ k → k < m → outcome k = none := by
  induction fuel generalizing n with
  | zero =>
      simp only [firstOutcome, reduceCtorEq, false_iff]
      omega
  | succ fuel ih =>
      simp only [firstOutcome]
      cases hn : outcome n with
      | some b =>
          constructor
          · intro h
            obtain ⟨rfl, rfl⟩ : b = a ∧ n = m := by simpa using h
            exact ⟨Nat.le_refl n, by omega, hn, fun k hle hlt => by omega⟩
          · rintro ⟨hle, -, hm, hbefore⟩
            have heq : n = m := by
              rcases Nat.eq_or_lt_of_le hle with heq | hlt
              · exact heq
              · simp [hbefore n (Nat.le_refl n) hlt] at hn
            subst heq
            simp [Option.some.inj (hn.symm.trans hm)]
      | none =>
          simp only [ih]
          constructor
          · rintro ⟨hle, hlt, hm, hbefore⟩
            refine ⟨by omega, by omega, hm, fun k hk hkm => ?_⟩
            rcases Nat.eq_or_lt_of_le hk with rfl | hk
            · exact hn
            · exact hbefore k hk hkm
          · rintro ⟨hle, hlt, hm, hbefore⟩
            have hne : n ≠ m := by
              rintro rfl
              simp [hn] at hm
            exact ⟨by omega, by omega, hm, fun k hk hkm => hbefore k (by omega) hkm⟩

/-- A loop in which the m-th attempt settles the outcome ends with that attempt
or an earlier one. -/
theorem exists_firstOutcome_le {m : Nat} (hm : outcome m ≠ none) :
    ∃ fuel a n, firstOutcome outcome fuel 0 = some (a, n) ∧ n ≤ m ∧
      outcome n = some a ∧ ∀ k < n, outcome k = none := by
  classical
  have hsettled : ∃ n, outcome n ≠ none := ⟨m, hm⟩
  obtain ⟨a, ha⟩ := Option.ne_none_iff_exists'.mp (Nat.find_spec hsettled)
  have hbefore : ∀ k < Nat.find hsettled, outcome k = none := fun k hk =>
    not_not.mp (Nat.find_min hsettled hk)
  refine ⟨Nat.find hsettled + 1, a, Nat.find hsettled, ?_, Nat.find_min' hsettled hm, ha, hbefore⟩
  exact firstOutcome_eq_some_iff.mpr
    ⟨Nat.zero_le _, by omega, ha, fun k _ hk => hbefore k hk⟩

end TwitchChatWorker.Lib.Attempts
