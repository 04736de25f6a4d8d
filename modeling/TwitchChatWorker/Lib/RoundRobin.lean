import Mathlib.Tactic.Common

/-!
A round-robin cursor over a vector.  A vector of one element is served without
moving the cursor; an empty vector, or a cursor left beyond the end, has no
element to return.
-/

namespace TwitchChatWorker.Lib.RoundRobin

/-- The index to serve and the cursor afterwards. -/
def next (size cursor : Nat) : Option (Nat × Nat) :=
  if size = 1 then some (0, cursor)
  else if cursor < size then some (cursor, (cursor + 1) % size)
  else none

/-- The cursors that can be served. -/
def InRange (size cursor : Nat) : Prop := size = 1 ∨ cursor < size

instance (size cursor : Nat) : Decidable (InRange size cursor) :=
  inferInstanceAs (Decidable (_ ∨ _))

/-- The indices that successive steps serve. -/
def served (size : Nat) : Nat → Nat → List Nat
  | 0, _ => []
  | n + 1, cursor =>
      match next size cursor with
      | none => []
      | some (i, cursor') => i :: served size n cursor'

theorem next_lt {size cursor i cursor' : Nat}
    (h : next size cursor = some (i, cursor')) : i < size := by
  simp only [next] at h
  split_ifs at h with hone hlt <;> grind

theorem next_cursor_lt {size cursor i cursor' : Nat} (hcursor : cursor < size)
    (h : next size cursor = some (i, cursor')) : cursor' < size := by
  simp only [next] at h
  split_ifs at h with hone
  · grind
  · obtain ⟨rfl, rfl⟩ : cursor = i ∧ (cursor + 1) % size = cursor' := by simpa using h
    exact Nat.mod_lt _ (by omega)

theorem next_isSome {size cursor : Nat} (hcursor : cursor < size) :
    ∃ i cursor', next size cursor = some (i, cursor') := by
  by_cases hone : size = 1 <;> simp [next, hone, hcursor]

theorem InRange.next {size cursor : Nat} (h : InRange size cursor) :
    ∃ i cursor', next size cursor = some (i, cursor') ∧ i < size ∧ InRange size cursor' := by
  rcases h with rfl | hcursor
  · exact ⟨0, cursor, rfl, Nat.one_pos, .inl rfl⟩
  · obtain ⟨i, cursor', hnext⟩ := next_isSome hcursor
    exact ⟨i, cursor', hnext, next_lt hnext, .inr (next_cursor_lt hcursor hnext)⟩

theorem add_mod_mem_served {size n cursor k : Nat} (hsize : 1 < size) (hcursor : cursor < size)
    (hk : k < n) : (cursor + k) % size ∈ served size n cursor := by
  induction n generalizing cursor k with
  | zero => omega
  | succ n ih =>
      have hnext : next size cursor = some (cursor, (cursor + 1) % size) := by
        simp [next, hcursor, Nat.ne_of_gt hsize]
      simp only [served, hnext, List.mem_cons]
      cases k with
      | zero => exact .inl (Nat.mod_eq_of_lt hcursor)
      | succ k =>
          have hrest := ih (Nat.mod_lt (cursor + 1) (by omega)) (Nat.lt_of_succ_lt_succ hk)
          rw [Nat.mod_add_mod, Nat.add_assoc, Nat.add_comm 1] at hrest
          exact .inr hrest

/-- As many steps as there are elements serve every one of them. -/
theorem InRange.mem_served {size cursor : Nat} (h : InRange size cursor) {i : Nat}
    (hi : i < size) : i ∈ served size size cursor := by
  rcases Nat.eq_or_lt_of_le (show 1 ≤ size by omega) with rfl | hsize
  · obtain rfl : i = 0 := by omega
    simp [served, RoundRobin.next]
  · have hcursor : cursor < size := h.resolve_left (Nat.ne_of_gt hsize)
    rcases Nat.lt_or_ge i cursor with hlt | hle
    · have hmem := add_mod_mem_served hsize hcursor (show i + size - cursor < size by omega)
      rwa [Nat.add_sub_cancel' (by omega), Nat.add_mod_right, Nat.mod_eq_of_lt hi] at hmem
    · have hmem := add_mod_mem_served hsize hcursor (show i - cursor < size by omega)
      rwa [Nat.add_sub_cancel' hle, Nat.mod_eq_of_lt hi] at hmem

end TwitchChatWorker.Lib.RoundRobin
