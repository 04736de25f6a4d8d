import Mathlib.Algebra.BigOperators.Group.List.Basic
import Mathlib.Data.Int.ModEq
import TwitchChatWorker.Lib.OrderedMaps
import TwitchChatWorker.Lib.Runs

/-!
Running totals.  A total that every event changes by the amount it brings has,
after any run, changed by the sum of these amounts.  The other lemmas pick the
share of one key or one position out of a sum over all of them, and put a list
together again from its classes.
-/

namespace TwitchChatWorker.Lib.Tallies

open TwitchChatWorker.Lib.OrderedMaps
open TwitchChatWorker.Lib.Runs

section Runs

variable {σ ε : Type*} {step : σ → ε → Option σ} {good : ε → Prop}

theorem exec_isSome (hstep : ∀ s e, good e → (step s e).isSome) {es : List ε}
    (hgood : ∀ e ∈ es, good e) (s : σ) : (exec step s es).isSome := by
  induction es generalizing s with
  | nil => rfl
  | cons e es ih =>
      rw [List.forall_mem_cons] at hgood
      obtain ⟨s', hs'⟩ := Option.isSome_iff_exists.mp (hstep s e hgood.1)
      rw [exec, hs']
      exact ih hgood.2 s'

/-- Totals may be kept in counters that wrap, so they are compared modulo `n`. -/
theorem exec_balance {n : Int} {held : σ → Int} {brought : ε → Int}
    (hstep : ∀ s e s', good e → step s e = some s' → held s' ≡ held s + brought e [ZMOD n])
    {es : List ε} (hgood : ∀ e ∈ es, good e) {s s' : σ} (hexec : exec step s es = some s') :
    held s' ≡ held s + (es.map brought).sum [ZMOD n] := by
  induction es generalizing s with
  | nil =>
      obtain rfl : s = s' := by simpa [exec] using hexec
      simp
  | cons e es ih =>
      rw [List.forall_mem_cons] at hgood
      rw [exec] at hexec
      cases hnext : step s e with
      | none => simp [hnext] at hexec
      | some next =>
          rw [hnext] at hexec
          have hfirst := hstep s e next hgood.1 hnext
          have hrest := ih hgood.2 hexec
          rw [List.map_cons, List.sum_cons, ← add_assoc]
          exact hrest.trans (hfirst.add_right _)

theorem run_balance {n : Int} {held : σ → Int} {brought : Transition σ ε → Int}
    (sound : Transition σ ε → Prop)
    (hstep : ∀ s e s', sound ⟨s, e, s'⟩ → step s e = some s' →
      held s' ≡ held s + brought ⟨s, e, s'⟩ [ZMOD n])
    {start s : σ} {tr : List (Transition σ ε)} (hrun : Run step start tr s)
    (hsound : ∀ t ∈ tr, sound t) : held s ≡ held start + (tr.map brought).sum [ZMOD n] := by
  induction hrun with
  | nil => simp
  | @snoc tr s e s' _ he ih =>
      have hpast := ih fun t ht => hsound t (by simp [ht])
      have hlast := hstep s e s' (hsound _ (by simp)) he
      rw [List.map_append, List.sum_append, List.map_singleton, List.sum_singleton, ← add_assoc]
      exact hlast.trans (hpast.add_right _)

end Runs

section Shares

variable {M : Type*} [AddMonoid M] {α β κ ν : Type*}

theorem getD_map_of_zero {value : α → M} {unset : α} (hunset : value unset = 0) (x : Option α) :
    (x.map value).getD 0 = value (x.getD unset) := by
  cases x with
  | none => exact hunset.symm
  | some x => rfl

theorem sum_mapIdx_at (f : Nat → α → β) (amount : β → M) (i : Nat) (value : α → M)
    (hamount : ∀ j x, amount (f j x) = if j = i then value x else 0) (xs : List α) :
    ((xs.mapIdx f).map amount).sum = (xs[i]?.map value).getD 0 := by
  induction xs generalizing f i with
  | nil => simp
  | cons x xs ih =>
      rw [List.mapIdx_cons, List.map_cons, List.sum_cons, hamount]
      cases i with
      | zero =>
          have hrest : ((xs.mapIdx fun j => f (j + 1)).map amount).sum = 0 := by
            apply List.sum_eq_zero
            intro y hy
            obtain ⟨z, hz, rfl⟩ := List.mem_map.mp hy
            obtain ⟨j, hj, rfl⟩ := List.mem_mapIdx.mp hz
            rw [hamount, if_neg j.succ_ne_zero]
          simp [hrest]
      | succ i => simpa using ih _ i fun j x => by simpa using hamount (j + 1) x

theorem sum_range_at [DecidableEq α] {xs : List α} (hnodup : xs.Nodup) {x : α} (hx : x ∈ xs)
    (amount : M) :
    ((List.range xs.length).map fun i => if xs[i]? = some x then amount else 0).sum = amount := by
  induction xs with
  | nil => simp at hx
  | cons y ys ih =>
      obtain ⟨hy, hys⟩ := List.nodup_cons.mp hnodup
      rw [List.length_cons, List.range_succ_eq_map, List.map_cons, List.sum_cons, List.map_map]
      rcases eq_or_ne y x with rfl | hne
      · have hrest : ((List.range ys.length).map
            ((fun i => if (y :: ys)[i]? = some y then amount else 0) ∘ Nat.succ)).sum = 0 := by
          apply List.sum_eq_zero
          intro a ha
          obtain ⟨i, -, rfl⟩ := List.mem_map.mp ha
          have hother : ys[i]? ≠ some y := fun h => hy (List.mem_of_getElem? h)
          simp [hother]
        simp [hrest]
      · have hmem : x ∈ ys := (List.mem_cons.mp hx).resolve_left hne.symm
        have hrest := ih hys hmem
        simpa [hne, Function.comp_def] using hrest

theorem sum_map_modEq {n : Int} {f g : α → Int} {xs : List α}
    (h : ∀ x ∈ xs, f x ≡ g x [ZMOD n]) : (xs.map f).sum ≡ (xs.map g).sum [ZMOD n] := by
  induction xs with
  | nil => rfl
  | cons x xs ih =>
      rw [List.forall_mem_cons] at h
      rw [List.map_cons, List.map_cons, List.sum_cons, List.sum_cons]
      exact h.1.add (ih h.2)
theorem filter_append_filter_perm {p q : α → Bool} (h : ∀ x, p x = true → q x = false)
    (xs : List α) : (xs.filter p ++ xs.filter q).Perm (xs.filter fun x => p x || q x) := by
  induction xs with
  | nil => exact .nil
  | cons x xs ih =>
      cases hp : p x with
      | true =>
          have hq := h x hp
          simpa [hp, hq] using ih
      | false =>
          cases hq : q x with
          | true => simpa [hp, hq] using List.perm_middle.trans (ih.cons x)
          | false => simpa [hp, hq] using ih

/-- The classes of a list under a number, one after the other. -/
def classes (key : α → Nat) (xs : List α) (n : Nat) : List α :=
  (List.range n).flatMap fun i => xs.filter fun x => key x = i

theorem classes_perm (key : α → Nat) (xs : List α) (n : Nat) :
    (classes key xs n).Perm (xs.filter fun x => key x < n) := by
  induction n with
  | zero => simp [classes]
  | succ n ih =>
      have hlast := filter_append_filter_perm (p := fun x => decide (key x < n))
        (q := fun x => decide (key x = n)) (by grind) xs
      have hnext : (fun x => decide (key x < n) || decide (key x = n)) =
          fun x => decide (key x < n + 1) := by
        funext x
        grind
      rw [hnext] at hlast
      simp only [classes, List.range_succ, List.flatMap_append, List.flatMap_singleton]
      exact (ih.append_right _).trans hlast

variable [LinearOrder κ]

theorem sum_entries_at (m : OrderedMap κ ν) (k : κ) (value : ν → M) :
    (m.entries.map fun entry => if entry.1 = k then value entry.2 else 0).sum =
      ((m.find? k).map value).getD 0 := by
  obtain ⟨entries, hsorted⟩ := m
  simp only [OrderedMap.find?]
  induction entries with
  | nil => rfl
  | cons entry entries ih =>
      rw [List.map_cons, List.pairwise_cons] at hsorted
      rw [List.map_cons, List.sum_cons, findEntry, ih hsorted.2]
      by_cases heq : entry.1 = k
      · have habsent : findEntry k entries = none := by
          apply Option.eq_none_iff_forall_ne_some.mpr
          intro v hv
          have hmem := (mem_entries_iff_findEntry hsorted.2).mpr hv
          exact lt_irrefl k (heq ▸ hsorted.1 k (List.mem_map_of_mem hmem))
        simp [heq, habsent]
      · simp [heq, Ne.symm heq]

end Shares

section Changes

variable {M : Type*} [AddCommMonoid M] {κ ν : Type*} [LinearOrder κ]

/-- A total changes by what the value under one key changes. -/
theorem sum_entries_upsert (m : OrderedMap κ ν) (k : κ) (f : Option ν → ν) (value : ν → M) :
    ((m.upsert k f).entries.map fun entry => value entry.2).sum +
        ((m.find? k).map value).getD 0 =
      (m.entries.map fun entry => value entry.2).sum + value (f (m.find? k)) := by
  obtain ⟨entries, hsorted⟩ := m
  simp only [OrderedMap.upsert, OrderedMap.find?]
  induction entries with
  | nil => simp [upsertEntries, findEntry]
  | cons entry entries ih =>
      obtain ⟨k', v⟩ := entry
      have htail := (List.pairwise_cons.mp hsorted).2
      simp only [upsertEntries]
      split_ifs with hlt heq
      · have habsent : findEntry k ((k', v) :: entries) = none := by
          refine Option.eq_none_iff_forall_ne_some.mpr fun v' hv' => ?_
          rcases List.mem_cons.mp ((mem_entries_iff_findEntry hsorted).mpr hv') with heq | hmem
          · exact absurd hlt (by simp [(Prod.mk.inj heq).1])
          · exact lt_asymm hlt
              ((List.pairwise_cons.mp hsorted).1 k (List.mem_map_of_mem hmem))
        simp [habsent, add_comm]
      · subst heq
        simp only [findEntry, if_true, List.map_cons, List.sum_cons, Option.map_some,
          Option.getD_some]
        rw [add_right_comm, add_comm (value (f (some v))), add_right_comm]
      · have hrest := ih htail
        simp only [findEntry, if_neg heq, List.map_cons, List.sum_cons, add_assoc]
        exact congrArg _ hrest

end Changes

end TwitchChatWorker.Lib.Tallies
