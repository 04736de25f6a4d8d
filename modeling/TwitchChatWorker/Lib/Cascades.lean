import Mathlib.Data.Set.Finite.Basic
import Mathlib.Logic.Relation
import Mathlib.Order.WellFounded

/-!
Cascades: every element brings about finitely many others.  A cascade ends when
one of its generations is empty.  Where only finitely many elements can occur,
it ends exactly when no loop can be reached.
-/

namespace TwitchChatWorker.Lib.Cascades

open Relation

variable {α : Type*}

/-- What `a` brings about in exactly `n` steps. -/
def generation (next : α → List α) : Nat → α → List α
  | 0, a => [a]
  | n + 1, a => (next a).flatMap (generation next n)

/-- After finitely many generations nothing is left. -/
def Ends (next : α → List α) (a : α) : Prop := ∃ n, generation next n a = []

/-- A chain of descendants that never ends. -/
def Endless (next : α → List α) (a : α) : Prop :=
  ∃ f : Nat → α, f 0 = a ∧ ∀ n, f (n + 1) ∈ next (f n)

/-- From `a` the cascade comes to an element that brings itself about again. -/
def ReachesLoop (next : α → List α) (a : α) : Prop :=
  ∃ x, ReflTransGen (fun x y => y ∈ next x) a x ∧ TransGen (fun x y => y ∈ next x) x x

variable {next : α → List α}

theorem generation_succ_eq_nil {n : Nat} {a : α} :
    generation next (n + 1) a = [] ↔ ∀ b ∈ next a, generation next n b = [] := by
  rw [generation, List.flatMap_eq_nil_iff]

theorem generation_nil_mono {n m : Nat} {a : α} (hle : n ≤ m)
    (hn : generation next n a = []) : generation next m a = [] := by
  induction n generalizing a m with
  | zero => simp [generation] at hn
  | succ n ih =>
      obtain ⟨m, rfl⟩ : ∃ k, m = k + 1 := ⟨m - 1, by omega⟩
      rw [generation_succ_eq_nil] at hn ⊢
      exact fun b hb => ih (Nat.le_of_succ_le_succ hle) (hn b hb)

theorem exists_generation_nil_forall {xs : List α} (hends : ∀ b ∈ xs, Ends next b) :
    ∃ n, ∀ b ∈ xs, generation next n b = [] := by
  induction xs with
  | nil => exact ⟨0, by simp⟩
  | cons x xs ih =>
      rw [List.forall_mem_cons] at hends
      obtain ⟨n, hn⟩ := hends.1
      obtain ⟨m, hm⟩ := ih hends.2
      refine ⟨max n m, ?_⟩
      rw [List.forall_mem_cons]
      constructor
      · exact generation_nil_mono (Nat.le_max_left n m) hn
      · exact fun b hb => generation_nil_mono (Nat.le_max_right n m) (hm b hb)

theorem ends_iff_acc {a : α} : Ends next a ↔ Acc (fun b a => b ∈ next a) a := by
  constructor
  · rintro ⟨n, hn⟩
    induction n generalizing a with
    | zero => simp [generation] at hn
    | succ n ih =>
        rw [generation_succ_eq_nil] at hn
        exact Acc.intro a fun b hb => ih (hn b hb)
  · intro hacc
    induction hacc with
    | intro a _ ih =>
        obtain ⟨n, hn⟩ := exists_generation_nil_forall ih
        exact ⟨n + 1, generation_succ_eq_nil.mpr hn⟩

theorem ends_iff_not_endless {a : α} : Ends next a ↔ ¬Endless next a := by
  rw [ends_iff_acc, acc_iff_isEmpty_descending_chain, isEmpty_subtype]
  simp only [Endless, not_exists]

theorem not_ends_of_transGen {a : α} (hloop : TransGen (fun x y => y ∈ next x) a a) :
    ¬Ends next a := by
  rw [ends_iff_acc]
  intro hacc
  have htrans := hacc.transGen
  rw [← transGen_swap] at hloop
  induction htrans with
  | intro a _ ih => exact ih a hloop hloop (hacc.inv_of_transGen hloop)

theorem Ends.of_reflTransGen {a x : α} (hends : Ends next a)
    (hreach : ReflTransGen (fun x y => y ∈ next x) a x) : Ends next x := by
  induction hreach with
  | refl => exact hends
  | tail _ hstep ih =>
      rw [ends_iff_acc] at ih ⊢
      exact ih.inv hstep

theorem reflTransGen_chain {f : Nat → α} (hchain : ∀ n, f (n + 1) ∈ next (f n)) (n k : Nat) :
    ReflTransGen (fun x y => y ∈ next x) (f n) (f (n + k)) := by
  induction k with
  | zero => exact .refl
  | succ k ih => exact ih.tail (hchain (n + k))

/-- An endless cascade within a finite set comes back to one of its elements. -/
theorem Endless.reachesLoop {a : α} (hendless : Endless next a) {s : Set α} (hfinite : s.Finite)
    (ha : a ∈ s) (hclosed : ∀ x ∈ s, ∀ y ∈ next x, y ∈ s) : ReachesLoop next a := by
  obtain ⟨f, rfl, hchain⟩ := hendless
  have hmem : ∀ n, f n ∈ s := by
    intro n
    induction n with
    | zero => exact ha
    | succ n ih => exact hclosed (f n) ih _ (hchain n)
  have hrepeats : ∃ i j, i < j ∧ f i = f j := by
    by_contra hnot
    have hinjective : Function.Injective f := by
      intro i j hij
      rcases Nat.lt_trichotomy i j with hlt | heq | hlt
      · exact absurd ⟨i, j, hlt, hij⟩ hnot
      · exact heq
      · exact absurd ⟨j, i, hlt, hij.symm⟩ hnot
    exact Set.infinite_of_injective_forall_mem hinjective hmem hfinite
  obtain ⟨i, j, hlt, hij⟩ := hrepeats
  refine ⟨f i, ?_, ?_⟩
  · have hreach := reflTransGen_chain hchain 0 i
    rwa [Nat.zero_add] at hreach
  · have hreach := reflTransGen_chain hchain (i + 1) (j - (i + 1))
    rw [Nat.add_sub_cancel' hlt, ← hij] at hreach
    exact TransGen.head' (hchain i) hreach

theorem ends_iff_not_reachesLoop {a : α} {s : Set α} (hfinite : s.Finite) (ha : a ∈ s)
    (hclosed : ∀ x ∈ s, ∀ y ∈ next x, y ∈ s) : Ends next a ↔ ¬ReachesLoop next a := by
  constructor
  · rintro hends ⟨x, hreach, hloop⟩
    exact not_ends_of_transGen hloop (hends.of_reflTransGen hreach)
  · intro hnot
    rw [ends_iff_not_endless]
    exact fun hendless => hnot (hendless.reachesLoop hfinite ha hclosed)

end TwitchChatWorker.Lib.Cascades
