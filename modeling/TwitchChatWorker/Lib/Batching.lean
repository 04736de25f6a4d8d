import Mathlib.Data.List.Basic
import Mathlib.Data.List.Perm.Basic
import Mathlib.Tactic.Common

/-!
Batching of a stream of records: accepted records are collected in a current
batch, batches are swapped out, and every swapped batch is consumed later, in
any order.
-/

namespace TwitchChatWorker.Lib.Batching

/-- Where accepted records can be. -/
structure Places (α : Type*) where
  current : List α
  swapped : List (List α)
  consumed : List (List α)

variable {α : Type*}

/-- All records, wherever they stand. -/
def Places.all (b : Places α) : List α :=
  b.current ++ b.swapped.flatten ++ b.consumed.flatten

/-- Every accepted record is in exactly one place, and every batch keeps the
order of acceptance. -/
structure Conserves (b : Places α) (accepted : List α) : Prop where
  perm : b.all.Perm accepted
  current_sublist : b.current.Sublist accepted
  swapped_sublist : ∀ batch ∈ b.swapped, batch.Sublist accepted
  consumed_sublist : ∀ batch ∈ b.consumed, batch.Sublist accepted

theorem conserves_empty : Conserves (⟨[], [], []⟩ : Places α) [] where
  perm := by simp [Places.all]
  current_sublist := by simp
  swapped_sublist := by simp
  consumed_sublist := by simp

theorem Conserves.accept {current : List α} {swapped consumed : List (List α)}
    {accepted : List α} (h : Conserves ⟨current, swapped, consumed⟩ accepted)
    (record : α) :
    Conserves ⟨current ++ [record], swapped, consumed⟩ (accepted ++ [record]) where
  perm := by
    have hperm := h.perm.append_right [record]
    refine List.Perm.trans ?_ hperm
    simp only [Places.all, List.append_assoc]
    apply List.Perm.append_left current
    rw [← List.append_assoc swapped.flatten]
    exact List.perm_append_comm
  current_sublist := h.current_sublist.append_right [record]
  swapped_sublist := fun batch hbatch =>
    (h.swapped_sublist batch hbatch).trans (List.sublist_append_left _ _)
  consumed_sublist := fun batch hbatch =>
    (h.consumed_sublist batch hbatch).trans (List.sublist_append_left _ _)

theorem Conserves.swap {current : List α} {swapped consumed : List (List α)}
    {accepted : List α} (h : Conserves ⟨current, swapped, consumed⟩ accepted) :
    Conserves ⟨[], swapped ++ [current], consumed⟩ accepted where
  perm := by
    refine List.Perm.trans ?_ h.perm
    simp only [Places.all, List.flatten_append, List.flatten_singleton,
      List.nil_append]
    exact List.perm_append_comm.append_right _
  current_sublist := by simp
  swapped_sublist := by
    simpa [or_imp, forall_and] using ⟨h.swapped_sublist, h.current_sublist⟩
  consumed_sublist := h.consumed_sublist

theorem Conserves.consume {current batch : List α}
    {swapped swapped' consumed : List (List α)} {accepted : List α}
    (h : Conserves ⟨current, swapped, consumed⟩ accepted)
    (hbatch : swapped.Perm (batch :: swapped')) :
    Conserves ⟨current, swapped', consumed ++ [batch]⟩ accepted where
  perm := by
    refine List.Perm.trans ?_ h.perm
    have hflatten : swapped.flatten.Perm (batch ++ swapped'.flatten) := by
      simpa using hbatch.flatten
    simp only [Places.all, List.flatten_append, List.flatten_singleton,
      List.append_assoc]
    apply List.Perm.append_left current
    calc
      (swapped'.flatten ++ (consumed.flatten ++ batch)).Perm
          (batch ++ (swapped'.flatten ++ consumed.flatten)) := by
        rw [← List.append_assoc]
        exact List.perm_append_comm
      List.Perm _ (swapped.flatten ++ consumed.flatten) := by
        rw [← List.append_assoc]
        exact (hflatten.append_right _).symm
  current_sublist := h.current_sublist
  swapped_sublist := fun other hother =>
    h.swapped_sublist other (hbatch.mem_iff.mpr (List.mem_cons_of_mem _ hother))
  consumed_sublist := by
    have hlast := h.swapped_sublist batch (hbatch.mem_iff.mpr (by simp))
    simpa [or_imp, forall_and] using ⟨h.consumed_sublist, hlast⟩

theorem Conserves.reorder {current : List α}
    {swapped swapped' consumed : List (List α)} {accepted : List α}
    (h : Conserves ⟨current, swapped, consumed⟩ accepted)
    (hswapped : swapped.Perm swapped') :
    Conserves ⟨current, swapped', consumed⟩ accepted where
  perm := ((hswapped.flatten.symm.append_left current).append_right _).trans h.perm
  current_sublist := h.current_sublist
  swapped_sublist := fun batch hbatch =>
    h.swapped_sublist batch (hswapped.mem_iff.mpr hbatch)
  consumed_sublist := h.consumed_sublist

/-- Once nothing is left in the current batch or swapped out, the consumed
batches hold every accepted record exactly once. -/
theorem Conserves.consumed_perm {consumed : List (List α)} {accepted : List α}
    (h : Conserves ⟨[], [], consumed⟩ accepted) :
    consumed.flatten.Perm accepted := by
  simpa [Places.all] using h.perm

theorem perm_of_getElem? {l : List α} {i : Nat} {a : α} (h : l[i]? = some a) :
    l.Perm (a :: l.eraseIdx i) ∧ ∀ b, (l.set i b).Perm (b :: l.eraseIdx i) := by
  obtain ⟨hi, rfl⟩ := List.getElem?_eq_some_iff.mp h
  exact ⟨(List.getElem_cons_eraseIdx_perm hi).symm, fun b => List.set_perm_cons_eraseIdx hi b⟩

theorem filterMap_singleton_toList {β : Type*} (f : α → Option β) (a : α) :
    [a].filterMap f = (f a).toList := by
  cases h : f a <;> simp [h]

theorem perm_filterMap_set {β : Type*} {f : α → Option β} {l : List α} {i : Nat} {a b : α}
    {store store' : List β} (h : l[i]? = some a)
    (hmove : (store' ++ (f b).toList).Perm (store ++ (f a).toList)) :
    (store' ++ (l.set i b).filterMap f).Perm (store ++ l.filterMap f) := by
  obtain ⟨hpre, hset⟩ := perm_of_getElem? h
  have hpre' := (hpre.filterMap f).append_left store
  have hset' := ((hset b).filterMap f).append_left store'
  rw [← List.singleton_append, List.filterMap_append, filterMap_singleton_toList,
    ← List.append_assoc] at hpre' hset'
  exact hset'.trans ((hmove.append_right _).trans hpre'.symm)

theorem filterMap_length_le {β : Type*} {all kept : α → Option β}
    (hkept : ∀ a, kept a = none ∨ kept a = all a) (xs : List α) :
    (xs.filterMap kept).length ≤ (xs.filterMap all).length := by
  induction xs with
  | nil => simp
  | cons a xs ih =>
      rcases hkept a with h | h
      · cases hall : all a <;> simp [h, hall] <;> omega
      · cases hall : all a <;> simp [h, hall, ih]

theorem filterMap_agree {β : Type*} {all kept : α → Option β}
    (hkept : ∀ a, kept a = none ∨ kept a = all a) {xs : List α}
    (hlength : (xs.filterMap all).length ≤ (xs.filterMap kept).length) :
    ∀ a ∈ xs, kept a = all a := by
  induction xs with
  | nil => simp
  | cons a xs ih =>
      have hle := filterMap_length_le hkept xs
      rcases hkept a with h | h
      · cases hall : all a with
        | none =>
            simp only [List.filterMap_cons, h, hall] at hlength
            simpa [h, hall] using ih hlength
        | some b =>
            simp only [List.filterMap_cons, h, hall, List.length_cons] at hlength
            omega
      · have htail : (xs.filterMap all).length ≤ (xs.filterMap kept).length := by
          cases hall : all a <;> simpa [h, hall] using hlength
        simpa [h] using ih htail

end TwitchChatWorker.Lib.Batching
