import Mathlib.Data.List.Basic
import Mathlib.Logic.ExistsUnique
import Mathlib.Logic.Function.Basic
import Mathlib.Tactic.Common

/-!
Numbered resources that a system gives out and takes back.  A number may be
given out again once it has been closed, so a resource is a position in the
list of all that were obtained, newest first.
-/

namespace TwitchChatWorker.Lib.Descriptors

/-- A resource with the times that its number was closed while it was the newest
of that number. -/
structure Descriptor (ν : Type*) where
  number : ν
  closes : Nat
deriving DecidableEq

/-- Descriptors that were given out, with how often each was closed. -/
abbrev Ledger (ν : Type*) := List (Descriptor ν)

namespace Ledger

variable {ν : Type*} {ι : Type*}

def obtain (ledger : Ledger ν) (number : ν) : Ledger ν := ⟨number, 0⟩ :: ledger

/-- The number stands for a descriptor that has not been closed. -/
def IsOpen (ledger : Ledger ν) (number : ν) : Prop :=
  ∃ descriptor ∈ ledger, descriptor.number = number ∧ descriptor.closes = 0

instance [DecidableEq ν] (ledger : Ledger ν) : DecidablePred ledger.IsOpen :=
  fun _ => inferInstanceAs (Decidable (∃ descriptor ∈ ledger, _))

/-- Closing a number that was never given out has no effect. -/
def close [DecidableEq ν] (number : ν) : Ledger ν → Ledger ν
  | [] => []
  | descriptor :: older =>
      if descriptor.number = number then
        { descriptor with closes := descriptor.closes + 1 } :: older
      else descriptor :: close number older

/-- Each resource is held by exactly one holder or was closed exactly once, and
what is held is open. -/
structure Accounted (ledger : Ledger ν) (held : ι → Option ν) : Prop where
  once : ∀ descriptor ∈ ledger,
    (descriptor.closes = 0 ∧ ∃! holder, held holder = some descriptor.number) ∨
      descriptor.closes = 1
  isOpen : ∀ holder number, held holder = some number → ledger.IsOpen number

theorem accounted_nil (ι : Type*) : Accounted ([] : Ledger ν) fun _ : ι => none :=
  ⟨fun _ h => absurd h List.not_mem_nil, fun _ _ h => absurd h (by simp)⟩

theorem isOpen_obtain {ledger : Ledger ν} {number other : ν} :
    (ledger.obtain number).IsOpen other ↔ number = other ∨ ledger.IsOpen other := by
  simp [IsOpen, obtain]

section

variable [DecidableEq ν]

@[simp] theorem length_close (ledger : Ledger ν) (number : ν) :
    (close number ledger).length = ledger.length := by
  induction ledger with
  | nil => rfl
  | cons descriptor older ih =>
      rw [close]
      split
      · rfl
      · rw [List.length_cons, ih, List.length_cons]

theorem close_eq_self {ledger : Ledger ν} {number : ν}
    (h : ∀ descriptor ∈ ledger, descriptor.number ≠ number) : close number ledger = ledger := by
  induction ledger with
  | nil => rfl
  | cons descriptor older ih =>
      rw [close, if_neg (h descriptor List.mem_cons_self),
        ih fun other hother => h other (List.mem_cons_of_mem _ hother)]

end

variable [DecidableEq ι]

theorem Accounted.obtain {ledger : Ledger ν} {held : ι → Option ν} (h : ledger.Accounted held)
    {holder : ι} (hfree : held holder = none) {number : ν} (hnew : ¬ledger.IsOpen number) :
    (ledger.obtain number).Accounted (Function.update held holder (some number)) := by
  constructor
  · intro descriptor hmem
    rcases List.mem_cons.mp hmem with rfl | hmem
    · refine .inl ⟨rfl, holder, Function.update_self .., ?_⟩
      intro other hother
      by_contra hne
      rw [Function.update_of_ne hne] at hother
      exact hnew (h.isOpen other number hother)
    · rcases h.once descriptor hmem with ⟨hopen, owner, howner, hunique⟩ | hclosed
      · have hne : owner ≠ holder := by
          rintro rfl
          rw [hfree] at howner
          exact absurd howner (by simp)
        refine .inl ⟨hopen, owner, by simp only [Function.update_of_ne hne, howner], ?_⟩
        intro other hother
        by_cases hholder : other = holder
        · rw [hholder, Function.update_self] at hother
          exact absurd ⟨descriptor, hmem, (Option.some.inj hother).symm, hopen⟩ hnew
        · rw [Function.update_of_ne hholder] at hother
          exact hunique other hother
      · exact .inr hclosed
  · intro other number' hother
    rw [isOpen_obtain]
    by_cases hholder : other = holder
    · rw [hholder, Function.update_self] at hother
      exact .inl (Option.some.inj hother)
    · rw [Function.update_of_ne hholder] at hother
      exact .inr (h.isOpen other number' hother)

end Ledger

end TwitchChatWorker.Lib.Descriptors
