import Mathlib.Algebra.Order.Group.Defs
import Mathlib.Algebra.Order.Monoid.Unbundled.Basic
import Mathlib.Data.List.Chain
import Mathlib.Tactic.Common

/-!
A lone alarm that is looked at from time to time.  It rings at the first look that
finds it due; an interval then puts it off, counted from that look.
-/

namespace TwitchChatWorker.Lib.Alarms

/-- When it is due next, and the interval of a repeated one. -/
structure Alarm (τ : Type*) where
  due : τ
  interval : Option τ

variable {τ : Type*} [LinearOrder τ]

namespace Alarm

/-- When the alarm rings in a pass at `now`. -/
def rung (a : Alarm τ) (now : τ) : List τ := if now < a.due then [] else [now]

theorem eq_rung_of_perm {a : Alarm τ} {now : τ} {looks : List τ} (h : looks.Perm (a.rung now)) :
    looks = a.rung now := by
  unfold rung at h ⊢
  split
  next hlt =>
    rw [if_pos hlt] at h
    exact h.eq_nil
  next hle =>
    rw [if_neg hle] at h
    exact List.perm_singleton.mp h

end Alarm

variable [Add τ]

/-- What a look at the time `now` leaves of an alarm. -/
def Alarm.look (a : Alarm τ) (now : τ) : Option (Alarm τ) :=
  if now < a.due then some a else a.interval.map fun i => ⟨now + i, some i⟩

/-- The looks at which an alarm rings. -/
def rings : Option (Alarm τ) → List τ → List τ
  | none, _ => []
  | some _, [] => []
  | some a, now :: looks => a.rung now ++ rings (a.look now) looks

/-- What a number of looks leaves of an alarm. -/
def remaining (alarm : Option (Alarm τ)) (looks : List τ) : Option (Alarm τ) :=
  looks.foldl (fun alarm now => alarm.bind (·.look now)) alarm

@[simp] theorem rings_none (looks : List τ) : rings none looks = [] := by
  cases looks <;> rfl

@[simp] theorem rings_nil (alarm : Option (Alarm τ)) : rings alarm [] = [] := by
  cases alarm <;> rfl

theorem rings_of_lt {a : Alarm τ} {now : τ} (h : now < a.due) (looks : List τ) :
    rings (some a) (now :: looks) = rings (some a) looks := by
  rw [rings, Alarm.rung, Alarm.look, if_pos h, if_pos h, List.nil_append]

theorem rings_of_le {a : Alarm τ} {now : τ} (h : a.due ≤ now) (looks : List τ) :
    rings (some a) (now :: looks) =
      now :: rings (a.interval.map fun i => ⟨now + i, some i⟩) looks := by
  rw [rings, Alarm.rung, Alarm.look, if_neg (not_lt.mpr h), if_neg (not_lt.mpr h),
    List.singleton_append]

theorem remaining_concat (alarm : Option (Alarm τ)) (looks : List τ) (now : τ) :
    remaining alarm (looks ++ [now]) = (remaining alarm looks).bind (·.look now) := by
  rw [remaining, List.foldl_append]
  rfl

theorem remaining_none (looks : List τ) : remaining none looks = (none : Option (Alarm τ)) := by
  induction looks with
  | nil => rfl
  | cons now looks ih => exact ih

theorem rings_concat (alarm : Option (Alarm τ)) (looks : List τ) (now : τ) :
    rings alarm (looks ++ [now]) =
      rings alarm looks ++ ((remaining alarm looks).elim [] fun a => a.rung now) := by
  induction looks generalizing alarm with
  | nil =>
      cases alarm with
      | none => rfl
      | some a => simp [rings, remaining]
  | cons first looks ih =>
      cases alarm with
      | none => simp [remaining_none]
      | some a =>
          rw [List.cons_append, rings, rings, ih, List.append_assoc]
          rfl

/-- An alarm rings when it is due and not before, once unless it has an interval,
then after that interval at the earliest; and where the looks follow on each other
within `d`, it is less than `d` late. -/
structure Punctual (a : Alarm τ) (looks rung : List τ) : Prop where
  notEarly : ∀ now ∈ rung.head?, a.due ≤ now
  once : a.interval = none → rung.length ≤ 1
  apart : ∀ i ∈ a.interval, rung.IsChain fun now next => now + i ≤ next
  rings : (∃ now ∈ looks, a.due ≤ now) → rung ≠ []
  notLate : ∀ last d, last < a.due → ((last :: looks).IsChain fun now next => next ≤ now + d) →
    (∀ now ∈ rung.head?, now < a.due + d) ∧
      ∀ i ∈ a.interval, (∀ now, now < now + i) → rung.IsChain fun now next => next < now + i + d

section Lone

variable (a : Alarm τ) (looks : List τ)

theorem due_le_head : ∀ now ∈ (rings (some a) looks).head?, a.due ≤ now := by
  induction looks with
  | nil => simp
  | cons now looks ih =>
      rcases lt_or_ge now a.due with hlt | hle
      · rw [rings_of_lt hlt]
        exact ih
      · rw [rings_of_le hle]
        simpa using hle

theorem rings_once (hinterval : a.interval = none) : (rings (some a) looks).length ≤ 1 := by
  induction looks with
  | nil => simp
  | cons now looks ih =>
      rcases lt_or_ge now a.due with hlt | hle
      · rw [rings_of_lt hlt]
        exact ih
      · rw [rings_of_le hle, hinterval]
        simp

theorem rings_apart {i : τ} (hinterval : a.interval = some i) :
    (rings (some a) looks).IsChain fun now next => now + i ≤ next := by
  induction looks generalizing a with
  | nil => simp
  | cons now looks ih =>
      rcases lt_or_ge now a.due with hlt | hle
      · rw [rings_of_lt hlt]
        exact ih a hinterval
      · rw [rings_of_le hle, hinterval]
        apply List.isChain_cons.mpr
        constructor
        · exact due_le_head ⟨now + i, some i⟩ looks
        · exact ih ⟨now + i, some i⟩ rfl

theorem rings_ne_nil (hdue : ∃ now ∈ looks, a.due ≤ now) : rings (some a) looks ≠ [] := by
  induction looks with
  | nil => simp at hdue
  | cons now looks ih =>
      rcases lt_or_ge now a.due with hlt | hle
      · rw [rings_of_lt hlt]
        apply ih
        obtain ⟨later, hlater, hle⟩ := hdue
        rcases List.mem_cons.mp hlater with rfl | hlater
        · exact absurd hle (not_le.mpr hlt)
        · exact ⟨later, hlater, hle⟩
      · rw [rings_of_le hle]
        exact List.cons_ne_nil _ _

variable [AddRightStrictMono τ]

theorem head_lt {last d : τ} (hlast : last < a.due)
    (hlooks : (last :: looks).IsChain fun now next => next ≤ now + d) :
    ∀ now ∈ (rings (some a) looks).head?, now < a.due + d := by
  induction looks generalizing last with
  | nil => simp
  | cons now looks ih =>
      obtain ⟨hnow, hrest⟩ := List.isChain_cons_cons.mp hlooks
      rcases lt_or_ge now a.due with hlt | hle
      · rw [rings_of_lt hlt]
        exact ih hlt hrest
      · rw [rings_of_le hle]
        simpa using hnow.trans_lt (add_lt_add_left hlast d)

theorem rings_within {i d last : τ} (hinterval : a.interval = some i)
    (hi : ∀ now : τ, now < now + i) (hlast : last < a.due)
    (hlooks : (last :: looks).IsChain fun now next => next ≤ now + d) :
    (rings (some a) looks).IsChain fun now next => next < now + i + d := by
  induction looks generalizing a last with
  | nil => simp
  | cons now looks ih =>
      obtain ⟨-, hrest⟩ := List.isChain_cons_cons.mp hlooks
      rcases lt_or_ge now a.due with hlt | hle
      · rw [rings_of_lt hlt]
        exact ih a hinterval hlt hrest
      · rw [rings_of_le hle, hinterval]
        apply List.isChain_cons.mpr
        constructor
        · exact head_lt ⟨now + i, some i⟩ looks (hi now) hrest
        · exact ih ⟨now + i, some i⟩ rfl (hi now) hrest

theorem punctual_rings : Punctual a looks (rings (some a) looks) where
  notEarly := due_le_head a looks
  once := rings_once a looks
  apart := fun _ hinterval => rings_apart a looks hinterval
  rings := rings_ne_nil a looks
  notLate := by
    intro last d hlast hlooks
    constructor
    · exact head_lt a looks hlast hlooks
    · intro i hinterval hi
      exact rings_within a looks hinterval hi hlast hlooks

end Lone

end TwitchChatWorker.Lib.Alarms
