import Mathlib.Data.List.Basic
import Mathlib.Tactic.Common

/-!
Request handlers that work on a state, send responses and may throw.  `wp` tells
what holds when a handler ends, with a proposition of choice for the case that
it throws: `False` asks for normal termination, `True` forgives an exception.
-/

namespace TwitchChatWorker.Lib.Handlers

/-- What a handler works on: the state, and the responses sent so far. -/
structure Serving (σ ρ : Type) where
  state : σ
  responses : List ρ

/-- A computation over a state that gives responses and may throw. -/
abbrev Handler (σ ρ ε α : Type) := EStateM ε (Serving σ ρ) α

variable {σ ρ ε α β : Type}

def respond (response : ρ) : Handler σ ρ ε Unit :=
  modify fun s => { s with responses := s.responses ++ [response] }

def readState : Handler σ ρ ε σ := do return (← get).state

def update (f : σ → σ) : Handler σ ρ ε Unit :=
  modify fun s => { s with state := f s.state }

def raise : Except ε α → Handler σ ρ ε α
  | .ok a => pure a
  | .error e => throw e

/-- The handler ends with `post`, or throws and `thrown` holds. -/
def wp (thrown : Prop) (h : Handler σ ρ ε α) (s : Serving σ ρ)
    (post : α → Serving σ ρ → Prop) : Prop :=
  match h s with
  | .ok a s' => post a s'
  | .error _ _ => thrown

variable {thrown : Prop} {s : Serving σ ρ}

theorem wp_bind (h : Handler σ ρ ε α) (f : α → Handler σ ρ ε β)
    (post : β → Serving σ ρ → Prop) :
    wp thrown (h >>= f) s post ↔ wp thrown h s fun a s' => wp thrown (f a) s' post := by
  simp only [wp, bind, EStateM.bind]
  cases h s <;> rfl

theorem wp_pure (a : α) (post : α → Serving σ ρ → Prop) :
    wp thrown (pure a : Handler σ ρ ε α) s post ↔ post a s := Iff.rfl

theorem wp_respond (response : ρ) (post : Unit → Serving σ ρ → Prop) :
    wp thrown (respond response : Handler σ ρ ε Unit) s post ↔
      post () ⟨s.state, s.responses ++ [response]⟩ := Iff.rfl

theorem wp_readState (post : σ → Serving σ ρ → Prop) :
    wp thrown (readState : Handler σ ρ ε σ) s post ↔ post s.state s := Iff.rfl

theorem wp_update (f : σ → σ) (post : Unit → Serving σ ρ → Prop) :
    wp thrown (update f : Handler σ ρ ε Unit) s post ↔ post () ⟨f s.state, s.responses⟩ :=
  Iff.rfl

theorem wp_raise_ok (a : α) (post : α → Serving σ ρ → Prop) :
    wp thrown (raise (.ok a) : Handler σ ρ ε α) s post ↔ post a s := Iff.rfl

theorem wp_raise_error (e : ε) (post : α → Serving σ ρ → Prop) :
    wp thrown (raise (.error e) : Handler σ ρ ε α) s post ↔ thrown := Iff.rfl

theorem wp_raise (x : Except ε α) (post : α → Serving σ ρ → Prop) :
    wp False (raise x : Handler σ ρ ε α) s post ↔ ∃ a, x = .ok a ∧ post a s := by
  cases x with
  | error e => simp [wp_raise_error]
  | ok a => simp [wp_raise_ok]

theorem wp.mono {h : Handler σ ρ ε α} {post post' : α → Serving σ ρ → Prop}
    (hwp : wp thrown h s post) (himp : ∀ a s', post a s' → post' a s') :
    wp thrown h s post' := by
  unfold wp at *
  split <;> simp_all

theorem wp.iff {h : Handler σ ρ ε α} {post post' : α → Serving σ ρ → Prop} {q : Prop}
    (hwp : wp False h s post) (hiff : ∀ a s', post a s' → (post' a s' ↔ q)) :
    wp False h s post' ↔ q := by
  unfold wp at *
  split at hwp
  · exact hiff _ _ hwp
  · exact hwp.elim

/-- A loop whose invariant follows the rounds that it has made. -/
theorem wp_foldlM_done {f : β → α → Handler σ ρ ε β} (inv : List α → β → Serving σ ρ → Prop)
    {xs : List α} {b : β} (hs : inv [] b s)
    (hround : ∀ done, ∀ x ∈ xs, ∀ b s, inv done b s →
      wp thrown (f b x) s (inv (done ++ [x]))) :
    wp thrown (xs.foldlM f b) s (inv xs) := by
  have hall (done : List α) (hdone : inv done b s) :
      wp thrown (xs.foldlM f b) s (inv (done ++ xs)) := by
    clear hs
    induction xs generalizing b s done with
    | nil =>
        rw [List.append_nil]
        exact hdone
    | cons x xs ih =>
        rw [List.foldlM_cons, wp_bind]
        apply (hround done x List.mem_cons_self b s hdone).mono
        intro b' s' hs'
        rw [List.append_cons]
        exact ih (fun done x' hx' => hround done x' (List.mem_cons_of_mem _ hx')) _ hs'
  exact hall [] hs

/-- A loop keeps what each of its rounds keeps. -/
theorem wp_foldlM_acc {f : β → α → Handler σ ρ ε β} (inv : β → Serving σ ρ → Prop) {xs : List α}
    {b : β} (hs : inv b s) (hround : ∀ x ∈ xs, ∀ b s, inv b s → wp thrown (f b x) s inv) :
    wp thrown (xs.foldlM f b) s inv :=
  wp_foldlM_done (fun _ => inv) hs fun _ => hround

theorem wp_foldlM {f : β → α → Handler σ ρ ε β} (inv : Serving σ ρ → Prop) {xs : List α}
    {b : β} (hs : inv s)
    (hround : ∀ x ∈ xs, ∀ b s, inv s → wp thrown (f b x) s fun _ s' => inv s') :
    wp thrown (xs.foldlM f b) s fun _ s' => inv s' :=
  wp_foldlM_acc (fun _ s' => inv s') hs hround

/-- A loop whose rounds end for good elements only, and keep the invariant then. -/
theorem wp_foldlM_iff {f : β → α → Handler σ ρ ε β} (inv : List α → β → Serving σ ρ → Prop)
    {post : β → Serving σ ρ → Prop} {good : α → Prop} {q : Prop} {xs : List α} {b : β}
    (hs : inv [] b s)
    (hgood : ∀ done, ∀ x ∈ xs, good x → ∀ b s, inv done b s →
      wp False (f b x) s (inv (done ++ [x])))
    (hends : ∀ done, ∀ x ∈ xs, ∀ b s, inv done b s → wp False (f b x) s (fun _ _ => True) → good x)
    (hpost : ∀ b s', inv xs b s' → (post b s' ↔ q)) :
    wp False (xs.foldlM f b) s post ↔ (∀ x ∈ xs, good x) ∧ q := by
  have hall (done : List α) (hdone : inv done b s)
      (hend : ∀ b s', inv (done ++ xs) b s' → (post b s' ↔ q)) :
      wp False (xs.foldlM f b) s post ↔ (∀ x ∈ xs, good x) ∧ q := by
    clear hs hpost
    induction xs generalizing b s done with
    | nil =>
        rw [List.append_nil] at hend
        rw [List.foldlM_nil, wp_pure, hend b s hdone]
        simp
    | cons x xs ih =>
        rw [List.foldlM_cons, wp_bind, List.forall_mem_cons, and_assoc]
        by_cases hx : good x
        · refine ((hgood done x List.mem_cons_self hx b s hdone).iff fun b' s' hs' => ?_).trans
            (and_iff_right hx).symm
          rw [List.append_cons] at hend
          refine ih ?_ ?_ _ hs' hend
          · exact fun done x' hx' => hgood done x' (List.mem_cons_of_mem _ hx')
          · exact fun done x' hx' => hends done x' (List.mem_cons_of_mem _ hx')
        · refine iff_of_false (fun hwp => ?_) fun h => hx h.1
          exact hx (hends done x List.mem_cons_self b s hdone (hwp.mono fun _ _ _ => trivial))
  exact hall [] hs hpost

/-- Started in a state with `pre`, the handler throws or ends in one with `post`. -/
def Ensures (pre post : σ → Prop) (h : Handler σ ρ ε α) : Prop :=
  ∀ s : Serving σ ρ, pre s.state → wp True h s fun _ s' => post s'.state

/-- The handler throws or ends with the invariant that it was started with. -/
abbrev Keeps (inv : σ → Prop) (h : Handler σ ρ ε α) : Prop := Ensures inv inv h

variable {pre mid post inv : σ → Prop}

theorem keeps_pure (a : α) : Keeps inv (pure a : Handler σ ρ ε α) := fun _ hs => hs

theorem ensures_respond (himp : ∀ a, pre a → post a) (response : ρ) :
    Ensures pre post (respond response : Handler σ ρ ε Unit) :=
  fun s hs => himp s.state hs

theorem keeps_respond (response : ρ) : Keeps inv (respond response : Handler σ ρ ε Unit) :=
  ensures_respond (fun _ h => h) response

theorem keeps_raise (x : Except ε α) : Keeps inv (raise x : Handler σ ρ ε α) := by
  intro s hs
  cases x with
  | error e => trivial
  | ok a => exact hs

theorem ensures_update {f : σ → σ} (hf : ∀ a, pre a → post (f a)) :
    Ensures pre post (update f : Handler σ ρ ε Unit) :=
  fun s hs => hf s.state hs

theorem Ensures.bind {h : Handler σ ρ ε α} {f : α → Handler σ ρ ε β} (hh : Ensures pre mid h)
    (hf : ∀ a, Ensures mid post (f a)) : Ensures pre post (h >>= f) := by
  intro s hs
  rw [wp_bind]
  exact (hh s hs).mono fun a s' hs' => hf a s' hs'

theorem ensures_readState_bind {f : σ → Handler σ ρ ε β}
    (hf : ∀ a, Ensures (fun a' => a' = a ∧ pre a') post (f a)) :
    Ensures pre post (readState >>= f) := by
  intro s hs
  rw [wp_bind, wp_readState]
  exact hf s.state s ⟨rfl, hs⟩

theorem keeps_readState_bind {f : σ → Handler σ ρ ε β} (hf : ∀ a, Keeps inv (f a)) :
    Keeps inv (readState >>= f) :=
  ensures_readState_bind fun a s hs => hf a s hs.2

theorem keeps_foldlM {f : β → α → Handler σ ρ ε β} {xs : List α} {b : β}
    (hf : ∀ x ∈ xs, ∀ b, Keeps inv (f b x)) : Keeps inv (xs.foldlM f b) :=
  fun _ hs => wp_foldlM (fun s => inv s.state) hs fun x hx b s hs => hf x hx b s hs

end TwitchChatWorker.Lib.Handlers
