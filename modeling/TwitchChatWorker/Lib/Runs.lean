import Mathlib.Data.List.Basic
import Mathlib.Data.List.Induction
import Mathlib.Tactic.Common

/-!
Finite runs of a partial step function.  An event that is impossible, or whose
effect the modelled program leaves undefined, has no successor state, so a run
contains only steps that really take place.
-/

namespace TwitchChatWorker.Lib.Runs

/-- One step of a run: the state before it, its event and the state after it. -/
structure Transition (σ ε : Type*) where
  pre : σ
  event : ε
  post : σ

/-- The runs of `step` from `start`, with the transitions they take in order
and the state they reach. -/
inductive Run {σ ε : Type*} (step : σ → ε → Option σ) (start : σ) :
    List (Transition σ ε) → σ → Prop where
  | nil : Run step start [] start
  | snoc {trace : List (Transition σ ε)} {s : σ} {e : ε} {s' : σ} :
      Run step start trace s → step s e = some s' →
      Run step start (trace ++ [⟨s, e, s'⟩]) s'

variable {σ ε : Type*} {step : σ → ε → Option σ} {start : σ}

/-- The state after the events, where each of them is possible. -/
def exec (step : σ → ε → Option σ) : σ → List ε → Option σ
  | s, [] => some s
  | s, e :: es =>
      match step s e with
      | some s' => exec step s' es
      | none => none

/-- The transitions taken by a list of events, up to the first event that has
no successor state. -/
def trace (step : σ → ε → Option σ) : σ → List ε → List (Transition σ ε)
  | _, [] => []
  | s, e :: es =>
      match step s e with
      | some s' => ⟨s, e, s'⟩ :: trace step s' es
      | none => []

theorem event_mem_of_mem_trace {es : List ε} {s : σ} {t : Transition σ ε}
    (ht : t ∈ trace step s es) : t.event ∈ es := by
  induction es generalizing s with
  | nil => simp [trace] at ht
  | cons e es ih =>
      simp only [trace] at ht
      split at ht
      · rcases List.mem_cons.mp ht with rfl | ht
        · exact List.mem_cons_self
        · exact List.mem_cons_of_mem _ (ih ht)
      · simp at ht

/-- Steps that all bring a measure down are at most as many as it can fall. -/
theorem length_add_le_of_exec {measure : σ → Nat} {own : ε → Prop}
    (hfall : ∀ s e s', own e → step s e = some s' → measure s' < measure s)
    {es : List ε} {s s' : σ} (hown : ∀ e ∈ es, own e) (hexec : exec step s es = some s') :
    es.length + measure s' ≤ measure s := by
  induction es generalizing s with
  | nil =>
      obtain rfl := Option.some.inj hexec
      simp
  | cons e es ih =>
      simp only [exec] at hexec
      split at hexec
      next s₁ hstep =>
        have hlt := hfall s e s₁ (hown e List.mem_cons_self) hstep
        have hrest := ih (fun e' he' => hown e' (List.mem_cons_of_mem _ he')) hexec
        rw [List.length_cons]
        omega
      · simp at hexec

theorem Run.append_trace {tr : List (Transition σ ε)} {s : σ}
    (hrun : Run step start tr s) {es : List ε} {s' : σ}
    (hexec : exec step s es = some s') :
    Run step start (tr ++ trace step s es) s' := by
  induction es generalizing tr s with
  | nil =>
      obtain rfl : s = s' := by simpa [exec] using hexec
      simpa [trace] using hrun
  | cons e es ih =>
      simp only [exec] at hexec
      cases hstep : step s e with
      | none => simp [hstep] at hexec
      | some s₁ =>
          rw [hstep] at hexec
          have hnext := ih (hrun.snoc hstep) hexec
          simpa [trace, hstep] using hnext

theorem run_of_exec {es : List ε} {s : σ} (hexec : exec step start es = some s) :
    Run step start (trace step start es) s := by
  have hnil : Run step start [] start := .nil
  simpa using hnil.append_trace hexec

theorem run_trace (es : List ε) (h : (exec step start es).isSome) :
    Run step start (trace step start es) ((exec step start es).get h) :=
  run_of_exec (Option.some_get h).symm

/-- A state property that holds at the start and is kept by every step whose
transition meets `guard` holds after every run that meets `guard`. -/
theorem Run.invariant {inv : σ → Prop} (guard : Transition σ ε → Prop)
    (hstart : inv start)
    (hstep : ∀ s e s', inv s → guard ⟨s, e, s'⟩ → step s e = some s' → inv s')
    {tr : List (Transition σ ε)} {s : σ} (hrun : Run step start tr s)
    (hguard : ∀ t ∈ tr, guard t) : inv s := by
  induction hrun with
  | nil => exact hstart
  | snoc _ he ih =>
      have hpre := ih fun t ht => hguard t (by simp [ht])
      exact hstep _ _ _ hpre (hguard _ (by simp)) he

/-- `Run.invariant` for a property that every step keeps. -/
theorem Run.always {inv : σ → Prop} (hstart : inv start)
    (hstep : ∀ s e s', inv s → step s e = some s' → inv s')
    {tr : List (Transition σ ε)} {s : σ} (hrun : Run step start tr s) : inv s :=
  hrun.invariant (fun _ => True) hstart (fun s e s' h _ he => hstep s e s' h he)
    fun _ _ => trivial

/-- The history version of `Run.invariant`: the property may look at the
transitions taken so far. -/
theorem Run.historyInvariant {inv : List (Transition σ ε) → σ → Prop}
    (guard : List (Transition σ ε) → Transition σ ε → Prop)
    (hstart : inv [] start)
    (hstep : ∀ tr s e s', Run step start tr s → inv tr s →
      guard tr ⟨s, e, s'⟩ → step s e = some s' → inv (tr ++ [⟨s, e, s'⟩]) s')
    {tr : List (Transition σ ε)} {s : σ} (hrun : Run step start tr s)
    (hguard : ∀ past t future, tr = past ++ t :: future → guard past t) :
    inv tr s := by
  induction hrun with
  | nil => exact hstart
  | @snoc tr s e s' hprev he ih =>
      have hpre := ih fun past t future h =>
        hguard past t (future ++ [⟨s, e, s'⟩]) (by simp [h])
      exact hstep tr s e s' hprev hpre (hguard tr _ [] (by simp)) he

theorem Run.step_of_split {tr : List (Transition σ ε)} {s : σ}
    (hrun : Run step start tr s) :
    ∀ past t future, tr = past ++ t :: future →
      Run step start past t.pre ∧ step t.pre t.event = some t.post := by
  induction hrun with
  | nil => intro past t future h; simp at h
  | @snoc tr s e s' hprev he ih =>
      intro past t future h
      rcases List.eq_nil_or_concat future with rfl | ⟨future', last, rfl⟩
      · obtain ⟨rfl, htail⟩ := List.append_inj' h rfl
        simp only [List.cons.injEq, and_true] at htail
        subst htail
        exact ⟨hprev, he⟩
      · simp only [List.concat_eq_append] at h
        rw [← List.cons_append, ← List.append_assoc] at h
        obtain ⟨hinit, -⟩ := List.append_inj' h rfl
        exact ih past t future' hinit

theorem Run.step_of_mem {tr : List (Transition σ ε)} {s : σ}
    (hrun : Run step start tr s) {t : Transition σ ε} (ht : t ∈ tr) :
    ∃ past, Run step start past t.pre ∧ step t.pre t.event = some t.post := by
  obtain ⟨past, future, rfl⟩ := List.append_of_mem ht
  exact ⟨past, hrun.step_of_split past t future rfl⟩

theorem Run.of_snoc {tr : List (Transition σ ε)} {t : Transition σ ε} {s : σ}
    (hrun : Run step start (tr ++ [t]) s) : Run step start tr t.pre ∧ t.post = s := by
  generalize hall : tr ++ [t] = all at hrun
  cases hrun with
  | nil => simp at hall
  | snoc hprev he =>
      obtain ⟨rfl, hlast⟩ := List.append_inj' hall rfl
      simp only [List.cons.injEq, and_true] at hlast
      subst hlast
      exact ⟨hprev, rfl⟩

/-- A property that holds after a transition and no longer at the end has been
lost in one of the transitions between. -/
theorem Run.exists_lost {p : σ → Prop} {past between : List (Transition σ ε)}
    {t : Transition σ ε} {s : σ} (hrun : Run step start (past ++ t :: between) s)
    (ht : p t.post) (hs : ¬p s) : ∃ u ∈ between, p u.pre ∧ ¬p u.post := by
  induction between using List.reverseRecOn generalizing s with
  | nil =>
      obtain ⟨-, rfl⟩ := hrun.of_snoc
      exact absurd ht hs
  | append_singleton between last ih =>
      rw [← List.cons_append, ← List.append_assoc] at hrun
      obtain ⟨hprev, rfl⟩ := hrun.of_snoc
      by_cases hlast : p last.pre
      · exact ⟨last, by simp, hlast, hs⟩
      · obtain ⟨u, hu, hlost⟩ := ih hprev hlast
        exact ⟨u, List.mem_append_left _ hu, hlost⟩

theorem Run.lasts {p : σ → Prop} (hkeep : ∀ s e s', p s → step s e = some s' → p s')
    {past between : List (Transition σ ε)} {t : Transition σ ε} {s : σ}
    (hrun : Run step start (past ++ t :: between) s) (ht : p t.post) : p s := by
  by_contra hs
  obtain ⟨u, hu, hpre, hpost⟩ := hrun.exists_lost ht hs
  obtain ⟨-, -, hstep⟩ := hrun.step_of_mem
    (List.mem_append_right past (List.mem_cons_of_mem t hu))
  exact hpost (hkeep _ _ _ hpre hstep)

/-- When a step is sound exactly when it meets `guard`, and sound steps keep what
this rests on, a run has only sound steps exactly when all of them meet `guard`.
The assumption `base` is available at every step. -/
theorem Run.forall_step_iff (inv : σ → Prop) (base sound guard : Transition σ ε → Prop)
    (hstart : inv start)
    (hstep : ∀ s e s', inv s → base ⟨s, e, s'⟩ → step s e = some s' →
      (sound ⟨s, e, s'⟩ ↔ guard ⟨s, e, s'⟩))
    (hkeep : ∀ s e s', inv s → base ⟨s, e, s'⟩ → step s e = some s' →
      sound ⟨s, e, s'⟩ → inv s')
    {tr : List (Transition σ ε)} {s : σ} (hrun : Run step start tr s)
    (hbase : ∀ t ∈ tr, base t) :
    (∀ t ∈ tr, sound t) ↔ ∀ t ∈ tr, guard t := by
  suffices h : ((∀ t ∈ tr, sound t) ↔ ∀ t ∈ tr, guard t) ∧ ((∀ t ∈ tr, sound t) → inv s) from
    h.1
  induction hrun with
  | nil => exact ⟨by simp, fun _ => hstart⟩
  | @snoc tr s e s' hprev he ih =>
      obtain ⟨hiff, hinv⟩ := ih fun t ht => hbase t (by simp [ht])
      have hb := hbase ⟨s, e, s'⟩ (by simp)
      simp only [List.mem_append, List.mem_singleton, or_imp, forall_and, forall_eq]
      refine ⟨?_, fun ⟨hall, hlast⟩ => hkeep s e s' (hinv hall) hb he hlast⟩
      constructor
      · rintro ⟨hall, hlast⟩
        exact ⟨hiff.mp hall, (hstep s e s' (hinv hall) hb he).mp hlast⟩
      · rintro ⟨hall, hlast⟩
        have hsound := hiff.mpr hall
        exact ⟨hsound, (hstep s e s' (hinv hsound) hb he).mpr hlast⟩

/-- When `good` holds at the start and, from good states, a step ends in a good
state exactly when it meets `guard`, a run stays in good states exactly when
all its transitions meet `guard`.  The side invariant `inv` and the assumption
`base` are available at every step. -/
theorem Run.forall_good_iff (inv good : σ → Prop) (base guard : Transition σ ε → Prop)
    (hinv : inv start) (hgood : good start)
    (hinvStep : ∀ s e s', inv s → base ⟨s, e, s'⟩ → step s e = some s' → inv s')
    (hgoodStep : ∀ s e s', inv s → base ⟨s, e, s'⟩ → step s e = some s' →
      good s → (good s' ↔ guard ⟨s, e, s'⟩))
    {tr : List (Transition σ ε)} {s : σ} (hrun : Run step start tr s)
    (hbase : ∀ t ∈ tr, base t) :
    (∀ t ∈ tr, good t.post) ↔ ∀ t ∈ tr, guard t := by
  refine hrun.forall_step_iff (fun s => inv s ∧ good s) base (fun t => good t.post) guard
    ⟨hinv, hgood⟩ ?_ ?_ hbase
  · rintro s e s' ⟨hs, hgoodPre⟩ hb he
    exact hgoodStep s e s' hs hb he hgoodPre
  · rintro s e s' ⟨hs, -⟩ hb he hgoodPost
    exact ⟨hinvStep s e s' hs hb he, hgoodPost⟩

/-- A run whose steps are matched by moves of another system from related
states is matched by a run of that system. -/
theorem Run.simulates {τ μ : Type*} {move : τ → μ → Option τ} {origin : τ} {R : σ → τ → Prop}
    (guard : Transition σ ε → Prop) (hstart : R start origin)
    (hstep : ∀ s e s' x, R s x → guard ⟨s, e, s'⟩ → step s e = some s' →
      ∃ moves x', exec move x moves = some x' ∧ R s' x')
    {tr : List (Transition σ ε)} {s : σ} (hrun : Run step start tr s)
    (hguard : ∀ t ∈ tr, guard t) : ∃ tr' x, Run move origin tr' x ∧ R s x := by
  induction hrun with
  | nil => exact ⟨[], origin, .nil, hstart⟩
  | @snoc tr s e s' _ he ih =>
      obtain ⟨tr', x, hmoved, hrel⟩ := ih fun t ht => hguard t (by simp [ht])
      obtain ⟨moves, x', hmoves, hrel'⟩ := hstep s e s' x hrel (hguard _ (by simp)) he
      exact ⟨_, x', hmoved.append_trace hmoves, hrel'⟩

theorem exec_append {es es' : List ε} {s s' : σ} (hexec : exec step s es = some s') :
    exec step s (es ++ es') = exec step s' es' := by
  induction es generalizing s with
  | nil =>
      obtain rfl := Option.some.inj hexec
      rfl
  | cons e es ih =>
      simp only [exec] at hexec
      split at hexec
      next s₁ hstep =>
        simp only [List.cons_append, exec, hstep]
        exact ih hexec
      · simp at hexec

theorem Run.exec_events {tr : List (Transition σ ε)} {s : σ} (hrun : Run step start tr s) :
    exec step start (tr.map Transition.event) = some s := by
  induction hrun with
  | nil => rfl
  | snoc _ he ih =>
      rw [List.map_append, exec_append ih]
      simp [exec, he]

/-- A part of a system goes through a run of its own when every step of the
system is one of its steps or leaves it as it is. -/
theorem Run.project {τ μ : Type*} {move : τ → μ → Option τ} (part : σ → τ)
    (own : Transition σ ε → Option μ)
    (hstep : ∀ s e s', step s e = some s' →
      (own ⟨s, e, s'⟩ = none ∧ part s' = part s) ∨
        ∃ m, own ⟨s, e, s'⟩ = some m ∧ move (part s) m = some (part s'))
    {tr : List (Transition σ ε)} {s : σ} (hrun : Run step start tr s) :
    Run move (part start)
      (tr.filterMap fun t => (own t).map fun m => ⟨part t.pre, m, part t.post⟩) (part s) := by
  induction hrun with
  | nil => exact .nil
  | @snoc tr s e s' _ he ih =>
      rw [List.filterMap_append]
      rcases hstep s e s' he with ⟨hnone, hsame⟩ | ⟨m, hsome, hmove⟩
      · simpa [hnone, hsame] using ih
      · simpa [hsome] using ih.snoc hmove

/-- A queue gives out what it had and what it was given, in order; the rest is
still in it. -/
theorem Run.fifo {α : Type*} (inv : σ → Prop) (queue : σ → List α)
    (given taken : Transition σ ε → List α) (hstart : inv start)
    (hinv : ∀ s e s', inv s → step s e = some s' → inv s')
    (hstep : ∀ s e s', inv s → step s e = some s' →
      queue s ++ given ⟨s, e, s'⟩ = taken ⟨s, e, s'⟩ ++ queue s')
    {tr : List (Transition σ ε)} {s : σ} (hrun : Run step start tr s) :
    queue start ++ tr.flatMap given = tr.flatMap taken ++ queue s := by
  induction hrun with
  | nil => simp
  | @snoc tr s e s' hprev he ih =>
      have hs : inv s := hprev.always hstart hinv
      rw [List.flatMap_append, List.flatMap_append, ← List.append_assoc, ih, List.append_assoc,
        List.append_assoc, List.flatMap_singleton, List.flatMap_singleton, hstep s e s' hs he]

end TwitchChatWorker.Lib.Runs
