import Mathlib.Logic.Function.Basic
import TwitchChatWorker.Lib.Batching
import TwitchChatWorker.SelectorPool

/-!
The threads of the selectors (`IRCSelector::run`).  A selector drives the
sessions of its own copy of the list, and looks for changes of the list only at
the start of a round.  A removal takes the session from every selector, so with
sessions of their own several selectors have none that is defined.
-/

namespace TwitchChatWorker.SelectorLoops

open TwitchChatWorker.Lib.Batching
open TwitchChatWorker.Lib.Runs
open TwitchChatWorker.SelectorPool

variable {Session : Type*} [DecidableEq Session]

/-- `maxfd` tells whether a descriptor was added. -/
inductive Phase (Session : Type*) where
  | checking
  | collecting (left : List Session) (maxfd : Bool)
  | sleeping
  | processing (left : List Session)
  | returned
deriving DecidableEq

/-- The moves of a thread through its loop. -/
inductive Move where
  /-- The thread enters the loop and takes the mutex. -/
  | check
  | collect (connected added : Bool)
  | select
  | process
  | again
  /-- The thread leaves the loop. -/
  | leave
deriving DecidableEq

/-- The pool, where each thread stands and whether the service is terminated. -/
structure State (Session : Type*) where
  pool : IRCSelectorPool Session
  phase : Nat → Phase Session := fun _ => .checking
  terminated : Bool := false

/-- What a session is for the selector does not change the course of a round. -/
def advance (terminated : Bool) (selector : IRCSelector Session) :
    Phase Session → Move → Option (IRCSelector Session × Phase Session)
  | .checking, .check =>
      if terminated then none
      else some (selector.sync, .collecting selector.sync.threadSafeCopy false)
  | .checking, .leave => if terminated then some (selector, .returned) else none
  | .collecting (_ :: left) maxfd, .collect connected added =>
      some (selector, .collecting left (maxfd || connected && added))
  | .collecting [] maxfd, .select =>
      some (selector, if maxfd then .processing selector.threadSafeCopy else .sleeping)
  | .processing (_ :: left), .process => some (selector, .processing left)
  | .processing [], .again => some (selector, .checking)
  | .sleeping, .again => some (selector, .checking)
  | _, _ => none

/-- Additions and removals of sessions, the termination and the moves of the threads. -/
inductive Event (Session : Type*) where
  | addSession (session : Session)
  | removeSession (session : Session)
  /-- `SysSignal::setServiceTerminated(true)`. -/
  | terminate
  | selector (i : Nat) (move : Move)
deriving DecidableEq

def step (s : State Session) : Event Session → Option (State Session)
  | .addSession session => (s.pool.addSession session).map fun pool => { s with pool := pool }
  | .removeSession session =>
      (s.pool.removeSession session).map fun pool => { s with pool := pool }
  | .terminate => some { s with terminated := true }
  | .selector i move =>
      match s.pool.selectors[i]? with
      | none => none
      | some selector =>
          (advance s.terminated selector (s.phase i) move).map fun (selector, phase) =>
            { s with
              pool := { s.pool with selectors := s.pool.selectors.set i selector }
              phase := Function.update s.phase i phase }

/-- The session that a move asks for its state or descriptors, or processes. -/
def driven : Phase Session → Move → Option Session
  | .collecting (session :: _) _, .collect _ _ => some session
  | .processing (session :: _), .process => some session
  | _, _ => none

/-- The session that the thread drives in the step. -/
def drivenBy (i : Nat) (t : Transition (State Session) (Event Session)) : Option Session :=
  match t.event with
  | .selector j move => if j = i then driven (t.pre.phase i) move else none
  | _ => none

def addedBy : Event Session → Option Session
  | .addSession session => some session
  | _ => none

/-- The sessions added along the run. -/
def added (tr : List (Transition (State Session) (Event Session))) : List Session :=
  tr.filterMap fun t => addedBy t.event

/-- What the thread drives along the run. -/
def drivenIn (i : Nat) (tr : List (Transition (State Session) (Event Session))) :
    List Session :=
  tr.filterMap (drivenBy i)

/-- The sessions that a selector has in one of its lists. -/
def known (s : State Session) (i : Nat) : List Session :=
  match s.pool.selectors[i]? with
  | none => []
  | some selector => selector.sessions ++ selector.threadSafeCopy

/-- The sessions that the thread has before it in the round. -/
def Phase.left : Phase Session → List Session
  | .collecting left _ | .processing left => left
  | _ => []

section Steps

variable {s s' : State Session}

omit [DecidableEq Session] in
theorem mem_known {i : Nat} {session : Session} :
    session ∈ known s i ↔ ∃ selector : IRCSelector Session,
      s.pool.selectors[i]? = some selector ∧
        (session ∈ selector.sessions ∨ session ∈ selector.threadSafeCopy) := by
  unfold known
  split
  next hnone => simp [hnone]
  next selector hselector => simp [hselector]

omit [DecidableEq Session] in
theorem addSession_eq_some {pool pool' : IRCSelectorPool Session} {session : Session}
    (h : pool.addSession session = some pool') :
    ∃ k, pool'.selectors = pool.selectors.modify k (·.addSession session) := by
  simp only [IRCSelectorPool.addSession, IRCSelectorPool.getNextSelectorRoundRobin] at h
  split at h
  next i next hnext =>
    split at hnext
    · obtain ⟨rfl, rfl⟩ := Prod.mk.inj (Option.some.inj hnext)
      obtain rfl := Option.some.inj h
      exact ⟨_, rfl⟩
    · simp at hnext
  · simp at h

theorem removeSession_eq_some {pool pool' : IRCSelectorPool Session} {session : Session}
    (h : pool.removeSession session = some pool') :
    (∀ selector ∈ pool.selectors, session ∈ selector.sessions) ∧
      pool'.selectors = pool.selectors.map (·.erased session) := by
  simp only [IRCSelectorPool.removeSession] at h
  split at h
  next selectors hall =>
    obtain rfl := Option.some.inj h
    exact removeFromAll_eq_some_iff.mp hall
  · simp at h

omit [DecidableEq Session] in
/-- A round starts with a copy of the list if this has changed, and goes through
the copy twice. -/
theorem advance_cases {terminated : Bool} {selector selector' : IRCSelector Session}
    {phase phase' : Phase Session} {move : Move}
    (h : advance terminated selector phase move = some (selector', phase')) :
    (move = .check ∧ selector' = selector.sync ∧ phase'.left = selector'.threadSafeCopy) ∨
      (move ≠ .check ∧ selector' = selector ∧
        (phase'.left <:+ phase.left ∨ phase'.left <:+ selector.threadSafeCopy)) := by
  unfold advance at h
  split at h
  · split_ifs at h
    obtain ⟨rfl, rfl⟩ := Prod.mk.inj (Option.some.inj h)
    exact Or.inl ⟨rfl, rfl, rfl⟩
  · split_ifs at h
    obtain ⟨rfl, rfl⟩ := Prod.mk.inj (Option.some.inj h)
    exact Or.inr ⟨by simp, rfl, Or.inl List.nil_suffix⟩
  · obtain ⟨rfl, rfl⟩ := Prod.mk.inj (Option.some.inj h)
    exact Or.inr ⟨by simp, rfl, Or.inl (List.suffix_cons _ _)⟩
  · obtain ⟨rfl, rfl⟩ := Prod.mk.inj (Option.some.inj h)
    refine Or.inr ⟨by simp, rfl, Or.inr ?_⟩
    split
    · exact List.suffix_rfl
    · exact List.nil_suffix
  · obtain ⟨rfl, rfl⟩ := Prod.mk.inj (Option.some.inj h)
    exact Or.inr ⟨by simp, rfl, Or.inl (List.suffix_cons _ _)⟩
  · obtain ⟨rfl, rfl⟩ := Prod.mk.inj (Option.some.inj h)
    exact Or.inr ⟨by simp, rfl, Or.inl List.nil_suffix⟩
  · obtain ⟨rfl, rfl⟩ := Prod.mk.inj (Option.some.inj h)
    exact Or.inr ⟨by simp, rfl, Or.inl List.nil_suffix⟩
  · simp at h

theorem step_cases {e : Event Session} (hstep : step s e = some s') :
    (∃ session pool k, e = .addSession session ∧ s' = { s with pool := pool } ∧
      pool.selectors = s.pool.selectors.modify k (·.addSession session)) ∨
    (∃ session pool, e = .removeSession session ∧ s' = { s with pool := pool } ∧
      (∀ selector ∈ s.pool.selectors, session ∈ selector.sessions) ∧
      pool.selectors = s.pool.selectors.map (·.erased session)) ∨
    (e = .terminate ∧ s' = { s with terminated := true }) ∨
    ∃ i move selector selector' phase, e = .selector i move ∧
      s.pool.selectors[i]? = some selector ∧
      advance s.terminated selector (s.phase i) move = some (selector', phase) ∧
      s' = { s with
        pool := { s.pool with selectors := s.pool.selectors.set i selector' }
        phase := Function.update s.phase i phase } := by
  cases e with
  | addSession session =>
      obtain ⟨pool, hpool, rfl⟩ := Option.map_eq_some_iff.mp hstep
      obtain ⟨k, hk⟩ := addSession_eq_some hpool
      exact Or.inl ⟨session, pool, k, rfl, rfl, hk⟩
  | removeSession session =>
      obtain ⟨pool, hpool, rfl⟩ := Option.map_eq_some_iff.mp hstep
      exact Or.inr (Or.inl ⟨session, pool, rfl, rfl, removeSession_eq_some hpool⟩)
  | terminate =>
      obtain rfl := Option.some.inj hstep
      exact Or.inr (Or.inr (Or.inl ⟨rfl, rfl⟩))
  | selector i move =>
      simp only [step] at hstep
      split at hstep
      · simp at hstep
      next selector hselector =>
        obtain ⟨⟨selector', phase⟩, hadvance, rfl⟩ := Option.map_eq_some_iff.mp hstep
        exact Or.inr (Or.inr (Or.inr
          ⟨i, move, selector, selector', phase, rfl, hselector, hadvance, rfl⟩))

/-- What an event makes of a selector. -/
def Changed (e : Event Session) (i : Nat) (selector selector' : IRCSelector Session) : Prop :=
  match e with
  | .addSession session => selector' = selector ∨ selector' = selector.addSession session
  | .removeSession session => session ∈ selector.sessions ∧ selector' = selector.erased session
  | .terminate => selector' = selector
  | .selector j move => selector' = if j = i ∧ move = .check then selector.sync else selector

theorem changed_of_step {e : Event Session} (hstep : step s e = some s') {i : Nat}
    {selector' : IRCSelector Session} (h : s'.pool.selectors[i]? = some selector') :
    ∃ selector, s.pool.selectors[i]? = some selector ∧ Changed e i selector selector' := by
  rcases step_cases hstep with ⟨session, pool, k, rfl, rfl, hselectors⟩ |
    ⟨session, pool, rfl, rfl, hheld, hselectors⟩ | ⟨rfl, rfl⟩ |
    ⟨j, move, selector, changed, phase, rfl, hselector, hadvance, rfl⟩
  · rw [hselectors, List.getElem?_modify] at h
    obtain ⟨selector, hselector, rfl⟩ := Option.map_eq_some_iff.mp h
    refine ⟨selector, hselector, ?_⟩
    simp only [Changed]
    split <;> simp
  · rw [hselectors, List.getElem?_map] at h
    obtain ⟨selector, hselector, rfl⟩ := Option.map_eq_some_iff.mp h
    exact ⟨selector, hselector, hheld selector (List.mem_of_getElem? hselector), rfl⟩
  · exact ⟨selector', h, rfl⟩
  · have hchanged : changed = if move = .check then selector.sync else selector := by
      rcases advance_cases hadvance with ⟨rfl, rfl, -⟩ | ⟨hmove, rfl, -⟩
      · simp
      · simp [hmove]
    have hlt := (List.getElem?_eq_some_iff.mp hselector).1
    rcases eq_or_ne j i with rfl | hne
    · rw [List.getElem?_set_self hlt] at h
      obtain rfl := Option.some.inj h
      exact ⟨selector, hselector, by simpa [Changed] using hchanged⟩
    · rw [List.getElem?_set_ne hne] at h
      exact ⟨selector', h, by simp [Changed, hne]⟩

omit [DecidableEq Session] in
theorem mem_sync {selector : IRCSelector Session} {session : Session}
    (h : session ∈ selector.sync.sessions ∨ session ∈ selector.sync.threadSafeCopy) :
    session ∈ selector.sessions ∨ session ∈ selector.threadSafeCopy := by
  unfold IRCSelector.sync at h
  split at h
  · exact Or.inl (or_self_iff.mp h)
  · exact h

/-- Only the selector that a session is added to gets to know a new one. -/
theorem known_step {e : Event Session} (hstep : step s e = some s') :
    ∃ k, ∀ i, ∀ session ∈ known s' i,
      session ∈ known s i ∨ (i = k ∧ e = .addSession session) := by
  have hother (hadd : ∀ session, e ≠ .addSession session) (i : Nat) (session : Session)
      (hknown : session ∈ known s' i) : session ∈ known s i := by
    obtain ⟨selector', hselector', hmem⟩ := mem_known.mp hknown
    obtain ⟨selector, hselector, hchanged⟩ := changed_of_step hstep hselector'
    refine mem_known.mpr ⟨selector, hselector, ?_⟩
    cases e with
    | addSession session => exact absurd rfl (hadd session)
    | removeSession removed =>
        obtain ⟨-, rfl⟩ := hchanged
        exact hmem.imp_left List.mem_of_mem_erase
    | terminate =>
        obtain rfl := hchanged
        exact hmem
    | selector j move =>
        obtain rfl := hchanged
        split at hmem
        · exact mem_sync hmem
        · exact hmem
  rcases step_cases hstep with ⟨session, pool, k, rfl, rfl, hselectors⟩ |
    ⟨session, pool, rfl, rfl, -⟩ | ⟨rfl, rfl⟩ | ⟨j, move, selector, changed, phase, rfl, -⟩
  · refine ⟨k, fun i session' hknown => ?_⟩
    obtain ⟨selector', hselector', hmem⟩ := mem_known.mp hknown
    rw [hselectors, List.getElem?_modify] at hselector'
    obtain ⟨selector, hselector, rfl⟩ := Option.map_eq_some_iff.mp hselector'
    split at hmem
    next hk =>
      simp only [IRCSelector.addSession, List.mem_append, List.mem_singleton] at hmem
      rcases hmem with (hmem | rfl) | hmem
      · exact Or.inl (mem_known.mpr ⟨selector, hselector, Or.inl hmem⟩)
      · exact Or.inr ⟨hk.symm, rfl⟩
      · exact Or.inl (mem_known.mpr ⟨selector, hselector, Or.inr hmem⟩)
    · exact Or.inl (mem_known.mpr ⟨selector, hselector, hmem⟩)
  all_goals exact ⟨0, fun i session hknown => Or.inl (hother (by simp) i session hknown)⟩

/-- What a selector has still to go through is the rest of its copy. -/
def Covered (s : State Session) : Prop :=
  ∀ i selector, s.pool.selectors[i]? = some selector →
    (s.phase i).left <:+ selector.threadSafeCopy

theorem Covered.step (h : Covered s) {e : Event Session}
    (hstep : SelectorLoops.step s e = some s') :
    Covered s' := by
  rcases step_cases hstep with ⟨session, pool, k, rfl, rfl, hselectors⟩ |
    ⟨session, pool, rfl, rfl, hheld, hselectors⟩ | ⟨rfl, rfl⟩ |
    ⟨j, move, selector, changed, phase, rfl, hselector, hadvance, rfl⟩
  · intro i selector' hselector'
    obtain ⟨selector, hselector, rfl | rfl⟩ := changed_of_step hstep hselector'
    · exact h i selector' hselector
    · exact h i selector hselector
  · intro i selector' hselector'
    obtain ⟨selector, hselector, -, rfl⟩ := changed_of_step hstep hselector'
    exact h i selector hselector
  · exact h
  · intro i selector' hselector'
    have hlt := (List.getElem?_eq_some_iff.mp hselector).1
    rcases eq_or_ne j i with rfl | hne
    · simp only [List.getElem?_set_self hlt, Option.some.injEq] at hselector'
      obtain rfl := hselector'
      simp only [Function.update_self]
      rcases advance_cases hadvance with ⟨-, -, hleft⟩ | ⟨-, rfl, hleft | hleft⟩
      · exact hleft ▸ List.suffix_rfl
      · exact hleft.trans (h j changed hselector)
      · exact hleft
    · simp only [List.getElem?_set_ne hne] at hselector'
      simp only [Function.update_of_ne hne.symm]
      exact h i selector' hselector'

omit [DecidableEq Session] in
theorem mem_left_of_driven {phase : Phase Session} {move : Move} {session : Session}
    (h : driven phase move = some session) : session ∈ phase.left := by
  unfold driven at h
  split at h
  · simp [Phase.left, Option.some.inj h]
  · simp [Phase.left, Option.some.inj h]
  · simp at h

theorem Covered.known_of_drivenBy (h : Covered s) {e : Event Session}
    (hstep : SelectorLoops.step s e = some s') {i : Nat} {session : Session}
    (hdriven : drivenBy i ⟨s, e, s'⟩ = some session) : session ∈ known s i := by
  cases e with
  | selector j move =>
      simp only [drivenBy] at hdriven
      split at hdriven
      next heq =>
        subst heq
        simp only [SelectorLoops.step] at hstep
        split at hstep
        · simp at hstep
        next selector hselector =>
          exact mem_known.mpr ⟨selector, hselector,
            Or.inr ((h j selector hselector).subset (mem_left_of_driven hdriven))⟩
      · simp at hdriven
  | _ => simp [drivenBy] at hdriven

end Steps

/-! ### A session is driven by one thread -/

/-- The selector has had something to do with the session. -/
def Reached (tr : List (Transition (State Session) (Event Session))) (s : State Session)
    (i : Nat) (session : Session) : Prop :=
  session ∈ known s i ∨ session ∈ drivenIn i tr

/-- The invariant behind `DrivenByOne`: no session has reached two selectors. -/
structure Separate (tr : List (Transition (State Session) (Event Session)))
    (s : State Session) : Prop where
  covered : Covered s
  added : ∀ i session, Reached tr s i session → session ∈ added tr
  apart : ∀ i j session, Reached tr s i session → Reached tr s j session → i = j

section Separation

variable {threads : Nat} {tr : List (Transition (State Session) (Event Session))}
  {s s' : State Session}

omit [DecidableEq Session] in
theorem added_snoc (tr : List (Transition (State Session) (Event Session)))
    (t : Transition (State Session) (Event Session)) :
    added (tr ++ [t]) = added tr ++ (addedBy t.event).toList := by
  rw [added, List.filterMap_append, filterMap_singleton_toList]
  rfl

theorem reached_step (tr : List (Transition (State Session) (Event Session)))
    (hcovered : Covered s) {e : Event Session} (hstep : step s e = some s') :
    ∃ k, ∀ i session, Reached (tr ++ [⟨s, e, s'⟩]) s' i session →
      Reached tr s i session ∨ (i = k ∧ e = .addSession session) := by
  obtain ⟨k, hk⟩ := known_step hstep
  refine ⟨k, fun i session hreached => ?_⟩
  rcases hreached with hknown | hdriven
  · exact (hk i session hknown).imp_left Or.inl
  · rw [drivenIn, List.filterMap_append, filterMap_singleton_toList, List.mem_append,
      Option.mem_toList] at hdriven
    rcases hdriven with hdriven | hdriven
    · exact Or.inl (Or.inr hdriven)
    · exact Or.inl (Or.inl (hcovered.known_of_drivenBy hstep hdriven))

theorem Separate.step (h : Separate tr s) {e : Event Session}
    (hstep : SelectorLoops.step s e = some s')
    (hfresh : (SelectorLoops.added (tr ++ [⟨s, e, s'⟩])).Nodup) :
    Separate (tr ++ [⟨s, e, s'⟩]) s' := by
  obtain ⟨k, hk⟩ := reached_step tr h.covered hstep
  rw [added_snoc] at hfresh
  have hnew (session : Session) (he : e = .addSession session) (i : Nat) :
      ¬Reached tr s i session := by
    intro hreached
    have hold := h.added i session hreached
    rw [he] at hfresh
    exact List.disjoint_of_nodup_append hfresh hold (by simp [addedBy])
  refine ⟨h.covered.step hstep, fun i session hreached => ?_, fun i j session hi hj => ?_⟩
  · rw [added_snoc]
    rcases hk i session hreached with hold | ⟨-, rfl⟩
    · exact List.mem_append_left _ (h.added i session hold)
    · exact List.mem_append_right _ (by simp [addedBy])
  · rcases hk i session hi with hi | ⟨rfl, he⟩ <;> rcases hk j session hj with hj | ⟨hj, he'⟩
    · exact h.apart i j session hi hj
    · exact absurd hi (hnew session he' i)
    · exact absurd hj (hnew session he j)
    · exact hj.symm

omit [DecidableEq Session] in
theorem lists_init {i : Nat} {selector : IRCSelector Session}
    (h : (init threads : IRCSelectorPool Session).selectors[i]? = some selector) :
    selector.sessions = [] ∧ selector.threadSafeCopy = [] := by
  obtain ⟨k, -, rfl⟩ := List.mem_map.mp (List.mem_of_getElem? h)
  exact ⟨rfl, rfl⟩

theorem separate_of_run (hrun : Run step { pool := init threads } tr s)
    (hfresh : (added tr).Nodup) : Separate tr s := by
  induction hrun with
  | nil =>
      have hnone (i : Nat) (session : Session) :
          ¬Reached [] { pool := init threads } i session := by
        rintro (hknown | hdriven)
        · obtain ⟨selector, hselector, hmem⟩ := mem_known.mp hknown
          simp [lists_init hselector] at hmem
        · simp [drivenIn] at hdriven
      refine ⟨fun i selector _ => List.nil_suffix, fun i session h => absurd h (hnone i session),
        fun i j session h => absurd h (hnone i session)⟩
  | snoc _ hstep ih =>
      have hbefore := hfresh
      rw [added_snoc] at hbefore
      exact (ih hbefore.of_append_left).step hstep hfresh

/-! ### A removed session is let go -/

/-- The list does not have the session, and the copy has it only until the next
round. -/
def LetGo (session : Session) (selector : IRCSelector Session) : Prop :=
  session ∉ selector.sessions ∧ (selector.needSync = true ∨ session ∉ selector.threadSafeCopy)

theorem LetGo.changed {session : Session} {i : Nat} {selector selector' : IRCSelector Session}
    (h : LetGo session selector) {e : Event Session} (he : e ≠ .addSession session)
    (hchanged : Changed e i selector selector') : LetGo session selector' := by
  cases e with
  | addSession other =>
      have hne : session ≠ other := fun heq => he (heq ▸ rfl)
      rcases hchanged with rfl | rfl
      · exact h
      · exact ⟨by simp [IRCSelector.addSession, h.1, hne], Or.inl rfl⟩
  | removeSession other =>
      obtain ⟨-, rfl⟩ := hchanged
      exact ⟨fun hmem => h.1 (List.mem_of_mem_erase hmem), Or.inl rfl⟩
  | terminate =>
      obtain rfl := hchanged
      exact h
  | selector j move =>
      obtain rfl := hchanged
      split
      · unfold IRCSelector.sync
        split
        · exact ⟨h.1, Or.inr h.1⟩
        · exact h
      · exact h

/-- The invariant behind removals: the selectors have let the session go. -/
structure Released (tr : List (Transition (State Session) (Event Session)))
    (s : State Session) : Prop where
  nodup : ∀ (i : Nat) (selector : IRCSelector Session),
    s.pool.selectors[i]? = some selector → selector.sessions.Nodup
  added : ∀ t ∈ tr, ∀ session, t.event = .removeSession session → session ∈ added tr
  letGo : ∀ t ∈ tr, ∀ session, t.event = .removeSession session →
    ∀ (i : Nat) (selector : IRCSelector Session),
      s.pool.selectors[i]? = some selector → LetGo session selector
  forgotten : ∀ past t mid session, tr = past ++ t :: mid → t.event = .removeSession session →
    ∀ i, (∃ u ∈ mid, u.event = .selector i .check) → session ∉ known s i

theorem length_step {e : Event Session} (hstep : step s e = some s') :
    s'.pool.selectors.length = s.pool.selectors.length := by
  rcases step_cases hstep with ⟨session, pool, k, rfl, rfl, hselectors⟩ |
    ⟨session, pool, rfl, rfl, hheld, hselectors⟩ | ⟨rfl, rfl⟩ |
    ⟨j, move, selector, changed, phase, rfl, hselector, hadvance, rfl⟩
  · simp [hselectors]
  · simp [hselectors]
  · rfl
  · simp

theorem Released.step (h : Released tr s) (hseparate : Separate tr s)
    (hselectors : 0 < s.pool.selectors.length) {e : Event Session}
    (hstep : SelectorLoops.step s e = some s')
    (hfresh : (SelectorLoops.added (tr ++ [⟨s, e, s'⟩])).Nodup) :
    Released (tr ++ [⟨s, e, s'⟩]) s' := by
  rw [added_snoc] at hfresh
  have hnew (session : Session) (hold : session ∈ SelectorLoops.added tr) :
      e ≠ .addSession session := by
    rintro rfl
    exact List.disjoint_of_nodup_append hfresh hold (by simp [addedBy])
  have hknown (i : Nat) (selector : IRCSelector Session)
      (hselector : s.pool.selectors[i]? = some selector) (session : Session)
      (hmem : session ∈ selector.sessions) : session ∈ SelectorLoops.added tr :=
    hseparate.added i session (Or.inl (mem_known.mpr ⟨selector, hselector, Or.inl hmem⟩))
  have hremoved (session : Session) (he : e = .removeSession session) :
      session ∈ SelectorLoops.added tr := by
    obtain ⟨selector', hselector'⟩ : ∃ selector', s'.pool.selectors[0]? = some selector' :=
      ⟨_, List.getElem?_eq_getElem (length_step hstep ▸ hselectors)⟩
    obtain ⟨selector, hselector, hchanged⟩ := changed_of_step hstep hselector'
    rw [he] at hchanged
    exact hknown 0 selector hselector session hchanged.1
  refine ⟨fun i selector' hselector' => ?_, fun t ht session hevent => ?_,
    fun t ht session hevent i selector' hselector' => ?_, ?_⟩
  · obtain ⟨selector, hselector, hchanged⟩ := changed_of_step hstep hselector'
    have hnodup := h.nodup i selector hselector
    cases e with
    | addSession session =>
        rcases hchanged with rfl | rfl
        · exact hnodup
        · refine List.nodup_append.mpr ⟨hnodup, List.nodup_singleton _, ?_⟩
          rintro other hmem _ hlast rfl
          obtain rfl := List.mem_singleton.mp hlast
          exact hnew other (hknown i selector hselector other hmem) rfl
    | removeSession session =>
        obtain ⟨-, rfl⟩ := hchanged
        exact hnodup.erase session
    | terminate =>
        obtain rfl := hchanged
        exact hnodup
    | selector j move =>
        obtain rfl := hchanged
        split
        · unfold IRCSelector.sync
          split <;> exact hnodup
        · exact hnodup
  · rw [added_snoc]
    rcases List.mem_append.mp ht with ht | ht
    · exact List.mem_append_left _ (h.added t ht session hevent)
    · obtain rfl := List.mem_singleton.mp ht
      exact List.mem_append_left _ (hremoved session hevent)
  · obtain ⟨selector, hselector, hchanged⟩ := changed_of_step hstep hselector'
    rcases List.mem_append.mp ht with ht | ht
    · exact (h.letGo t ht session hevent i selector hselector).changed
        (hnew session (h.added t ht session hevent)) hchanged
    · obtain rfl := List.mem_singleton.mp ht
      obtain rfl : e = .removeSession session := hevent
      obtain ⟨-, rfl⟩ := hchanged
      exact ⟨(h.nodup i selector hselector).not_mem_erase, Or.inl rfl⟩
  · intro past t mid session hsplit hevent i hcheck hknown'
    rcases List.eq_nil_or_concat mid with rfl | ⟨mid', last, rfl⟩
    · simp at hcheck
    · rw [List.concat_eq_append, ← List.cons_append, ← List.append_assoc] at hsplit
      obtain ⟨htr, hlast⟩ := List.append_inj' hsplit rfl
      obtain rfl := (List.cons.inj hlast).1
      have ht : t ∈ tr := by simp [htr]
      have hold := h.added t ht session hevent
      obtain ⟨k, hk⟩ := known_step hstep
      rcases hk i session hknown' with hbefore | ⟨-, he⟩
      · obtain ⟨u, hu, hucheck⟩ := hcheck
        rw [List.concat_eq_append] at hu
        rcases List.mem_append.mp hu with hu | hu
        · exact h.forgotten past t mid' session htr hevent i ⟨u, hu, hucheck⟩ hbefore
        · obtain rfl := List.mem_singleton.mp hu
          obtain rfl : e = .selector i .check := hucheck
          obtain ⟨selector', hselector', hmem⟩ := mem_known.mp hknown'
          obtain ⟨selector, hselector, hchanged⟩ := changed_of_step hstep hselector'
          obtain ⟨hlist, hcopy⟩ := h.letGo t ht session hevent i selector hselector
          have hsync : selector' = selector.sync := by simpa [Changed] using hchanged
          rw [hsync] at hmem
          unfold IRCSelector.sync at hmem
          split at hmem
          · exact hlist (or_self_iff.mp hmem)
          next hsame => exact hmem.elim hlist (hcopy.resolve_left hsame)
      · exact hnew session hold he

theorem released_of_run (hthreads : 0 < threads)
    (hrun : Run step { pool := init threads } tr s) (hfresh : (added tr).Nodup) :
    Released tr s ∧ s.pool.selectors.length = threads := by
  induction hrun with
  | nil =>
      refine ⟨⟨fun i selector hselector => ?_, by simp, by simp, by simp⟩, by simp [init]⟩
      rw [(lists_init hselector).1]
      exact List.nodup_nil
  | snoc hprev hstep ih =>
      have hbefore := hfresh
      rw [added_snoc] at hbefore
      obtain ⟨hreleased, hlength⟩ := ih hbefore.of_append_left
      exact ⟨hreleased.step (separate_of_run hprev hbefore.of_append_left) (hlength ▸ hthreads)
        hstep hfresh, (length_step hstep).trans hlength⟩

/-- No session is driven by two threads, and one that was removed is not driven
by a thread that has started a round since. -/
structure DrivenByOne (tr : List (Transition (State Session) (Event Session))) : Prop where
  apart : ∀ i j, i ≠ j → (drivenIn i tr).Disjoint (drivenIn j tr)
  current : ∀ past t mid u future session i, tr = past ++ t :: (mid ++ u :: future) →
    t.event = .removeSession session → drivenBy i u = some session →
      ∀ v ∈ mid, v.event ≠ .selector i .check

theorem drivenByOne_of_run (threads : Nat) (hthreads : 0 < threads)
    (tr : List (Transition (State Session) (Event Session))) (s : State Session)
    (hrun : Run step { pool := init threads } tr s) (hfresh : (added tr).Nodup) :
    DrivenByOne tr := by
  refine ⟨fun i j hne session hi hj => ?_, ?_⟩
  · exact hne ((separate_of_run hrun hfresh).apart i j session (Or.inr hi) (Or.inr hj))
  · intro past t mid u future session i hsplit hevent hdriven v hv hcheck
    rw [← List.cons_append, ← List.append_assoc] at hsplit
    obtain ⟨hprev, hstep⟩ := hrun.step_of_split _ u future hsplit
    have hbefore : (added (past ++ t :: mid)).Nodup := by
      rw [hsplit, added, List.filterMap_append] at hfresh
      exact hfresh.of_append_left
    refine (released_of_run hthreads hprev hbefore).1.forgotten past t mid session rfl hevent i
      ⟨v, hv, hcheck⟩ ?_
    exact (separate_of_run hprev hbefore).covered.known_of_drivenBy hstep hdriven

/-- Two threads go through a session each. -/
def twoThreads : List (Event Nat) :=
  [.addSession 4, .addSession 9, .selector 1 .check, .selector 0 .check,
    .selector 1 (.collect true true), .selector 0 (.collect false false), .selector 1 .select,
    .selector 0 .select, .selector 1 .process]

/-- A session is removed in the middle of a round: it is processed in that round
once more, and is not asked in the next. -/
def removalInRound : List (Event Nat) :=
  [.addSession 4, .addSession 9, .selector 0 .check, .selector 0 (.collect true true),
    .removeSession 9, .selector 0 (.collect true true), .selector 0 .select,
    .selector 0 .process, .selector 0 .process, .selector 0 .again, .selector 0 .check,
    .selector 0 (.collect true true), .selector 0 .select]

theorem twoThreads_isSome : (exec step { pool := init 2 } twoThreads).isSome := by
  decide +kernel

theorem removalInRound_isSome : (exec step { pool := init 1 } removalInRound).isSome := by
  decide +kernel

theorem drivenByOne_of_run_threads :
    DrivenByOne (trace step { pool := init 2 } twoThreads) ∧
      DrivenByOne (trace step { pool := init 1 } removalInRound) :=
  ⟨drivenByOne_of_run 2 (by decide) _ _ (run_trace twoThreads twoThreads_isSome)
      (by decide +kernel),
    drivenByOne_of_run 1 (by decide) _ _ (run_trace removalInRound removalInRound_isSome)
      (by decide +kernel)⟩

end Separation

/-! ### The threads can be joined -/

/-- The moves that a thread has still to make when the program terminates. -/
def pending (selector : IRCSelector Session) : Phase Session → Nat
  | .checking => 1
  | .sleeping => 2
  | .processing left => left.length + 2
  | .collecting left _ => left.length + selector.threadSafeCopy.length + 3
  | .returned => 0

def pendingAt (s : State Session) (i : Nat) : Nat :=
  (s.pool.selectors[i]?.map fun selector => pending selector (s.phase i)).getD 0

/-- The step is one of the thread's. -/
def bySelector (i : Nat) (t : Transition (State Session) (Event Session)) : Bool :=
  match t.event with
  | .selector j _ => j == i
  | _ => false

section Joining

variable {threads : Nat} {tr : List (Transition (State Session) (Event Session))}
  {s s' : State Session} {i : Nat}

omit [DecidableEq Session] in
theorem pending_advance {selector selector' : IRCSelector Session} {phase phase' : Phase Session}
    {move : Move} (h : advance true selector phase move = some (selector', phase')) :
    pending selector' phase' + 1 ≤ pending selector phase := by
  unfold advance at h
  split at h
  · simp at h
  · obtain ⟨rfl, rfl⟩ := Prod.mk.inj (Option.some.inj h)
    exact Nat.le_refl _
  · obtain ⟨rfl, rfl⟩ := Prod.mk.inj (Option.some.inj h)
    simp only [pending, List.length_cons]
    omega
  · obtain ⟨rfl, rfl⟩ := Prod.mk.inj (Option.some.inj h)
    split <;> simp only [pending, List.length_nil] <;> omega
  · obtain ⟨rfl, rfl⟩ := Prod.mk.inj (Option.some.inj h)
    simp only [pending, List.length_cons]
    omega
  · obtain ⟨rfl, rfl⟩ := Prod.mk.inj (Option.some.inj h)
    exact Nat.le_refl _
  · obtain ⟨rfl, rfl⟩ := Prod.mk.inj (Option.some.inj h)
    exact Nat.le_refl _
  · simp at h

omit [DecidableEq Session] in
theorem pendingAt_congr (hphase : s'.phase i = s.phase i)
    (hcopy : (s'.pool.selectors[i]?).map (·.threadSafeCopy) =
      (s.pool.selectors[i]?).map (·.threadSafeCopy)) : pendingAt s' i = pendingAt s i := by
  unfold pendingAt
  rw [hphase]
  cases hselector : s.pool.selectors[i]? <;> cases hselector' : s'.pool.selectors[i]? <;>
    simp_all [pending]

/-- After the termination every move of a thread is one of those that it has
still to make, and nothing gives it more. -/
theorem pendingAt_step {e : Event Session} (hstep : step s e = some s')
    (hterminated : s.terminated = true) :
    s'.terminated = true ∧
      pendingAt s' i + [(⟨s, e, s'⟩ : Transition _ _)].countP (bySelector i) ≤ pendingAt s i := by
  rcases step_cases hstep with ⟨session, pool, k, rfl, rfl, hselectors⟩ |
    ⟨session, pool, rfl, rfl, -, hselectors⟩ | ⟨rfl, rfl⟩ |
    ⟨j, move, selector, changed, phase, rfl, hselector, hadvance, rfl⟩
  · refine ⟨hterminated, Nat.le_of_eq (pendingAt_congr rfl ?_)⟩
    rw [hselectors, List.getElem?_modify]
    cases s.pool.selectors[i]? with
    | none => rfl
    | some selector =>
        simp only [Option.map_eq_map, Option.map_some]
        split <;> rfl
  · refine ⟨hterminated, Nat.le_of_eq (pendingAt_congr rfl ?_)⟩
    rw [hselectors, List.getElem?_map, Option.map_map]
    rfl
  · exact ⟨rfl, Nat.le_of_eq (pendingAt_congr rfl rfl)⟩
  · refine ⟨hterminated, ?_⟩
    have hlt := (List.getElem?_eq_some_iff.mp hselector).1
    rcases eq_or_ne j i with rfl | hne
    · rw [hterminated] at hadvance
      simpa [pendingAt, hselector, List.getElem?_set_self hlt, bySelector] using
        pending_advance hadvance
    · refine Nat.le_of_eq ?_
      simp only [List.countP_singleton, bySelector, beq_iff_eq, hne, if_false, Nat.add_zero]
      exact pendingAt_congr (by simp [Function.update_of_ne hne.symm])
        (by simp [List.getElem?_set_ne hne])

theorem moves_le_pendingAt (hterminated : s.terminated = true) (hrun : Run step s tr s') :
    tr.countP (bySelector i) ≤ pendingAt s i := by
  suffices h : s'.terminated = true ∧
      pendingAt s' i + tr.countP (bySelector i) ≤ pendingAt s i from by omega
  induction hrun with
  | nil => exact ⟨hterminated, Nat.le_refl _⟩
  | snoc _ hstep ih =>
      obtain ⟨hterm, hle⟩ := pendingAt_step (i := i) hstep ih.1
      rw [List.countP_append]
      exact ⟨hterm, by omega⟩

omit [DecidableEq Session] in
theorem exists_advance (terminated : Bool) (selector : IRCSelector Session)
    {phase : Phase Session} (hphase : phase ≠ .returned) :
    ∃ move, (advance terminated selector phase move).isSome := by
  match phase, terminated with
  | .checking, true => exact ⟨.leave, rfl⟩
  | .checking, false => exact ⟨.check, rfl⟩
  | .sleeping, _ => exact ⟨.again, rfl⟩
  | .processing [], _ => exact ⟨.again, rfl⟩
  | .processing (_ :: _), _ => exact ⟨.process, rfl⟩
  | .collecting [] _, _ => exact ⟨.select, rfl⟩
  | .collecting (_ :: _) _, _ => exact ⟨.collect true true, rfl⟩
  | .returned, _ => exact absurd rfl hphase

theorem length_of_run (hrun : Run step { pool := init threads } tr s) :
    s.pool.selectors.length = threads := by
  induction hrun with
  | nil => simp [init]
  | snoc _ hstep ih => exact (length_step hstep).trans ih

omit [DecidableEq Session] in
theorem terminated_of_advance {terminated : Bool} {selector selector' : IRCSelector Session}
    {phase : Phase Session} {move : Move}
    (h : advance terminated selector phase move = some (selector', .returned)) :
    terminated = true := by
  unfold advance at h
  split at h
  · split_ifs at h
    simp at h
  · split_ifs at h with hterminated
    exact hterminated
  · simp at h
  · simp only [Option.some.injEq, Prod.mk.injEq] at h
    split at h <;> simp at h
  all_goals simp at h

theorem terminated_of_returned (hrun : Run step { pool := init threads } tr s) :
    ∀ i, s.phase i = .returned → s.terminated = true := by
  induction hrun with
  | nil => simp
  | snoc _ hstep ih =>
      intro i hreturned
      rcases step_cases hstep with ⟨session, pool, k, rfl, rfl, -⟩ |
        ⟨session, pool, rfl, rfl, -⟩ | ⟨rfl, rfl⟩ |
        ⟨j, move, selector, changed, phase, rfl, -, hadvance, rfl⟩
      · exact ih i hreturned
      · exact ih i hreturned
      · rfl
      · rcases eq_or_ne i j with rfl | hne
        · simp only [Function.update_self] at hreturned
          rw [hreturned] at hadvance
          exact terminated_of_advance hadvance
        · simp only [Function.update_of_ne hne] at hreturned
          exact ih i hreturned

theorem covered_of_run (hrun : Run step { pool := init threads } tr s) : Covered s :=
  hrun.always (fun _ _ _ => List.nil_suffix) fun _ _ _ h hstep => h.step hstep

/-- The size of the thread's copy. -/
def copied (s : State Session) (i : Nat) : Nat :=
  (s.pool.selectors[i]?.map (·.threadSafeCopy.length)).getD 0

omit [DecidableEq Session] in
theorem Covered.pendingAt_le (h : Covered s) : pendingAt s i ≤ 2 * copied s i + 3 := by
  unfold pendingAt copied
  cases hselector : s.pool.selectors[i]? with
  | none => simp
  | some selector =>
      have hleft := (h i selector hselector).length_le
      simp only [Option.map_some, Option.getD_some]
      cases hphase : s.phase i <;> simp only [hphase, Phase.left] at hleft <;>
        simp only [pending] <;> omega

end Joining

/-- The thread returns when the program terminates, after at most two passes
over its copy, and not before. -/
structure Joins (s : State Session) (i : Nat) : Prop where
  runs : s.phase i = .returned → s.terminated = true
  moves : s.phase i ≠ .returned → ∃ move, (step s (.selector i move)).isSome
  returns : s.terminated = true → ∀ tr s', Run step s tr s' →
    tr.countP (bySelector i) ≤ 2 * copied s i + 3

theorem joins_of_run (threads : Nat) (tr : List (Transition (State Session) (Event Session)))
    (s : State Session) (hrun : Run step { pool := init threads } tr s) (i : Nat)
    (hi : i < threads) : Joins s i := by
  refine ⟨terminated_of_returned hrun i, fun hphase => ?_, fun hterminated tr' s' hrun' => ?_⟩
  · have hlt : i < s.pool.selectors.length := by rwa [length_of_run hrun]
    obtain ⟨move, hmove⟩ := exists_advance s.terminated s.pool.selectors[i] hphase
    exact ⟨move, by simpa [step, List.getElem?_eq_getElem hlt] using hmove⟩
  · exact Nat.le_trans (moves_le_pendingAt hterminated hrun') (covered_of_run hrun).pendingAt_le

theorem joins_of_run_twoThreads :
    Joins ((exec step { pool := init 2 } (twoThreads ++ [.terminate])).get
      (by decide +kernel)) 1 :=
  joins_of_run 2 _ _ (run_trace (twoThreads ++ [.terminate]) (by decide +kernel)) 1 (by decide)

end TwitchChatWorker.SelectorLoops
