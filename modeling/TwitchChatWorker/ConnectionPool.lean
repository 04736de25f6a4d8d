import TwitchChatWorker.Lib.Batching
import TwitchChatWorker.Lib.Runs
import TwitchChatWorker.Lib.Wakeups
import Mathlib.Data.List.Nodup
import Mathlib.Data.List.Count
import Mathlib.Logic.ExistsUnique

/-!
The pool of database connections (`db/DBConnectionPool.cpp`) and the lock that
takes one connection for its lifetime (`db/DBConnectionLock.h`).  Each section
under the mutex is one step; `condition.wait` leaves the mutex and blocks in the
same step, and a woken thread enters its section again to look at the queue.
-/

namespace TwitchChatWorker.ConnectionPool

open TwitchChatWorker.Lib
open TwitchChatWorker.Lib.Batching
open TwitchChatWorker.Lib.Runs

/-- A connection is named by the round of `init` that has created it. -/
abbrev Connection :=
  Nat

/-- The connections that no lock holds. -/
structure DBConnectionPool where
  active : Bool := false
  pool : List Connection := []
  deriving DecidableEq, Repr

/-- `createConnection` may give no connection. -/
def DBConnectionPool.init (count : Nat) (created : Nat → Bool) : DBConnectionPool :=
  let pool := (List.range count).filter created
  { active := !pool.isEmpty, pool }

/-- Where the thread of a `DBConnectionLock` is. -/
inductive Phase where
  | locking
  | blocked
  | woken
  | holding (conn : Option Connection)
  | notifying
  | released
  deriving DecidableEq, Repr

/-- The end of a section of `lockConnection`: `wait` while the queue is empty,
else take its front.  `front` of an empty queue is undefined. -/
def DBConnectionPool.take (pool : DBConnectionPool) : Option (Phase × DBConnectionPool) :=
  if pool.pool.isEmpty then some (.blocked, pool)
  else
    match pool.pool with
    | [] => none
    | conn :: rest => some (.holding (some conn), { pool with pool := rest })

def DBConnectionPool.lockConnection (pool : DBConnectionPool) :
    Option (Phase × DBConnectionPool) :=
  if !pool.active then some (.holding none, pool) else pool.take

/-- The section of `unlockConnection`; the notification comes after it. -/
def DBConnectionPool.unlockConnection (pool : DBConnectionPool) (conn : Connection) :
    Phase × DBConnectionPool :=
  (.notifying, { pool with pool := pool.pool ++ [conn] })

/-- The pool with the threads that work with it. -/
structure State where
  pool : DBConnectionPool
  locks : List Phase := []
  deriving DecidableEq, Repr

/-- `DBConnectionPool::init` with the outcome of each connect. -/
def start (count : Nat) (created : Nat → Bool) : State where
  pool := .init count created

inductive Event where
  /-- a thread constructs a `DBConnectionLock` -/
  | construct
  /-- the thread of a lock gets the mutex, for the first time or after a wake-up -/
  | enter (lock : Nat)
  | spuriousWakeup (lock : Nat)
  /-- the destructor, up to the notification -/
  | destroy (lock : Nat)
  /-- `notify_one`, with the waiter it wakes if there is one -/
  | notify (lock : Nat) (waiter : Option Nat)
  deriving DecidableEq, Repr

/-- A lock goes on to another phase. -/
def State.set (s : State) (lock : Nat) (outcome : Phase × DBConnectionPool) : State where
  pool := outcome.2
  locks := s.locks.set lock outcome.1

def step (s : State) : Event → Option State
  | .construct => some { s with locks := s.locks ++ [.locking] }
  | .enter lock =>
      match s.locks[lock]? with
      | some .locking => s.pool.lockConnection.map (s.set lock)
      | some .woken => s.pool.take.map (s.set lock)
      | _ => none
  | .spuriousWakeup lock =>
      if s.locks[lock]? = some .blocked then some (s.set lock (.woken, s.pool)) else none
  | .destroy lock =>
      match s.locks[lock]? with
      | some (.holding (some conn)) => some (s.set lock (s.pool.unlockConnection conn))
      | some (.holding none) => some (s.set lock (.released, s.pool))
      | _ => none
  | .notify lock waiter =>
      if s.locks[lock]? = some .notifying then
        let s := s.set lock (.released, s.pool)
        match waiter with
        | some waiter =>
            if s.locks[waiter]? = some .blocked then some (s.set waiter (.woken, s.pool))
            else none
        | none => if .blocked ∈ s.locks then none else some s
      else none

/-- The connections that locks hold. -/
def held (locks : List Phase) : List Connection :=
  locks.filterMap fun
    | .holding conn => conn
    | _ => none

/-- How many threads wait, are woken and how many connections are free. -/
def counts (s : State) : Wakeups.Counts where
  items := s.pool.pool.length
  blocked := s.locks.count .blocked
  woken := s.locks.count .woken
  notifying := s.locks.count .notifying

/-- What every run from a pool of connections `built` keeps. -/
structure Kept (built : List Connection) (s : State) : Prop where
  perm : (s.pool.pool ++ held s.locks).Perm built
  covered : Wakeups.Covered (counts s)

theorem split_of_getElem? {locks : List Phase} {lock : Nat} {phase : Phase}
    (h : locks[lock]? = some phase) :
    ∃ before after, locks = before ++ phase :: after ∧
      ∀ phase', locks.set lock phase' = before ++ phase' :: after := by
  obtain ⟨hlock, rfl⟩ := List.getElem?_eq_some_iff.mp h
  refine ⟨locks.take lock, locks.drop (lock + 1), by simp, fun phase' => ?_⟩
  rw [List.set_eq_take_append_cons_drop, if_pos hlock]

theorem perm_set {s : State} {built : List Connection} {lock : Nat} {phase phase' : Phase}
    {pool : List Connection} (hlock : s.locks[lock]? = some phase)
    (hperm : (s.pool.pool ++ held s.locks).Perm built)
    (hmove : (pool ++ held [phase']).Perm (s.pool.pool ++ held [phase])) :
    (pool ++ held (s.locks.set lock phase')).Perm built := by
  refine (perm_filterMap_set hlock ?_).trans hperm
  simpa only [held, filterMap_singleton_toList] using hmove

theorem count_set {locks : List Phase} {lock : Nat} {phase : Phase}
    (hlock : locks[lock]? = some phase) (phase' p : Phase) :
    (locks.set lock phase').count p + [phase].count p = locks.count p + [phase'].count p := by
  obtain ⟨before, after, hlocks, hset⟩ := split_of_getElem? hlock
  rw [hset, hlocks]
  simp only [List.count_append, List.count_cons, List.count_nil]
  omega

theorem count_set_eq {locks : List Phase} {lock : Nat} {phase phase' p : Phase}
    (hlock : locks[lock]? = some phase) (hp : [phase'].count p = [phase].count p) :
    (locks.set lock phase').count p = locks.count p := by
  have hcount := count_set hlock phase' p
  omega

theorem kept_start (count : Nat) (created : Nat → Bool) :
    Kept ((List.range count).filter created) (start count created) where
  perm := by simp [start, DBConnectionPool.init, held]
  covered := by simp [start, counts, Wakeups.Covered]

theorem take_eq_some (pool : DBConnectionPool) :
    (pool.pool = [] ∧ pool.take = some (.blocked, pool)) ∨
      ∃ conn rest, pool.pool = conn :: rest ∧
        pool.take = some (.holding (some conn), { pool with pool := rest }) := by
  cases h : pool.pool with
  | nil => exact Or.inl ⟨rfl, by simp [DBConnectionPool.take, h]⟩
  | cons conn rest => exact Or.inr ⟨conn, rest, rfl, by simp [DBConnectionPool.take, h]⟩

/-- The end of a section of `lockConnection`, for a thread that has come for the
first time or after a wake-up. -/
theorem Kept.take {built : List Connection} {s : State} (h : Kept built s) {lock : Nat}
    {phase : Phase} (hlock : s.locks[lock]? = some phase)
    (hphase : phase = .locking ∨ phase = .woken) {outcome : Phase × DBConnectionPool}
    (htake : s.pool.take = some outcome) : Kept built (s.set lock outcome) := by
  have hheld : held [phase] = [] := by
    rcases hphase with rfl | rfl <;> rfl
  rcases take_eq_some s.pool with ⟨hempty, heq⟩ | ⟨conn, rest, hpool, heq⟩
  · obtain rfl := Option.some.inj (heq.symm.trans htake)
    refine ⟨perm_set hlock h.perm (by rw [hheld]; exact List.Perm.refl _), ?_⟩
    exact Wakeups.Step.covered (c := counts s) (.block (by simp [counts, hempty])
      (by simp [counts, State.set, hempty])) h.covered
  · obtain rfl := Option.some.inj (heq.symm.trans htake)
    have hblocked := count_set hlock (.holding (some conn)) .blocked
    have hwoken := count_set hlock (.holding (some conn)) .woken
    have hnotifying := count_set hlock (.holding (some conn)) .notifying
    refine ⟨perm_set hlock h.perm ?_, Wakeups.Step.covered ?_ h.covered⟩
    · rw [hheld, hpool, List.append_nil]
      exact List.perm_append_comm
    · rcases hphase with rfl | rfl <;> simp at hblocked hwoken hnotifying
      · exact .take (by simp [counts, State.set, hpool]) hblocked hwoken hnotifying
      · exact .retake (by simp [counts, State.set, hpool]) hblocked hwoken.symm hnotifying

theorem Kept.of_phase {built : List Connection} {s : State} (h : Kept built s) {lock : Nat}
    {phase phase' : Phase} (hlock : s.locks[lock]? = some phase)
    (hheld : held [phase'] = held [phase])
    (hcovered : Wakeups.Covered (counts (s.set lock (phase', s.pool)))) :
    Kept built (s.set lock (phase', s.pool)) where
  perm := perm_set hlock h.perm (by rw [hheld]; exact List.Perm.refl _)
  covered := hcovered

theorem Kept.wake {built : List Connection} {s : State} (h : Kept built s) {lock : Nat}
    (hlock : s.locks[lock]? = some .blocked) : Kept built (s.set lock (.woken, s.pool)) := by
  have hblocked := count_set hlock .woken .blocked
  have hwoken := count_set hlock .woken .woken
  have hnotifying := count_set hlock .woken .notifying
  simp at hblocked hwoken hnotifying
  exact h.of_phase hlock rfl
    (Wakeups.Step.covered (c := counts s) (.spurious rfl hblocked.symm hwoken hnotifying) h.covered)

theorem Kept.destroy {built : List Connection} {s : State} (h : Kept built s) {lock : Nat}
    {conn : Connection} (hlock : s.locks[lock]? = some (.holding (some conn))) :
    Kept built (s.set lock (s.pool.unlockConnection conn)) := by
  have hblocked := count_set hlock .notifying .blocked
  have hwoken := count_set hlock .notifying .woken
  have hnotifying := count_set hlock .notifying .notifying
  simp at hblocked hwoken hnotifying
  refine ⟨perm_set hlock h.perm ?_, Wakeups.Step.covered ?_ h.covered⟩
  · simp [State.set, DBConnectionPool.unlockConnection, held]
  · exact .put (by simp [counts, State.set, DBConnectionPool.unlockConnection]) hblocked hwoken
      hnotifying

theorem Kept.notify {built : List Connection} {s s' : State} (h : Kept built s) {lock : Nat}
    {waiter : Option Nat} (hstep : step s (.notify lock waiter) = some s') : Kept built s' := by
  simp only [step] at hstep
  split at hstep
  case isFalse => simp at hstep
  case isTrue hlock =>
    have hblocked := count_set hlock .released .blocked
    have hwoken := count_set hlock .released .woken
    have hnotifying := count_set hlock .released .notifying
    simp at hblocked hwoken hnotifying
    have hperm : ((s.set lock (.released, s.pool)).pool.pool ++
        held (s.set lock (.released, s.pool)).locks).Perm built :=
      perm_set hlock h.perm (List.Perm.refl _)
    cases waiter with
    | none =>
        simp only at hstep
        split at hstep
        · simp at hstep
        next hnone =>
          obtain rfl := Option.some.inj hstep
          exact ⟨hperm, Wakeups.Step.covered (c := counts s)
            (.notifyNone rfl (List.count_eq_zero.mpr hnone)) h.covered⟩
    | some waiter =>
        simp only at hstep
        split at hstep
        next hwaiter =>
          obtain rfl := Option.some.inj hstep
          have hblocked' := count_set hwaiter .woken .blocked
          have hwoken' := count_set hwaiter .woken .woken
          have hnotifying' := count_set hwaiter .woken .notifying
          simp at hblocked' hwoken' hnotifying'
          refine ⟨perm_set hwaiter hperm (List.Perm.refl _),
            Wakeups.Step.covered (c := counts s) (.notify rfl ?_ ?_ ?_) h.covered⟩
          all_goals simp only [counts, State.set] at *
          all_goals omega
        · simp at hstep

theorem Kept.step {built : List Connection} {s s' : State} (h : Kept built s) {e : Event}
    (hstep : step s e = some s') : Kept built s' := by
  cases e with
  | construct =>
      obtain rfl := Option.some.inj hstep
      refine ⟨by simpa [held] using h.perm, ?_⟩
      exact Wakeups.Step.covered (c := counts s)
        (.take (Nat.le_refl _) (by simp [counts]) (by simp [counts]) (by simp [counts])) h.covered
  | enter lock =>
      simp only [ConnectionPool.step] at hstep
      split at hstep
      next hlock =>
        obtain ⟨outcome, htake, rfl⟩ := Option.map_eq_some_iff.mp hstep
        simp only [DBConnectionPool.lockConnection] at htake
        split at htake
        · obtain rfl := Option.some.inj htake
          refine h.of_phase hlock rfl
            (Wakeups.Step.covered (c := counts s) (.take (Nat.le_refl _) ?_ ?_ ?_) h.covered)
          all_goals exact count_set_eq hlock rfl
        · exact h.take hlock (Or.inl rfl) htake
      next hlock =>
        obtain ⟨outcome, htake, rfl⟩ := Option.map_eq_some_iff.mp hstep
        exact h.take hlock (Or.inr rfl) htake
      · simp at hstep
  | spuriousWakeup lock =>
      simp only [ConnectionPool.step] at hstep
      split at hstep
      next hlock =>
        obtain rfl := Option.some.inj hstep
        exact h.wake hlock
      · simp at hstep
  | destroy lock =>
      simp only [ConnectionPool.step] at hstep
      split at hstep
      next conn hlock =>
        obtain rfl := Option.some.inj hstep
        exact h.destroy hlock
      next hlock =>
        obtain rfl := Option.some.inj hstep
        refine h.of_phase hlock rfl
          (Wakeups.Step.covered (c := counts s) (.take (Nat.le_refl _) ?_ ?_ ?_) h.covered)
        all_goals exact count_set_eq hlock rfl
      · simp at hstep
  | notify lock waiter => exact h.notify hstep

theorem kept_of_run {count : Nat} {created : Nat → Bool} {tr : List (Transition State Event)}
    {s : State} (hrun : Run step (start count created) tr s) :
    Kept ((List.range count).filter created) s :=
  hrun.always (kept_start count created) fun _ _ _ h hstep => h.step hstep

/-! ### What the pool promises -/

/-- The connection is in the queue once and held by no lock, or held by exactly
one lock and not in the queue. -/
def AtOnePlace (s : State) (conn : Connection) : Prop :=
  (s.pool.pool.count conn = 1 ∧ ∀ lock : Nat, s.locks[lock]? ≠ some (.holding (some conn))) ∨
    (conn ∉ s.pool.pool ∧ ∃! lock : Nat, s.locks[lock]? = some (.holding (some conn)))

/-- Every thread that has come for the mutex finds its section defined: no front
is taken of an empty queue. -/
def SectionsDefined (s : State) : Prop :=
  ∀ lock : Nat, s.locks[lock]? = some .locking ∨ s.locks[lock]? = some .woken →
    (step s (.enter lock)).isSome

/-- While a thread is blocked, every connection in the queue has a woken thread
or a notification to come. -/
def NoLostWakeup (s : State) : Prop :=
  Phase.blocked ∈ s.locks →
    s.pool.pool.length ≤ s.locks.count .woken + s.locks.count .notifying

theorem mem_held_iff {locks : List Phase} {conn : Connection} :
    conn ∈ held locks ↔ ∃ lock : Nat, locks[lock]? = some (.holding (some conn)) := by
  have hheld : conn ∈ held locks ↔ Phase.holding (some conn) ∈ locks := by
    simp only [held, List.mem_filterMap]
    constructor
    · rintro ⟨phase, hphase, hconn⟩
      split at hconn
      · exact hconn ▸ hphase
      · simp at hconn
    · intro hphase
      exact ⟨_, hphase, rfl⟩
  rw [hheld, List.mem_iff_getElem?]

theorem lock_unique {locks : List Phase} (hnodup : (held locks).Nodup) {conn : Connection}
    {i j : Nat} (hi : locks[i]? = some (.holding (some conn)))
    (hj : locks[j]? = some (.holding (some conn))) : i = j := by
  have hpairwise := List.pairwise_filterMap.mp hnodup
  obtain ⟨hi, hieq⟩ := List.getElem?_eq_some_iff.mp hi
  obtain ⟨hj, hjeq⟩ := List.getElem?_eq_some_iff.mp hj
  rcases Nat.lt_trichotomy i j with hlt | heq | hlt
  · have hne := List.pairwise_iff_getElem.mp hpairwise i j hi hj hlt
    simp [hieq, hjeq] at hne
  · exact heq
  · have hne := List.pairwise_iff_getElem.mp hpairwise j i hj hi hlt
    simp [hieq, hjeq] at hne

theorem Kept.atOnePlace {built : List Connection} {s : State} (h : Kept built s)
    (hnodup : built.Nodup) {conn : Connection} (hconn : conn ∈ built) : AtOnePlace s conn := by
  have hall : (s.pool.pool ++ held s.locks).Nodup := h.perm.nodup_iff.mpr hnodup
  obtain ⟨hpool, hheld, hdisjoint⟩ := List.nodup_append.mp hall
  rcases List.mem_append.mp (h.perm.mem_iff.mpr hconn) with hin | hin
  · refine Or.inl ⟨List.count_eq_one_of_mem hpool hin, fun lock hlock => ?_⟩
    exact hdisjoint conn hin conn (mem_held_iff.mpr ⟨lock, hlock⟩) rfl
  · obtain ⟨lock, hlock⟩ := mem_held_iff.mp hin
    exact Or.inr ⟨fun hpoolMem => hdisjoint conn hpoolMem conn hin rfl, lock, hlock,
      fun other hother => lock_unique hheld hother hlock⟩

theorem sectionsDefined (s : State) : SectionsDefined s := by
  have htake : s.pool.take.isSome := by
    rcases take_eq_some s.pool with ⟨-, heq⟩ | ⟨conn, rest, -, heq⟩ <;> simp [heq]
  rintro lock (hlock | hlock)
  · simp only [step, hlock, DBConnectionPool.lockConnection, Option.isSome_map]
    split
    · rfl
    · exact htake
  · simpa only [step, hlock, Option.isSome_map] using htake

/-- In every reachable state every connection that `init` has built is at one
place, no section takes from an empty queue, and no wake-up is lost. -/
theorem exclusive_of_run (count : Nat) (created : Nat → Bool)
    (tr : List (Transition State Event)) (s : State)
    (hrun : Run step (start count created) tr s) :
    (∀ conn < count, created conn → AtOnePlace s conn) ∧ SectionsDefined s ∧ NoLostWakeup s := by
  have hkept := kept_of_run hrun
  refine ⟨fun conn hlt hcreated => ?_, sectionsDefined s, fun hblocked => ?_⟩
  · exact hkept.atOnePlace (List.nodup_range.filter _)
      (List.mem_filter.mpr ⟨List.mem_range.mpr hlt, hcreated⟩)
  · exact hkept.covered (List.count_pos_iff.mpr hblocked)

/-- Two threads and one connection: the second waits, the first gives its
connection back, and a third takes it before the woken one looks again. -/
theorem exclusive_of_run_overtaken :
    exec step (start 1 fun _ => true)
      [.construct, .enter 0, .construct, .enter 1, .destroy 0, .notify 0 (some 1), .construct,
        .enter 2, .enter 1] =
      some ⟨⟨true, []⟩, [.released, .blocked, .holding (some 0)]⟩ ∧
      AtOnePlace ⟨⟨true, []⟩, [.released, .blocked, .holding (some 0)]⟩ 0 := by
  have hexec : exec step (start 1 fun _ => true)
      [.construct, .enter 0, .construct, .enter 1, .destroy 0, .notify 0 (some 1), .construct,
        .enter 2, .enter 1] =
      some ⟨⟨true, []⟩, [.released, .blocked, .holding (some 0)]⟩ := by decide
  exact ⟨hexec, (exclusive_of_run 1 (fun _ => true) _ _ (run_of_exec hexec)).1 0 (by decide) rfl⟩

end TwitchChatWorker.ConnectionPool
