import Mathlib.Algebra.Group.Nat.Defs
import Mathlib.Data.List.Nodup
import Mathlib.Data.List.Flatten
import Mathlib.Logic.ExistsUnique
import TwitchChatWorker.Lib.RoundRobin
import TwitchChatWorker.Lib.Runs

/-!
The pool of selector threads and the placement of sessions on them
(`IRCSelectorPool.cpp`, `IRCSelector.cpp`).  `Session` stands for the shared
pointers that the selectors compare.
-/

namespace TwitchChatWorker.SelectorPool

open TwitchChatWorker.Lib
open TwitchChatWorker.Lib.Runs

variable {Session : Type*} [DecidableEq Session]

/-- A selector: the sessions under its mutex, and the copy its thread works on. -/
structure IRCSelector (Session : Type*) where
  id : Nat
  sessions : List Session := []
  needSync : Bool := false
  threadSafeCopy : List Session := []

def IRCSelector.addSession (selector : IRCSelector Session) (session : Session) :
    IRCSelector Session :=
  { selector with sessions := selector.sessions ++ [session], needSync := true }

def IRCSelector.erased (selector : IRCSelector Session) (session : Session) :
    IRCSelector Session :=
  { selector with sessions := selector.sessions.erase session, needSync := true }

/-- `std::find` followed by `erase`.  For a session that is not held `erase`
gets the end iterator, which is undefined. -/
def IRCSelector.removeSession (selector : IRCSelector Session) (session : Session) :
    Option (IRCSelector Session) :=
  if session ∈ selector.sessions then some (selector.erased session) else none

/-- The part of `IRCSelector::run` under the mutex. -/
def IRCSelector.sync (selector : IRCSelector Session) : IRCSelector Session :=
  if selector.needSync then
    { selector with threadSafeCopy := selector.sessions, needSync := false }
  else selector

/-- The selectors, with the cursor that deals sessions out. -/
structure IRCSelectorPool (Session : Type*) where
  selectors : List (IRCSelector Session)
  curSelectorRoundRobin : Nat := 0

def init (threads : Nat) : IRCSelectorPool Session :=
  { selectors := (List.range threads).map fun i => { id := i } }

namespace IRCSelectorPool

/-- The index of the selector to use next.  The cursor is a `size_t`, the
index copied from it an `unsigned int`. -/
def getNextSelectorRoundRobin (pool : IRCSelectorPool Session) :
    Option (Nat × IRCSelectorPool Session) :=
  match RoundRobin.next pool.selectors.length pool.curSelectorRoundRobin with
  | some (i, cursor) => some (i % 2 ^ 32, { pool with curSelectorRoundRobin := cursor })
  | none => none

def addSession (pool : IRCSelectorPool Session) (session : Session) :
    Option (IRCSelectorPool Session) :=
  match getNextSelectorRoundRobin pool with
  | some (i, pool) =>
      some { pool with selectors := pool.selectors.modify i (·.addSession session) }
  | none => none

/-- `removeSession` of every selector, undefined as soon as one of them is. -/
def removeFromAll (session : Session) :
    List (IRCSelector Session) → Option (List (IRCSelector Session))
  | [] => some []
  | selector :: rest =>
      match selector.removeSession session, removeFromAll session rest with
      | some selector, some rest => some (selector :: rest)
      | _, _ => none

def removeSession (pool : IRCSelectorPool Session) (session : Session) :
    Option (IRCSelectorPool Session) :=
  match removeFromAll session pool.selectors with
  | some selectors => some { pool with selectors := selectors }
  | none => none

/-- All sessions of the pool. -/
def held (pool : IRCSelectorPool Session) : List Session :=
  pool.selectors.flatMap IRCSelector.sessions

end IRCSelectorPool

open IRCSelectorPool

inductive Call (Session : Type*) where
  | addSession (session : Session)
  | removeSession (session : Session)

def step (pool : IRCSelectorPool Session) : Call Session → Option (IRCSelectorPool Session)
  | .addSession session => pool.addSession session
  | .removeSession session => pool.removeSession session

/-- The sessions that were added and not removed since. -/
def addedAfter : List Session → List (Call Session) → List Session
  | added, [] => added
  | added, .addSession session :: calls => addedAfter (session :: added) calls
  | added, .removeSession session :: calls => addedAfter (added.erase session) calls

/-- Only sessions that are currently added are removed, and no session that is
currently added is added again. -/
def Admissible : List Session → List (Call Session) → Prop
  | _, [] => True
  | added, .addSession session :: calls =>
      session ∉ added ∧ Admissible (session :: added) calls
  | added, .removeSession session :: calls =>
      session ∈ added ∧ Admissible (added.erase session) calls

/-- Exactly one selector has the session. -/
def HeldByOne (pool : IRCSelectorPool Session) (session : Session) : Prop :=
  ∃! i : Nat, ∃ selector : IRCSelector Session,
    pool.selectors[i]? = some selector ∧ session ∈ selector.sessions

/-- The removal is defined and takes the session, and nothing else, from the
selectors. -/
def RemovesOnly (pool : IRCSelectorPool Session) (session : Session) : Prop :=
  ∃ pool', pool.removeSession session = some pool' ∧ session ∉ pool'.held ∧
    pool'.selectors.map IRCSelector.sessions =
      pool.selectors.map fun selector : IRCSelector Session =>
        selector.sessions.erase session

/-- Along the calls, from a pool of `threads` selectors, every call is defined,
every added session has exactly one selector, and every removal takes only its
session. -/
def PlacedAlong (threads : Nat) (calls : List (Call Session)) : Prop :=
  ∀ past future, calls = past ++ future →
    ∃ pool, exec step (init threads) past = some pool ∧
      (∀ session ∈ addedAfter [] past, HeldByOne pool session) ∧
      ∀ session rest, future = .removeSession session :: rest → RemovesOnly pool session

omit [DecidableEq Session] in
theorem held_modify_addSession (selectors : List (IRCSelector Session)) {i : Nat}
    (hi : i < selectors.length) (session : Session) :
    ((selectors.modify i (·.addSession session)).flatMap (·.sessions)).Perm
      (session :: selectors.flatMap (·.sessions)) := by
  induction selectors generalizing i with
  | nil => simp at hi
  | cons selector rest ih =>
      cases i with
      | zero =>
          simp only [List.modify_zero_cons, List.flatMap_cons,
            IRCSelector.addSession, List.append_assoc, List.singleton_append]
          exact List.perm_middle
      | succ i =>
          have htail := ih (i := i) (by simpa using hi)
          simp only [List.modify_succ_cons, List.flatMap_cons]
          exact (htail.append_left _).trans List.perm_middle

theorem removeFromAll_eq_some_iff {session : Session}
    {selectors selectors' : List (IRCSelector Session)} :
    removeFromAll session selectors = some selectors' ↔
      (∀ selector ∈ selectors, session ∈ selector.sessions) ∧
        selectors' = selectors.map (·.erased session) := by
  induction selectors generalizing selectors' with
  | nil => simp [removeFromAll, eq_comm]
  | cons selector rest ih =>
      by_cases hmem : session ∈ selector.sessions
      · cases hrest : removeFromAll session rest with
        | none =>
            have hnot : ¬∀ other ∈ rest, session ∈ other.sessions := fun hall => by
              simp [ih.mpr ⟨hall, rfl⟩] at hrest
            simp [removeFromAll, IRCSelector.removeSession, hmem, hrest, hnot]
        | some tail =>
            obtain ⟨hall, rfl⟩ := ih.mp hrest
            have hcall : removeFromAll session (selector :: rest) =
                some ((selector :: rest).map (·.erased session)) := by
              simp [removeFromAll, IRCSelector.removeSession, hmem, hrest]
            constructor
            · intro h
              exact ⟨List.forall_mem_cons.mpr ⟨hmem, hall⟩,
                (Option.some.inj (hcall.symm.trans h)).symm⟩
            · rintro ⟨-, rfl⟩
              exact hcall
      · simp [removeFromAll, IRCSelector.removeSession, hmem]

theorem step_length {pool pool' : IRCSelectorPool Session} {call : Call Session}
    (hstep : step pool call = some pool') :
    pool'.selectors.length = pool.selectors.length := by
  cases call with
  | addSession session =>
      simp only [step, IRCSelectorPool.addSession, getNextSelectorRoundRobin] at hstep
      cases hnext : RoundRobin.next pool.selectors.length pool.curSelectorRoundRobin with
      | none => simp [hnext] at hstep
      | some served =>
          simp only [hnext, Option.some.injEq] at hstep
          simp [← hstep]
  | removeSession session =>
      simp only [step, IRCSelectorPool.removeSession] at hstep
      cases hall : removeFromAll session pool.selectors with
      | none => simp [hall] at hstep
      | some selectors =>
          simp only [hall, Option.some.injEq] at hstep
          simp [← hstep, (removeFromAll_eq_some_iff.mp hall).2]

/-- What every sequence of admissible calls keeps, as long as no removal
meets more than one selector. -/
structure Placed (threads : Nat) (added : List Session)
    (pool : IRCSelectorPool Session) : Prop where
  length_eq : pool.selectors.length = threads
  cursor_lt : pool.curSelectorRoundRobin < threads
  held_perm : pool.held.Perm added
  added_nodup : added.Nodup

omit [DecidableEq Session] in
theorem placed_init {threads : Nat} (hthreads : 1 ≤ threads) :
    Placed threads [] (init threads : IRCSelectorPool Session) where
  length_eq := by simp [init]
  cursor_lt := hthreads
  held_perm := by simp [init, held, List.flatMap_map]
  added_nodup := List.nodup_nil

omit [DecidableEq Session] in
theorem Placed.heldByOne {threads : Nat} {added : List Session}
    {pool : IRCSelectorPool Session} (hplaced : Placed threads added pool)
    {session : Session} (hsession : session ∈ added) : HeldByOne pool session := by
  have hnodup : pool.held.Nodup := hplaced.held_perm.nodup_iff.mpr hplaced.added_nodup
  obtain ⟨-, hdisjoint⟩ := List.nodup_flatMap.mp hnodup
  have hheld : session ∈ pool.held := hplaced.held_perm.mem_iff.mpr hsession
  obtain ⟨selector, hselector, hmem⟩ := List.mem_flatMap.mp hheld
  obtain ⟨i, hi, rfl⟩ := List.getElem_of_mem hselector
  refine ⟨i, ⟨_, List.getElem?_eq_getElem hi, hmem⟩, ?_⟩
  rintro j ⟨other, hother, hotherMem⟩
  obtain ⟨hj, rfl⟩ := List.getElem?_eq_some_iff.mp hother
  have hpairwise := List.pairwise_iff_getElem.mp hdisjoint
  rcases Nat.lt_trichotomy j i with hlt | rfl | hlt
  · exact absurd hmem (hpairwise j i hj hi hlt hotherMem)
  · rfl
  · exact absurd hotherMem (hpairwise i j hi hj hlt hmem)

omit [DecidableEq Session] in
theorem Placed.addSession {threads : Nat} {added : List Session}
    {pool : IRCSelectorPool Session} (hplaced : Placed threads added pool)
    {session : Session} (hsession : session ∉ added) :
    ∃ pool', pool.addSession session = some pool' ∧
      Placed threads (session :: added) pool' := by
  have hcursor : pool.curSelectorRoundRobin < pool.selectors.length :=
    hplaced.length_eq ▸ hplaced.cursor_lt
  obtain ⟨i, cursor, hnext⟩ := RoundRobin.next_isSome hcursor
  have hi : i % 2 ^ 32 < pool.selectors.length :=
    Nat.lt_of_le_of_lt (Nat.mod_le _ _) (RoundRobin.next_lt hnext)
  refine ⟨{ selectors := pool.selectors.modify (i % 2 ^ 32) (·.addSession session),
            curSelectorRoundRobin := cursor }, ?_, ?_⟩
  · simp [IRCSelectorPool.addSession, getNextSelectorRoundRobin, hnext]
  · exact {
      length_eq := by simpa using hplaced.length_eq
      cursor_lt := hplaced.length_eq ▸ RoundRobin.next_cursor_lt hcursor hnext
      held_perm := (held_modify_addSession _ hi session).trans
        (hplaced.held_perm.cons session)
      added_nodup := List.nodup_cons.mpr ⟨hsession, hplaced.added_nodup⟩ }

theorem Placed.removeSession {added : List Session}
    {pool : IRCSelectorPool Session} (hplaced : Placed 1 added pool)
    {session : Session} (hsession : session ∈ added) :
    RemovesOnly pool session ∧
      ∃ pool', pool.removeSession session = some pool' ∧
        Placed 1 (added.erase session) pool' := by
  obtain ⟨selector, hselectors⟩ := List.length_eq_one_iff.mp hplaced.length_eq
  have hheld : pool.held = selector.sessions := by simp [held, hselectors]
  have hmem : session ∈ selector.sessions :=
    hheld ▸ hplaced.held_perm.mem_iff.mpr hsession
  have hall : ∀ other ∈ pool.selectors, session ∈ other.sessions := by
    simp [hselectors, hmem]
  have hremoved := removeFromAll_eq_some_iff.mpr ⟨hall, rfl⟩
  have hperm : (selector.sessions.erase session).Perm (added.erase session) :=
    (hheld ▸ hplaced.held_perm).erase session
  have hcall : pool.removeSession session =
      some { pool with selectors := pool.selectors.map (·.erased session) } := by
    simp [IRCSelectorPool.removeSession, hremoved]
  refine ⟨⟨_, hcall, ?_, ?_⟩, _, hcall, ?_⟩
  · have hgone : session ∉ added.erase session := hplaced.added_nodup.not_mem_erase
    simpa [held, hselectors, IRCSelector.erased] using fun h => hgone (hperm.mem_iff.mp h)
  · simp [Function.comp_def, IRCSelector.erased]
  · exact {
      length_eq := by simp [hselectors]
      cursor_lt := hplaced.cursor_lt
      held_perm := by simpa [held, hselectors, IRCSelector.erased] using hperm
      added_nodup := hplaced.added_nodup.erase session }

/-- One selector makes every removal safe, and without removals any number of
selectors will do. -/
theorem exec_placed {threads : Nat} {calls : List (Call Session)}
    (hsafe : threads = 1 ∨ ∀ session, .removeSession session ∉ calls)
    {added : List Session} {pool : IRCSelectorPool Session}
    (hadmissible : Admissible added calls) (hplaced : Placed threads added pool) :
    ∃ pool', exec step pool calls = some pool' ∧
      Placed threads (addedAfter added calls) pool' := by
  induction calls generalizing added pool with
  | nil => exact ⟨pool, rfl, hplaced⟩
  | cons call calls ih =>
      have hsafe' : threads = 1 ∨ ∀ session, .removeSession session ∉ calls :=
        hsafe.imp_right fun h session hmem => h session (List.mem_cons_of_mem _ hmem)
      cases call with
      | addSession session =>
          obtain ⟨hfresh, hrest⟩ := hadmissible
          obtain ⟨pool', hcall, hplaced'⟩ := hplaced.addSession hfresh
          simpa [exec, step, hcall, addedAfter] using ih hsafe' hrest hplaced'
      | removeSession session =>
          obtain rfl : threads = 1 := hsafe.resolve_right fun h => h session (by simp)
          obtain ⟨hpresent, hrest⟩ := hadmissible
          obtain ⟨-, pool', hcall, hplaced'⟩ := hplaced.removeSession hpresent
          simpa [exec, step, hcall, addedAfter] using ih hsafe' hrest hplaced'

theorem admissible_append {added : List Session} {past future : List (Call Session)} :
    Admissible added (past ++ future) ↔
      Admissible added past ∧ Admissible (addedAfter added past) future := by
  induction past generalizing added with
  | nil => simp [Admissible, addedAfter]
  | cons call past ih => cases call <;> simp [Admissible, addedAfter, ih, and_assoc]

/-- A removal that is defined means that every selector holds the session,
which two selectors never do. -/
theorem HeldByOne.length_le_one {pool : IRCSelectorPool Session} {session : Session}
    (hone : HeldByOne pool session) (hremoves : RemovesOnly pool session) :
    pool.selectors.length ≤ 1 := by
  obtain ⟨pool', hcall, -⟩ := hremoves
  simp only [IRCSelectorPool.removeSession] at hcall
  cases hall : removeFromAll session pool.selectors with
  | none => simp [hall] at hcall
  | some selectors =>
      have hmem := (removeFromAll_eq_some_iff.mp hall).1
      by_contra hlen
      have hholds : ∀ i, i < pool.selectors.length →
          ∃ selector : IRCSelector Session,
            pool.selectors[i]? = some selector ∧ session ∈ selector.sessions :=
        fun i hi => ⟨_, List.getElem?_eq_getElem hi, hmem _ (List.getElem_mem hi)⟩
      exact Nat.zero_ne_one (hone.unique (hholds 0 (by omega)) (hholds 1 (by omega)))

theorem exec_length {threads : Nat} {calls : List (Call Session)}
    {pool : IRCSelectorPool Session}
    (hexec : exec step (init threads) calls = some pool) :
    pool.selectors.length = threads := by
  exact @Run.always _ _ _ _ (fun pool : IRCSelectorPool Session => pool.selectors.length = threads)
    (by simp [init]) (fun _ _ _ h hstep => (step_length hstep).trans h) _ _ (run_of_exec hexec)

/-- The pool keeps its promise on exactly the call sequences that use one
selector or never remove a session. -/
theorem placedAlong_iff (threads : Nat) (calls : List (Call Session))
    (hthreads : 1 ≤ threads) (hadmissible : Admissible [] calls) :
    PlacedAlong threads calls ↔
      threads = 1 ∨ ∀ session, .removeSession session ∉ calls := by
  constructor
  · intro halong
    by_contra hunsafe
    push Not at hunsafe
    obtain ⟨hmany, session, hmem⟩ := hunsafe
    obtain ⟨past, rest, rfl⟩ := List.append_of_mem hmem
    obtain ⟨pool, hexec, hheld, hremoves⟩ := halong past _ rfl
    have hadded : session ∈ addedAfter [] past := (admissible_append.mp hadmissible).2.1
    have hle := (hheld session hadded).length_le_one (hremoves session rest rfl)
    have hlength : pool.selectors.length = threads := exec_length hexec
    omega
  · rintro hsafe past future rfl
    obtain ⟨hpast, hfuture⟩ := admissible_append.mp hadmissible
    have hsafePast : threads = 1 ∨ ∀ session, .removeSession session ∉ past :=
      hsafe.imp_right fun h session hmem => h session (List.mem_append_left _ hmem)
    obtain ⟨pool, hexec, hplaced⟩ := exec_placed hsafePast hpast (placed_init hthreads)
    refine ⟨pool, hexec, fun session hsession => hplaced.heldByOne hsession, ?_⟩
    rintro session rest rfl
    obtain rfl : threads = 1 := hsafe.resolve_right fun h => h session (by simp)
    exact (hplaced.removeSession hfuture.1).1

theorem placedAlong_iff_single :
    PlacedAlong 1 [.addSession 3, .addSession 5, .removeSession 3] ↔
      1 = 1 ∨ ∀ session, Call.removeSession session ∉
        [.addSession 3, .addSession 5, .removeSession 3] :=
  placedAlong_iff 1 _ (by decide) (by simp [Admissible])

/-- With two selectors the first removal already fails: the selector that does
not hold the session erases its end iterator. -/
theorem not_placedAlong_two :
    Admissible [] [.addSession 7, .removeSession 7] ∧
      ¬PlacedAlong 2 [.addSession 7, .removeSession 7] := by
  refine ⟨by simp [Admissible], fun halong => ?_⟩
  obtain ⟨pool, hexec, -, hremoves⟩ := halong [.addSession 7] [.removeSession 7] rfl
  obtain rfl := Option.some.inj hexec
  obtain ⟨pool', hcall, -⟩ := hremoves 7 [] rfl
  cases hcall

end TwitchChatWorker.SelectorPool
