import Mathlib.Algebra.Order.Ring.Defs
import Mathlib.Data.List.Chain
import Mathlib.Data.List.Induction
import Mathlib.Tactic.Linarith

/-!
Supervision of a peer by pings and pongs.  At a ping the watcher compares the
last ping it has sent with the last pong it has received, and gives up when the
pong is too far behind; otherwise it sends the ping.
-/

namespace TwitchChatWorker.Lib.Heartbeats

variable {α : Type*}

/-- A ping or a pong with its time. -/
inductive Beat (α : Type*) where
  | ping (time : α)
  | pong (time : α)

def Beat.time : Beat α → α
  | .ping x => x
  | .pong x => x

def Beat.ping? : Beat α → Option α
  | .ping x => some x
  | .pong _ => none

/-- The times of the pings, whether they are sent or not. -/
def pings (beats : List (Beat α)) : List α := beats.filterMap Beat.ping?

structure Watch (α : Type*) where
  lastPing : α
  lastPong : α
  up : Bool

@[simp] theorem pings_append (beats more : List (Beat α)) :
    pings (beats ++ more) = pings beats ++ pings more := by
  simp [pings]

@[simp] theorem pings_ping (x : α) : pings [.ping x] = [x] := rfl

@[simp] theorem pings_pong (z : α) : pings [.pong z] = [] := rfl

variable [CommRing α] [LinearOrder α]

def Watch.next (limit : α) (w : Watch α) : Beat α → Watch α
  | .ping x =>
      if w.up then
        if limit ≤ w.lastPing - w.lastPong then { w with up := false } else { w with lastPing := x }
      else w
  | .pong x => { w with lastPong := x }

def watch (limit start : α) (beats : List (Beat α)) : Watch α :=
  beats.foldl (Watch.next limit) ⟨start, start, true⟩

/-- The clock does not go back, the first ping comes within `first` and each
other one within `period` of the one before it. -/
structure Paced (start first period : α) (beats : List (Beat α)) : Prop where
  sorted : (start :: beats.map Beat.time).Pairwise (· ≤ ·)
  head : ∀ x ∈ (pings beats).head?, x ≤ start + first
  chain : (pings beats).IsChain fun x y => y ≤ x + period

/-- The ping after `past` is sent. -/
def Sent (limit start : α) (past : List (Beat α)) (x : α) : Prop :=
  (watch limit start (past ++ [.ping x])).up = true

/-- Where the beats go on for more than `delay` after a ping that was sent, a
pong has come within that time. -/
def AnsweredWithin (limit start delay : α) (beats : List (Beat α)) : Prop :=
  ∀ past x later, beats = past ++ .ping x :: later → Sent limit start past x →
    (∃ z, .pong z ∈ later ∧ z ≤ x + delay) ∨ ∀ beat ∈ later, beat.time ≤ x + delay

/-- A ping finds a pong to every ping that was sent `delay` or longer before. -/
def AnsweredBefore (limit start delay : α) (beats : List (Beat α)) : Prop :=
  ∀ past x between y later, beats = past ++ .ping x :: (between ++ .ping y :: later) →
    Sent limit start past x → x + delay ≤ y → ∃ z, .pong z ∈ between

section Prefixes

variable {limit start first period delay : α} {beats : List (Beat α)}

@[simp] theorem watch_append_singleton (beat : Beat α) :
    watch limit start (beats ++ [beat]) = (watch limit start beats).next limit beat := by
  simp [watch, List.foldl_append]

theorem Paced.of_append {more : List (Beat α)} (h : Paced start first period (beats ++ more)) :
    Paced start first period beats where
  sorted := by
    have hsorted := h.sorted
    rw [List.map_append, ← List.cons_append] at hsorted
    exact (List.pairwise_append.mp hsorted).1
  head := by
    intro x hx
    refine h.head x ?_
    rw [pings_append, List.head?_append, Option.mem_def.mp hx]
    rfl
  chain := by
    have hchain := h.chain
    rw [pings_append] at hchain
    exact hchain.left_of_append

theorem AnsweredBefore.of_append {more : List (Beat α)}
    (h : AnsweredBefore limit start delay (beats ++ more)) :
    AnsweredBefore limit start delay beats := by
  intro past x between y later hbeats hsent hlate
  exact h past x between y (later ++ more) (by simp [hbeats]) hsent hlate

theorem Paced.start_le {beat : Beat α} (h : Paced start first period beats) (hbeat : beat ∈ beats) :
    start ≤ beat.time :=
  (List.pairwise_cons.mp h.sorted).1 _ (List.mem_map_of_mem hbeat)

theorem Paced.le_last {beat last : Beat α} (h : Paced start first period (beats ++ [last]))
    (hbeat : beat ∈ beats) : beat.time ≤ last.time := by
  have hsorted := (List.pairwise_cons.mp h.sorted).2
  rw [List.map_append] at hsorted
  exact (List.pairwise_append.mp hsorted).2.2 _ (List.mem_map_of_mem hbeat) _ (by simp)

theorem Paced.le_later {past later : List (Beat α)} {beat : Beat α}
    (h : Paced start first period (past ++ beat :: later)) {last : Beat α} (hlast : last ∈ later) :
    beat.time ≤ last.time := by
  have hsorted := (List.pairwise_cons.mp h.sorted).2
  rw [List.map_append, List.map_cons] at hsorted
  have hlater := (List.pairwise_append.mp hsorted).2.1
  exact (List.pairwise_cons.mp hlater).1 _ (List.mem_map_of_mem hlast)

theorem Paced.next_ping {x : α} (h : Paced start first period (beats ++ [.ping x])) :
    ((pings beats).getLast? = none ∧ x ≤ start + first) ∨
      ∃ y, (pings beats).getLast? = some y ∧ x ≤ y + period := by
  have hpings : pings (beats ++ [.ping x]) = pings beats ++ [x] := by simp
  cases hlast : (pings beats).getLast? with
  | none =>
      have hnil := List.getLast?_eq_none_iff.mp hlast
      exact Or.inl ⟨rfl, h.head x (by simp [hpings, hnil])⟩
  | some y =>
      have hchain := h.chain
      rw [hpings, List.isChain_append] at hchain
      exact Or.inr ⟨y, rfl, hchain.2.2 y hlast x rfl⟩

theorem Watch.next_ping {w : Watch α} {x : α} (hup : w.up = true)
    (hearly : w.lastPing - w.lastPong < limit) :
    w.next limit (.ping x) = { w with lastPing := x } := by
  rw [Watch.next, if_pos hup, if_neg (not_le.mpr hearly)]

theorem Watch.next_ping_late {w : Watch α} {x : α} (hup : w.up = true)
    (hlate : limit ≤ w.lastPing - w.lastPong) :
    w.next limit (.ping x) = { w with up := false } := by
  rw [Watch.next, if_pos hup, if_pos hlate]

theorem Watch.next_ping_down {w : Watch α} {x : α} (hdown : w.up ≠ true) :
    w.next limit (.ping x) = w := by
  rw [Watch.next, if_neg hdown]

/-- A ping that is sent has found the pongs in time. -/
theorem Watch.early_of_up {w : Watch α} {x : α} (h : (w.next limit (.ping x)).up = true) :
    w.up = true ∧ w.lastPing - w.lastPong < limit := by
  have hup : w.up = true := by
    by_contra hdown
    rw [Watch.next_ping_down hdown] at h
    exact hdown h
  refine ⟨hup, ?_⟩
  by_contra hlate
  rw [Watch.next_ping_late hup (not_lt.mp hlate)] at h
  exact Bool.false_ne_true h

theorem lastPing_eq (hup : (watch limit start beats).up = true) :
    (watch limit start beats).lastPing = (pings beats).getLast?.getD start := by
  induction beats using List.reverseRecOn with
  | nil => rfl
  | append_singleton beats beat ih =>
      rw [watch_append_singleton] at hup ⊢
      cases beat with
      | pong z =>
          rw [pings_append, pings_pong, List.append_nil]
          exact ih hup
      | ping x =>
          obtain ⟨hprev, hearly⟩ := Watch.early_of_up hup
          rw [Watch.next_ping hprev hearly, pings_append, pings_ping, List.getLast?_concat]
          rfl

theorem lastPong_le (limit : α) {bound : α} (hstart : start ≤ bound)
    (hpongs : ∀ z, .pong z ∈ beats → z ≤ bound) : (watch limit start beats).lastPong ≤ bound := by
  induction beats using List.reverseRecOn with
  | nil => exact hstart
  | append_singleton beats beat ih =>
      rw [watch_append_singleton]
      cases beat with
      | pong z => exact hpongs z (by simp)
      | ping x =>
          have hprev := ih fun z hz => hpongs z (List.mem_append_left _ hz)
          rw [Watch.next]
          split_ifs
          · exact hprev
          · exact hprev
          · exact hprev

theorem lastPing_le {last : Beat α} (h : Paced start first period (beats ++ [last]))
    (hup : (watch limit start beats).up = true) :
    (watch limit start beats).lastPing ≤ last.time := by
  rw [lastPing_eq hup]
  cases hlast : (pings beats).getLast? with
  | none => exact h.start_le (by simp)
  | some y =>
      obtain ⟨beat, hbeat, hy⟩ := List.mem_filterMap.mp (List.mem_of_getLast? hlast)
      cases beat with
      | pong z => simp [Beat.ping?] at hy
      | ping x =>
          obtain rfl := Option.some.inj hy
          exact h.le_last hbeat

theorem exists_alarm_of_not_up (hdown : (watch limit start beats).up ≠ true) :
    ∃ past x later, beats = past ++ .ping x :: later ∧ (watch limit start past).up = true ∧
      ¬Sent limit start past x := by
  induction beats using List.reverseRecOn with
  | nil => exact absurd rfl hdown
  | append_singleton beats beat ih =>
      by_cases hup : (watch limit start beats).up = true
      · cases beat with
        | pong z =>
            rw [watch_append_singleton] at hdown
            exact absurd hup hdown
        | ping x => exact ⟨beats, x, [], rfl, hup, hdown⟩
      · obtain ⟨past, x, later, rfl, hpast, hsent⟩ := ih hup
        exact ⟨past, x, later ++ [beat], by simp, hpast, hsent⟩

theorem up_of_append {more : List (Beat α)} (h : (watch limit start (beats ++ more)).up = true) :
    (watch limit start beats).up = true := by
  induction more using List.reverseRecOn with
  | nil => simpa using h
  | append_singleton more beat ih =>
      rw [← List.append_assoc, watch_append_singleton] at h
      refine ih ?_
      cases beat with
      | pong z => exact h
      | ping x => exact (Watch.early_of_up h).1

end Prefixes

/-! ### No false alarm -/

section Alarms

variable [IsStrictOrderedRing α]
variable {limit start first period delay : α} {beats : List (Beat α)}

/-- The last ping is not after the last pong, or some ping that was sent has no
pong yet and came soon after the last pong. -/
def CaughtUp (limit start pace : α) (beats : List (Beat α)) : Prop :=
  (watch limit start beats).lastPing ≤ (watch limit start beats).lastPong ∨
    ∃ past x later, beats = past ++ .ping x :: later ∧ Sent limit start past x ∧
      (∀ z, .pong z ∉ later) ∧ x ≤ (watch limit start beats).lastPong + pace

theorem Paced.next_le {x : α} (h : Paced start first period (beats ++ [.ping x]))
    (hup : (watch limit start beats).up = true) :
    x ≤ (watch limit start beats).lastPing + max first period := by
  rw [lastPing_eq hup]
  rcases h.next_ping with ⟨hnone, hle⟩ | ⟨y, hsome, hle⟩
  · rw [hnone]
    exact hle.trans (add_le_add_right (le_max_left _ _) _)
  · rw [hsome]
    exact hle.trans (add_le_add_right (le_max_right _ _) _)

theorem up_and_caughtUp (h : Paced start first period beats)
    (hanswered : AnsweredBefore limit start delay beats) (hlimit : 0 < limit)
    (hbound : delay + max first period ≤ limit) :
    (watch limit start beats).up = true ∧ CaughtUp limit start (max first period) beats := by
  induction beats using List.reverseRecOn with
  | nil => exact ⟨rfl, Or.inl le_rfl⟩
  | append_singleton beats beat ih =>
      obtain ⟨hup, hcaught⟩ := ih h.of_append hanswered.of_append
      cases beat with
      | pong z =>
          refine ⟨?_, Or.inl ?_⟩
          · rw [watch_append_singleton]
            exact hup
          · rw [watch_append_singleton]
            exact lastPing_le h hup
      | ping y =>
          have hle := lastPing_le h hup
          have hnext := h.next_le hup
          have hearly : (watch limit start beats).lastPing - (watch limit start beats).lastPong <
              limit := by
            rcases hcaught with hcaught | ⟨past, x, later, rfl, hsent, hnone, hx⟩
            · linarith
            · have hlate : ¬x + delay ≤ y := by
                intro hlate
                obtain ⟨z, hz⟩ := hanswered past x later y [] (by simp) hsent hlate
                exact hnone z hz
              change _ ≤ y at hle
              linarith
          have hstep := Watch.next_ping (x := y) hup hearly
          refine ⟨by rw [watch_append_singleton, hstep]; exact hup, ?_⟩
          rw [CaughtUp, watch_append_singleton, hstep]
          right
          rcases hcaught with hcaught | ⟨past, x, later, rfl, hsent, hnone, hx⟩
          · refine ⟨beats, y, [], rfl, ?_, by simp, ?_⟩
            · rw [Sent, watch_append_singleton, hstep]
              exact hup
            · exact hnext.trans (add_le_add_left hcaught _)
          · exact ⟨past, x, later ++ [.ping y], by simp, hsent, by simpa using hnone, hx⟩

theorem AnsweredWithin.before {longer : α} (h : AnsweredWithin limit start delay beats)
    (hpaced : Paced start first period beats) (hlonger : delay < longer) :
    AnsweredBefore limit start longer beats := by
  intro past x between y later hbeats hsent hlate
  have hy : x + delay < y := by linarith
  rcases h past x _ hbeats hsent with ⟨z, hz, hle⟩ | hend
  · rcases List.mem_append.mp hz with hz | hz
    · exact ⟨z, hz⟩
    · rcases List.mem_cons.mp hz with hz | hz
      · simp at hz
      · rw [hbeats, ← List.cons_append, ← List.append_assoc] at hpaced
        have hyz := hpaced.le_later hz
        simp only [Beat.time] at hyz
        linarith
  · have hle := hend (.ping y) (by simp)
    simp only [Beat.time] at hle
    linarith

/-- A watcher does not give up on a peer whose pongs keep pace. -/
theorem up_of_answered (h : Paced start first period beats) (hlimit : 0 < limit)
    (hanswered : AnsweredWithin limit start delay beats ∧ delay + max first period < limit ∨
      AnsweredBefore limit start delay beats ∧ delay + max first period ≤ limit) :
    (watch limit start beats).up = true := by
  rcases hanswered with ⟨hanswered, hbound⟩ | ⟨hanswered, hbound⟩
  · have hbefore := hanswered.before h (lt_sub_iff_add_lt.mpr hbound)
    exact (up_and_caughtUp h hbefore hlimit (sub_add_cancel _ _).le).1
  · exact (up_and_caughtUp h hanswered hlimit hbound).1

/-! ### Bounded detection -/

variable {bound : α}

theorem lastPing_lt (h : Paced start first period beats) (hfirst : first < limit)
    (hlimit : 0 < limit) (hperiod : 0 ≤ period) (hstart : start ≤ bound)
    (hpongs : ∀ z, .pong z ∈ beats → z ≤ bound) (hup : (watch limit start beats).up = true) :
    (watch limit start beats).lastPing < bound + limit + period := by
  induction beats using List.reverseRecOn with
  | nil =>
      change start < _
      linarith
  | append_singleton beats beat ih =>
      have hprev := ih h.of_append fun z hz => hpongs z (List.mem_append_left _ hz)
      rw [watch_append_singleton] at hup ⊢
      cases beat with
      | pong z => exact hprev hup
      | ping x =>
          obtain ⟨hprevUp, hearly⟩ := Watch.early_of_up hup
          have hpong := lastPong_le limit hstart
            fun z hz => hpongs z (List.mem_append_left _ hz)
          rw [Watch.next_ping hprevUp hearly]
          change x < _
          rw [lastPing_eq hprevUp] at hearly
          rcases h.next_ping with ⟨-, hle⟩ | ⟨y, hsome, hle⟩
          · linarith
          · rw [hsome] at hearly
            change y - _ < limit at hearly
            linarith

/-- When the pongs have stopped and the pings go on, the watcher gives up at
the second ping after the limit at the latest. -/
theorem exists_alarm (h : Paced start first period beats) (hfirst : first < limit)
    (hlimit : 0 < limit) (hperiod : 0 ≤ period) (hstart : start ≤ bound)
    (hpongs : ∀ z, .pong z ∈ beats → z ≤ bound) {y : α} (hy : .ping y ∈ beats)
    (hlate : bound + limit + period ≤ y) :
    ∃ past x later, beats = past ++ .ping x :: later ∧ (watch limit start past).up = true ∧
      ¬Sent limit start past x ∧ x ≤ bound + limit + 2 * period := by
  have hdown : (watch limit start beats).up ≠ true := by
    intro hup
    obtain ⟨past, later, rfl⟩ := List.append_of_mem hy
    have hsplit : past ++ .ping y :: later = (past ++ [.ping y]) ++ later := by simp
    rw [hsplit] at h hup
    have hsent := up_of_append hup
    have hlast := lastPing_lt h.of_append hfirst hlimit hperiod hstart
      (fun z hz => hpongs z (by rw [hsplit]; exact List.mem_append_left _ hz)) hsent
    rw [lastPing_eq hsent, pings_append, pings_ping, List.getLast?_concat] at hlast
    change y < _ at hlast
    linarith
  obtain ⟨past, x, later, rfl, hup, hsent⟩ := exists_alarm_of_not_up hdown
  refine ⟨past, x, later, rfl, hup, hsent, ?_⟩
  have hpast : Paced start first period (past ++ [.ping x]) := by
    rw [← List.singleton_append, ← List.append_assoc] at h
    exact h.of_append
  have hlast := lastPing_lt hpast.of_append hfirst hlimit hperiod hstart
    (fun z hz => hpongs z (List.mem_append_left _ hz)) hup
  rw [lastPing_eq hup] at hlast
  rcases hpast.next_ping with ⟨-, hle⟩ | ⟨y, hsome, hle⟩
  · linarith
  · rw [hsome] at hlast
    change y < _ at hlast
    linarith

end Alarms

end TwitchChatWorker.Lib.Heartbeats
