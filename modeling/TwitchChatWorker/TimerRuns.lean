import TwitchChatWorker.Lib.Alarms
import TwitchChatWorker.TimerPasses

/-!
The timer over whole runs.  However many functions share the queue, each of them is
called as if it were set alone.
-/

namespace TwitchChatWorker.TimerRuns

open TwitchChatWorker.Lib.Alarms
open TwitchChatWorker.Lib.Multimaps
open TwitchChatWorker.Lib.Runs
open TwitchChatWorker.TimerPasses
open TwitchChatWorker.Timers

/-- The alarm that a call sets. -/
def asked : Event → Option (Alarm Int)
  | .setTimer timestamp => some ⟨timestamp.toInt, none⟩
  | .setTimeout now delayMs => some ⟨(now + delayMs).toInt, none⟩
  | .setInterval now intervalMs => some ⟨(now + intervalMs).toInt, some intervalMs.toInt⟩
  | .pass _ _ => none

def passTime : Event → Option Int
  | .pass now _ => some now.toInt
  | _ => none

def passes (tr : List (Transition Timer Event)) : List Int :=
  tr.filterMap fun t => passTime t.event

/-- The functions that a pass calls, each with the time of the pass. -/
def calledIn (t : Transition Timer Event) : List (Function × Int) :=
  match t.event with
  | .pass now steps =>
      ((t.pre.pass now steps).elim [] Prod.snd).map fun function => (function, now.toInt)
  | _ => []

/-- The times at which the function of a call is called. -/
def callTimes (number : Nat) (tr : List (Transition Timer Event)) : List Int :=
  (tr.flatMap calledIn).filterMap fun call =>
    if call.1.number = number then some call.2 else none

/-- The intervals fit in an `int`, and the clock is that far from its end. -/
def Fits : Event → Prop
  | .setInterval _ intervalMs => intervalMs.toInt < 2 ^ 31
  | .pass now _ => now.toInt + 2 ^ 31 ≤ 2 ^ 63
  | _ => True

instance : DecidablePred Fits := fun e => by
  cases e <;> unfold Fits <;> infer_instance

/-- What a call sets is called as an alarm of its own would ring at the passes after
it, and not before; a pass that fits always ends. -/
structure KeepsTime (tr : List (Transition Timer Event)) (t : Timer) : Prop where
  alone : ∀ past u future, tr = past ++ u :: future → ∀ alarm ∈ asked u.event,
    callTimes u.pre.calls future = rings (some alarm) (passes future)
  punctual : ∀ past u future, tr = past ++ u :: future → ∀ alarm ∈ asked u.event,
    Punctual alarm (passes future) (callTimes u.pre.calls future)
  notBefore : ∀ past u future, tr = past ++ u :: future → ∀ alarm ∈ asked u.event,
    callTimes u.pre.calls (past ++ [u]) = []
  ends : ∀ now : Int64, now.toInt + 2 ^ 31 ≤ 2 ^ 63 → ∃ steps, (step t (.pass now steps)).isSome

def alarmOf (e : Entry) : Alarm Int := ⟨e.timestamp, e.function.intervalMs.map Int64.toInt⟩

/-- The alarms of the function with this number. -/
def alarmsOf (number : Nat) (entries : List Entry) : List (Alarm Int) :=
  entries.filterMap fun e => if e.function.number = number then some (alarmOf e) else none

/-- The alarms that stand in the queue for the function of a call. -/
def alarms (number : Nat) (queue : List Node) : List (Alarm Int) :=
  alarmsOf number (queue.map entry)

section Passes

variable {now : Int64} {number : Nat}

theorem passLoop_more {steps more : Nat} (hmore : steps ≤ more) {queue : List Node}
    {it : Option Nat} {called : List Function} {result : List Node × List Function}
    (h : Timer.passLoop now steps queue it called = some result) :
    Timer.passLoop now more queue it called = some result := by
  induction steps generalizing more queue it called with
  | zero => simp [Timer.passLoop] at h
  | succ steps ih =>
      obtain ⟨more, rfl⟩ : ∃ m, more = m + 1 := ⟨more - 1, by omega⟩
      have hless : steps ≤ more := Nat.le_of_succ_le_succ hmore
      cases it with
      | none => exact h
      | some i =>
          rw [Timer.passLoop] at h ⊢
          split at h
          · simp at h
          next node hnode =>
            simp only
            split at h
            next hlater => rw [if_pos hlater, h]
            next hdue =>
              rw [if_neg hdue]
              split at h
              next hrepeat =>
                rw [if_pos hrepeat]
                exact ih hless h
              next hrepeat =>
                rw [if_neg hrepeat]
                exact ih hless h

theorem pass_result {t : Timer} (hexact : PassExact t now) {steps : Nat}
    {result : List Node × List Function} (hpass : t.pass now steps = some result) :
    result.2.Perm ((t.queue.filter fun node => node.timestamp ≤ now).map Node.function) ∧
      (result.1.map entry).Perm (t.queue.filterMap (left now)) := by
  obtain ⟨needed, queue, called, heq, hcalled, hqueue⟩ := hexact
  have hsame := passLoop_more (le_max_right steps needed) heq
  rw [passLoop_more (le_max_left steps needed) hpass] at hsame
  obtain rfl := Option.some.inj hsame
  exact ⟨hcalled, hqueue⟩

theorem look_left (now : Int64) (node : Node) :
    (left now node).map alarmOf = (alarmOf (entry node)).look now.toInt := by
  rw [left, Alarm.look, alarmOf, entry]
  by_cases hlater : now < node.timestamp
  · rw [if_pos hlater, if_pos (lt_iff_key.mp hlater)]
    rfl
  · rw [if_neg hlater, if_neg fun hlt => hlater (lt_iff_key.mpr hlt)]
    cases hinterval : node.function.intervalMs with
    | none => rfl
    | some intervalMs => simp [alarmOf, hinterval]

theorem function_left {now : Int64} {node : Node} {e : Entry} (h : left now node = some e) :
    e.function = node.function := by
  rw [left] at h
  split at h
  · obtain rfl := Option.some.inj h
    rfl
  · obtain ⟨intervalMs, -, rfl⟩ := Option.map_eq_some_iff.mp h
    rfl

theorem alarmsOf_left (number : Nat) (now : Int64) (queue : List Node) :
    alarmsOf number (queue.filterMap (left now)) =
      (alarms number queue).filterMap (·.look now.toInt) := by
  rw [alarms, alarmsOf, alarmsOf, List.filterMap_map, List.filterMap_filterMap,
    List.filterMap_filterMap]
  apply List.filterMap_congr
  intro node _
  rw [Function.comp_apply]
  by_cases hnumber : (entry node).function.number = number
  · rw [if_pos hnumber, Option.bind_some, ← look_left]
    cases hleft : left now node with
    | none => rfl
    | some e =>
        rw [Option.bind_some, Option.map_some, function_left hleft]
        exact if_pos hnumber
  · rw [if_neg hnumber, Option.bind_none]
    cases hleft : left now node with
    | none => rfl
    | some e =>
        rw [Option.bind_some, function_left hleft]
        exact if_neg hnumber

theorem rung_alarms (number : Nat) (now : Int64) (queue : List Node) :
    ((queue.filter fun node => node.timestamp ≤ now).map Node.function).filterMap
        (fun function => if function.number = number then some now.toInt else none) =
      (alarms number queue).flatMap (·.rung now.toInt) := by
  induction queue with
  | nil => rfl
  | cons node queue ih =>
      have hcons : alarms number (node :: queue) =
          (if node.function.number = number then [alarmOf (entry node)] else []) ++
            alarms number queue := by
        rw [alarms, List.map_cons, alarmsOf, List.filterMap_cons]
        by_cases hnumber : node.function.number = number
        · simp [entry, hnumber, alarms, alarmsOf]
        · simp [entry, hnumber, alarms, alarmsOf]
      rw [hcons, List.flatMap_append, ← ih]
      by_cases hdue : node.timestamp ≤ now
      · rw [List.filter_cons_of_pos (by simpa using hdue), List.map_cons, List.filterMap_cons]
        by_cases hnumber : node.function.number = number
        · have hrung : (alarmOf (entry node)).rung now.toInt = [now.toInt] :=
            if_neg (not_lt.mpr (le_iff_key.mp hdue))
          simp [hnumber, hrung]
        · simp [hnumber]
      · rw [List.filter_cons_of_neg (by simpa using hdue)]
        by_cases hnumber : node.function.number = number
        · have hrung : (alarmOf (entry node)).rung now.toInt = [] :=
            if_pos (not_le.mp fun hle => hdue (le_iff_key.mpr hle))
          simp [hnumber, hrung]
        · simp [hnumber]

end Passes

/-- The queue is in order, and the intervals in it fit in an `int`. -/
structure Sound (t : Timer) : Prop where
  ordered : Ordered t.calls t.queue
  short : ∀ node ∈ t.queue, ∀ intervalMs ∈ node.function.intervalMs, intervalMs.toInt < 2 ^ 31

section Steps

variable {t t' : Timer} {e : Event} {number : Nat}

theorem sound_start : Sound {} :=
  ⟨ordered_nil 0, fun _ h => absurd h List.not_mem_nil⟩

theorem Sound.intervalsFit (h : Sound t) {now : Int64} (hnow : now.toInt + 2 ^ 31 ≤ 2 ^ 63) :
    IntervalsFit t now := by
  intro node hnode _ intervalMs hinterval
  have hshort := h.short node hnode intervalMs hinterval
  exact ⟨hshort, by omega⟩

theorem step_cases (hstep : step t e = some t') :
    (∃ timestamp intervalMs repeatMs, t' = t.emplace timestamp intervalMs repeatMs ∧
      asked e = some ⟨timestamp.toInt, intervalMs.map Int64.toInt⟩ ∧ passTime e = none ∧
      (Fits e → ∀ i ∈ intervalMs, i.toInt < 2 ^ 31)) ∨
    ∃ now steps result, e = .pass now steps ∧ t.pass now steps = some result ∧
      t' = { t with queue := result.1 } := by
  cases e with
  | setTimer timestamp =>
      obtain rfl := Option.some.inj hstep
      exact .inl ⟨timestamp, none, 0, rfl, rfl, rfl, by simp⟩
  | setTimeout now delayMs =>
      obtain rfl := Option.some.inj hstep
      exact .inl ⟨now + delayMs, none, 0, rfl, rfl, rfl, by simp⟩
  | setInterval now intervalMs =>
      simp only [step] at hstep
      split at hstep
      · obtain rfl := Option.some.inj hstep
        exact .inl ⟨now + intervalMs, some intervalMs, intervalMs.toInt32, rfl, rfl, rfl,
          fun hfits i hi => Option.some.inj hi ▸ hfits⟩
      · simp at hstep
  | pass now steps =>
      obtain ⟨result, hpass, rfl⟩ := Option.map_eq_some_iff.mp hstep
      exact .inr ⟨now, steps, result, rfl, hpass, rfl⟩

theorem Sound.step (h : Sound t) (hfits : Fits e) (hstep : step t e = some t') : Sound t' := by
  refine ⟨ordered_step h.ordered hstep, ?_⟩
  rcases step_cases hstep with ⟨timestamp, intervalMs, repeatMs, rfl, -, -, hshort⟩ |
    ⟨now, steps, result, rfl, hpass, rfl⟩
  · intro node hnode
    rcases mem_insert.mp hnode with rfl | hnode
    · exact hshort hfits
    · exact h.short node hnode
  · intro node hnode
    obtain ⟨first, hfirst, rfl | ⟨-, rfl⟩⟩ := descends_pass hpass node hnode
    · exact h.short node hfirst
    · exact h.short first hfirst

theorem alarms_fresh (h : Ordered t.calls t.queue) (hnumber : t.calls ≤ number) :
    alarms number t.queue = [] := by
  apply List.filterMap_eq_nil_iff.mpr
  intro e he
  obtain ⟨node, hnode, rfl⟩ := List.mem_map.mp he
  have hbelow : node.function.number < t.calls := h.below node hnode
  apply if_neg
  rintro rfl
  exact absurd hbelow (not_lt.mpr hnumber)

theorem alarms_emplace (timestamp : Int64) (intervalMs : Option Int64) (repeatMs : Int32) :
    (alarms number (t.emplace timestamp intervalMs repeatMs).queue).Perm
      ((if t.calls = number then [⟨timestamp.toInt, intervalMs.map Int64.toInt⟩] else []) ++
        alarms number t.queue) := by
  let node : Node := ⟨timestamp, ⟨t.calls, intervalMs⟩, repeatMs⟩
  have hperm : (insert Node.key node t.queue).Perm (node :: t.queue) := insert_perm node t.queue
  refine ((hperm.map entry).filterMap _).trans (.of_eq ?_)
  rw [List.map_cons, List.filterMap_cons]
  by_cases hnumber : t.calls = number
  · simp [node, entry, hnumber, alarmOf, alarms, alarmsOf, Node.key]
  · simp [node, entry, hnumber, alarms, alarmsOf]

theorem callTimes_append (number : Nat) (tr tr' : List (Transition Timer Event)) :
    callTimes number (tr ++ tr') = callTimes number tr ++ callTimes number tr' := by
  rw [callTimes, List.flatMap_append, List.filterMap_append]
  rfl

/-- What a pass does to the alarms of one function, and the calls it makes of it. -/
theorem Sound.pass (h : Sound t) {now : Int64} {steps : Nat} (hnow : now.toInt + 2 ^ 31 ≤ 2 ^ 63)
    {result : List Node × List Function} (hpass : t.pass now steps = some result)
    (t' : Timer) (number : Nat) :
    (alarms number result.1).Perm ((alarms number t.queue).filterMap (·.look now.toInt)) ∧
      (callTimes number [⟨t, .pass now steps, t'⟩]).Perm
        ((alarms number t.queue).flatMap (·.rung now.toInt)) := by
  obtain ⟨hcalled, hqueue⟩ :=
    pass_result (pass_exact_of_fits h.ordered (h.intervalsFit hnow)) hpass
  constructor
  · rw [← alarmsOf_left]
    exact hqueue.filterMap _
  · rw [← rung_alarms]
    have hcalls : callTimes number [⟨t, .pass now steps, t'⟩] = result.2.filterMap
        fun function => if function.number = number then some now.toInt else none := by
      simp [callTimes, calledIn, hpass, List.filterMap_map]
    rw [hcalls]
    exact hcalled.filterMap _

theorem callTimes_of_set (hset : passTime e = none) (number : Nat) :
    callTimes number [⟨t, e, t'⟩] = [] := by
  cases e with
  | pass now steps => simp [passTime] at hset
  | _ => rfl

end Steps

section Runs

variable {past future : List (Transition Timer Event)} {u : Transition Timer Event} {t : Timer}

theorem sound_of_run {tr : List (Transition Timer Event)} (hrun : Run step {} tr t)
    (hfits : ∀ v ∈ tr, Fits v.event) : Sound t :=
  hrun.invariant (fun v => Fits v.event) sound_start (fun _ _ _ h hfit he => h.step hfit he) hfits

theorem passes_concat (tr : List (Transition Timer Event)) (v : Transition Timer Event) :
    passes (tr ++ [v]) = passes tr ++ (passTime v.event).toList := by
  rw [passes, List.filterMap_append]
  cases h : passTime v.event <;> simp [passes, h]

theorem not_called {tr : List (Transition Timer Event)} (hrun : Run step {} tr t)
    (hfits : ∀ v ∈ tr, Fits v.event) {number : Nat} (hnumber : t.calls ≤ number) :
    callTimes number tr = [] := by
  induction hrun with
  | nil => rfl
  | @snoc tr s e s' hprev he ih =>
      have hbefore : ∀ v ∈ tr, Fits v.event := fun v hv => hfits v (List.mem_append_left _ hv)
      have hsound := sound_of_run hprev hbefore
      have hfit : Fits e := hfits ⟨s, e, s'⟩ (by simp)
      rw [callTimes_append]
      rcases step_cases he with ⟨timestamp, intervalMs, repeatMs, rfl, -, hset, -⟩ |
        ⟨now, steps, result, rfl, hpass, rfl⟩
      · rw [ih hbefore (Nat.le_of_succ_le hnumber), callTimes_of_set hset]
        rfl
      · have hcalls := (hsound.pass hfit hpass { s with queue := result.1 } number).2
        rw [alarms_fresh hsound.ordered hnumber] at hcalls
        rw [ih hbefore hnumber, hcalls.eq_nil]
        rfl

/-- The induction is on the events after the call: its function has one alarm in the
queue, or none any more, and that is what a lone alarm would be by then. -/
theorem follows {alarm : Alarm Int} (hrun : Run step {} (past ++ u :: future) t)
    (hfits : ∀ v ∈ past ++ u :: future, Fits v.event) (halarm : asked u.event = some alarm) :
    u.pre.calls < t.calls ∧
      (alarms u.pre.calls t.queue).Perm (remaining (some alarm) (passes future)).toList ∧
      callTimes u.pre.calls future = rings (some alarm) (passes future) := by
  induction future using List.reverseRecOn generalizing t with
  | nil =>
      obtain ⟨hprev, rfl⟩ := hrun.of_snoc
      have hsound := sound_of_run hprev fun v hv => hfits v (List.mem_append_left _ hv)
      have he := (hrun.step_of_split past u [] rfl).2
      rcases step_cases he with ⟨timestamp, intervalMs, repeatMs, hpost, hasked, -, -⟩ |
        ⟨now, steps, result, hpass, -, -⟩
      · obtain rfl := Option.some.inj (hasked.symm.trans halarm)
        rw [hpost]
        refine ⟨Nat.lt_succ_self _, ?_, rfl⟩
        refine (alarms_emplace timestamp intervalMs repeatMs).trans (.of_eq ?_)
        rw [if_pos rfl, alarms_fresh hsound.ordered (le_refl _)]
        rfl
      · rw [hpass] at halarm
        simp [asked] at halarm
  | append_singleton future last ih =>
      obtain ⟨s, e, s'⟩ := last
      rw [← List.cons_append, ← List.append_assoc] at hrun hfits
      have he : step s e = some s' := (hrun.step_of_split _ ⟨s, e, s'⟩ [] rfl).2
      have hfit : Fits e := hfits ⟨s, e, s'⟩ (by simp)
      have hbefore : ∀ v ∈ past ++ u :: future, Fits v.event :=
        fun v hv => hfits v (List.mem_append_left _ hv)
      obtain ⟨hprev, rfl⟩ := hrun.of_snoc
      have hsound : Sound s := sound_of_run hprev hbefore
      obtain ⟨hlt, halarms, hcalls⟩ := ih hprev hbefore
      rw [passes_concat, callTimes_append, hcalls]
      rcases step_cases he with ⟨timestamp, intervalMs, repeatMs, rfl, -, hset, -⟩ |
        ⟨now, steps, result, rfl, hpass, rfl⟩
      · rw [hset, Option.toList_none, List.append_nil, callTimes_of_set hset, List.append_nil]
        refine ⟨Nat.lt_succ_of_lt hlt, ?_, rfl⟩
        refine (alarms_emplace timestamp intervalMs repeatMs).trans ?_
        rw [if_neg hlt.ne']
        exact halarms
      · obtain ⟨hleft, hrung⟩ :=
          hsound.pass hfit hpass { s with queue := result.1 } u.pre.calls
        replace hleft := hleft.trans (halarms.filterMap (·.look now.toInt))
        replace hrung := hrung.trans (halarms.flatMap_right (·.rung now.toInt))
        rw [show passTime (.pass now steps) = some now.toInt from rfl, Option.toList_some,
          remaining_concat, rings_concat]
        refine ⟨hlt, ?_, ?_⟩
        · refine hleft.trans (.of_eq ?_)
          cases remaining (some alarm) (passes future) with
          | none => rfl
          | some a => cases h : a.look now.toInt <;> simp [h]
        · apply congrArg (rings (some alarm) (passes future) ++ ·)
          cases hremaining : remaining (some alarm) (passes future) with
          | none =>
              rw [hremaining] at hrung
              exact hrung.eq_nil
          | some a =>
              rw [hremaining, Option.toList_some, List.flatMap_singleton] at hrung
              exact Alarm.eq_rung_of_perm hrung

end Runs

/-- In every run whose intervals fit in an `int`, each function is called as if its
alarm were the only one. -/
theorem keepsTime_of_run (tr : List (Transition Timer Event)) (t : Timer)
    (hrun : Run step {} tr t) (hfits : ∀ v ∈ tr, Fits v.event) : KeepsTime tr t := by
  have halone : ∀ past u future, tr = past ++ u :: future → ∀ alarm ∈ asked u.event,
      callTimes u.pre.calls future = rings (some alarm) (passes future) := by
    rintro past u future rfl alarm halarm
    exact (follows hrun hfits halarm).2.2
  refine ⟨halone, ?_, ?_, ?_⟩
  · intro past u future hsplit alarm halarm
    rw [halone past u future hsplit alarm halarm]
    exact punctual_rings alarm (passes future)
  · rintro past u future rfl alarm halarm
    obtain ⟨hprev, -⟩ := hrun.step_of_split past u future rfl
    rw [callTimes_append,
      not_called hprev (fun v hv => hfits v (List.mem_append_left _ hv)) (le_refl _)]
    obtain ⟨s, e, s'⟩ := u
    cases e with
    | pass now steps => simp [asked] at halarm
    | _ => rfl
  · intro now hnow
    have hsound := sound_of_run hrun hfits
    obtain ⟨steps, queue, called, hpass, -⟩ :=
      pass_exact_of_fits hsound.ordered (hsound.intervalsFit hnow)
    exact ⟨steps, by simp [step, hpass]⟩

/-- A timeout, an interval of one second and an interval of 300 milliseconds under
passes that come late. -/
def lateAlarms : List Event :=
  [.setTimeout 0 500, .setInterval 0 1000, .pass 600 5, .setInterval 600 300, .pass 1100 5,
    .pass 1200 5, .pass 2600 5]

theorem keepsTime_of_run_lateAlarms :
    ∃ t, exec step {} lateAlarms = some t ∧ KeepsTime (trace step {} lateAlarms) t := by
  have hsome : (exec step {} lateAlarms).isSome := by decide +kernel
  refine ⟨_, (Option.some_get hsome).symm, ?_⟩
  apply keepsTime_of_run _ _ (run_trace lateAlarms hsome)
  intro v hv
  have hall : ∀ e ∈ lateAlarms, Fits e := by decide
  exact hall v.event (event_mem_of_mem_trace hv)

end TwitchChatWorker.TimerRuns
