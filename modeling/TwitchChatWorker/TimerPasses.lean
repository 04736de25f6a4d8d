import Mathlib.Algebra.Group.Int.Defs
import Mathlib.Data.List.Nodup
import TwitchChatWorker.Lib.Runs
import TwitchChatWorker.Timers

/-!
What one pass over the queue of the timer does.  A node that is put back lands
behind the nodes that are due as long as its new key is later than the pass.
-/

namespace TwitchChatWorker.TimerPasses

open TwitchChatWorker.Lib.Multimaps
open TwitchChatWorker.Lib.Runs
open TwitchChatWorker.Timers

/-- A function and the time at which it is to be called. -/
structure Entry where
  function : Function
  timestamp : Int
deriving DecidableEq

def entry (node : Node) : Entry := ⟨node.function, node.key⟩

/-- What should be left of a node: itself when it is not due, and when it is, the
next call of an interval. -/
def left (now : Int64) (node : Node) : Option Entry :=
  if now < node.timestamp then some (entry node)
  else node.function.intervalMs.map fun intervalMs =>
    ⟨node.function, now.toInt + intervalMs.toInt⟩

/-- The pass ends, calls what is due once each, and leaves what it should. -/
def PassExact (t : Timer) (now : Int64) : Prop :=
  ∃ steps queue called, t.pass now steps = some (queue, called) ∧
    called.Perm ((t.queue.filter fun node => node.timestamp ≤ now).map Node.function) ∧
    (queue.map entry).Perm (t.queue.filterMap (left now))

/-- The intervals that are due fit in an `int`, and their next calls in a
`long long`. -/
def IntervalsFit (t : Timer) (now : Int64) : Prop :=
  ∀ node ∈ t.queue, node.timestamp ≤ now → ∀ intervalMs ∈ node.function.intervalMs,
    intervalMs.toInt < 2 ^ 31 ∧ now.toInt + intervalMs.toInt < 2 ^ 63

instance (t : Timer) (now : Int64) : Decidable (IntervalsFit t now) :=
  haveI (node : Node) : Decidable (∀ intervalMs ∈ node.function.intervalMs,
      intervalMs.toInt < 2 ^ 31 ∧ now.toInt + intervalMs.toInt < 2 ^ 63) :=
    Option.decidableForallMem node.function.intervalMs
  inferInstanceAs (Decidable (∀ node ∈ t.queue, _ → _))

/-- What is stored is what was asked for, cut to an `int`. -/
structure Asked (node : Node) : Prop where
  pos : ∀ intervalMs ∈ node.function.intervalMs, 0 < intervalMs
  repeatMs : node.repeatMs = (node.function.intervalMs.map Int64.toInt32).getD 0

/-- The queue is in order of time, with each call's number once. -/
structure Ordered (calls : Nat) (queue : List Node) : Prop where
  sorted : Sorted Node.key queue
  numbers : (queue.map Node.number).Nodup
  below : ∀ node ∈ queue, node.number < calls
  asked : ∀ node ∈ queue, Asked node

section Queues

variable {calls : Nat} {queue : List Node} {node : Node} {now : Int64}

theorem lt_iff_key : now < node.timestamp ↔ now.toInt < node.key :=
  Int64.lt_iff_toInt_lt

theorem le_iff_key : node.timestamp ≤ now ↔ node.key ≤ now.toInt :=
  Int64.le_iff_toInt_le

theorem not_lt_of_due (h : node.timestamp ≤ now) : ¬now < node.timestamp := by
  rw [lt_iff_key, not_lt]
  exact le_iff_key.mp h

theorem ordered_nil (calls : Nat) : Ordered calls [] :=
  ⟨.nil, .nil, fun _ h => absurd h List.not_mem_nil, fun _ h => absurd h List.not_mem_nil⟩

theorem Ordered.sublist {rest : List Node} (h : Ordered calls queue) (hrest : rest.Sublist queue) :
    Ordered calls rest where
  sorted := List.Pairwise.sublist hrest h.sorted
  numbers := h.numbers.sublist (hrest.map _)
  below := fun node hnode => h.below node (hrest.subset hnode)
  asked := fun node hnode => h.asked node (hrest.subset hnode)

theorem Ordered.add {calls' : Nat} (h : Ordered calls queue) (hcalls : calls ≤ calls')
    (hnew : node.number ∉ queue.map Node.number) (hbelow : node.number < calls')
    (hasked : Asked node) : Ordered calls' (insert Node.key node queue) := by
  refine ⟨h.sorted.insert node, ?_, ?_, ?_⟩
  · rw [((insert_perm node queue).map Node.number).nodup_iff, List.map_cons, List.nodup_cons]
    exact ⟨hnew, h.numbers⟩
  · intro other hother
    rcases mem_insert.mp hother with rfl | hother
    · exact hbelow
    · exact (h.below other hother).trans_le hcalls
  · intro other hother
    rcases mem_insert.mp hother with rfl | hother
    · exact hasked
    · exact h.asked other hother

theorem Ordered.emplace {t : Timer} (h : Ordered t.calls t.queue) (timestamp : Int64)
    {intervalMs : Option Int64} {repeatMs : Int32} (hpos : ∀ i ∈ intervalMs, 0 < i)
    (hrepeat : repeatMs = (intervalMs.map Int64.toInt32).getD 0) :
    Ordered (t.emplace timestamp intervalMs repeatMs).calls
      (t.emplace timestamp intervalMs repeatMs).queue := by
  refine h.add (Nat.le_succ t.calls) ?_ (Nat.lt_succ_self t.calls) ⟨hpos, hrepeat⟩
  intro hmem
  obtain ⟨other, hother, hnumber⟩ := List.mem_map.mp hmem
  exact absurd (h.below other hother) (not_lt.mpr hnumber.ge)

theorem sublist_erased (before after : List Node) (node : Node) :
    (before ++ after).Sublist (before ++ node :: after) :=
  (List.sublist_cons_self node after).append_left before

theorem Ordered.move {before after : List Node} (h : Ordered calls (before ++ node :: after)) :
    Ordered calls (insert Node.key (node.repeated now) (before ++ after)) := by
  have hmem : node ∈ before ++ node :: after := by simp
  have hnumbers := h.numbers
  rw [List.map_append, List.map_cons, List.nodup_middle, List.nodup_cons] at hnumbers
  have hrest := h.sublist (sublist_erased before after node)
  refine hrest.add (le_refl calls) ?_ (h.below node hmem) ?_
  · rw [List.map_append]
    exact hnumbers.1
  · exact ⟨(h.asked node hmem).pos, (h.asked node hmem).repeatMs⟩

end Queues

section Loop

variable {now : Int64}

/-- What holds of the queue however nodes are put back and taken out holds of the
queue that the loop leaves. -/
theorem passLoop_keeps {P : List Node → Prop}
    (hmove : ∀ before node after, P (before ++ node :: after) → 0 < node.repeatMs →
      P (insert Node.key (node.repeated now) (before ++ after)))
    (herase : ∀ before node after, P (before ++ node :: after) → P (before ++ after))
    {steps : Nat} {queue : List Node} {it : Option Nat} {called : List Function}
    {result : List Node × List Function} (hqueue : P queue)
    (h : Timer.passLoop now steps queue it called = some result) : P result.1 := by
  induction steps generalizing queue it called with
  | zero => simp [Timer.passLoop] at h
  | succ steps ih =>
      cases it with
      | none =>
          obtain rfl := Option.some.inj h
          exact hqueue
      | some number =>
          rw [Timer.passLoop] at h
          split at h
          next => simp at h
          next node hnode =>
            obtain ⟨-, before, after, rfl, hextract⟩ := exists_of_node? hnode
            simp only [hextract] at h
            split at h
            next =>
              obtain rfl := Option.some.inj h
              exact hqueue
            next hdue =>
              split at h
              next hrepeat => exact ih (hmove before node after hqueue hrepeat) h
              next => exact ih (herase before node after hqueue) h

/-- The iterator is on the first due node, or behind all of them. -/
structure Stands (due later : List Node) (it : Option Nat) : Prop where
  first : ∀ node ∈ due.head?, it = some node.number
  behind : due = [] → ∀ number ∈ it, number ∈ later.map Node.number

theorem stands_head (due later : List Node) :
    Stands due later ((due ++ later).head?.map Node.number) := by
  constructor
  · cases due with
    | nil => simp
    | cons node due => simp
  · rintro rfl number hnumber
    obtain ⟨node, hnode, rfl⟩ := Option.map_eq_some_iff.mp hnumber
    exact List.mem_map_of_mem (List.mem_of_mem_head? hnode)

theorem Stands.insert {due later : List Node} {it : Option Nat} (h : Stands due later it)
    (node : Node) : Stands due (insert Node.key node later) it := by
  refine ⟨h.first, fun hempty number hnumber => ?_⟩
  obtain ⟨other, hother, hname⟩ := List.mem_map.mp (h.behind hempty number hnumber)
  exact List.mem_map.mpr ⟨other, mem_insert.mpr (.inr hother), hname⟩

theorem passLoop_head {node : Node} (hdue : node.timestamp ≤ now) (rest : List Node)
    (called : List Function) (steps : Nat) :
    Timer.passLoop now (steps + 1) (node :: rest) (some node.number) called =
      Timer.passLoop now steps
        (if 0 < node.repeatMs then insert Node.key (node.repeated now) rest else rest)
        (rest.head?.map Node.number) (called ++ [node.function]) := by
  rw [Timer.passLoop, node?_cons_self]
  simp only [not_lt_of_due hdue, if_false, next?_cons_self, extract_cons_self]
  split
  · rfl
  · rfl

theorem passLoop_later {later : List Node} (hlater : ∀ node ∈ later, now < node.timestamp)
    {it : Option Nat} (hit : ∀ number ∈ it, number ∈ later.map Node.number)
    (called : List Function) (steps : Nat) :
    Timer.passLoop now (steps + 1) later it called = some (later, called) := by
  cases it with
  | none => rfl
  | some number =>
      obtain ⟨node, hnode, hnumber⟩ := List.mem_map.mp (hit number rfl)
      have hfound : ∃ other ∈ later, node? Node.number number later = some other := by
        cases hother : node? Node.number number later with
        | none =>
            have hnot := List.find?_eq_none.mp hother node hnode
            exact absurd (decide_eq_true hnumber) hnot
        | some other => exact ⟨other, List.mem_of_find?_eq_some hother, rfl⟩
      obtain ⟨other, hother, heq⟩ := hfound
      rw [Timer.passLoop, heq]
      exact if_pos (hlater other hother)

/-- What the loop puts back of a due node. -/
def again (now : Int64) (node : Node) : Option Node :=
  if 0 < node.repeatMs then some (node.repeated now) else none

/-- The induction is on the nodes that are still due: a node that is put back joins
the later ones, so the iterator saved before that stays on what comes next. -/
theorem passLoop_due {due : List Node} (hdue : ∀ node ∈ due, node.timestamp ≤ now)
    (hfits : ∀ node ∈ due, 0 < node.repeatMs → now < (node.repeated now).timestamp)
    {later : List Node} (hlater : ∀ node ∈ later, now < node.timestamp) {it : Option Nat}
    (hit : Stands due later it) (called : List Function) :
    ∃ queue, Timer.passLoop now (due.length + 1) (due ++ later) it called =
        some (queue, called ++ due.map Node.function) ∧
      queue.Perm (later ++ due.filterMap (again now)) := by
  induction due generalizing later it called with
  | nil =>
      refine ⟨later, ?_, by simp⟩
      rw [List.nil_append, passLoop_later hlater (hit.behind rfl)]
      simp
  | cons node due ih =>
      obtain rfl := hit.first node rfl
      have hdueRest := fun other hother => hdue other (List.mem_cons_of_mem node hother)
      have hfitsRest := fun other hother => hfits other (List.mem_cons_of_mem node hother)
      have hnext := stands_head due later
      rw [List.cons_append, passLoop_head (hdue node List.mem_cons_self), List.filterMap_cons,
        List.map_cons, List.append_cons called node.function (due.map Node.function)]
      by_cases hrepeat : 0 < node.repeatMs
      · have hlate := hfits node List.mem_cons_self hrepeat
        have hkeys : ∀ other ∈ due, other.key ≤ (node.repeated now).key := by
          intro other hother
          have hle := le_iff_key.mp (hdueRest other hother)
          have hlt := lt_iff_key.mp hlate
          omega
        have hlaterMore : ∀ other ∈ insert Node.key (node.repeated now) later,
            now < other.timestamp := by
          intro other hother
          rcases mem_insert.mp hother with rfl | hother
          · exact hlate
          · exact hlater other hother
        obtain ⟨queue, hloop, hqueue⟩ := ih hdueRest hfitsRest hlaterMore
          (hnext.insert (node.repeated now)) (called ++ [node.function])
        refine ⟨queue, ?_, ?_⟩
        · rw [if_pos hrepeat, insert_append hkeys]
          exact hloop
        · rw [again, if_pos hrepeat]
          exact hqueue.trans (((insert_perm _ later).append_right _).trans List.perm_middle.symm)
      · obtain ⟨queue, hloop, hqueue⟩ := ih hdueRest hfitsRest hlater hnext
          (called ++ [node.function])
        refine ⟨queue, ?_, ?_⟩
        · rw [if_neg hrepeat]
          exact hloop
        · rwa [again, if_neg hrepeat]

end Loop

section Exactness

variable {node : Node} {now : Int64} {intervalMs : Int64}

theorem Asked.pos_toInt (h : Asked node) (hinterval : node.function.intervalMs = some intervalMs) :
    0 < intervalMs.toInt :=
  Int64.lt_iff_toInt_lt.mp (h.pos intervalMs hinterval)

theorem Asked.not_repeated (h : Asked node) (hinterval : node.function.intervalMs = none) :
    ¬0 < node.repeatMs := by
  rw [h.repeatMs, hinterval]
  decide

theorem Asked.repeatMs_toInt (h : Asked node)
    (hinterval : node.function.intervalMs = some intervalMs)
    (hfits : intervalMs.toInt < 2 ^ 31) : node.repeatMs.toInt = intervalMs.toInt := by
  have hpos := h.pos_toInt hinterval
  rw [h.repeatMs, hinterval]
  simp only [Option.map_some, Option.getD_some, Int64.toInt_toInt32]
  apply Int.bmod_eq_of_le <;> omega

theorem repeated_key (hrange : -2 ^ 63 ≤ now.toInt + node.repeatMs.toInt)
    (hfits : now.toInt + node.repeatMs.toInt < 2 ^ 63) :
    (node.repeated now).key = now.toInt + node.repeatMs.toInt := by
  rw [Node.key, Node.repeated, Int64.toInt_add, Int32.toInt_toInt64]
  apply Int.bmod_eq_of_le <;> omega

theorem repeated_of_fits (h : Asked node) (hinterval : node.function.intervalMs = some intervalMs)
    (hfits : intervalMs.toInt < 2 ^ 31) (hsum : now.toInt + intervalMs.toInt < 2 ^ 63) :
    0 < node.repeatMs ∧ (node.repeated now).key = now.toInt + intervalMs.toInt := by
  have hpos := h.pos_toInt hinterval
  have hstored := h.repeatMs_toInt hinterval hfits
  have hnow := now.le_toInt
  refine ⟨?_, ?_⟩
  · rw [Int32.lt_iff_toInt_lt, hstored]
    exact hpos
  · rw [repeated_key (by omega) (by omega), hstored]

theorem repeated_late (h : Asked node)
    (hfits : ∀ intervalMs ∈ node.function.intervalMs,
      intervalMs.toInt < 2 ^ 31 ∧ now.toInt + intervalMs.toInt < 2 ^ 63)
    (hrepeat : 0 < node.repeatMs) : now < (node.repeated now).timestamp := by
  cases hinterval : node.function.intervalMs with
  | none => exact absurd hrepeat (h.not_repeated hinterval)
  | some intervalMs =>
      obtain ⟨hint, hsum⟩ := hfits intervalMs hinterval
      rw [lt_iff_key, (repeated_of_fits h hinterval hint hsum).2]
      exact Int.lt_add_of_pos_right _ (h.pos_toInt hinterval)

theorem fits_of_repeated (h : Asked node) (hinterval : node.function.intervalMs = some intervalMs)
    (hrepeat : 0 < node.repeatMs) (hkey : (node.repeated now).key = now.toInt + intervalMs.toInt) :
    intervalMs.toInt < 2 ^ 31 ∧ now.toInt + intervalMs.toInt < 2 ^ 63 := by
  have hpos := h.pos_toInt hinterval
  have hrepeat : 0 < node.repeatMs.toInt := Int32.lt_iff_toInt_lt.mp hrepeat
  have hlt := intervalMs.toInt_lt
  have hint := node.repeatMs.toInt_lt
  have hkeyLt : (node.repeated now).key < 2 ^ 63 := Int64.toInt_lt _
  rw [hkey] at hkeyLt
  rw [Node.key, Node.repeated, Int64.toInt_add, Int32.toInt_toInt64] at hkey
  have hmod : (now.toInt + node.repeatMs.toInt).bmod (2 ^ 64) % ((2 ^ 64 : Nat) : Int) =
      (now.toInt + node.repeatMs.toInt) % ((2 ^ 64 : Nat) : Int) := Int.bmod_emod
  rw [hkey] at hmod
  omega

/-- What the pass leaves of a due node, when its interval fits, is what should be. -/
theorem left_of_due (h : Asked node) (hdue : node.timestamp ≤ now)
    (hfits : ∀ intervalMs ∈ node.function.intervalMs,
      intervalMs.toInt < 2 ^ 31 ∧ now.toInt + intervalMs.toInt < 2 ^ 63) :
    left now node = (again now node).map entry := by
  rw [left, if_neg (not_lt_of_due hdue)]
  cases hinterval : node.function.intervalMs with
  | none =>
      rw [again, if_neg (h.not_repeated hinterval), Option.map_none, Option.map_none]
  | some intervalMs =>
      obtain ⟨hint, hsum⟩ := hfits intervalMs hinterval
      obtain ⟨hrepeat, hkey⟩ := repeated_of_fits h hinterval hint hsum
      rw [again, if_pos hrepeat, Option.map_some, Option.map_some, entry, hkey]
      rfl

theorem pass_exact_of_fits {t : Timer} (h : Ordered t.calls t.queue)
    (hfits : IntervalsFit t now) : PassExact t now := by
  have hsplit := h.sorted.eq_append now.toInt
  have hdueMem : ∀ node ∈ t.queue.filter fun node => node.key ≤ now.toInt,
      node ∈ t.queue ∧ node.timestamp ≤ now := by
    intro node hnode
    obtain ⟨hmem, hle⟩ := List.mem_filter.mp hnode
    exact ⟨hmem, le_iff_key.mpr (of_decide_eq_true hle)⟩
  have hlaterMem : ∀ node ∈ t.queue.filter fun node => now.toInt < node.key,
      now < node.timestamp := by
    intro node hnode
    exact lt_iff_key.mpr (of_decide_eq_true (List.mem_filter.mp hnode).2)
  have hfilter : (t.queue.filter fun node => node.timestamp ≤ now) =
      t.queue.filter fun node => node.key ≤ now.toInt :=
    List.filter_congr fun node _ => decide_eq_decide.mpr le_iff_key
  rw [PassExact, hfilter]
  generalize (t.queue.filter fun node => node.key ≤ now.toInt) = due at hsplit hdueMem
  generalize (t.queue.filter fun node => now.toInt < node.key) = later at hsplit hlaterMem
  have hlate : ∀ node ∈ due, 0 < node.repeatMs → now < (node.repeated now).timestamp := by
    intro node hnode hrepeat
    obtain ⟨hmem, hdue⟩ := hdueMem node hnode
    exact repeated_late (h.asked node hmem) (hfits node hmem hdue) hrepeat
  obtain ⟨queue, hloop, hqueue⟩ := passLoop_due (fun node hnode => (hdueMem node hnode).2) hlate
    hlaterMem (stands_head due later) []
  refine ⟨due.length + 1, queue, due.map Node.function, ?_, .refl _, ?_⟩
  · rw [Timer.pass, hsplit]
    exact hloop
  · have hdueLeft : due.filterMap (left now) = (due.filterMap (again now)).map entry := by
      rw [List.map_filterMap]
      apply List.filterMap_congr
      intro node hnode
      obtain ⟨hmem, hdue⟩ := hdueMem node hnode
      exact left_of_due (h.asked node hmem) hdue (hfits node hmem hdue)
    have hlaterLeft : later.filterMap (left now) = later.map entry := by
      rw [← List.filterMap_eq_map]
      apply List.filterMap_congr
      intro node hnode
      exact if_pos (hlaterMem node hnode)
    rw [hsplit, List.filterMap_append, hdueLeft, hlaterLeft, ← List.map_append]
    exact (hqueue.trans List.perm_append_comm).map entry

/-- A node of the queue that a pass leaves was there before, perhaps under another
key. -/
theorem descends_pass {t : Timer} {steps : Nat} {result : List Node × List Function}
    (hpass : t.pass now steps = some result) :
    ∀ last ∈ result.1, ∃ first ∈ t.queue,
      last = first ∨ (0 < first.repeatMs ∧ last = first.repeated now) := by
  refine passLoop_keeps (P := fun queue => ∀ last ∈ queue, ∃ first ∈ t.queue,
    last = first ∨ (0 < first.repeatMs ∧ last = first.repeated now)) ?_ ?_
    (fun node hnode => ⟨node, hnode, .inl rfl⟩) hpass
  · intro before node after hkeep hrepeat last hlast
    rcases mem_insert.mp hlast with rfl | hlast
    · obtain ⟨first, hfirst, rfl | ⟨hfirstRepeat, rfl⟩⟩ := hkeep node (by simp)
      · exact ⟨node, hfirst, .inr ⟨hrepeat, rfl⟩⟩
      · exact ⟨first, hfirst, .inr ⟨hfirstRepeat, rfl⟩⟩
    · exact hkeep last ((sublist_erased before after node).subset hlast)
  · intro before node after hkeep last hlast
    exact hkeep last ((sublist_erased before after node).subset hlast)

/-- The new key of a node that is still in the queue tells whether its interval fits. -/
theorem fits_of_pass_exact {t : Timer} (h : Ordered t.calls t.queue)
    (hexact : PassExact t now) : IntervalsFit t now := by
  obtain ⟨steps, queue, called, hpass, -, hqueue⟩ := hexact
  intro node hnode hdue intervalMs hinterval
  have hpos := (h.asked node hnode).pos_toInt hinterval
  have hleft : ⟨node.function, now.toInt + intervalMs.toInt⟩ ∈ queue.map entry := by
    rw [hqueue.mem_iff, List.mem_filterMap]
    refine ⟨node, hnode, ?_⟩
    rw [left, if_neg (not_lt_of_due hdue), hinterval, Option.map_some]
  obtain ⟨last, hlast, hentry⟩ := List.mem_map.mp hleft
  obtain ⟨hfunction, hkey⟩ := Entry.mk.inj hentry
  obtain ⟨first, hfirst, hsame⟩ := descends_pass hpass last hlast
  have hnumber : first.number = node.number := by
    rw [Node.number, Node.number, ← hfunction]
    rcases hsame with rfl | ⟨-, rfl⟩
    · rfl
    · rfl
  obtain rfl := List.inj_on_of_nodup_map h.numbers hfirst hnode hnumber
  rcases hsame with rfl | ⟨hrepeat, rfl⟩
  · have hle := le_iff_key.mp hdue
    omega
  · exact fits_of_repeated (h.asked first hnode) hinterval hrepeat hkey

end Exactness

theorem ordered_step {t t' : Timer} {e : Event} (h : Ordered t.calls t.queue)
    (hstep : step t e = some t') : Ordered t'.calls t'.queue := by
  cases e with
  | setTimer timestamp =>
      obtain rfl := Option.some.inj hstep
      exact h.emplace timestamp (by simp) rfl
  | setTimeout now delayMs =>
      obtain rfl := Option.some.inj hstep
      exact h.emplace (now + delayMs) (by simp) rfl
  | setInterval now intervalMs =>
      simp only [step] at hstep
      split at hstep
      next hpos =>
        obtain rfl := Option.some.inj hstep
        exact h.emplace (now + intervalMs) (by simpa using hpos) rfl
      next => simp at hstep
  | pass now steps =>
      obtain ⟨result, hpass, rfl⟩ := Option.map_eq_some_iff.mp hstep
      exact passLoop_keeps (P := Ordered t.calls) (fun _ _ _ hkeep _ => hkeep.move)
        (fun _ _ _ hkeep => hkeep.sublist (sublist_erased _ _ _)) h hpass

/-- In every reachable state, a pass at any time is exact exactly when the intervals
that are due fit. -/
theorem pass_exact_iff {tr : List (Transition Timer Event)} {t : Timer}
    (hrun : Run step {} tr t) (now : Int64) : PassExact t now ↔ IntervalsFit t now := by
  have hordered : Ordered t.calls t.queue :=
    @Run.always _ _ _ _ (fun t => Ordered t.calls t.queue) (ordered_nil 0)
      (fun _ _ _ h hstep => ordered_step h hstep) _ _ hrun
  exact ⟨fits_of_pass_exact hordered, pass_exact_of_fits hordered⟩

/-- A timer, two intervals of one second and a late pass. -/
def ticking : List Event :=
  [.setInterval 0 1000, .setTimer 500, .setInterval 0 1000, .pass 700 5, .setTimeout 700 100]

theorem pass_exact_iff_ticking :
    ∃ t, exec step {} ticking = some t ∧ PassExact t 5000 := by
  refine ⟨(exec step {} ticking).get (by decide), (Option.some_get _).symm, ?_⟩
  exact (pass_exact_iff (run_trace ticking (by decide)) 5000).mpr (by decide +kernel)

/-- An interval of two to the power of 32 milliseconds is stored as zero: its first
call is its last one. -/
theorem not_pass_exact_narrowed :
    ¬∀ (tr : List (Transition Timer Event)) (t : Timer), Run step {} tr t →
      ∀ now, PassExact t now := by
  intro hall
  have hrun := @run_trace Timer Event step {} [.setInterval 0 4294967296] (by decide)
  have hordered := ordered_step (t := {}) (e := .setInterval 0 4294967296) (ordered_nil 0) rfl
  have hfits := fits_of_pass_exact hordered (hall _ _ hrun 4294967296)
  exact absurd (hfits _ List.mem_cons_self (by decide) 4294967296 rfl).1 (by decide)

end TwitchChatWorker.TimerPasses
