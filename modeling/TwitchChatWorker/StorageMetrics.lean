import TwitchChatWorker.StatisticsDelivery
import TwitchChatWorker.StorageInserts

/-!
The counters of the ClickHouse connections on their way to the statistics
(`CHConnection::getStats`, `CHConnectionPool::collectStats`,
`Storage::evtGatherStats`).  A connection counts under its mutex and gives its
counters away when they are collected, so calls of `process` and collections
may overlap.
-/

namespace TwitchChatWorker.StorageMetrics

open TwitchChatWorker.ConnectionPool
open TwitchChatWorker.Lib.Batching
open TwitchChatWorker.Lib.Runs
open TwitchChatWorker.Lib.Tallies
open TwitchChatWorker.Statistics
open TwitchChatWorker.StatisticsBalance
open TwitchChatWorker.StatisticsDelivery
open TwitchChatWorker.StorageInserts

/-- `collecting` are the calls of `evtGatherStats`, each with the statistics
that it has taken so far. -/
structure State where
  storage : StorageInserts.Storage
  collecting : List (List CHStatistics) := []
  delivery : Delivery := {}

/-- Calls of `process` and collections of the counters, which overlap. -/
inductive Event where
  | storage (event : StorageInserts.Event)
  | evtGatherStats
  /-- `getStats` of the connection that the call has come to -/
  | getStats (call : Nat)
  /-- the call has taken the statistics of all connections -/
  | sendMetrics (call : Nat)
  /-- another agent sends something to `StatsCollector` -/
  | send (event : StatisticsBalance.Event)
  | handle

/-- The collection takes the counters of the next connection. -/
def getStats (conns : List Connection) (s : State) (call : Nat) : Option State :=
  match s.collecting[call]? with
  | none => none
  | some stats =>
      match conns[stats.length]? with
      | none => none
      | some conn =>
          some { s with
            storage := { s.storage with stats := Function.update s.storage.stats conn {} }
            collecting := s.collecting.set call (stats ++ [s.storage.stats conn]) }

def sendMetrics (conns : List Connection) (s : State) (call : Nat) : Option State :=
  match s.collecting[call]? with
  | none => none
  | some stats =>
      if stats.length = conns.length then
        some { s with
          collecting := s.collecting.eraseIdx call
          delivery := s.delivery.send (.chPoolMetrics stats) }
      else none

/-- `conns` is `all` of the pool. -/
def step (append : AppendFixed) (conns : List Connection) (s : State) : Event → Option State
  | .storage event =>
      (StorageInserts.step append s.storage event).map fun storage => { s with storage := storage }
  | .evtGatherStats => some { s with collecting := s.collecting ++ [[]] }
  | .getStats call => getStats conns s call
  | .sendMetrics call => sendMetrics conns s call
  | .send (.chPoolMetrics _) => none
  | .send event => some { s with delivery := s.delivery.send event }
  | .handle => s.delivery.handle.map fun delivery => { s with delivery := delivery }

def start (connections : Nat) (established : Nat → Bool) : State where
  storage := StorageInserts.start connections established

/-- The block that a step inserts, the connection that it takes, and the answer
of ClickHouse. -/
structure Insertion where
  conn : Connection
  block : Block
  reply : Except StdException Unit

def insertionBy (storage : StorageInserts.Storage) : StorageInserts.Event → Option Insertion
  | .insert call _ _ reply =>
      match storage.calls[call]? with
      | some (.inserting (some conn) _ block) => some ⟨conn, block, reply⟩
      | _ => none
  | _ => none

/-- The insert that the step does. -/
def insertion (t : Transition State Event) : Option Insertion :=
  match t.event with
  | .storage event => insertionBy t.pre.storage event
  | _ => none

/-- What the insertion is in the counter. -/
def Insertion.amount (counter : PoolCounter) (i : Insertion) : Int :=
  match counter, i.reply with
  | .count, .ok _ => 1
  | .rows, .ok _ => i.block.getRowCount
  | .failed, .error _ => 1
  | _, _ => 0

/-- What a step adds to the counter of the connection at a position. -/
def counted (conns : List Connection) (counter : PoolCounter) (position : Nat)
    (t : Transition State Event) : Int :=
  match insertion t with
  | some i => if conns[position]? = some i.conn then i.amount counter else 0
  | none => 0

/-- What the connection has counted since it was asked last. -/
def held (conns : List Connection) (counter : PoolCounter) (position : Nat) (s : State) : Int :=
  counter.value ((conns[position]?.map s.storage.stats).getD {})

/-- What the collections have taken and not sent. -/
def collected (counter : PoolCounter) (position : Nat) (s : State) : Int :=
  (s.collecting.map fun stats => counter.value (stats.getD position {})).sum

/-- What the connection has counted, wherever it is by now. -/
def total (conns : List Connection) (counter : PoolCounter) (position : Nat) (s : State) : Int :=
  s.delivery.total (.storage counter position) + collected counter position s +
    held conns counter position s

/-- What other agents send can be handled. -/
def SendsWellFormed (t : Transition State Event) : Prop :=
  match t.event with
  | .send event => WellFormed event
  | _ => True

section Steps

variable {append : AppendFixed} {conns : List Connection} {s s' : State}

theorem step_cases {event : Event} (hstep : step append conns s event = some s') :
    (∃ inner storage', event = .storage inner ∧
      StorageInserts.step append s.storage inner = some storage' ∧
      s' = { s with storage := storage' }) ∨
    (event = .evtGatherStats ∧ s' = { s with collecting := s.collecting ++ [[]] }) ∨
    (∃ call stats conn, event = .getStats call ∧ s.collecting[call]? = some stats ∧
      conns[stats.length]? = some conn ∧ s' = { s with
        storage := { s.storage with stats := Function.update s.storage.stats conn {} }
        collecting := s.collecting.set call (stats ++ [s.storage.stats conn]) }) ∨
    (∃ call stats, event = .sendMetrics call ∧ s.collecting[call]? = some stats ∧
      s' = { s with
        collecting := s.collecting.eraseIdx call
        delivery := s.delivery.send (.chPoolMetrics stats) }) ∨
    (∃ sent, event = .send sent ∧ (∀ stats, sent ≠ .chPoolMetrics stats) ∧
      s' = { s with delivery := s.delivery.send sent }) ∨
    ∃ delivery, event = .handle ∧ s.delivery.handle = some delivery ∧
      s' = { s with delivery := delivery } := by
  cases event with
  | storage inner =>
      obtain ⟨storage', hstorage, rfl⟩ := Option.map_eq_some_iff.mp hstep
      exact Or.inl ⟨inner, storage', rfl, hstorage, rfl⟩
  | evtGatherStats =>
      obtain rfl := Option.some.inj hstep
      exact Or.inr (Or.inl ⟨rfl, rfl⟩)
  | getStats call =>
      simp only [step, getStats] at hstep
      split at hstep
      · simp at hstep
      next stats hcall =>
        split at hstep
        · simp at hstep
        next conn hconn =>
          obtain rfl := Option.some.inj hstep
          exact Or.inr (Or.inr (Or.inl ⟨call, stats, conn, rfl, hcall, hconn, rfl⟩))
  | sendMetrics call =>
      simp only [step, sendMetrics] at hstep
      split at hstep
      · simp at hstep
      next stats hcall =>
        split_ifs at hstep
        obtain rfl := Option.some.inj hstep
        exact Or.inr (Or.inr (Or.inr (Or.inl ⟨call, stats, rfl, hcall, rfl⟩)))
  | send sent =>
      refine Or.inr (Or.inr (Or.inr (Or.inr (Or.inl ⟨sent, rfl, ?_⟩))))
      cases sent with
      | chPoolMetrics => simp [step] at hstep
      | _ =>
          obtain rfl := Option.some.inj hstep
          exact ⟨by simp, rfl⟩
  | handle =>
      obtain ⟨delivery, hhandle, rfl⟩ := Option.map_eq_some_iff.mp hstep
      exact Or.inr (Or.inr (Or.inr (Or.inr (Or.inr ⟨delivery, rfl, hhandle, rfl⟩))))

theorem value_insert (counter : PoolCounter) (stats : CHStatistics) (first now : Int)
    (i : Insertion) :
    counter.value (StorageInserts.insert stats i.block first now i.reply) ≡
      counter.value stats + i.amount counter [ZMOD 2 ^ 32] := by
  obtain ⟨conn, block, reply⟩ := i
  have hrows : ((UInt32.ofNat block.getRowCount).toNat : Int) ≡ block.getRowCount
      [ZMOD 2 ^ 32] := by
    rw [UInt32.toNat_ofNat']
    push_cast
    exact Int.mod_modEq _ _
  cases reply with
  | ok =>
      cases counter with
      | count => exact toNat_add_modEq32 _ _
      | rows => exact (toNat_add_modEq32 _ _).trans (hrows.add_left _)
      | failed => simp [StorageInserts.insert, PoolCounter.value, Insertion.amount]
  | error =>
      cases counter with
      | failed => exact toNat_add_modEq32 _ _
      | _ => simp [StorageInserts.insert, PoolCounter.value, Insertion.amount]

/-- Only an insertion changes the statistics of a connection, its own. -/
theorem stats_step {storage storage' : StorageInserts.Storage} {event : StorageInserts.Event}
    (hstep : StorageInserts.step append storage event = some storage') :
    (insertionBy storage event = none ∧ storage'.stats = storage.stats) ∨
      ∃ i first now, insertionBy storage event = some i ∧
        storage'.stats = Function.update storage.stats i.conn
          (StorageInserts.insert (storage.stats i.conn) i.block first now i.reply) := by
  cases event with
  | process batch =>
      obtain rfl := Option.some.inj hstep
      exact Or.inl ⟨rfl, rfl⟩
  | lock call =>
      simp only [StorageInserts.step] at hstep
      split at hstep
      · split at hstep
        · obtain rfl := Option.some.inj hstep
          exact Or.inl ⟨rfl, rfl⟩
        · simp at hstep
      · simp at hstep
  | insert call first now reply =>
      simp only [StorageInserts.step] at hstep
      split at hstep
      next conn table block hcall =>
        obtain rfl := Option.some.inj hstep
        exact Or.inr ⟨⟨conn, block, reply⟩, first, now, by simp [insertionBy, hcall], rfl⟩
      next hcall =>
        obtain rfl := Option.some.inj hstep
        exact Or.inl ⟨by simp [insertionBy, hcall], rfl⟩
      · simp at hstep
  | leave call =>
      simp only [StorageInserts.step] at hstep
      split at hstep
      · obtain rfl := Option.some.inj hstep
        exact Or.inl ⟨rfl, rfl⟩
      · simp at hstep

theorem held_storage (conns : List Connection) (counter : PoolCounter) (position : Nat)
    {event : StorageInserts.Event} {storage' : StorageInserts.Storage}
    (hstep : StorageInserts.step append s.storage event = some storage') :
    held conns counter position { s with storage := storage' } ≡
      held conns counter position s +
        counted conns counter position ⟨s, .storage event, { s with storage := storage' }⟩
      [ZMOD 2 ^ 32] := by
  simp only [held, counted, insertion]
  rcases stats_step hstep with ⟨hnone, hstats⟩ | ⟨i, first, now, hsome, hstats⟩
  · simp [hnone, hstats]
  · rw [hsome, hstats]
    cases hconn : conns[position]? with
    | none => simp
    | some conn =>
        by_cases heq : conn = i.conn
        · subst heq
          simpa using value_insert counter _ first now i
        · simp [heq]

theorem getD_snoc {α : Type*} (xs : List α) (x unset : α) (i : Nat) :
    (xs ++ [x]).getD i unset = if i = xs.length then x else xs.getD i unset := by
  rcases Nat.lt_trichotomy i xs.length with hlt | rfl | hgt
  · simp [List.getElem?_append_left hlt, Nat.ne_of_lt hlt]
  · simp
  · have hbeyond : (xs ++ [x]).length ≤ i := by
      rw [List.length_append, List.length_singleton]
      exact hgt
    rw [if_neg (Nat.ne_of_gt hgt), List.getD_eq_getElem?_getD, List.getD_eq_getElem?_getD,
      List.getElem?_eq_none hbeyond, List.getElem?_eq_none (Nat.le_of_lt hgt)]

theorem collected_getStats (counter : PoolCounter) (position : Nat) (hnodup : conns.Nodup)
    {call : Nat} {stats : List CHStatistics} {conn : Connection}
    (hcall : s.collecting[call]? = some stats) (hconn : conns[stats.length]? = some conn) :
    ((s.collecting.set call (stats ++ [s.storage.stats conn])).map fun stats =>
        counter.value (stats.getD position {})).sum +
      counter.value ((conns[position]?.map (Function.update s.storage.stats conn {})).getD {}) =
    collected counter position s + held conns counter position s := by
  obtain ⟨hpre, hset⟩ := perm_of_getElem? hcall
  rw [((hset _).map _).sum_eq, collected, held, (hpre.map _).sum_eq, List.map_cons, List.map_cons,
    List.sum_cons, List.sum_cons, getD_snoc]
  by_cases hposition : position = stats.length
  · subst hposition
    have hunset : stats.getD stats.length {} = ({} : CHStatistics) := by simp
    rw [if_pos rfl, hunset, hconn, counter.value_empty]
    simp [counter.value_empty, add_comm]
  · have hkept : conns[position]?.map (Function.update s.storage.stats conn {}) =
        conns[position]?.map s.storage.stats := by
      cases hother : conns[position]? with
      | none => rfl
      | some other =>
          have hne : other ≠ conn := by
            rintro rfl
            have hlt := (List.getElem?_eq_some_iff.mp hother).1
            exact hposition ((List.getElem?_inj hlt hnodup).mp (hother.trans hconn.symm))
          simp [hne]
    rw [if_neg hposition, hkept]

theorem total_step (counter : PoolCounter) (position : Nat) (hnodup : conns.Nodup)
    (hsound : s.delivery.Sound) {event : Event} (hstep : step append conns s event = some s') :
    total conns counter position s' ≡
      total conns counter position s + counted conns counter position ⟨s, event, s'⟩
      [ZMOD 2 ^ 32] := by
  rcases step_cases hstep with ⟨inner, storage', rfl, hstorage, rfl⟩ | ⟨rfl, rfl⟩ |
    ⟨call, stats, conn, rfl, hcall, hconn, rfl⟩ | ⟨call, stats, rfl, hcall, rfl⟩ |
    ⟨sent, rfl, hsent, rfl⟩ | ⟨delivery, rfl, hhandle, rfl⟩
  · have hheld := held_storage conns counter position hstorage
    simpa only [total, collected, add_assoc] using
      hheld.add_left (s.delivery.total (.storage counter position) + collected counter position s)
  · simp [total, collected, held, counted, insertion, counter.value_empty]
  · have htaken := collected_getStats counter position hnodup hcall hconn
    simp only [total, counted, insertion, add_zero, add_assoc]
    rw [← htaken]
    rfl
  · obtain ⟨hpre, -⟩ := perm_of_getElem? hcall
    simp only [total, counted, insertion, collected, held, Delivery.total_send,
      (hpre.map _).sum_eq, List.map_cons, List.sum_cons, add_zero, add_assoc]
    rfl
  · have hnothing : (Figure.storage counter position).received sent = 0 := by
      cases sent with
      | chPoolMetrics stats => exact absurd rfl (hsent stats)
      | _ => rfl
    simp [total, counted, insertion, collected, held, Delivery.total_send, hnothing]
  · have htotal := Delivery.total_handle (.storage counter position) hsound hhandle
    simpa [total, counted, insertion, collected, held, add_assoc, Figure.width] using
      htotal.add_right (collected counter position s + held conns counter position s)

theorem sound_step (h : s.delivery.Sound) {event : Event}
    (hwell : SendsWellFormed ⟨s, event, s'⟩) (hstep : step append conns s event = some s') :
    s'.delivery.Sound := by
  rcases step_cases hstep with ⟨-, storage', -, -, rfl⟩ | ⟨-, rfl⟩ | ⟨-, -, -, -, -, -, rfl⟩ |
    ⟨call, stats, -, -, rfl⟩ | ⟨sent, rfl, -, rfl⟩ | ⟨delivery, -, hhandle, rfl⟩
  · exact h
  · exact h
  · exact h
  · exact h.send trivial
  · exact h.send hwell
  · exact h.handle hhandle

theorem conn_process (append : AppendFixed) (batch : Batch) :
    (process append batch).conn = none := by
  unfold process
  split
  · rfl
  · split <;> rfl

/-- The pool and the calls have the connections that were built. -/
def Conserved (conns : List Connection) (storage : StorageInserts.Storage) : Prop :=
  (storage.ch.pool ++ inUse storage.calls).Perm conns

theorem conserved_storage {storage storage' : StorageInserts.Storage}
    {event : StorageInserts.Event} (h : Conserved conns storage)
    (hstep : StorageInserts.step append storage event = some storage') :
    Conserved conns storage' := by
  unfold Conserved at h ⊢
  by_cases hinner : event.inner
  · obtain ⟨i, call, call', hcall, hcalls, hmove⟩ := step_inner hinner hstep
    rw [hcalls]
    exact (perm_filterMap_set hcall hmove.perm).trans h
  · cases event with
    | process batch =>
        obtain rfl := Option.some.inj hstep
        simpa [inUse, conn_process] using h
    | _ => exact absurd trivial hinner

theorem conserved_step {event : Event} (h : Conserved conns s.storage)
    (hstep : step append conns s event = some s') : Conserved conns s'.storage := by
  rcases step_cases hstep with ⟨inner, storage', -, hstorage, rfl⟩ | ⟨-, rfl⟩ |
    ⟨-, -, -, -, -, -, rfl⟩ | ⟨-, -, -, -, rfl⟩ | ⟨-, -, -, rfl⟩ | ⟨-, -, -, rfl⟩
  · exact conserved_storage h hstorage
  all_goals exact h

theorem mem_of_insertion {event : Event} (h : Conserved conns s.storage) {i : Insertion}
    (hinsertion : insertion ⟨s, event, s'⟩ = some i) : i.conn ∈ conns := by
  cases event with
  | storage event =>
      cases event with
      | insert call first now reply =>
          simp only [insertion, insertionBy] at hinsertion
          split at hinsertion
          next conn table block hcall =>
            obtain rfl := Option.some.inj hinsertion
            refine h.subset (List.mem_append_right _ (List.mem_filterMap.mpr ?_))
            exact ⟨_, List.mem_of_getElem? hcall, rfl⟩
          · simp at hinsertion
      | _ => simp [insertion, insertionBy] at hinsertion
  | _ => simp [insertion] at hinsertion

end Steps

section Runs

variable {append : AppendFixed} {connections : Nat} {established : Nat → Bool}
  {tr : List (Transition State Event)} {s : State}

theorem nodup_built (connections : Nat) (established : Nat → Bool) :
    (built connections established).Nodup := List.nodup_range.filter _

theorem total_start (counter : PoolCounter) (position : Nat) :
    total (built connections established) counter position (start connections established) =
      0 := by
  have hheld : held (built connections established) counter position
      (start connections established) = 0 := by
    unfold held start StorageInserts.start
    cases (built connections established)[position]? <;> exact counter.value_empty
  rw [total, hheld]
  simp [collected, start, Delivery.total, Delivery.reported, Delivery.waiting,
    Figure.stored, counter.value_empty]

theorem mem_built_of_run
    (hrun : Run (step append (built connections established)) (start connections established) tr s)
    {t : Transition State Event} (ht : t ∈ tr) {i : Insertion} (hinsertion : insertion t = some i) :
    i.conn ∈ built connections established := by
  obtain ⟨past, hpast, -⟩ := hrun.step_of_mem ht
  have hconserved : Conserved (built connections established) t.pre.storage := by
    refine hpast.always ?_ fun _ _ _ h hstep => conserved_step h hstep
    exact kept_start.conserved
  exact mem_of_insertion hconserved hinsertion

/-- Every insertion goes through a connection of the pool, and what it counts
there is in the answers of the statistics agent, stored in it, on the way to it,
or still at the connection. -/
structure Measured (conns : List Connection) (tr : List (Transition State Event)) (s : State) :
    Prop where
  built : ∀ t ∈ tr, ∀ i, insertion t = some i → i.conn ∈ conns
  figures : ∀ (counter : PoolCounter) (position : Nat),
    (tr.map (counted conns counter position)).sum ≡
      (s.delivery.gathering.answers.map (Figure.storage counter position).reported).sum +
        counter.value (s.delivery.gathering.collector.chPoolStats.getD position {}) +
        (s.delivery.mailbox.map (Figure.storage counter position).received).sum +
        collected counter position s + held conns counter position s [ZMOD 2 ^ 32]

theorem sound_of_run
    (hrun : Run (step append (built connections established)) (start connections established) tr s)
    (hwell : ∀ t ∈ tr, SendsWellFormed t) : ∀ t ∈ tr, t.pre.delivery.Sound := by
  intro t ht
  obtain ⟨past, future, rfl⟩ := List.append_of_mem ht
  obtain ⟨hpast, -⟩ := hrun.step_of_split past t future rfl
  have hstart : (start connections established).delivery.Sound := by simp [Delivery.Sound, start]
  exact hpast.invariant SendsWellFormed hstart (fun _ _ _ h hw hstep => sound_step h hw hstep)
    fun u hu => hwell u (List.mem_append_left _ hu)

theorem measured_of_run (append : AppendFixed) (connections : Nat) (established : Nat → Bool)
    (tr : List (Transition State Event)) (s : State)
    (hrun : Run (step append (built connections established)) (start connections established) tr s)
    (hwell : ∀ t ∈ tr, SendsWellFormed t) : Measured (built connections established) tr s := by
  refine ⟨fun t ht i => mem_built_of_run hrun ht, fun counter position => ?_⟩
  have hbalance := run_balance (fun t => t.pre.delivery.Sound)
    (fun _ _ _ hsound hstep => total_step counter position (nodup_built connections established)
      hsound hstep) hrun (sound_of_run hrun hwell)
  rw [total_start, zero_add] at hbalance
  exact hbalance.symm

end Runs

def appendAll : AppendFixed := fun _ text => .ok text

def batchOf (ids : List Int32) : Batch :=
  .records (ids.map fun id => { userId := id, messageId := (0, 0), text := "" })

/-- Two calls of `process` overlap with a collection; the second connection
fails. -/
def overlap : List Event :=
  [.storage (.process (batchOf [1, 2, 3])), .storage (.lock 0), .evtGatherStats, .getStats 0,
    .storage (.insert 0 10 12 (.ok ())), .storage (.process (batchOf [4])), .storage (.lock 1),
    .storage (.insert 1 12 15 (.error ⟨"unreachable"⟩)), .getStats 0, .sendMetrics 0, .handle,
    .send (.http (listing "" []) "" .storage), .handle, .evtGatherStats, .getStats 0]

theorem overlap_isSome :
    (exec (step appendAll (built 2 fun _ => true)) (start 2 fun _ => true) overlap).isSome := by
  decide +kernel

theorem overlap_sendsWellFormed :
    ∀ t ∈ trace (step appendAll (built 2 fun _ => true)) (start 2 fun _ => true) overlap,
      SendsWellFormed t := by
  intro t ht
  have hevent := event_mem_of_mem_trace ht
  unfold SendsWellFormed
  split
  next sent heq =>
    rw [heq] at hevent
    obtain rfl : sent = .http (listing "" []) "" .storage := by simpa [overlap] using hevent
    trivial
  · trivial

theorem measured_of_run_overlap :
    Measured (built 2 fun _ => true)
      (trace (step appendAll (built 2 fun _ => true)) (start 2 fun _ => true) overlap)
      ((exec (step appendAll (built 2 fun _ => true)) (start 2 fun _ => true) overlap).get
        overlap_isSome) :=
  measured_of_run appendAll 2 (fun _ => true) _ _ (run_trace overlap overlap_isSome)
    overlap_sendsWellFormed

/-! ### The records of the batches -/

def Batch.size : Batch → Nat
  | .messages batch => batch.length
  | .records batch => batch.length

/-- The rows that a call has still to insert. -/
def Call.rows : Call → Nat
  | .locking _ block | .inserting _ _ block => block.getRowCount
  | _ => 0

/-- The rows that the calls of `process` still have. -/
def underway (s : State) : Nat := (s.storage.calls.map Call.rows).sum

def given (t : Transition State Event) : Nat :=
  match t.event with
  | .storage (.process batch) => Batch.size batch
  | _ => 0

/-- The records of a batch that the library does not take, and the rows that
ClickHouse refuses or that no connection is there for. -/
def lost (append : AppendFixed) (t : Transition State Event) : Nat :=
  match t.event with
  | .storage (.process batch) =>
      match process append batch with
      | .threw _ => Batch.size batch
      | _ => 0
  | .storage (.insert call _ _ reply) =>
      match t.pre.storage.calls[call]?, reply with
      | some (.inserting (some _) _ _), .ok _ => 0
      | some (.inserting _ _ block), _ => block.getRowCount
      | _, _ => 0
  | _ => 0

/-- The rows that a step brings into ClickHouse. -/
def inserted (t : Transition State Event) : Int :=
  match insertion t with
  | some i => i.amount .rows
  | none => 0

theorem length_of_mapM {α β : Type} {f : α → Except StdException β} {l : List α} {rows : List β}
    (h : l.mapM f = .ok rows) : rows.length = l.length := by
  induction l generalizing rows with
  | nil =>
      obtain rfl := Except.ok.inj h
      rfl
  | cons a l ih =>
      rw [List.mapM_cons] at h
      cases hf : f a with
      | error err => simp [hf, bind, Except.bind] at h
      | ok b =>
          cases hl : l.mapM f with
          | error err => simp [hf, hl, bind, Except.bind] at h
          | ok bs =>
              simp only [hf, hl, bind, Except.bind] at h
              obtain rfl := Except.ok.inj h
              simp [ih hl]

theorem getRowCount_block {append : AppendFixed} {batch : Batch} {block : Block}
    (h : batch.block append = .ok block) : block.getRowCount = Batch.size batch := by
  cases batch with
  | records batch =>
      obtain rfl := Except.ok.inj h
      simp [recordsBlock, Block.getRowCount, Column.size, Batch.size]
  | messages batch =>
      simp only [Batch.block, messagesBlock] at h
      cases hrows : batch.mapM (appendMessage append) with
      | error err => simp [hrows, bind, Except.bind] at h
      | ok rows =>
          simp only [hrows, bind, Except.bind] at h
          obtain rfl := Except.ok.inj h
          simp [Block.getRowCount, Column.size, Batch.size, length_of_mapM hrows]

section Flow

variable {append : AppendFixed} {conns : List Connection} {s s' : State}

theorem rows_process (append : AppendFixed) (batch : Batch) :
    Call.rows (process append batch) +
        (match process append batch with
          | .threw _ => Batch.size batch
          | _ => 0) = Batch.size batch := by
  by_cases hempty : batch.empty
  · rw [process_of_empty hempty]
    cases batch <;> simp only [Batch.empty, List.isEmpty_iff] at hempty <;>
      simp [Call.rows, Batch.size, hempty]
  · rw [process, if_neg hempty]
    cases hblock : batch.block append with
    | ok block => simpa [Call.rows] using getRowCount_block hblock
    | error err => simp [Call.rows]

theorem rows_set {calls : List Call} {i : Nat} {call : Call} (h : calls[i]? = some call)
    (call' : Call) :
    ((calls.set i call').map Call.rows).sum + Call.rows call =
      (calls.map Call.rows).sum + Call.rows call' := by
  obtain ⟨hpre, hset⟩ := perm_of_getElem? h
  rw [((hset call').map _).sum_eq, (hpre.map _).sum_eq, List.map_cons, List.map_cons,
    List.sum_cons, List.sum_cons]
  omega

/-- The call that a step takes further keeps its rows, inserts them or loses
them. -/
theorem underway_storage {storage' : StorageInserts.Storage} {event : StorageInserts.Event}
    (hstep : StorageInserts.step append s.storage event = some storage') :
    (underway { s with storage := storage' } : Int) +
        lost append ⟨s, .storage event, { s with storage := storage' }⟩ +
        inserted ⟨s, .storage event, { s with storage := storage' }⟩ =
      underway s + given ⟨s, .storage event, { s with storage := storage' }⟩ := by
  cases event with
  | process batch =>
      obtain rfl := Option.some.inj hstep
      have hrows := rows_process append batch
      simp only [underway, given, lost, inserted, insertion, insertionBy, List.map_append,
        List.sum_append, List.map_singleton, List.sum_singleton, add_zero]
      omega
  | lock call =>
      simp only [StorageInserts.step] at hstep
      split at hstep
      next table block hcall =>
        split at hstep
        next conn ch hlock =>
          obtain rfl := Option.some.inj hstep
          have hset := rows_set hcall (.inserting conn table block)
          simp only [Call.rows] at hset
          simp only [underway, given, lost, inserted, insertion, insertionBy]
          omega
        · simp at hstep
      · simp at hstep
  | insert call first now reply =>
      simp only [StorageInserts.step] at hstep
      split at hstep
      next conn table block hcall =>
        obtain rfl := Option.some.inj hstep
        have hset := rows_set hcall (.leaving conn)
        simp only [Call.rows] at hset
        cases reply <;>
          simp only [underway, given, lost, inserted, insertion, insertionBy, hcall,
            Insertion.amount] <;> omega
      next table block hcall =>
        obtain rfl := Option.some.inj hstep
        have hset := rows_set hcall .nullUsed
        simp only [Call.rows] at hset
        simp only [underway, given, lost, inserted, insertion, insertionBy, hcall]
        omega
      · simp at hstep
  | leave call =>
      simp only [StorageInserts.step] at hstep
      split at hstep
      next conn hcall =>
        obtain rfl := Option.some.inj hstep
        have hset := rows_set hcall .returned
        simp only [Call.rows] at hset
        simp only [underway, given, lost, inserted, insertion, insertionBy]
        omega
      · simp at hstep

theorem underway_step {event : Event} (hstep : step append conns s event = some s') :
    (underway s' : Int) + lost append ⟨s, event, s'⟩ + inserted ⟨s, event, s'⟩ =
      underway s + given ⟨s, event, s'⟩ := by
  rcases step_cases hstep with ⟨inner, storage', rfl, hstorage, rfl⟩ | ⟨rfl, rfl⟩ |
    ⟨call, stats, conn, rfl, -, -, rfl⟩ | ⟨call, stats, rfl, -, rfl⟩ | ⟨sent, rfl, -, rfl⟩ |
    ⟨delivery, rfl, -, rfl⟩
  · exact underway_storage hstorage
  all_goals rfl

theorem sum_counted (hnodup : conns.Nodup) (t : Transition State Event)
    (hconn : ∀ i, insertion t = some i → i.conn ∈ conns) :
    ((List.range conns.length).map fun position => counted conns .rows position t).sum =
      inserted t := by
  unfold counted inserted
  cases hinsertion : insertion t with
  | none => simp
  | some i => exact sum_range_at hnodup (hconn i hinsertion) _

def totalRows (conns : List Connection) (s : State) : Int :=
  ((List.range conns.length).map fun position => total conns .rows position s).sum

theorem totalRows_step (hnodup : conns.Nodup) (hsound : s.delivery.Sound) {event : Event}
    (hconn : ∀ i, insertion ⟨s, event, s'⟩ = some i → i.conn ∈ conns)
    (hstep : step append conns s event = some s') :
    totalRows conns s' ≡ totalRows conns s + inserted ⟨s, event, s'⟩ [ZMOD 2 ^ 32] := by
  have hpositions : ∀ position ∈ List.range conns.length, total conns .rows position s' ≡
      total conns .rows position s + counted conns .rows position ⟨s, event, s'⟩
      [ZMOD 2 ^ 32] := fun position _ => total_step .rows position hnodup hsound hstep
  have hsum := sum_map_modEq hpositions
  rwa [List.sum_map_add, sum_counted hnodup _ hconn] at hsum

/-- The records in calls of `process`, lost, or counted as rows. -/
def flowed (append : AppendFixed) (conns : List Connection)
    (tr : List (Transition State Event)) (s : State) : Int :=
  underway s + (tr.map (lost append)).sum + totalRows conns s

theorem flowed_step (tr : List (Transition State Event)) (hnodup : conns.Nodup)
    (hsound : s.delivery.Sound) {event : Event}
    (hconn : ∀ i, insertion ⟨s, event, s'⟩ = some i → i.conn ∈ conns)
    (hstep : step append conns s event = some s') :
    flowed append conns (tr ++ [⟨s, event, s'⟩]) s' ≡
      flowed append conns tr s + given ⟨s, event, s'⟩ [ZMOD 2 ^ 32] := by
  have hrows := totalRows_step hnodup hsound hconn hstep
  have hunderway := underway_step hstep
  have hsum := hrows.add_left
    (underway s' + (tr.map (lost append)).sum + lost append ⟨s, event, s'⟩ : Int)
  have hright : (underway s' + (tr.map (lost append)).sum + lost append ⟨s, event, s'⟩ : Int) +
      (totalRows conns s + inserted ⟨s, event, s'⟩) =
        flowed append conns tr s + given ⟨s, event, s'⟩ := by
    rw [flowed]
    omega
  rw [hright] at hsum
  simpa [flowed, add_assoc] using hsum

end Flow

section Runs

variable {append : AppendFixed} {connections : Nat} {established : Nat → Bool}
  {tr : List (Transition State Event)} {s : State}

theorem flowed_start : flowed append (built connections established) []
    (start connections established) = 0 := by
  have hrows : totalRows (built connections established) (start connections established) = 0 := by
    simp [totalRows, total_start]
  rw [flowed, hrows]
  rfl

theorem flowed_of_run
    (hrun : Run (step append (built connections established)) (start connections established) tr s)
    (hwell : ∀ t ∈ tr, SendsWellFormed t) :
    ((tr.map given).sum : Int) ≡ flowed append (built connections established) tr s
      [ZMOD 2 ^ 32] := by
  induction hrun with
  | nil => rw [flowed_start]; rfl
  | @snoc tr s e s' hprev hstep ih =>
      have hrun := hprev.snoc hstep
      have hmem : (⟨s, e, s'⟩ : Transition State Event) ∈ tr ++ [⟨s, e, s'⟩] :=
        List.mem_append_right _ (List.mem_singleton_self _)
      have hpast := ih fun t ht => hwell t (List.mem_append_left _ ht)
      have hlast := flowed_step tr (nodup_built connections established)
        (sound_of_run hrun hwell _ hmem) (fun i => mem_built_of_run hrun hmem) hstep
      rw [List.map_append, List.sum_append, List.map_singleton, List.sum_singleton,
        Nat.cast_add]
      exact (hpast.add_right _).trans hlast.symm

end Runs

/-- The records that are given to `process` are in calls of it, lost, or rows
that a connection has counted. -/
theorem records_of_run (append : AppendFixed) (connections : Nat) (established : Nat → Bool)
    (tr : List (Transition State Event)) (s : State)
    (hrun : Run (step append (built connections established)) (start connections established) tr s)
    (hwell : ∀ t ∈ tr, SendsWellFormed t) :
    ((tr.map given).sum : Int) ≡ underway s + (tr.map (lost append)).sum +
      totalRows (built connections established) s [ZMOD 2 ^ 32] :=
  flowed_of_run hrun hwell

theorem records_of_run_overlap :
    let tr := trace (step appendAll (built 2 fun _ => true)) (start 2 fun _ => true) overlap
    let s := (exec (step appendAll (built 2 fun _ => true)) (start 2 fun _ => true) overlap).get
      overlap_isSome
    ((tr.map given).sum : Int) ≡ underway s + (tr.map (lost appendAll)).sum +
      totalRows (built 2 fun _ => true) s [ZMOD 2 ^ 32] :=
  records_of_run appendAll 2 (fun _ => true) _ _ (run_trace overlap overlap_isSome)
    overlap_sendsWellFormed

end TwitchChatWorker.StorageMetrics
