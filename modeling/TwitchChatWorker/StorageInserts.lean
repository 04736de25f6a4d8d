import TwitchChatWorker.ConnectionPool
import TwitchChatWorker.Statistics
import Mathlib.Algebra.BigOperators.Group.List.Basic
import Mathlib.Algebra.GroupWithZero.Nat
import Mathlib.Logic.Function.Basic

/-!
The calls of `Storage::process` and what ClickHouse may do to them.  A call
builds its block, takes a connection of the pool for the lifetime of a
`DBConnectionLock` and inserts the block through it.  Calls may overlap.
-/

namespace TwitchChatWorker.StorageInserts

open TwitchChatWorker.ConnectionPool
open TwitchChatWorker.Lib.Batching
open TwitchChatWorker.Lib.Runs
open TwitchChatWorker.Statistics

structure StdException where
  what : String
  deriving DecidableEq

abbrev UInt128 := UInt64 × UInt64

/-- `Chat::Message`, without what the storage does not read. -/
structure Message where
  uuid : UInt128
  user : String
  channel : String
  text : String
  lang : String
  timestamp : Int64
  deriving DecidableEq

/-- `Bot::LogMessage`. -/
structure LogMessage where
  userId : Int32 := 0
  botId : Int32 := 0
  handlerId : Int32 := 0
  messageId : UInt128
  timestamp : Int64 := 0
  text : String
  deriving DecidableEq

/-- A column with its cells. -/
inductive Column where
  | uuid (cells : List UInt128)
  | fixedString (size : Nat) (cells : List String)
  | string (cells : List String)
  | dateTime64 (precision : Nat) (cells : List Int64)
  | int32 (cells : List Int32)
  deriving DecidableEq

def Column.size : Column → Nat
  | .uuid cells => cells.length
  | .fixedString _ cells => cells.length
  | .string cells => cells.length
  | .dateTime64 _ cells => cells.length
  | .int32 cells => cells.length

structure Block where
  columns : List (String × Column)
  deriving DecidableEq

/-- All columns of a block have as many rows. -/
def Block.getRowCount (block : Block) : Nat :=
  match block.columns with
  | [] => 0
  | (_, column) :: _ => column.size

/-- What `ColumnFixedString::Append` of the ClickHouse library stores in a
column of a size, or throws because the text does not fit. -/
abbrev AppendFixed := Nat → String → Except StdException String

/-- The round of the loop for a message, up to where its values go. -/
def appendMessage (append : AppendFixed) (message : Message) : Except StdException Message := do
  let channel ← append 256 message.channel
  let user ← append 256 message.user
  let lang ← append 16 message.lang
  return { message with channel := channel, user := user, lang := lang }

/-- The block of a batch of chat messages, where `Append` may throw. -/
def messagesBlock (append : AppendFixed) (messages : List Message) :
    Except StdException Block := do
  let rows ← messages.mapM (appendMessage append)
  return { columns :=
    [("id", .uuid (rows.map Message.uuid)),
      ("channel", .fixedString 256 (rows.map Message.channel)),
      ("from", .fixedString 256 (rows.map Message.user)),
      ("text", .string (rows.map Message.text)),
      ("timestamp", .dateTime64 3 (rows.map Message.timestamp)),
      ("language", .fixedString 16 (rows.map Message.lang))] }

def recordsBlock (batch : List LogMessage) : Block where
  columns :=
    [("user_id", .int32 (batch.map LogMessage.userId)),
      ("bot_id", .int32 (batch.map LogMessage.botId)),
      ("handler_id", .int32 (batch.map LogMessage.handlerId)),
      ("timestamp", .dateTime64 3 (batch.map LogMessage.timestamp)),
      ("text", .string (batch.map LogMessage.text)),
      ("message_id", .uuid (batch.map LogMessage.messageId))]

/-- The arguments of the two overloads of `process`. -/
inductive Batch where
  | messages (batch : List Message)
  | records (batch : List LogMessage)
  deriving DecidableEq

def Batch.empty : Batch → Bool
  | .messages batch => batch.isEmpty
  | .records batch => batch.isEmpty

def Batch.table : Batch → String
  | .messages _ => "twitch_chat.messages"
  | .records _ => "twitch_chat.user_logs"

def Batch.block (append : AppendFixed) : Batch → Except StdException Block
  | .messages batch => messagesBlock append batch
  | .records batch => .ok (recordsBlock batch)

/-- `CHConnection::insert` between two readings of the clock.  What `Insert`
throws ends in the counters. -/
def insert (stats : CHStatistics) (block : Block) (first now : Int)
    (reply : Except StdException Unit) : CHStatistics :=
  match reply with
  | .ok () =>
      { stats with
        count := stats.count + 1
        rows := stats.rows + UInt32.ofNat block.getRowCount
        rtt := now - first }
  | .error _ => { stats with failed := stats.failed + 1, rtt := now - first }

/-- Where a call of `process` is. -/
inductive Call where
  /-- in the constructor of its lock -/
  | locking (table : String) (block : Block)
  | inserting (conn : Option Connection) (table : String) (block : Block)
  /-- before the destructor of its lock -/
  | leaving (conn : Connection)
  | returned
  /-- left with an exception -/
  | threw (err : StdException)
  /-- has used `operator->` of a lock without a connection -/
  | nullUsed
  deriving DecidableEq

/-- The pool, the counters of its connections and the calls of `process` that run. -/
structure Storage where
  ch : DBConnectionPool
  stats : Connection → CHStatistics := fun _ => {}
  calls : List Call := []

/-- The storage after its constructor.  A connection that is not established is
dropped by `createConnection`. -/
def start (connections : Nat) (established : Nat → Bool) : Storage where
  ch := .init connections established

inductive Event where
  | process (batch : Batch)
  /-- a call gets its answer from `lockConnection`; until then it waits -/
  | lock (call : Nat)
  /-- `chl->insert`, with the clock before and after it and what `Insert` does -/
  | insert (call : Nat) (first now : Int) (reply : Except StdException Unit)
  | leave (call : Nat)

/-- `process` up to the lock.  The block is built outside of the `try`. -/
def process (append : AppendFixed) (batch : Batch) : Call :=
  if batch.empty then .returned
  else
    match batch.block append with
    | .ok block => .locking batch.table block
    | .error err => .threw err

def step (append : AppendFixed) (s : Storage) : Event → Option Storage
  | .process batch => some { s with calls := s.calls ++ [process append batch] }
  | .lock call =>
      match s.calls[call]? with
      | some (.locking table block) =>
          match s.ch.lockConnection with
          | some (.holding conn, ch) =>
              some { s with ch := ch, calls := s.calls.set call (.inserting conn table block) }
          | _ => none
      | _ => none
  | .insert call first now reply =>
      match s.calls[call]? with
      | some (.inserting (some conn) _ block) =>
          some { s with
            stats := Function.update s.stats conn
              (insert (s.stats conn) block first now reply)
            calls := s.calls.set call (.leaving conn) }
      | some (.inserting none _ _) => some { s with calls := s.calls.set call .nullUsed }
      | _ => none
  | .leave call =>
      match s.calls[call]? with
      | some (.leaving conn) =>
          some { s with
            ch := (s.ch.unlockConnection conn).2
            calls := s.calls.set call .returned }
      | _ => none

/-- A step of a call that has begun. -/
def Event.inner : Event → Prop
  | .process _ => False
  | _ => True

/-- The connection of the lock that a call holds. -/
def Call.conn : Call → Option Connection
  | .inserting conn _ _ => conn
  | .leaving conn => some conn
  | _ => none

/-- The call threw, or used a connection that is not there. -/
def Call.harmed : Call → Prop
  | .threw _ | .nullUsed => True
  | _ => False

def inUse (calls : List Call) : List Connection := calls.filterMap Call.conn

def built (connections : Nat) (established : Nat → Bool) : List Connection :=
  (List.range connections).filter established

/-- No call has thrown or used a null connection, the connections are the ones
built, and where no call can go on all have returned and all connections are
available. -/
structure Unharmed (append : AppendFixed) (conns : List Connection) (s : Storage) : Prop where
  calls : ∀ call ∈ s.calls, ¬call.harmed
  conserved : (s.ch.pool ++ inUse s.calls).Perm conns
  finished : (∀ event : Event, event.inner → step append s event = none) →
    (∀ call ∈ s.calls, call = .returned) ∧ s.ch.pool.Perm conns

/-- However the calls that have begun go on, they are unharmed, and they go on
for three steps each at most. -/
def Survives (append : AppendFixed) (conns : List Connection) (s : Storage) : Prop :=
  ∀ (events : List Event) (s' : Storage), (∀ event ∈ events, event.inner) →
    exec (step append) s events = some s' →
    Unharmed append conns s' ∧ events.length ≤ 3 * s.calls.length

/-- The library takes every text of the batch. -/
def Batch.Fits (append : AppendFixed) : Batch → Prop
  | .messages batch => ∀ message ∈ batch, (append 256 message.channel).isOk ∧
      (append 256 message.user).isOk ∧ (append 16 message.lang).isOk
  | .records _ => True

/-- A batch with something in it fits and finds a pool with a connection. -/
def Served (append : AppendFixed) (conns : List Connection) (t : Transition Storage Event) :
    Prop :=
  match t.event with
  | .process batch => batch.empty ∨ batch.Fits append ∧ conns ≠ []
  | _ => True

theorem isOk_iff {α : Type} {x : Except StdException α} : x.isOk ↔ ∃ a, x = .ok a := by
  cases x with
  | ok a => simp [Except.isOk, Except.toBool]
  | error err => simp [Except.isOk, Except.toBool]

section Blocks

variable {append : AppendFixed}

theorem appendMessage_isOk {message : Message} :
    (appendMessage append message).isOk ↔ (append 256 message.channel).isOk ∧
      (append 256 message.user).isOk ∧ (append 16 message.lang).isOk := by
  unfold appendMessage
  cases append 256 message.channel <;> cases append 256 message.user <;>
    cases append 16 message.lang <;> simp [bind, Except.bind, pure, Except.pure, Except.isOk,
      Except.toBool]

theorem mapM_isOk {α β : Type} {f : α → Except StdException β} {l : List α} :
    (l.mapM f).isOk ↔ ∀ a ∈ l, (f a).isOk := by
  induction l with
  | nil => simp [pure, Except.pure, Except.isOk, Except.toBool]
  | cons a l ih =>
      rw [List.mapM_cons, List.forall_mem_cons, ← ih]
      cases f a <;> cases l.mapM f <;>
        simp [bind, Except.bind, pure, Except.pure, Except.isOk, Except.toBool]

theorem block_isOk (batch : Batch) : (batch.block append).isOk ↔ batch.Fits append := by
  cases batch with
  | records batch => simp [Batch.block, Batch.Fits, Except.isOk, Except.toBool]
  | messages batch =>
      simp only [Batch.Fits, ← appendMessage_isOk, ← mapM_isOk]
      simp only [Batch.block, messagesBlock]
      cases batch.mapM (appendMessage append) <;>
        simp [bind, Except.bind, pure, Except.pure, Except.isOk, Except.toBool]

theorem process_of_empty {batch : Batch} (h : batch.empty) :
    process append batch = .returned := by
  rw [process, if_pos h]

theorem process_of_fits {batch : Batch} (h : ¬batch.empty) (hfits : batch.Fits append) :
    ∃ block, process append batch = .locking batch.table block := by
  obtain ⟨block, hblock⟩ := isOk_iff.mp ((block_isOk batch).mpr hfits)
  exact ⟨block, by rw [process, if_neg h, hblock]⟩

theorem process_of_not_fits {batch : Batch} (h : ¬batch.empty) (hfits : ¬batch.Fits append) :
    ∃ err, process append batch = .threw err := by
  cases hblock : batch.block append with
  | ok block => exact absurd ((block_isOk batch).mp (by rw [hblock]; rfl)) hfits
  | error err => exact ⟨err, by rw [process, if_neg h, hblock]⟩

end Blocks

/-- What a step of a call does to it and to the pool. -/
inductive Move : DBConnectionPool → Call → DBConnectionPool → Call → Prop where
  | lockNone {ch : DBConnectionPool} {table : String} {block : Block} (h : ch.active = false) :
      Move ch (.locking table block) ch (.inserting none table block)
  | lock {active : Bool} {conn : Connection} {rest : List Connection} {table : String}
      {block : Block} (h : active = true) :
      Move ⟨active, conn :: rest⟩ (.locking table block)
        ⟨active, rest⟩ (.inserting (some conn) table block)
  | insertNull {ch : DBConnectionPool} {table : String} {block : Block} :
      Move ch (.inserting none table block) ch .nullUsed
  | insert {ch : DBConnectionPool} {conn : Connection} {table : String} {block : Block} :
      Move ch (.inserting (some conn) table block) ch (.leaving conn)
  | leave {ch : DBConnectionPool} {conn : Connection} :
      Move ch (.leaving conn) ⟨ch.active, ch.pool ++ [conn]⟩ .returned

theorem move_of_lockConnection {ch ch' : DBConnectionPool} {conn : Option Connection}
    (h : ch.lockConnection = some (.holding conn, ch')) (table : String) (block : Block) :
    Move ch (.locking table block) ch' (.inserting conn table block) := by
  unfold DBConnectionPool.lockConnection at h
  split at h
  next hactive =>
    obtain ⟨rfl, rfl⟩ := by simpa using h
    exact .lockNone (by simpa using hactive)
  next hactive =>
    rcases take_eq_some ch with ⟨-, htake⟩ | ⟨front, rest, hpool, htake⟩
    · simp [htake] at h
    · obtain ⟨rfl, rfl⟩ := by simpa [htake] using h
      obtain ⟨active, pool⟩ := ch
      obtain rfl : pool = front :: rest := hpool
      exact .lock (by simpa using hactive)

theorem step_inner {append : AppendFixed} {s s' : Storage} {event : Event} (hinner : event.inner)
    (h : step append s event = some s') :
    ∃ (i : Nat) (call call' : Call), s.calls[i]? = some call ∧ s'.calls = s.calls.set i call' ∧
      Move s.ch call s'.ch call' := by
  cases event with
  | process batch => exact hinner.elim
  | lock i =>
      simp only [step] at h
      split at h
      next table block hcall =>
        split at h
        next conn ch hlock =>
          obtain rfl := Option.some.inj h
          exact ⟨i, _, _, hcall, rfl, move_of_lockConnection hlock table block⟩
        · simp at h
      · simp at h
  | insert i first now reply =>
      simp only [step] at h
      split at h
      next conn table block hcall =>
        obtain rfl := Option.some.inj h
        exact ⟨i, _, _, hcall, rfl, .insert⟩
      next table block hcall =>
        obtain rfl := Option.some.inj h
        exact ⟨i, _, _, hcall, rfl, .insertNull⟩
      · simp at h
  | leave i =>
      simp only [step] at h
      split at h
      next conn hcall =>
        obtain rfl := Option.some.inj h
        exact ⟨i, _, _, hcall, rfl, .leave⟩
      · simp at h

/-! ### What a move keeps -/

/-- How many steps a call has before it. -/
def Call.remaining : Call → Nat
  | .locking _ _ => 3
  | .inserting _ _ _ => 2
  | .leaving _ => 1
  | _ => 0

/-- What a call is while no batch has met an empty pool. -/
def Call.Sound (conns : List Connection) : Call → Prop
  | .locking _ _ => conns ≠ []
  | .inserting conn _ _ => conn ≠ none
  | .threw _ | .nullUsed => False
  | _ => True

/-- A call that has gone wrong, or will as soon as it goes on. -/
def Call.doomed (active : Bool) : Call → Prop
  | .locking _ _ | .inserting none _ _ => active = false
  | .threw _ | .nullUsed => True
  | _ => False

section Moves

variable {ch ch' : DBConnectionPool} {call call' : Call}

theorem Move.active_eq (h : Move ch call ch' call') : ch'.active = ch.active := by
  cases h <;> rfl

theorem Move.remaining_lt (h : Move ch call ch' call') : call'.remaining < call.remaining := by
  cases h <;> simp [Call.remaining]

theorem Move.perm (h : Move ch call ch' call') :
    (ch'.pool ++ call'.conn.toList).Perm (ch.pool ++ call.conn.toList) := by
  cases h with
  | lock h => simp [Call.conn]
  | leave => simp [Call.conn]
  | _ => simp [Call.conn]

theorem Move.sound {conns : List Connection} (h : Move ch call ch' call')
    (hactive : ch.active = !conns.isEmpty) (hcall : call.Sound conns) : call'.Sound conns := by
  cases h with
  | lockNone h =>
      rw [h] at hactive
      exact absurd (by simpa using hactive) hcall
  | lock h => simp [Call.Sound]
  | insertNull => exact absurd rfl hcall
  | _ => trivial

theorem Move.doomed (h : Move ch call ch' call') (hcall : call.doomed ch.active) :
    call'.doomed ch'.active := by
  cases h with
  | lockNone h => exact h
  | lock h => exact absurd hcall (by simp [Call.doomed, h])
  | insertNull => trivial
  | insert => exact hcall
  | leave => exact hcall

end Moves

/-- The steps that the calls have still to take. -/
def remaining (calls : List Call) : Nat := (calls.map Call.remaining).sum

/-- What every run keeps whose batches are served. -/
structure Kept (conns : List Connection) (s : Storage) : Prop where
  active : s.ch.active = !conns.isEmpty
  conserved : (s.ch.pool ++ inUse s.calls).Perm conns
  sound : ∀ call ∈ s.calls, call.Sound conns

section Steps

variable {append : AppendFixed} {conns : List Connection} {s s' : Storage} {event : Event}

theorem remaining_step (hinner : event.inner) (h : step append s event = some s') :
    remaining s'.calls < remaining s.calls := by
  obtain ⟨i, call, call', hcall, hcalls, hmove⟩ := step_inner hinner h
  obtain ⟨hpre, hpost⟩ := perm_of_getElem? hcall
  have hlt := hmove.remaining_lt
  rw [remaining, remaining, hcalls, ((hpost call').map _).sum_eq, (hpre.map _).sum_eq]
  simpa using hlt

theorem Kept.move (hkept : Kept conns s) (hinner : event.inner)
    (h : step append s event = some s') : Kept conns s' := by
  obtain ⟨i, call, call', hcall, hcalls, hmove⟩ := step_inner hinner h
  refine ⟨hmove.active_eq.trans hkept.active, ?_, ?_⟩
  · rw [hcalls]
    exact (perm_filterMap_set hcall hmove.perm).trans hkept.conserved
  · intro c hc
    rw [hcalls] at hc
    rcases List.mem_or_eq_of_mem_set hc with hc | rfl
    · exact hkept.sound c hc
    · exact hmove.sound hkept.active (hkept.sound call (List.mem_of_getElem? hcall))

theorem Kept.newCall {batch : Batch} (hkept : Kept conns s)
    (hserved : batch.empty ∨ batch.Fits append ∧ conns ≠ []) :
    Kept conns { s with calls := s.calls ++ [process append batch] } := by
  have hnew : (process append batch).Sound conns ∧ (process append batch).conn = none := by
    by_cases hempty : batch.empty
    · rw [process_of_empty hempty]
      exact ⟨trivial, rfl⟩
    · obtain ⟨hfits, hconns⟩ := hserved.resolve_left hempty
      obtain ⟨block, hblock⟩ := process_of_fits hempty hfits
      rw [hblock]
      exact ⟨hconns, rfl⟩
  refine ⟨hkept.active, ?_, ?_⟩
  · simpa [inUse, List.filterMap_append, hnew.2] using hkept.conserved
  · intro call hcall
    rcases List.mem_append.mp hcall with hcall | hcall
    · exact hkept.sound call hcall
    · rw [List.mem_singleton.mp hcall]
      exact hnew.1

theorem Kept.step (hkept : Kept conns s) (hserved : Served append conns ⟨s, event, s'⟩)
    (h : step append s event = some s') : Kept conns s' := by
  cases event with
  | process batch =>
      obtain rfl := Option.some.inj h
      exact hkept.newCall hserved
  | lock i =>
      have hinner : (Event.lock i).inner := trivial
      exact hkept.move hinner h
  | insert i first now reply =>
      have hinner : (Event.insert i first now reply).inner := trivial
      exact hkept.move hinner h
  | leave i =>
      have hinner : (Event.leave i).inner := trivial
      exact hkept.move hinner h

theorem remaining_le (calls : List Call) : remaining calls ≤ 3 * calls.length := by
  induction calls with
  | nil => simp [remaining]
  | cons call calls ih =>
      have hcall : call.remaining ≤ 3 := by
        cases call <;> simp [Call.remaining]
      simp only [remaining, List.map_cons, List.sum_cons, List.length_cons] at *
      omega

/-! ### Where no call can go on -/

theorem step_isSome_of_conn (append : AppendFixed) {i : Nat} {call : Call} {conn : Connection}
    (hcall : s.calls[i]? = some call) (hconn : call.conn = some conn) :
    ∃ event : Event, event.inner ∧ (step append s event).isSome := by
  cases call with
  | inserting held table block =>
      obtain rfl : held = some conn := hconn
      exact ⟨.insert i 0 0 (.ok ()), trivial, by simp [step, hcall]⟩
  | leaving held => exact ⟨.leave i, trivial, by simp [step, hcall]⟩
  | _ => simp [Call.conn] at hconn

theorem step_isSome_of_locking (append : AppendFixed) {i : Nat} {table : String} {block : Block}
    (hcall : s.calls[i]? = some (.locking table block)) (hpool : s.ch.active → s.ch.pool ≠ []) :
    (step append s (.lock i)).isSome := by
  cases hactive : s.ch.active with
  | false => simp [step, hcall, DBConnectionPool.lockConnection, hactive]
  | true =>
      rcases take_eq_some s.ch with ⟨hnil, -⟩ | ⟨conn, rest, -, htake⟩
      · exact absurd hnil (hpool hactive)
      · simp [step, hcall, DBConnectionPool.lockConnection, hactive, htake]

theorem Kept.finished (hkept : Kept conns s)
    (hstuck : ∀ event : Event, event.inner → StorageInserts.step append s event = none) :
    (∀ call ∈ s.calls, call = .returned) ∧ s.ch.pool.Perm conns := by
  have hfree : ∀ call ∈ s.calls, call.conn = none := by
    intro call hcall
    obtain ⟨i, hi⟩ := List.mem_iff_getElem?.mp hcall
    rw [Option.eq_none_iff_forall_ne_some]
    intro conn hconn
    obtain ⟨event, hinner, hsome⟩ := step_isSome_of_conn append hi hconn
    simp [hstuck event hinner] at hsome
  have hpool : s.ch.pool.Perm conns := by
    have hnone : inUse s.calls = [] := List.filterMap_eq_nil_iff.mpr hfree
    simpa [hnone] using hkept.conserved
  refine ⟨fun call hcall => ?_, hpool⟩
  have hsound := hkept.sound call hcall
  have hconn := hfree call hcall
  cases call with
  | returned => rfl
  | locking table block =>
      obtain ⟨i, hi⟩ := List.mem_iff_getElem?.mp hcall
      have hsome := step_isSome_of_locking append hi
        fun _ hnil => hsound (List.nil_perm.mp (hnil ▸ hpool))
      simp [hstuck (.lock i) trivial] at hsome
  | inserting conn table block => exact absurd hconn hsound
  | leaving conn => simp [Call.conn] at hconn
  | threw err => exact hsound.elim
  | nullUsed => exact hsound.elim

theorem Kept.unharmed (hkept : Kept conns s) : Unharmed append conns s where
  calls := by
    intro call hcall hharmed
    have hsound := hkept.sound call hcall
    cases call with
    | threw err => exact hsound
    | nullUsed => exact hsound
    | _ => exact hharmed
  conserved := hkept.conserved
  finished := hkept.finished

theorem Kept.survives (hkept : Kept conns s) : Survives append conns s := by
  intro events s' hinner hexec
  constructor
  · refine Kept.unharmed ?_
    refine (run_of_exec hexec).invariant (Served append conns) hkept
      (fun _ _ _ h hserved => h.step hserved) ?_
    intro t ht
    have hevent := hinner t.event (event_mem_of_mem_trace ht)
    unfold Served
    split
    next batch heq => exact (heq ▸ hevent : (Event.process batch).inner).elim
    · trivial
  · have hlength := length_add_le_of_exec (fun _ _ _ => remaining_step) hinner hexec
    have hbound := remaining_le s.calls
    omega

/-! ### A call that cannot be saved -/

def Doomed (i : Nat) (s : Storage) : Prop :=
  ∃ call, s.calls[i]? = some call ∧ call.doomed s.ch.active

theorem active_step (h : step append s event = some s') : s'.ch.active = s.ch.active := by
  by_cases hinner : event.inner
  · obtain ⟨i, call, call', -, -, hmove⟩ := step_inner hinner h
    exact hmove.active_eq
  · cases event with
    | process batch =>
        obtain rfl := Option.some.inj h
        rfl
    | _ => exact absurd trivial hinner

theorem Doomed.step {i : Nat} (hdoomed : Doomed i s) (h : step append s event = some s') :
    Doomed i s' := by
  obtain ⟨call, hcall, hwrong⟩ := hdoomed
  by_cases hinner : event.inner
  · obtain ⟨j, other, other', hother, hcalls, hmove⟩ := step_inner hinner h
    by_cases hj : j = i
    · subst hj
      obtain rfl : other = call := Option.some.inj (hother.symm.trans hcall)
      refine ⟨other', ?_, hmove.doomed hwrong⟩
      rw [hcalls, List.getElem?_set_self (List.getElem?_eq_some_iff.mp hcall).1]
    · refine ⟨call, ?_, hmove.active_eq ▸ hwrong⟩
      rw [hcalls, List.getElem?_set_ne hj, hcall]
  · cases event with
    | process batch =>
        obtain rfl := Option.some.inj h
        refine ⟨call, ?_, hwrong⟩
        rw [List.getElem?_append_left (List.getElem?_eq_some_iff.mp hcall).1, hcall]
    | _ => exact absurd trivial hinner

theorem doomed_of_not_served (hactive : s.ch.active = !conns.isEmpty)
    (hserved : ¬Served append conns ⟨s, event, s'⟩) (h : step append s event = some s') :
    Doomed s.calls.length s' := by
  cases event with
  | process batch =>
      obtain rfl := Option.some.inj h
      refine ⟨process append batch, by simp, ?_⟩
      obtain ⟨hempty, hnot⟩ := not_or.mp hserved
      by_cases hfits : batch.Fits append
      · obtain ⟨block, hblock⟩ := process_of_fits hempty hfits
        have hconns : conns = [] := by simpa [hfits] using hnot
        rw [hblock]
        exact hactive.trans (by rw [hconns]; rfl)
      · obtain ⟨err, herr⟩ := process_of_not_fits hempty hfits
        rw [herr]
        trivial
  | _ => exact absurd trivial hserved

/-- The steps that the call itself takes end where it is harmed. -/
theorem Doomed.exists_harmed (append : AppendFixed) {i : Nat} (hdoomed : Doomed i s) :
    ∃ events s', (∀ event ∈ events, event.inner) ∧
      exec (StorageInserts.step append) s events = some s' ∧ ∃ call ∈ s'.calls, call.harmed := by
  obtain ⟨call, hcall, hwrong⟩ := hdoomed
  have hi := (List.getElem?_eq_some_iff.mp hcall).1
  have hset (call' : Call) : call' ∈ s.calls.set i call' := List.mem_set hi call'
  cases call with
  | locking table block =>
      refine ⟨[.lock i, .insert i 0 0 (.ok ())], { s with calls := s.calls.set i .nullUsed },
        by simp [Event.inner], ?_, .nullUsed, hset _, trivial⟩
      have hactive : s.ch.active = false := hwrong
      have hlock : StorageInserts.step append s (.lock i) =
          some { s with calls := s.calls.set i (.inserting none table block) } := by
        simp [StorageInserts.step, hcall, DBConnectionPool.lockConnection, hactive]
      simp only [exec, hlock]
      simp [StorageInserts.step, hi]
  | inserting conn table block =>
      cases conn with
      | some conn => exact hwrong.elim
      | none =>
          refine ⟨[.insert i 0 0 (.ok ())], { s with calls := s.calls.set i .nullUsed },
            by simp [Event.inner], ?_, .nullUsed, hset _, trivial⟩
          simp [exec, StorageInserts.step, hcall]
  | threw err => exact ⟨[], s, by simp, rfl, .threw err, List.mem_of_getElem? hcall, trivial⟩
  | nullUsed => exact ⟨[], s, by simp, rfl, .nullUsed, List.mem_of_getElem? hcall, trivial⟩
  | leaving conn => exact hwrong.elim
  | returned => exact hwrong.elim

end Steps

section Runs

variable {append : AppendFixed} {connections : Nat} {established : Nat → Bool}
  {tr : List (Transition Storage Event)} {s : Storage}

theorem kept_start : Kept (built connections established) (start connections established) where
  active := rfl
  conserved := by simp [start, DBConnectionPool.init, inUse, built]
  sound := by simp [start]

theorem active_of_run (hrun : Run (step append) (start connections established) tr s) :
    s.ch.active = !(built connections established).isEmpty :=
  @Run.always _ _ _ _ (fun s => s.ch.active = !(built connections established).isEmpty) rfl
    (fun _ _ _ h hstep => (active_step hstep).trans h) _ _ hrun

theorem doomed_of_run (hrun : Run (step append) (start connections established) tr s)
    {t : Transition Storage Event} (ht : t ∈ tr)
    (hserved : ¬Served append (built connections established) t) :
    Doomed t.pre.calls.length s := by
  obtain ⟨past, between, rfl⟩ := List.append_of_mem ht
  obtain ⟨hpast, hstep⟩ := hrun.step_of_split past t between rfl
  have hdoomed := doomed_of_not_served (active_of_run hpast) hserved hstep
  exact hrun.lasts (fun _ _ _ h hstep => h.step hstep) hdoomed

/-- The storage survives all that ClickHouse may do exactly when every batch
with something in it fits the columns and some connection has been built. -/
theorem survives_iff (hrun : Run (step append) (start connections established) tr s) :
    Survives append (built connections established) s ↔
      ∀ t ∈ tr, Served append (built connections established) t := by
  constructor
  · intro hsurvives t ht
    by_contra hserved
    obtain ⟨events, s', hinner, hexec, call, hcall, hharmed⟩ :=
      (doomed_of_run hrun ht hserved).exists_harmed append
    exact (hsurvives events s' hinner hexec).1.calls call hcall hharmed
  · intro hserved
    exact Kept.survives (hrun.invariant (Served append (built connections established)) kept_start
      (fun _ _ _ h hs hstep => h.step hs hstep) hserved)

end Runs

/-- `Append` of the library: the text is filled up with zeros. -/
def zeroPadded : AppendFixed := fun size text =>
  if text.length ≤ size then
    .ok (text ++ String.ofList (List.replicate (size - text.length) (Char.ofNat 0)))
  else .error ⟨"Expected string of length not greater than the column has"⟩

/-- Two calls share one of two connections, the other could not be established. -/
theorem survives_iff_shared :
    (exec (step zeroPadded) (start 2 fun i => decide (i = 1))
      [.process (.messages [⟨(1, 2), "bob", "#lean", "hi", "en", 5⟩]), .process (.messages []),
        .process (.records [⟨1, 1, 1, (1, 2), 6, "seen"⟩]), .lock 0,
        .insert 0 3 4 (.error ⟨"timeout"⟩), .leave 0, .lock 2]).isSome ∧
      ∀ s ∈ exec (step zeroPadded) (start 2 fun i => decide (i = 1))
        [.process (.messages [⟨(1, 2), "bob", "#lean", "hi", "en", 5⟩]), .process (.messages []),
          .process (.records [⟨1, 1, 1, (1, 2), 6, "seen"⟩]), .lock 0,
          .insert 0 3 4 (.error ⟨"timeout"⟩), .leave 0, .lock 2],
        Survives zeroPadded (built 2 fun i => decide (i = 1)) s := by
  refine ⟨by decide, fun s hs => ?_⟩
  obtain rfl := Option.get_of_mem (by decide) hs
  refine (survives_iff (run_trace _ _)).mpr ?_
  rintro ⟨pre, event, post⟩ ht
  have hevent := event_mem_of_mem_trace ht
  simp only [List.mem_cons, List.not_mem_nil, or_false] at hevent
  rcases hevent with rfl | rfl | rfl | rfl | rfl | rfl | rfl
  · exact Or.inr ⟨by simp [Batch.Fits]; decide, by decide⟩
  · exact Or.inl rfl
  · exact Or.inr ⟨trivial, by decide⟩
  all_goals trivial

/-- One record and a pool without connections. -/
theorem not_survives_empty :
    ∃ (tr : List (Transition Storage Event)) (s : Storage),
      Run (step zeroPadded) (start 1 fun _ => false) tr s ∧
      ¬Survives zeroPadded (built 1 fun _ => false) s := by
  refine ⟨_, _, run_trace [.process (.records [⟨1, 1, 1, (1, 2), 6, "seen"⟩])] rfl, ?_⟩
  intro hsurvives
  obtain ⟨hunharmed, -⟩ := hsurvives [.lock 0, .insert 0 3 4 (.ok ())] _ (by simp [Event.inner]) rfl
  exact hunharmed.calls .nullUsed (by decide) trivial

end TwitchChatWorker.StorageInserts
