import Mathlib.Algebra.Group.Int.Defs
import TwitchChatWorker.Lib.Tallies
import TwitchChatWorker.Statistics

/-!
What `StatsCollector` receives is what it has reported and what it still holds.
A figure is one counter of one view; every report clears what it shows.
-/

namespace TwitchChatWorker.StatisticsBalance

open TwitchChatWorker.HttpRequests
open TwitchChatWorker.JsonValues
open TwitchChatWorker.Lib.Handlers
open TwitchChatWorker.Lib.OrderedMaps
open TwitchChatWorker.Lib.Runs
open TwitchChatWorker.Lib.Tallies
open TwitchChatWorker.Statistics

inductive Event where
  | quantity (mPrefix : String) (value : UInt64)
  | sessionMetrics (id : SessionId) (nick : String) (stats : IRCStatistic)
  | clientChannelsMetrics (nick : String) (channelsToSession : List (String × SessionId))
  | message (now : Int) (channel : String)
  | sendMessage (now : Int) (channel : String)
  | chPoolMetrics (stats : List CHStatistics)
  | http (env : Surroundings) (body : String) (request : StatsRequest)

/-- The agent with the responses it has sent, each with the request it answers. -/
structure Gathering where
  collector : StatsCollector := {}
  answers : List (StatsRequest × Response) := []

/-- Metrics of the id `-1u` are stored outside of the resized vector, and an
exception of a handler ends the program. -/
def step (g : Gathering) : Event → Option Gathering
  | .quantity mPrefix value =>
      some { g with collector := g.collector.evtQuantity mPrefix value }
  | .sessionMetrics id nick stats =>
      if id = unattachedId then none
      else some { g with collector := g.collector.evtIRCMetrics id nick stats }
  | .clientChannelsMetrics nick channelsToSession =>
      some { g with
        collector := g.collector.evtIRCClientChannelsMetrics nick channelsToSession }
  | .message now channel =>
      some { g with collector := g.collector.evtRecvMessageMetric now channel }
  | .sendMessage now channel =>
      some { g with collector := g.collector.evtSendMessageMetric now channel }
  | .chPoolMetrics stats => some { g with collector := g.collector.evtCHPoolMetric stats }
  | .http env body request =>
      match StatsCollector.evtHttp env body request ⟨g.collector, []⟩ with
      | .ok _ served =>
          some ⟨served.state, g.answers ++ served.responses.map fun answer => (request, answer)⟩
      | .error _ _ => none

/-- The body is a list of strings under `key`. -/
def ListsStrings (env : Surroundings) (body key : String) : Prop :=
  ∃ (req : Json) (texts : List String), env.parse body = some req ∧
    req.member key = .ok (.array (texts.map .string))

/-- An id of a session that the collector can hold, and lists of names in
the requests. -/
def WellFormed : Event → Prop
  | .sessionMetrics id _ _ => id.toNat < 2 ^ 32 - 1
  | .http env body .account => body = "" ∨ ListsStrings env body "accounts"
  | .http env body .channel => body = "" ∨ ListsStrings env body "channels"
  | _ => True

section Reading

def field (key : String) : Json → Json
  | .object members => (members.lookup key).getD .null
  | _ => .null

def elements : Json → List Json
  | .array elements => elements
  | _ => []

/-- The value of an integer, and `0` otherwise. -/
def integer : Json → Int
  | .number (.integer value) => value
  | _ => 0

/-- The count that stands under the path. -/
def readCount (path : List String) (j : Json) : Int :=
  integer (path.foldl (fun j key => field key j) j)

end Reading

/-- The counters of a session by name. -/
inductive IrcCounter where
  | success | failed | loggedin
  | bytesIn | countIn
  | bytesOut | join | part | privmsg | countOut

namespace IrcCounter

/-- The number of bits of the counter. -/
def width : IrcCounter → Nat
  | .bytesIn | .bytesOut => 64
  | _ => 32

def path : IrcCounter → List String
  | .success => ["connects", "success"]
  | .failed => ["connects", "failed"]
  | .loggedin => ["connects", "loggedin"]
  | .bytesIn => ["commands", "in", "bytes"]
  | .countIn => ["commands", "in", "count"]
  | .bytesOut => ["commands", "out", "bytes"]
  | .join => ["commands", "out", "join"]
  | .part => ["commands", "out", "part"]
  | .privmsg => ["commands", "out", "privmsg"]
  | .countOut => ["commands", "out", "count"]

def value : IrcCounter → IRCStatistic → Int
  | .success, stats => stats.connects.success.toNat
  | .failed, stats => stats.connects.failed.toNat
  | .loggedin, stats => stats.connects.loggedin.toNat
  | .bytesIn, stats => stats.commandsIn.bytes.toNat
  | .countIn, stats => stats.commandsIn.count.toNat
  | .bytesOut, stats => stats.commandsOut.bytes.toNat
  | .join, stats => stats.commandsOut.join.toNat
  | .part, stats => stats.commandsOut.part.toNat
  | .privmsg, stats => stats.commandsOut.privmsg.toNat
  | .countOut, stats => stats.commandsOut.count.toNat

end IrcCounter

inductive PoolCounter where
  | count | rows | failed

namespace PoolCounter

def key : PoolCounter → String
  | .count => "count"
  | .rows => "rows"
  | .failed => "failed"

def value : PoolCounter → CHStatistics → Int
  | .count, stats => stats.count.toNat
  | .rows, stats => stats.rows.toNat
  | .failed, stats => stats.failed.toNat

end PoolCounter

inductive Direction where
  | incoming | outgoing
deriving DecidableEq

namespace Direction

def key : Direction → String
  | .incoming => "in"
  | .outgoing => "out"

def value : Direction → ChannelStats → Int
  | .incoming, stats => stats.inCount.toInt
  | .outgoing, stats => stats.outCount.toInt

end Direction

/-- One additive counter of one of the four views. -/
inductive Figure where
  | irc (counter : IrcCounter)
  | account (counter : IrcCounter) (nick : String) (id : Nat)
  | channel (direction : Direction) (name : String)
  | storage (counter : PoolCounter) (connection : Nat)

namespace Figure

def width : Figure → Nat
  | .irc counter | .account counter _ _ => counter.width
  | .channel _ _ | .storage _ _ => 32

/-- What the collector has of the figure. -/
def stored (s : StatsCollector) : Figure → Int
  | .irc counter => counter.value s.allIrcStats
  | .account counter nick id => counter.value (((s.ircStats.find? nick).getD []).getD id {})
  | .channel direction name => direction.value ((s.channelsStats.find? name).getD {})
  | .storage counter connection => counter.value (s.chPoolStats.getD connection {})

/-- What an event adds to the figure. -/
def received (figure : Figure) : Event → Int
  | .sessionMetrics id nick stats =>
      match figure with
      | .irc counter => counter.value stats
      | .account counter nick₁ id₁ =>
          if nick = nick₁ ∧ id.toNat = id₁ then counter.value stats else 0
      | _ => 0
  | .message _ chan =>
      match figure with
      | .channel .incoming name => if chan = name then 1 else 0
      | _ => 0
  | .sendMessage _ chan =>
      match figure with
      | .channel .outgoing name => if chan = name then 1 else 0
      | _ => 0
  | .chPoolMetrics stats =>
      match figure with
      | .storage counter connection => counter.value (stats.getD connection {})
      | _ => 0
  | .quantity _ _ | .clientChannelsMetrics _ _ | .http _ _ _ => 0

def reportedSessions (counter : IrcCounter) (nick : String) (id : Nat) (sessions : List Json) :
    Int :=
  (sessions.map fun session =>
    if (field "nick" session).stringOrEmpty = nick ∧ readCount ["id"] session = id then
      readCount counter.path session
    else 0).sum

def reportedAccounts (counter : IrcCounter) (nick : String) (id : Nat) (accounts : List Json) :
    Int :=
  (accounts.map fun account =>
    reportedSessions counter nick id (elements (field "sessions" account))).sum

def reportedChannels (direction : Direction) (name : String) (channels : List Json) : Int :=
  (channels.map fun channel =>
    if (field "name" channel).stringOrEmpty = name then
      readCount [direction.key, "count"] channel
    else 0).sum

def reportedConnections (counter : PoolCounter) (id : Nat) (connections : List Json) : Int :=
  (connections.map fun connection =>
    if readCount ["id"] connection = id then readCount [counter.key] connection else 0).sum

/-- What the body of a response to a request tells about the figure. -/
def reportedIn : Figure → StatsRequest → Json → Int
  | .irc counter, .irc, j => readCount counter.path j
  | .account counter nick id, .account, j =>
      reportedAccounts counter nick id (elements (field "accounts" j))
  | .channel direction name, .channel, j =>
      reportedChannels direction name (elements (field "channels" j))
  | .storage counter connection, .storage, j =>
      reportedConnections counter connection (elements (field "connections" j))
  | _, _, _ => 0

/-- What an answer reports of the figure. -/
def reported (figure : Figure) (answer : StatsRequest × Response) : Int :=
  match answer.2.body with
  | .dumped j => figure.reportedIn answer.1 j
  | .text _ => 0

end Figure

section Counters

theorem toNat_add_modEq32 (a b : UInt32) :
    ((a + b).toNat : Int) ≡ a.toNat + b.toNat [ZMOD 2 ^ 32] := by
  rw [UInt32.toNat_add]
  push_cast
  exact Int.mod_modEq _ _

theorem toNat_add_modEq64 (a b : UInt64) :
    ((a + b).toNat : Int) ≡ a.toNat + b.toNat [ZMOD 2 ^ 64] := by
  rw [UInt64.toNat_add]
  push_cast
  exact Int.mod_modEq _ _

theorem toInt_succ_modEq (a : Int32) : (a + 1).toInt ≡ a.toInt + 1 [ZMOD 2 ^ 32] := by
  rw [Int32.toInt_add]
  exact Int.bmod_emod

theorem IrcCounter.value_add (counter : IrcCounter) (a b : IRCStatistic) :
    counter.value (a.add b) ≡ counter.value a + counter.value b [ZMOD 2 ^ counter.width] := by
  cases counter with
  | bytesIn | bytesOut => exact toNat_add_modEq64 _ _
  | _ => exact toNat_add_modEq32 _ _

theorem PoolCounter.value_add (counter : PoolCounter) (a b : CHStatistics) :
    counter.value (a.add b) ≡ counter.value a + counter.value b [ZMOD 2 ^ 32] := by
  cases counter <;> exact toNat_add_modEq32 _ _

theorem IrcCounter.value_empty (counter : IrcCounter) : counter.value {} = 0 := by
  cases counter <;> rfl

theorem PoolCounter.value_empty (counter : PoolCounter) : counter.value {} = 0 := by
  cases counter <;> rfl

theorem Direction.value_empty (direction : Direction) : direction.value {} = 0 := by
  cases direction <;> rfl

end Counters

section Metrics

theorem getD_addAt {α : Type} (zero : α) (add : α → α) (xs : List α) (i j : Nat) :
    (StatsCollector.addAt zero add xs i).getD j zero =
      if j = i then add (xs.getD i zero) else xs.getD j zero := by
  induction xs, i using StatsCollector.addAt.induct generalizing j with
  | case1 => cases j <;> simp [StatsCollector.addAt]
  | case2 i ih =>
      cases j with
      | zero => simp [StatsCollector.addAt]
      | succ j => simpa [StatsCollector.addAt] using ih j
  | case3 x xs => cases j <;> simp [StatsCollector.addAt]
  | case4 x xs i ih =>
      cases j with
      | zero => simp [StatsCollector.addAt]
      | succ j => simpa [StatsCollector.addAt] using ih j

theorem value_addPool (counter : PoolCounter) (pool stats : List CHStatistics) (i : Nat) :
    counter.value ((StatsCollector.addPool pool stats).getD i {}) ≡
      counter.value (pool.getD i {}) + counter.value (stats.getD i {}) [ZMOD 2 ^ 32] := by
  induction pool, stats using StatsCollector.addPool.induct generalizing i with
  | case1 pool => simp [StatsCollector.addPool, counter.value_empty]
  | case2 stats rest ih =>
      cases i with
      | zero => simpa [StatsCollector.addPool] using counter.value_add {} stats
      | succ i => simpa [StatsCollector.addPool] using ih i
  | case3 conn pool stats rest ih =>
      cases i with
      | zero => simpa [StatsCollector.addPool] using counter.value_add conn stats
      | succ i => simpa [StatsCollector.addPool] using ih i

open Figure

theorem stored_evtIRCMetrics (s : StatsCollector) (id : SessionId) (nick : String)
    (stats : IRCStatistic) (figure : Figure) :
    figure.stored (s.evtIRCMetrics id nick stats) ≡
      figure.stored s + figure.received (.sessionMetrics id nick stats)
      [ZMOD 2 ^ figure.width] := by
  cases figure with
  | irc counter => exact counter.value_add s.allIrcStats stats
  | account counter nick₁ id₁ =>
      simp only [stored, received, StatsCollector.evtIRCMetrics, OrderedMap.find?_upsert]
      by_cases hnick : nick₁ = nick
      · subst hnick
        rw [if_pos rfl, Option.getD_some, getD_addAt]
        by_cases hid : id₁ = id.toNat
        · subst hid
          simpa [Figure.width] using counter.value_add _ stats
        · simp [hid, Ne.symm hid]
      · simp [hnick, Ne.symm hnick]
  | channel => simp [stored, received, StatsCollector.evtIRCMetrics]
  | storage => simp [stored, received, StatsCollector.evtIRCMetrics]

theorem value_getD_upsert (direction counted : Direction) (m : OrderedMap String ChannelStats)
    (name channel : String) (f : ChannelStats → ChannelStats)
    (hf : ∀ old, direction.value (f old) ≡
      direction.value old + (if direction = counted then 1 else 0) [ZMOD 2 ^ 32]) :
    direction.value (((m.upsert channel fun old => f (old.getD {})).find? name).getD {}) ≡
      direction.value ((m.find? name).getD {}) +
        (if direction = counted ∧ channel = name then 1 else 0) [ZMOD 2 ^ 32] := by
  rw [OrderedMap.find?_upsert]
  by_cases hname : name = channel
  · subst hname
    simpa using hf _
  · simp [hname, Ne.symm hname]

theorem stored_evtRecvMessageMetric (s : StatsCollector) (now : Int) (chan : String)
    (figure : Figure) :
    figure.stored (s.evtRecvMessageMetric now chan) ≡
      figure.stored s + figure.received (.message now chan) [ZMOD 2 ^ figure.width] := by
  cases figure with
  | channel direction name =>
      have hupsert := value_getD_upsert direction .incoming s.channelsStats name chan
        (fun old => { old with inCount := old.inCount + 1, updated := now }) (by
          intro old
          cases direction with
          | incoming => exact toInt_succ_modEq _
          | outgoing => simp [Direction.value])
      cases direction with
      | incoming =>
          simpa [stored, received, Figure.width, StatsCollector.evtRecvMessageMetric] using hupsert
      | outgoing =>
          simpa [stored, received, Figure.width, StatsCollector.evtRecvMessageMetric] using hupsert
  | _ => simp [stored, received, StatsCollector.evtRecvMessageMetric]

theorem stored_evtSendMessageMetric (s : StatsCollector) (now : Int) (chan : String)
    (figure : Figure) :
    figure.stored (s.evtSendMessageMetric now chan) ≡
      figure.stored s + figure.received (.sendMessage now chan) [ZMOD 2 ^ figure.width] := by
  cases figure with
  | channel direction name =>
      have hupsert := value_getD_upsert direction .outgoing s.channelsStats name chan
        (fun old => { old with outCount := old.outCount + 1, updated := now }) (by
          intro old
          cases direction with
          | incoming => simp [Direction.value]
          | outgoing => exact toInt_succ_modEq _)
      cases direction with
      | incoming =>
          simpa [stored, received, Figure.width, StatsCollector.evtSendMessageMetric] using hupsert
      | outgoing =>
          simpa [stored, received, Figure.width, StatsCollector.evtSendMessageMetric] using hupsert
  | _ => simp [stored, received, StatsCollector.evtSendMessageMetric]

theorem stored_evtCHPoolMetric (s : StatsCollector) (stats : List CHStatistics)
    (figure : Figure) :
    figure.stored (s.evtCHPoolMetric stats) ≡
      figure.stored s + figure.received (.chPoolMetrics stats) [ZMOD 2 ^ figure.width] := by
  cases figure with
  | storage counter connection => exact value_addPool counter s.chPoolStats stats connection
  | _ => simp [stored, received, StatsCollector.evtCHPoolMetric]

end Metrics

section Reports

open Figure

/-- The responses of the handler show what the agent then no longer holds. -/
def Shows (request : StatsRequest) (h : Serve StatsCollector Unit) (s : StatsCollector) : Prop :=
  wp False h ⟨s, []⟩ fun _ served => ∀ figure : Figure,
    (served.responses.map fun response => figure.reported (request, response)).sum +
      figure.stored served.state = figure.stored s

theorem readCount_ircStatisticToJson (counter : IrcCounter) (stats : IRCStatistic) :
    readCount counter.path (ircStatisticToJson stats) = counter.value stats := by
  cases counter <;> rfl

theorem shows_evtHttpIrcStats (s : StatsCollector) :
    Shows .irc StatsCollector.evtHttpIrcStats s := by
  intro figure
  cases figure with
  | irc counter =>
      simp [reported, reportedIn, stored, readCount_ircStatisticToJson, counter.value_empty]
  | _ => simp [reported, reportedIn, stored]

theorem readCount_poolToJson (counter : PoolCounter) (i : Nat) (stats : CHStatistics) :
    readCount [counter.key] (StatsCollector.poolToJson i stats) = counter.value stats := by
  cases counter <;> rfl

theorem elements_field (key : String) (xs : List Json) :
    elements (field key (.object [(key, .array xs)])) = xs := by
  simp [field, elements]

theorem reportedConnections_eq (counter : PoolCounter) (id : Nat) (pool : List CHStatistics) :
    reportedConnections counter id (pool.mapIdx StatsCollector.poolToJson) =
      counter.value (pool.getD id {}) := by
  have hid : ∀ i stats, readCount ["id"] (StatsCollector.poolToJson i stats) = i :=
    fun i stats => rfl
  refine (sum_mapIdx_at _ _ id counter.value ?_ pool).trans ?_
  · intro i stats
    simp only [hid, readCount_poolToJson, Nat.cast_inj]
  · rw [getD_map_of_zero counter.value_empty, List.getD_eq_getElem?_getD]

theorem shows_evtHttpStorageStats (s : StatsCollector) :
    Shows .storage StatsCollector.evtHttpStorageStats s := by
  intro figure
  cases figure with
  | storage counter connection =>
      have hshown := reportedConnections_eq counter connection s.chPoolStats
      simpa [reported, reportedIn, stored, counter.value_empty, elements_field] using hshown
  | _ => simp [reported, reportedIn, stored]

theorem sessions_dumpAccountWithSessions (s : StatsCollector) (stats : List IRCStatistic)
    (nick : String) :
    elements (field "sessions" (s.dumpAccountWithSessions stats nick)) =
      stats.mapIdx
        (StatsCollector.sessionToJson nick ((s.ircClientChannels.find? nick).getD [])) := by
  simp only [StatsCollector.dumpAccountWithSessions]
  split <;> rfl

theorem readCount_sessionToJson (counter : IrcCounter) (nick : String)
    (channels : List (String × SessionId)) (i : Nat) (stats : IRCStatistic) :
    readCount counter.path (StatsCollector.sessionToJson nick channels i stats) =
      counter.value stats := by
  cases counter <;> rfl

/-- The statistics of a session are found under its nick and its position. -/
theorem reportedSessions_eq (counter : IrcCounter) (nick : String) (id : Nat)
    (s : StatsCollector) (stats : List IRCStatistic) (nick₁ : String) :
    reportedSessions counter nick id
        (elements (field "sessions" (s.dumpAccountWithSessions stats nick₁))) =
      if nick₁ = nick then counter.value (stats.getD id {}) else 0 := by
  rw [sessions_dumpAccountWithSessions, reportedSessions]
  generalize (s.ircClientChannels.find? nick₁).getD [] = channels
  have hnick : ∀ i stats, (field "nick"
      (StatsCollector.sessionToJson nick₁ channels i stats)).stringOrEmpty = nick₁ :=
    fun i stats => rfl
  have hid : ∀ i stats,
      readCount ["id"] (StatsCollector.sessionToJson nick₁ channels i stats) = i :=
    fun i stats => rfl
  by_cases heq : nick₁ = nick
  · rw [if_pos heq]
    refine (sum_mapIdx_at _ _ id counter.value ?_ stats).trans ?_
    · intro i session
      simp only [← heq, hnick, hid, readCount_sessionToJson, true_and, Nat.cast_inj]
    · rw [getD_map_of_zero counter.value_empty, List.getD_eq_getElem?_getD]
  · rw [if_neg heq]
    apply List.sum_eq_zero
    intro amount hamount
    obtain ⟨session, hsession, rfl⟩ := List.mem_map.mp hamount
    obtain ⟨i, hi, rfl⟩ := List.mem_mapIdx.mp hsession
    simp only [hnick, heq, false_and, if_false]

theorem reportedAccounts_append (counter : IrcCounter) (nick : String) (id : Nat)
    (xs ys : List Json) :
    reportedAccounts counter nick id (xs ++ ys) =
      reportedAccounts counter nick id xs + reportedAccounts counter nick id ys := by
  simp [reportedAccounts]

theorem reportedAccounts_entries (counter : IrcCounter) (nick : String) (id : Nat)
    (s : StatsCollector) :
    reportedAccounts counter nick id
        (s.ircStats.entries.map fun entry => s.dumpAccountWithSessions entry.2 entry.1) =
      counter.value (((s.ircStats.find? nick).getD []).getD id {}) := by
  let value : List IRCStatistic → Int := fun stats => counter.value (stats.getD id {})
  have hunset : value [] = 0 := counter.value_empty
  have hsum := sum_entries_at s.ircStats nick value
  rw [getD_map_of_zero hunset] at hsum
  rw [reportedAccounts, List.map_map]
  refine Eq.trans ?_ hsum
  congr 1
  apply List.map_congr_left
  intro entry _
  exact reportedSessions_eq counter nick id s entry.2 entry.1

theorem foldl_touchChannels (entries : List (String × List IRCStatistic)) (s : StatsCollector) :
    ∃ channels, entries.foldl (fun s entry => s.touchChannels entry.1) s =
      { s with ircClientChannels := channels } := by
  induction entries generalizing s with
  | nil => exact ⟨s.ircClientChannels, rfl⟩
  | cons entry entries ih => exact ih (s.touchChannels entry.1)

theorem shows_allAccounts (s : StatsCollector) :
    Shows .account (do
      let clients ← StatsCollector.dumpAllAccounts
      sendHttpResp 200 (StatsCollector.accountsBody clients)) s := by
  obtain ⟨channels, htouched⟩ := foldl_touchChannels s.ircStats.entries s
  simp only [Shows, StatsCollector.dumpAllAccounts, wp_bind, wp_readState, wp_update, wp_pure,
    sendHttpResp, wp_respond, htouched, List.nil_append, List.map_singleton, List.sum_singleton]
  intro figure
  cases figure with
  | account counter nick id =>
      have hshown := reportedAccounts_entries counter nick id s
      simpa [reported, reportedIn, stored, StatsCollector.accountsBody, elements_field,
        counter.value_empty] using hshown
  | _ => simp [reported, reportedIn, stored, StatsCollector.accountsBody]

def accountsJson (clients : List Json) : Json := .object [("accounts", .array clients)]

theorem reportedIn_accountsJson_append (figure : Figure) (xs ys : List Json) :
    figure.reportedIn .account (accountsJson (xs ++ ys)) =
      figure.reportedIn .account (accountsJson xs) +
        figure.reportedIn .account (accountsJson ys) := by
  cases figure with
  | account counter nick id =>
      simp only [reportedIn, accountsJson, elements_field, reportedAccounts_append]
  | _ => simp [reportedIn]

theorem reportedIn_forgotten (figure : Figure) (s : StatsCollector) (nick : String)
    (stats : List IRCStatistic) (hfind : s.ircStats.find? nick = some stats) :
    figure.reportedIn .account (accountsJson [s.dumpAccountWithSessions stats nick]) +
      figure.stored { s.touchChannels nick with ircStats := s.ircStats.erase nick } =
        figure.stored s := by
  cases figure with
  | account counter nick₁ id =>
      simp only [reportedIn, accountsJson, elements_field, reportedAccounts, List.map_singleton,
        List.sum_singleton, reportedSessions_eq, stored, OrderedMap.find?_erase]
      by_cases heq : nick = nick₁
      · subst heq
        simp [hfind, counter.value_empty]
      · simp [heq, Ne.symm heq]
  | _ => simp [reportedIn, stored, StatsCollector.touchChannels]

theorem wp_dumpAccounts (s : StatsCollector) (accounts : List String) :
    wp False ((accounts.map Json.string).foldlM StatsCollector.dumpAccount []) ⟨s, []⟩
      fun clients served => served.responses = [] ∧ ∀ figure : Figure,
        figure.reportedIn .account (accountsJson clients) + figure.stored served.state =
          figure.stored s := by
  apply wp_foldlM_acc
  · refine ⟨rfl, fun figure => ?_⟩
    cases figure with
    | account counter nick id =>
        simp [reportedIn, accountsJson, elements_field, reportedAccounts]
    | _ => simp [reportedIn]
  · rintro account haccount clients ⟨state, responses⟩ ⟨rfl, hshown⟩
    obtain ⟨nick, -, rfl⟩ := List.mem_map.mp haccount
    rw [StatsCollector.dumpAccount, Json.getString, wp_bind, wp_rethrow_ok,
      StatsCollector.reportAccount, wp_bind, wp_readState]
    dsimp only at hshown ⊢
    cases hfind : state.ircStats.find? nick with
    | none => exact ⟨rfl, hshown⟩
    | some stats =>
        refine ⟨rfl, fun figure => ?_⟩
        rw [reportedIn_accountsJson_append, add_assoc]
        exact (congrArg _ (reportedIn_forgotten figure state nick stats hfind)).trans
          (hshown figure)

theorem shows_evtHttpAccountsStats {env : Surroundings} {body : String}
    (hbody : body = "" ∨ ListsStrings env body "accounts") (s : StatsCollector) :
    Shows .account (StatsCollector.evtHttpAccountsStats env body) s := by
  unfold StatsCollector.evtHttpAccountsStats
  split
  · exact shows_allAccounts s
  · next hnonempty =>
      obtain ⟨req, texts, hparse, hmember⟩ := hbody.resolve_left hnonempty
      rw [withJson, hparse]
      simp only [Shows]
      rw [hmember, wp_bind, wp_rethrow_ok]
      cases texts with
      | nil => exact shows_allAccounts s
      | cons text texts =>
          simp only [List.map_cons]
          rw [wp_bind]
          apply (wp_dumpAccounts s (text :: texts)).mono
          rintro clients ⟨state, responses⟩ ⟨rfl, hshown⟩ figure
          simpa [reported, StatsCollector.accountsBody, accountsJson] using hshown figure

theorem readCount_statsToJson (direction : Direction) (name : String) (stats : ChannelStats) :
    readCount [direction.key, "count"] (StatsCollector.statsToJson name stats) =
      direction.value stats := by
  cases direction <;> rfl

theorem name_statsToJson (name : String) (stats : ChannelStats) :
    (field "name" (StatsCollector.statsToJson name stats)).stringOrEmpty = name := rfl

theorem reportedChannels_entries (direction : Direction) (name : String) (s : StatsCollector) :
    reportedChannels direction name
        (s.channelsStats.entries.map fun entry => StatsCollector.statsToJson entry.1 entry.2) =
      direction.value ((s.channelsStats.find? name).getD {}) := by
  have hsum := sum_entries_at s.channelsStats name direction.value
  rw [getD_map_of_zero direction.value_empty] at hsum
  rw [reportedChannels, List.map_map]
  refine Eq.trans ?_ hsum
  congr 1
  apply List.map_congr_left
  intro entry _
  simp only [Function.comp_apply, name_statsToJson, readCount_statsToJson]

def channelsJson (channels : List Json) : Json := .object [("channels", .array channels)]

theorem reportedIn_channelsJson_append (figure : Figure) (xs ys : List Json) :
    figure.reportedIn .channel (channelsJson (xs ++ ys)) =
      figure.reportedIn .channel (channelsJson xs) +
        figure.reportedIn .channel (channelsJson ys) := by
  cases figure with
  | channel direction name =>
      simp [reportedIn, channelsJson, elements_field, reportedChannels]
  | _ => simp [reportedIn]

/-- A channel that is asked for a second time, or was never counted, shows zeros. -/
theorem reportedIn_erased (figure : Figure) (s : StatsCollector) (chan : String) :
    figure.reportedIn .channel (channelsJson
        [StatsCollector.statsToJson chan ((s.channelsStats.find? chan).getD {})]) +
      figure.stored { s with channelsStats := s.channelsStats.erase chan } =
        figure.stored s := by
  cases figure with
  | channel direction name =>
      simp only [reportedIn, channelsJson, elements_field, reportedChannels, List.map_singleton,
        List.sum_singleton, name_statsToJson, readCount_statsToJson, stored,
        OrderedMap.find?_erase]
      by_cases heq : chan = name
      · subst heq
        simp [direction.value_empty]
      · simp [heq, Ne.symm heq]
  | _ => simp [reportedIn, stored]

theorem wp_dumpChannels (s : StatsCollector) (channels : List String) :
    wp False ((channels.map Json.string).foldlM StatsCollector.dumpChannel []) ⟨s, []⟩
      fun shown served => served.responses = [] ∧ ∀ figure : Figure,
        figure.reportedIn .channel (channelsJson shown) + figure.stored served.state =
          figure.stored s := by
  apply wp_foldlM_acc
  · refine ⟨rfl, fun figure => ?_⟩
    cases figure with
    | channel direction name =>
        simp [reportedIn, channelsJson, elements_field, reportedChannels]
    | _ => simp [reportedIn]
  · rintro channel hchannel shown ⟨state, responses⟩ ⟨rfl, hshown⟩
    obtain ⟨chan, -, rfl⟩ := List.mem_map.mp hchannel
    rw [StatsCollector.dumpChannel, Json.getString, wp_bind, wp_rethrow_ok]
    refine ⟨rfl, fun figure => ?_⟩
    rw [reportedIn_channelsJson_append, add_assoc]
    exact (congrArg _ (reportedIn_erased figure state chan)).trans (hshown figure)

theorem shows_evtHttpChannelsStats {env : Surroundings} {body : String}
    (hbody : body = "" ∨ ListsStrings env body "channels") (s : StatsCollector) :
    Shows .channel (StatsCollector.evtHttpChannelsStats env body) s := by
  unfold StatsCollector.evtHttpChannelsStats
  split
  · intro figure
    cases figure with
    | channel direction name =>
        have hshown := reportedChannels_entries direction name s
        simpa [reported, reportedIn, stored, StatsCollector.channelsBody, elements_field,
          direction.value_empty] using hshown
    | _ => simp [reported, reportedIn, stored, StatsCollector.channelsBody]
  · next hnonempty =>
      obtain ⟨req, texts, hparse, hmember⟩ := hbody.resolve_left hnonempty
      rw [withJson, hparse]
      simp only [Shows]
      rw [hmember, wp_bind, wp_rethrow_ok, wp_bind]
      apply (wp_dumpChannels s texts).mono
      rintro shown ⟨state, responses⟩ ⟨rfl, hshown⟩ figure
      simpa [reported, StatsCollector.channelsBody, channelsJson] using hshown figure

theorem shows_evtHttp {env : Surroundings} {body : String} {request : StatsRequest}
    (hwell : WellFormed (.http env body request)) (s : StatsCollector) :
    Shows request (StatsCollector.evtHttp env body request) s := by
  cases request with
  | irc => exact shows_evtHttpIrcStats s
  | storage => exact shows_evtHttpStorageStats s
  | account => exact shows_evtHttpAccountsStats hwell s
  | channel => exact shows_evtHttpChannelsStats hwell s
  | bot | db | so5disp =>
      intro figure
      cases figure <;> simp [reported, reportedIn, resp]

end Reports

section Balance

open Figure

/-- What the figure amounts to in the agent and in its responses together. -/
def accounted (figure : Figure) (g : Gathering) : Int :=
  (g.answers.map figure.reported).sum + figure.stored g.collector

theorem ne_unattachedId {id : SessionId} (hid : id.toNat < 2 ^ 32 - 1) : id ≠ unattachedId := by
  rintro rfl
  exact absurd hid (by decide)

theorem step_isSome (g : Gathering) (e : Event) (hwell : WellFormed e) : (step g e).isSome := by
  cases e with
  | sessionMetrics id nick stats => simp [step, ne_unattachedId hwell]
  | http env body request =>
      have hshows := shows_evtHttp hwell g.collector
      unfold Shows wp at hshows
      unfold step
      split at hshows
      · next hrun => simp [hrun]
      · exact hshows.elim
  | _ => rfl

theorem accounted_of_metrics {figure : Figure} {g : Gathering} {collector : StatsCollector}
    {amount : Int}
    (hstored : figure.stored collector ≡ figure.stored g.collector + amount
      [ZMOD 2 ^ figure.width]) :
    accounted figure { g with collector := collector } ≡ accounted figure g + amount
      [ZMOD 2 ^ figure.width] := by
  rw [accounted, accounted, add_assoc]
  exact hstored.add_left _

theorem accounted_step (figure : Figure) (g : Gathering) (e : Event) (g' : Gathering)
    (hwell : WellFormed e) (hstep : step g e = some g') :
    accounted figure g' ≡ accounted figure g + figure.received e [ZMOD 2 ^ figure.width] := by
  cases e with
  | http env body request =>
      have hshows := shows_evtHttp hwell g.collector
      unfold Shows wp at hshows
      rw [step] at hstep
      split at hshows
      · next served hrun =>
          rw [hrun] at hstep
          obtain rfl := Option.some.inj hstep
          have hshown := hshows figure
          rw [received, add_zero, accounted, accounted, ← hshown, List.map_append,
            List.sum_append, List.map_map, add_assoc]
          rfl
      · exact hshows.elim
  | sessionMetrics id nick stats =>
      rw [step, if_neg (ne_unattachedId hwell)] at hstep
      obtain rfl := Option.some.inj hstep
      exact accounted_of_metrics (stored_evtIRCMetrics g.collector id nick stats figure)
  | message now chan =>
      obtain rfl := Option.some.inj hstep
      exact accounted_of_metrics (stored_evtRecvMessageMetric g.collector now chan figure)
  | sendMessage now chan =>
      obtain rfl := Option.some.inj hstep
      exact accounted_of_metrics (stored_evtSendMessageMetric g.collector now chan figure)
  | chPoolMetrics stats =>
      obtain rfl := Option.some.inj hstep
      exact accounted_of_metrics (stored_evtCHPoolMetric g.collector stats figure)
  | quantity mPrefix value =>
      obtain rfl := Option.some.inj hstep
      rw [received, add_zero]
      cases figure <;> rfl
  | clientChannelsMetrics nick channelsToSession =>
      obtain rfl := Option.some.inj hstep
      rw [received, add_zero]
      cases figure <;> rfl

/-- The agent serves every sequence of well-formed events, and each figure that
it received is reported or still stored. -/
theorem reported_add_stored (events : List Event) (hwell : ∀ e ∈ events, WellFormed e) :
    ∃ g, exec step {} events = some g ∧ ∀ figure : Figure,
      (g.answers.map figure.reported).sum + figure.stored g.collector ≡
        (events.map figure.received).sum [ZMOD 2 ^ figure.width] := by
  obtain ⟨g, hg⟩ := Option.isSome_iff_exists.mp (exec_isSome step_isSome hwell {})
  refine ⟨g, hg, fun figure => ?_⟩
  have hbalance := exec_balance (accounted_step figure) hwell hg
  have hstart : accounted figure {} = 0 := by
    cases figure <;> simp [accounted, stored, IrcCounter.value_empty, Direction.value_empty,
      PoolCounter.value_empty]
  rwa [hstart, zero_add] at hbalance

def listing (key : String) (texts : List String) : Surroundings where
  parse _ := (some (.object [(key, .array (texts.map .string))])).filter Json.encodable
  parse_encodable _ _ h := (Option.filter_eq_some_iff.mp h).2
  tables _ := .failed

def sampleEvents : List Event :=
  [.sessionMetrics 1 "helper" { connects := { success := 1 } },
    .message 5 "alpha", .sendMessage 6 "alpha", .chPoolMetrics [{ count := 2 }],
    .http (listing "accounts" ["helper", "helper", "nobody"]) "body" .account,
    .http (listing "channels" ["alpha", "alpha"]) "body" .channel,
    .http (listing "" []) "" .storage,
    .sessionMetrics 0 "helper" { connects := { failed := 1 } },
    .http (listing "" []) "" .irc]

theorem reported_add_stored_sample :
    ∃ g, exec step {} sampleEvents = some g ∧ ∀ figure : Figure,
      (g.answers.map figure.reported).sum + figure.stored g.collector ≡
        (sampleEvents.map figure.received).sum [ZMOD 2 ^ figure.width] :=
  reported_add_stored sampleEvents (by
    simp only [sampleEvents, List.forall_mem_cons, List.not_mem_nil, WellFormed]
    refine ⟨by decide, trivial, trivial, trivial,
      .inr ⟨_, ["helper", "helper", "nobody"], rfl, rfl⟩,
      .inr ⟨_, ["alpha", "alpha"], rfl, rfl⟩, trivial, by decide, trivial, ?_⟩
    simp)

end Balance

end TwitchChatWorker.StatisticsBalance
