import TwitchChatWorker.HttpRequests

/-!
The agent `StatsCollector`: what it gathers, and the requests that report it.
-/

namespace TwitchChatWorker.Statistics

open TwitchChatWorker.HttpRequests
open TwitchChatWorker.JsonValues
open TwitchChatWorker.Lib.Handlers
open TwitchChatWorker.Lib.OrderedMaps

structure Connects where
  success : UInt32 := 0
  failed : UInt32 := 0
  loggedin : UInt32 := 0

structure CommandsIn where
  bytes : UInt64 := 0
  count : UInt32 := 0

structure CommandsOut where
  bytes : UInt64 := 0
  join : UInt32 := 0
  part : UInt32 := 0
  privmsg : UInt32 := 0
  count : UInt32 := 0

/-- The counters of sessions. -/
structure IRCStatistic where
  connects : Connects := {}
  commandsIn : CommandsIn := {}
  commandsOut : CommandsOut := {}
  rtt : UInt32 := 0

/-- `operator+=`: counters are added, the last round trip time stays. -/
def IRCStatistic.add (lhs rhs : IRCStatistic) : IRCStatistic where
  connects :=
    { success := lhs.connects.success + rhs.connects.success
      failed := lhs.connects.failed + rhs.connects.failed
      loggedin := lhs.connects.loggedin + rhs.connects.loggedin }
  commandsIn :=
    { bytes := lhs.commandsIn.bytes + rhs.commandsIn.bytes
      count := lhs.commandsIn.count + rhs.commandsIn.count }
  commandsOut :=
    { bytes := lhs.commandsOut.bytes + rhs.commandsOut.bytes
      join := lhs.commandsOut.join + rhs.commandsOut.join
      part := lhs.commandsOut.part + rhs.commandsOut.part
      privmsg := lhs.commandsOut.privmsg + rhs.commandsOut.privmsg
      count := lhs.commandsOut.count + rhs.commandsOut.count }
  rtt := if rhs.rtt > 0 then rhs.rtt else lhs.rtt

def count32 (value : UInt32) : Json := .number (.integer value.toNat)

def count64 (value : UInt64) : Json := .number (.integer value.toNat)

def ircStatisticToJson (stats : IRCStatistic) : Json :=
  .object
    [("connects", .object
      [("failed", count32 stats.connects.failed),
        ("success", count32 stats.connects.success),
        ("loggedin", count32 stats.connects.loggedin)]),
      ("commands", .object
        [("in", .object
          [("bytes", count64 stats.commandsIn.bytes),
            ("count", count32 stats.commandsIn.count)]),
          ("out", .object
            [("bytes", count64 stats.commandsOut.bytes),
              ("join", count32 stats.commandsOut.join),
              ("part", count32 stats.commandsOut.part),
              ("privmsg", count32 stats.commandsOut.privmsg),
              ("count", count32 stats.commandsOut.count)]),
          ("ping_pong", .object [("rtt", count32 stats.rtt)])])]

structure ChannelStats where
  inCount : Int32 := 0
  outCount : Int32 := 0
  updated : Int := 0

/-- The counters of a connection to ClickHouse. -/
structure CHStatistics where
  rtt : Int := 0
  count : UInt32 := 0
  rows : UInt32 := 0
  failed : UInt32 := 0

def CHStatistics.add (lhs rhs : CHStatistics) : CHStatistics where
  rtt := if rhs.rtt > 0 then rhs.rtt else lhs.rtt
  count := lhs.count + rhs.count
  rows := lhs.rows + rhs.rows
  failed := lhs.failed + rhs.failed

/-- A session id as the client dumps it; `unattachedId` is `-1u`. -/
abbrev SessionId := UInt32

/-- The id of a channel without a session, `-1` in the unsigned type. -/
def unattachedId : SessionId := 0 - 1

/-- The counters by account, channel, connection and dispatcher. -/
structure StatsCollector where
  allIrcStats : IRCStatistic := {}
  ircClientChannels : OrderedMap String (List (String × SessionId)) := .empty
  ircStats : OrderedMap String (List IRCStatistic) := .empty
  channelsStats : OrderedMap String ChannelStats := .empty
  chPoolStats : List CHStatistics := []
  dispStats : OrderedMap String UInt64 := .empty

namespace StatsCollector

def evtQuantity (s : StatsCollector) (mPrefix : String) (value : UInt64) : StatsCollector :=
  { s with dispStats := s.dispStats.assign mPrefix value }

/-- Adds to the entry at `id`, after entries of zero up to there. -/
def addAt {α : Type} (zero : α) (add : α → α) : List α → Nat → List α
  | [], 0 => [add zero]
  | [], id + 1 => zero :: addAt zero add [] id
  | x :: xs, 0 => add x :: xs
  | x :: xs, id + 1 => x :: addAt zero add xs id

def evtIRCMetrics (s : StatsCollector) (id : SessionId) (nick : String) (stats : IRCStatistic) :
    StatsCollector :=
  { s with
    allIrcStats := s.allIrcStats.add stats
    ircStats := s.ircStats.upsert nick fun old =>
      addAt {} (fun session => session.add stats) (old.getD []) id.toNat }

def evtIRCClientChannelsMetrics (s : StatsCollector) (nick : String)
    (channelsToSession : List (String × SessionId)) : StatsCollector :=
  { s with ircClientChannels := s.ircClientChannels.assign nick channelsToSession }

def evtRecvMessageMetric (s : StatsCollector) (now : Int) (channel : String) : StatsCollector :=
  { s with
    channelsStats := s.channelsStats.upsert channel fun old =>
      { old.getD {} with inCount := (old.getD {}).inCount + 1, updated := now } }

def evtSendMessageMetric (s : StatsCollector) (now : Int) (channel : String) : StatsCollector :=
  { s with
    channelsStats := s.channelsStats.upsert channel fun old =>
      { old.getD {} with outCount := (old.getD {}).outCount + 1, updated := now } }

/-- The pool has as many connections as it ever reported. -/
def addPool : List CHStatistics → List CHStatistics → List CHStatistics
  | pool, [] => pool
  | [], stats :: rest => CHStatistics.add {} stats :: addPool [] rest
  | conn :: pool, stats :: rest => conn.add stats :: addPool pool rest

def evtCHPoolMetric (s : StatsCollector) (stats : List CHStatistics) : StatsCollector :=
  { s with chPoolStats := addPool s.chPoolStats stats }

def evtHttpSo5Disp : Serve StatsCollector Unit := do
  let s ← readState
  let dispatchers := s.dispStats.entries.map fun entry =>
    Json.object [("name", .string entry.1), ("size", count64 entry.2)]
  sendHttpResp 200 (.dumped (.object [("dispatchers", .array dispatchers)]))

/-- The name of the handler itself is the whole answer. -/
def evtHttpIrcBots : Serve StatsCollector Unit :=
  sendHttpResp 200
    (resp "void StatsCollector::evtHttpIrcBots(so_5::mhood_t<hreq::stats::bot>)")

def poolToJson (i : Nat) (stats : CHStatistics) : Json :=
  .object [("id", .number (.integer i)), ("count", count32 stats.count),
    ("rows", count32 stats.rows), ("failed", count32 stats.failed),
    ("rtt", .number (.integer stats.rtt))]

def evtHttpStorageStats : Serve StatsCollector Unit := do
  let s ← readState
  let conns := s.chPoolStats.mapIdx poolToJson
  update fun s => { s with chPoolStats := [] }
  sendHttpResp 200 (.dumped (.object [("connections", .array conns)]))

def evtHttpDbStats (env : Surroundings) : Serve StatsCollector Unit :=
  sendHttpResp 200 (.text env.dbStats)

def evtHttpIrcStats : Serve StatsCollector Unit := do
  let s ← readState
  update fun s => { s with allIrcStats := {} }
  sendHttpResp 200 (.dumped (ircStatisticToJson s.allIrcStats))

def sessionToJson (nick : String) (channels : List (String × SessionId)) (i : Nat)
    (stats : IRCStatistic) : Json :=
  match ircStatisticToJson stats with
  | .object members =>
      .object (members ++
        [("channels", .array ((channels.filter fun channel => channel.2.toNat = i).map
            fun channel => .string channel.1)),
          ("nick", .string nick), ("id", .number (.integer i))])
  | j => j

/-- The unattached channels are looked for while the sessions are visited. -/
def dumpAccountWithSessions (s : StatsCollector) (stats : List IRCStatistic) (nick : String) :
    Json :=
  let channels := (s.ircClientChannels.find? nick).getD []
  let unattached := channels.filter fun channel => decide (channel.2 = unattachedId)
  let sessions := ("sessions", Json.array (stats.mapIdx (sessionToJson nick channels)))
  if stats ≠ [] ∧ unattached ≠ [] then
    .object [sessions,
      ("unattached_channels", .array (unattached.map fun channel => .string channel.1))]
  else .object [sessions]

/-- Reading the channels of an account stores an empty entry if it has none. -/
def touchChannels (s : StatsCollector) (nick : String) : StatsCollector :=
  { s with ircClientChannels := s.ircClientChannels.emplace nick [] }

def dumpAllAccounts : Serve StatsCollector (List Json) := do
  let s ← readState
  update fun s => s.ircStats.entries.foldl (fun s entry => s.touchChannels entry.1) s
  update fun s => { s with ircStats := .empty }
  return s.ircStats.entries.map fun entry => s.dumpAccountWithSessions entry.2 entry.1

/-- Report one account of the list and forget its statistics. -/
def reportAccount (clients : List Json) (nick : String) : Serve StatsCollector (List Json) := do
  let s ← readState
  match s.ircStats.find? nick with
  | none => return clients
  | some stats => do
      update fun s => { s.touchChannels nick with ircStats := s.ircStats.erase nick }
      return clients ++ [s.dumpAccountWithSessions stats nick]

def dumpAccount (clients : List Json) (account : Json) : Serve StatsCollector (List Json) := do
  reportAccount clients (← rethrow account.getString)

def accountsBody (clients : List Json) : Body := .dumped (.object [("accounts", .array clients)])

def evtHttpAccountsStats (env : Surroundings) (body : String) : Serve StatsCollector Unit :=
  if body = "" then do
    let clients ← dumpAllAccounts
    sendHttpResp 200 (accountsBody clients)
  else
    withJson env body fun req => do
      let accounts ← rethrow (req.member "accounts")
      match accounts with
      | .array [] => do
          let clients ← dumpAllAccounts
          sendHttpResp 200 (accountsBody clients)
      | .array accounts => do
          let clients ← accounts.foldlM dumpAccount []
          sendHttpResp 200 (accountsBody clients)
      | _ => sendHttpResp 400 (resp "Invalid accounts type")

def statsToJson (name : String) (stats : ChannelStats) : Json :=
  .object [("name", .string name),
    ("in", .object [("count", .number (.integer stats.inCount.toInt))]),
    ("out", .object [("count", .number (.integer stats.outCount.toInt))]),
    ("updated", .number (.integer stats.updated))]

/-- The counters of a channel are reported and dropped. -/
def reportChannel (channels : List Json) (chan : String) : Serve StatsCollector (List Json) := do
  let s ← readState
  update fun s => { s with channelsStats := s.channelsStats.erase chan }
  return channels ++ [statsToJson chan ((s.channelsStats.find? chan).getD {})]

def dumpChannel (channels : List Json) (channel : Json) : Serve StatsCollector (List Json) := do
  reportChannel channels (← rethrow channel.getString)

def channelsBody (channels : List Json) : Body := .dumped (.object [("channels", .array channels)])

def evtHttpChannelsStats (env : Surroundings) (body : String) : Serve StatsCollector Unit :=
  if body = "" then do
    let s ← readState
    update fun s => { s with channelsStats := .empty }
    sendHttpResp 200
      (channelsBody (s.channelsStats.entries.map fun entry => statsToJson entry.1 entry.2))
  else
    withJson env body fun req => do
      let list ← rethrow (req.member "channels")
      match list with
      | .array list => do
          let channels ← list.foldlM dumpChannel []
          sendHttpResp 200 (channelsBody channels)
      | _ => sendHttpResp 400 (resp "Invalid channels type")

def evtHttp (env : Surroundings) (body : String) : StatsRequest → Serve StatsCollector Unit
  | .bot => evtHttpIrcBots
  | .storage => evtHttpStorageStats
  | .db => evtHttpDbStats env
  | .irc => evtHttpIrcStats
  | .account => evtHttpAccountsStats env body
  | .channel => evtHttpChannelsStats env body
  | .so5disp => evtHttpSo5Disp

end StatsCollector

end TwitchChatWorker.Statistics
