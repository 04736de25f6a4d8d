import Mathlib.Logic.Function.Basic
import TwitchChatWorker.ChannelList
import TwitchChatWorker.Lib.RoundRobin

/-!
One `IRCClient` agent with its sessions, its message queue and its timers.
A step is one message handler of the client thread, one callback of a selector
thread, or a timer that puts a message into the queue.  The IRC library and the
clock answer through `Env`.  Delays are not modelled: a delayed message may be
delivered at any later step.
-/

namespace TwitchChatWorker.IrcClient

open TwitchChatWorker.ChannelList
open TwitchChatWorker.Lib

/-- What the sessions of all accounts have in common. -/
structure IRCConnectionConfig where
  host : String := ""
  port : Int := 6667
  threads : Int := 1
  connectAttempsLimit : Int := 30
deriving DecidableEq

/-- A row of the table `account` as `DBController` reads it. -/
structure IRCClientConfig where
  id : Int := 0
  nick : String := ""
  user : String := ""
  password : String := ""
  channelsLimit : Int := 20
  commandPerSecLimit : Int := 20 / 30
  whisperPerSecLimit : Int := 3
  authPerSecLimit : Int := 2
  sessionCount : Int := 1
deriving DecidableEq

/-- The fields of `IRCSession` that the client reads or writes; `connected` is
what the IRC library answers, `pingTimer` whether the session owns a timer. -/
structure IRCSession where
  id : Nat := 0
  connected : Bool := false
  logged : Bool := false
  pingTimer : Bool := false
  lastPingTime : Int := 0
  lastPongTime : Int := 0

/-- The messages that a client subscribes to. -/
inductive Message where
  | connect (session : SessionPtr) (attempt : Int)
  | loggedInCheck (session : SessionPtr)
  | reload (config : IRCClientConfig)
  | shutdown
  | joinChannel (channel : String)
  | leaveChannel (channel : String)
  | sendPING (session : SessionPtr) (host : String)
  | sendMessage (channel text : String)
  | sendIRC (message : String)
  | gatherStats
  | channelJoined (session : SessionPtr) (channel : String)
  | checkJoinedChannels (session : SessionPtr) (channels : List String)
deriving DecidableEq

/-- The session whose pointer a message carries. -/
def Message.session? : Message → Option SessionPtr
  | .connect session _ | .loggedInCheck session | .sendPING session _
  | .channelJoined session _ | .checkJoinedChannels session _ => some session
  | _ => none

/-- What a message asks to check. -/
def Message.check? : Message → Option (SessionPtr × List String)
  | .checkJoinedChannels session channels => some (session, channels)
  | _ => none

/-- The messages that other agents send to a client. -/
def Message.external : Message → Bool
  | .reload _ | .shutdown | .joinChannel _ | .leaveChannel _ | .sendMessage _ _
  | .sendIRC _ => true
  | _ => false

def Message.isReload : Message → Bool
  | .reload _ => true
  | _ => false

/-- The methods of a session that the client calls. -/
inductive Method where
  | connect | connected | loggedIn | disconnect | getId | setPingTimer | onDisconnected
  | sendJoin (channel : String)
  | sendPart (channel : String)
  | sendMessage (channel text : String)
  | sendPing (host : String)
  | sendRaw (raw : String)
deriving DecidableEq

/-- One call and its result; a call without a result counts as successful. -/
structure Call where
  session : SessionPtr
  method : Method
  result : Bool
deriving DecidableEq

/-- What a client sends to other agents besides its statistics. -/
inductive Outgoing where
  | clientChannelsMetrics (nick : String) (channels : List (String × Nat))
  | notify (text : String)
deriving DecidableEq

/-- The answers of the surroundings during one handler: the time, whether
`irc_connect` works, whether the library takes the n-th call's command, and the
rows of `loadChannelsFor`. -/
structure Env where
  now : Int := 0
  connectOk : Bool := true
  sendOk : Nat → Bool := fun _ => true
  loadedChannels : List String := []

/-- `calls` lists the calls of the last step only. -/
structure IRCClient where
  conConfig : IRCConnectionConfig
  cliConfig : IRCClientConfig
  channels : IRCChannelList
  sessions : List SessionPtr
  curSessionRoundRobin : Nat
  heap : SessionPtr → IRCSession
  allocated : Nat
  queue : List Message
  delayed : List Message
  outbox : List Outgoing
  calls : List Call
  deregistered : Bool

/-- What can happen to a client and its sessions: a message handled, a delayed message
that comes due, a timer, a message that is sent and the callbacks of a session. -/
inductive Event where
  | handle (env : Env)
  | expire (i : Nat)
  | pingTick (session : SessionPtr)
  | statsTick
  | receive (message : Message)
  | onLoggedIn (session : SessionPtr) (env : Env)
  | onDisconnected (session : SessionPtr) (reason : String)
  | onJoined (session : SessionPtr) (channel : String)
  | onPong (session : SessionPtr) (now : Int)

/-- The session whose selector thread calls back. -/
def Event.callback? : Event → Option SessionPtr
  | .onLoggedIn session _ | .onDisconnected session _ | .onJoined session _ => some session
  | _ => none

/-- The session that logs in. -/
def Event.login? : Event → Option SessionPtr
  | .onLoggedIn session _ => some session
  | _ => none

/-- `MIN_SESS_COUNT`. -/
def minSessCount : Int := 1
/-- `LOGIN_TIMEOUT_MS`. -/
def loginTimeoutMs : Int := 3000
/-- `PING_PONG_TIMEOUT_MS`. -/
def pingPongTimeoutMs : Int := 10500

namespace IRCClient

/-- The session is connected and has logged in on this connection. -/
def online (c : IRCClient) (session : SessionPtr) : Bool :=
  (c.heap session).connected && (c.heap session).logged

/-- The messages that the client has still to handle. -/
def pending (c : IRCClient) : List Message := c.queue ++ c.delayed

def updateSession (c : IRCClient) (session : SessionPtr) (f : IRCSession → IRCSession) :
    IRCClient :=
  { c with heap := fun p => if p = session then f (c.heap p) else c.heap p }

/-- A call of a method is recorded with its result. -/
def called (c : IRCClient) (session : SessionPtr) (method : Method) (result : Bool) : IRCClient :=
  { c with calls := c.calls ++ [⟨session, method, result⟩] }

/-- A message to the queue of the client. -/
def send (c : IRCClient) (message : Message) : IRCClient :=
  { c with queue := c.queue ++ [message] }

/-- A delayed message, which stands in the queue once it expires. -/
def sendDelayed (c : IRCClient) (message : Message) : IRCClient :=
  { c with delayed := c.delayed ++ [message] }

/-- A message to the agents outside the client. -/
def publish (c : IRCClient) (message : Outgoing) : IRCClient :=
  { c with outbox := c.outbox ++ [message] }

/-- The library refuses commands of a session that is not connected. -/
def internalIrcSend (c : IRCClient) (env : Env) (session : SessionPtr) (command : Method) :
    Bool × IRCClient :=
  let result := (c.heap session).connected && env.sendOk c.calls.length
  (result, c.called session command result)

def sendJoin (c : IRCClient) (env : Env) (session : SessionPtr) (channel : String) :
    Bool × IRCClient :=
  c.internalIrcSend env session (.sendJoin channel)

def sendPart (c : IRCClient) (env : Env) (session : SessionPtr) (channel : String) :
    Bool × IRCClient :=
  c.internalIrcSend env session (.sendPart channel)

/-- `IRCSession::connect`. -/
def connectSession (c : IRCClient) (env : Env) (session : SessionPtr) : Bool × IRCClient :=
  if env.connectOk then
    (true, (c.called session .connect true).updateSession session fun s =>
      { s with
        connected := true
        logged := false
        lastPingTime := env.now
        lastPongTime := env.now })
  else (false, c.called session .connect false)

/-- `IRCClient::onDisconnected`. -/
def onDisconnected (c : IRCClient) (session : SessionPtr) (reason : String) : IRCClient :=
  ({ c with channels := c.channels.detachAndPartFromSession session }.publish
    (.notify ("IRCClient[" ++ c.cliConfig.nick ++ "/" ++ toString (c.heap session).id ++
      "] Disconnected: " ++ reason))).send (.connect session 0)

/-- `IRCSession::onDisconnected`. -/
def sessionOnDisconnected (c : IRCClient) (session : SessionPtr) (reason : String) : IRCClient :=
  (c.updateSession session fun s => { s with pingTimer := false, connected := false }).onDisconnected
    session reason

/-- `IRCSession::sendPing`: a peer that has not answered for too long is given up. -/
def sendPing (c : IRCClient) (env : Env) (session : SessionPtr) (host : String) : IRCClient :=
  let s := c.heap session
  if s.lastPingTime - s.lastPongTime ≥ pingPongTimeoutMs then
    (c.called session (.sendPing host) false).sessionOnDisconnected session
      ("PING/PONG timeout: " ++ toString (s.lastPingTime - s.lastPongTime))
  else
    let sent := c.internalIrcSend env session (.sendPing host)
    if sent.1 then sent.2.updateSession session fun s => { s with lastPingTime := env.now }
    else sent.2

/-- A new session at the end of the list, with a request to connect it. -/
def addNewSession (c : IRCClient) (env : Env) : IRCClient :=
  let session : IRCSession :=
    { id := c.sessions.length, lastPingTime := env.now, lastPongTime := env.now }
  { c with
    heap := fun p => if p = c.allocated then session else c.heap p
    allocated := c.allocated + 1
    sessions := c.sessions ++ [c.allocated] }.send (.connect c.allocated 0)

/-- The loop that starts the sessions of an account. -/
def addNewSessions (c : IRCClient) (env : Env) : Nat → IRCClient
  | 0 => c
  | n + 1 => (c.addNewSession env).addNewSessions env n

/-- How many sessions an account starts with. -/
def startCount (config : IRCClientConfig) : Nat := (max minSessCount config.sessionCount).toNat

/-- The client once it has started. -/
def soEvtStart (conConfig : IRCConnectionConfig) (cliConfig : IRCClientConfig) (env : Env) :
    IRCClient :=
  { conConfig := conConfig
    cliConfig := cliConfig
    channels := .load env.loadedChannels
    sessions := []
    curSessionRoundRobin := 0
    heap := fun _ => {}
    allocated := 0
    queue := []
    delayed := []
    outbox := []
    calls := []
    deregistered := false : IRCClient }.addNewSessions env (startCount cliConfig)

/-- An index beyond the vector is undefined. -/
def getNextSessionRoundRobin (c : IRCClient) : Option (SessionPtr × IRCClient) :=
  match RoundRobin.next c.sessions.length c.curSessionRoundRobin with
  | none => none
  | some (i, cursor) =>
      match c.sessions[i]? with
      | none => none
      | some session => some (session, { c with curSessionRoundRobin := cursor })

/-- The loop of `getNextConnectedSessionRoundRobin`. -/
def searchConnected : Nat → IRCClient → Option SessionPtr → Option (Option SessionPtr × IRCClient)
  | 0, c, session => some (session, c)
  | fuel + 1, c, _ =>
      match c.getNextSessionRoundRobin with
      | none => none
      | some (session, c') =>
          let result := (c'.heap session).connected
          let c'' := c'.called session .connected result
          if result then some (some session, c'') else searchConnected fuel c'' (some session)

def getNextConnectedSessionRoundRobin (c : IRCClient) : Option (Option SessionPtr × IRCClient) :=
  searchConnected c.sessions.length c none

/-- A command sent on no session at all goes through a null pointer. -/
def joinToChannel (c : IRCClient) (env : Env) (name : String) (session : Option SessionPtr) :
    Option IRCClient :=
  if c.channels.inList name then some c
  else
    match session with
    | none => none
    | some session =>
        let sent := c.sendJoin env session name
        if sent.1 then
          let channel : Channel := { name := name }
          some { sent.2 with channels := sent.2.channels.addChannel (channel.attach session) }
        else some sent.2

/-- PART goes out on whatever session the channel has. -/
def leaveFromChannel (c : IRCClient) (env : Env) (name : String) : Option IRCClient :=
  match c.channels.extractChannel name with
  | (none, _) => some c
  | (some channel, channels) =>
      match channel.session with
      | none => none
      | some session => some ({ c with channels := channels }.sendPart env session name).2

def evtShutdown (c : IRCClient) : IRCClient := { c with deregistered := true }

/-- The attempt after one that has failed; the limit starts them again. -/
def nextAttempt (conConfig : IRCConnectionConfig) (attempt : Int) : Int :=
  if attempt + 1 = conConfig.connectAttempsLimit then 0 else attempt + 1

def evtConnect (c : IRCClient) (env : Env) (session : SessionPtr) (attempt : Int) : IRCClient :=
  let c := c.called session .connected (c.heap session).connected
  if (c.heap session).connected then c
  else
    let connected := c.connectSession env session
    if connected.1 then connected.2.sendDelayed (.loggedInCheck session)
    else connected.2.sendDelayed (.connect session (nextAttempt c.conConfig attempt))

/-- What a reload does to an old session. -/
def discardSession (c : IRCClient) (session : SessionPtr) : IRCClient :=
  ((c.called session .setPingTimer true).called session .disconnect true).updateSession session
    fun s => { s with pingTimer := false, connected := false }

/-- The sessions are replaced by those of the new configuration; delayed messages about
the old ones remain. -/
def evtReload (c : IRCClient) (env : Env) (config : IRCClientConfig) : IRCClient :=
  let c := { c with cliConfig := config }
  let c := c.sessions.foldl discardSession c
  let c := { c with sessions := [], channels := .load env.loadedChannels }
  c.addNewSessions env (startCount config)

/-- A session that is not logged in by now is disconnected. -/
def evtLoggedInCheck (c : IRCClient) (session : SessionPtr) : IRCClient :=
  let logged := (c.heap session).logged
  let c := c.called session .loggedIn logged
  if logged then c
  else (c.called session .onDisconnected true).sessionOnDisconnected session
    ("Login timeout: " ++ toString loginTimeoutMs ++ "ms")

def evtJoinChannel (c : IRCClient) (env : Env) (channel : String) : Option IRCClient :=
  match c.getNextConnectedSessionRoundRobin with
  | none => none
  | some (session, c) => c.joinToChannel env channel session

def evtLeaveChannel (c : IRCClient) (env : Env) (channel : String) : Option IRCClient :=
  c.leaveFromChannel env channel

/-- `sendMessage` and `sendRaw` of the client. -/
def sendOnNext (c : IRCClient) (env : Env) (command : Method) : Option IRCClient :=
  match c.getNextConnectedSessionRoundRobin with
  | none => none
  | some (none, _) => none
  | some (some session, c) => some (c.internalIrcSend env session command).2

def evtSendMessage (c : IRCClient) (env : Env) (channel text : String) : Option IRCClient :=
  c.sendOnNext env (.sendMessage channel text)

def evtSendIRC (c : IRCClient) (env : Env) (message : String) : Option IRCClient :=
  c.sendOnNext env (.sendRaw message)

def evtSendPING (c : IRCClient) (env : Env) (session : SessionPtr) (host : String) : IRCClient :=
  c.sendPing env session host

def evtGatherStats (c : IRCClient) : IRCClient :=
  let attached := c.channels.channels.entries.filterMap fun entry => entry.2.session
  let gets := attached.map fun session => { session := session, method := .getId, result := true }
  { c with calls := c.calls ++ gets : IRCClient }.publish
    (.clientChannelsMetrics c.cliConfig.nick
      (c.channels.dumpChannelsToSessionId fun session => (c.heap session).id))

def evtChannelJoined (c : IRCClient) (channel : String) : IRCClient :=
  { c with channels := c.channels.markChannelJoined channel }

/-- A channel of a check that is still not joined is parted and joined again. -/
def rejoin (env : Env) (session : SessionPtr) (c : IRCClient) (channel : String) : IRCClient :=
  ((c.sendPart env session channel).2.sendJoin env session channel).2

/-- Channels without an echo are joined again and checked again later. -/
def evtCheckJoinedChannels (c : IRCClient) (env : Env) (session : SessionPtr)
    (channels : List String) : IRCClient :=
  let rejoinList := c.channels.selectNotJoinedChannels channels
  if rejoinList = [] then c
  else
    (rejoinList.foldl (rejoin env session) c).sendDelayed
      (.checkJoinedChannels session rejoinList)

/-- `IRCSession::onLoggedIn` with `IRCClient::onLoggedIn`. -/
def onLoggedIn (c : IRCClient) (env : Env) (session : SessionPtr) : Option IRCClient :=
  let c := c.updateSession session fun s => { s with logged := true }
  match c.channels.reserveChannelsForSession c.cliConfig.sessionCount session with
  | none => none
  | some (reserved, channels) =>
      let c := { c with channels := channels }
      let c := reserved.foldl (fun c channel => (c.sendJoin env session channel).2) c
      let c := (c.called session .setPingTimer true).updateSession session fun s =>
        { s with pingTimer := true }
      some (c.sendDelayed (.checkJoinedChannels session reserved))

/-- The echo of a join, sent to the client's own queue. -/
def onJoined (c : IRCClient) (session : SessionPtr) (channel : String) : IRCClient :=
  c.send (.channelJoined session channel)

/-- The callback runs on the thread of the selector and writes the time alone. -/
def onPong (c : IRCClient) (session : SessionPtr) (now : Int) : IRCClient :=
  c.updateSession session fun s => { s with lastPongTime := now }

/-- What the client does with a message. -/
def handle (c : IRCClient) (env : Env) : Message → Option IRCClient
  | .connect session attempt => some (c.evtConnect env session attempt)
  | .loggedInCheck session => some (c.evtLoggedInCheck session)
  | .reload config => some (c.evtReload env config)
  | .shutdown => some c.evtShutdown
  | .joinChannel channel => c.evtJoinChannel env channel
  | .leaveChannel channel => c.evtLeaveChannel env channel
  | .sendPING session host => some (c.evtSendPING env session host)
  | .sendMessage channel text => c.evtSendMessage env channel text
  | .sendIRC message => c.evtSendIRC env message
  | .gatherStats => some c.evtGatherStats
  | .channelJoined _ channel => some (c.evtChannelJoined channel)
  | .checkJoinedChannels session channels =>
      some (c.evtCheckJoinedChannels env session channels)

/-- One step: a whole handler, a whole callback, or a timer.  Callbacks come from
sessions that were created, and a deregistered agent takes no more steps.  A
session that a reload has discarded stays readable here. -/
def step (c : IRCClient) (event : Event) : Option IRCClient :=
  let c := { c with calls := [] }
  if c.deregistered then none
  else
    match event with
    | .handle env =>
        match c.queue with
        | [] => none
        | message :: queue => { c with queue := queue }.handle env message
    | .expire i =>
        match c.delayed[i]? with
        | none => none
        | some message => some ({ c with delayed := c.delayed.eraseIdx i }.send message)
    | .pingTick session =>
        if (c.heap session).pingTimer then some (c.send (.sendPING session "tmi.twitch.tv"))
        else none
    | .statsTick => some (c.send .gatherStats)
    | .receive message => if message.external then some (c.send message) else none
    | .onLoggedIn session env => if session < c.allocated then c.onLoggedIn env session else none
    | .onDisconnected session reason =>
        if session < c.allocated then some (c.sessionOnDisconnected session reason) else none
    | .onJoined session channel =>
        if session < c.allocated then some (c.onJoined session channel) else none
    | .onPong session now => if session < c.allocated then some (c.onPong session now) else none

end IRCClient

/-- What the library and the session say about a connection. -/
structure Flags where
  connected : Bool := false
  logged : Bool := false
  pingTimer : Bool := false
deriving DecidableEq

/-- The part of a client that decides which session has which channel. -/
structure View where
  cliConfig : IRCClientConfig
  channels : IRCChannelList
  sessions : List SessionPtr
  allocated : Nat
  flags : SessionPtr → Flags

/-- The commands that change the channels of a session. -/
inductive Command where
  | join (channel : String)
  | part (channel : String)
deriving DecidableEq

def IRCSession.flags (s : IRCSession) : Flags := ⟨s.connected, s.logged, s.pingTimer⟩

/-- The JOIN or PART that the library has taken. -/
def Call.sent? : Call → Option (SessionPtr × Command)
  | ⟨session, .sendJoin channel, true⟩ => some (session, .join channel)
  | ⟨session, .sendPart channel, true⟩ => some (session, .part channel)
  | _ => none

namespace IRCClient

def view (c : IRCClient) : View :=
  ⟨c.cliConfig, c.channels, c.sessions, c.allocated, fun p => (c.heap p).flags⟩

/-- The JOINs and PARTs that have gone out in the last step. -/
def sent (c : IRCClient) : List (SessionPtr × Command) := c.calls.filterMap Call.sent?

/-- The message that an event takes from the queue. -/
def handled (c : IRCClient) : Event → Option Message
  | .handle _ => c.queue.head?
  | _ => none

@[simp] theorem view_called (c : IRCClient) (session : SessionPtr) (method : Method)
    (result : Bool) : (c.called session method result).view = c.view := rfl

@[simp] theorem queue_called (c : IRCClient) (session : SessionPtr) (method : Method)
    (result : Bool) : (c.called session method result).queue = c.queue := rfl

@[simp] theorem delayed_called (c : IRCClient) (session : SessionPtr) (method : Method)
    (result : Bool) : (c.called session method result).delayed = c.delayed := rfl

@[simp] theorem heap_called (c : IRCClient) (session : SessionPtr) (method : Method)
    (result : Bool) : (c.called session method result).heap = c.heap := rfl

@[simp] theorem calls_called (c : IRCClient) (session : SessionPtr) (method : Method)
    (result : Bool) :
    (c.called session method result).calls = c.calls ++ [⟨session, method, result⟩] := rfl

@[simp] theorem view_send (c : IRCClient) (message : Message) :
    (c.send message).view = c.view := rfl

@[simp] theorem queue_send (c : IRCClient) (message : Message) :
    (c.send message).queue = c.queue ++ [message] := rfl

@[simp] theorem delayed_send (c : IRCClient) (message : Message) :
    (c.send message).delayed = c.delayed := rfl

@[simp] theorem calls_send (c : IRCClient) (message : Message) :
    (c.send message).calls = c.calls := rfl

@[simp] theorem view_sendDelayed (c : IRCClient) (message : Message) :
    (c.sendDelayed message).view = c.view := rfl

@[simp] theorem queue_sendDelayed (c : IRCClient) (message : Message) :
    (c.sendDelayed message).queue = c.queue := rfl

@[simp] theorem delayed_sendDelayed (c : IRCClient) (message : Message) :
    (c.sendDelayed message).delayed = c.delayed ++ [message] := rfl

@[simp] theorem calls_sendDelayed (c : IRCClient) (message : Message) :
    (c.sendDelayed message).calls = c.calls := rfl

@[simp] theorem view_updateSession (c : IRCClient) (session : SessionPtr)
    (f : IRCSession → IRCSession) :
    (c.updateSession session f).view =
      { c.view with flags := Function.update c.view.flags session (f (c.heap session)).flags } := by
  simp only [view, updateSession, View.mk.injEq, true_and]
  funext p
  by_cases hp : p = session <;> simp [hp]

@[simp] theorem queue_updateSession (c : IRCClient) (session : SessionPtr)
    (f : IRCSession → IRCSession) : (c.updateSession session f).queue = c.queue := rfl

@[simp] theorem delayed_updateSession (c : IRCClient) (session : SessionPtr)
    (f : IRCSession → IRCSession) : (c.updateSession session f).delayed = c.delayed := rfl

@[simp] theorem calls_updateSession (c : IRCClient) (session : SessionPtr)
    (f : IRCSession → IRCSession) : (c.updateSession session f).calls = c.calls := rfl

end IRCClient

end TwitchChatWorker.IrcClient
