import TwitchChatWorker.HttpRequests

/-!
The agent `IRCController` with the clients that it has started.  Clients are
named by the order in which they were started.  A client that has deregistered
is destroyed some time later, and to use it then is undefined.
-/

namespace TwitchChatWorker.IrcController

open TwitchChatWorker.DBController
open TwitchChatWorker.HttpRequests
open TwitchChatWorker.IrcClient
open TwitchChatWorker.JsonValues
open TwitchChatWorker.Lib.Handlers
open TwitchChatWorker.Lib.OrderedMaps

abbrev ClientPtr := Nat

/-- `sent` lists the messages that were sent to clients, `metrics` those that
were passed on to the statistics, `destroyed` the clients that are not there any
more. -/
structure IRCController where
  config : IRCConnectionConfig
  ircClientsByName : OrderedMap String ClientPtr
  ircClientsById : OrderedMap Int ClientPtr
  clients : ClientPtr → IRCClient
  allocated : Nat
  sent : List (ClientPtr × Message)
  metrics : List (String × String × String)
  destroyed : List ClientPtr

/-- What can happen to the controller: a request, a message of a bot, a step of one of
its clients and the end of a client. -/
inductive Event where
  | http (env : Surroundings) (request : IrcRequest) (body : String)
  | sendMessage (user channel text : String)
  | client (p : ClientPtr) (event : IrcClient.Event)
  | destroy (p : ClientPtr)

namespace IRCController

/-- The client under the name. -/
def getIrcClient (c : IRCController) (name : String) : Option ClientPtr :=
  c.ircClientsByName.find? name

def getIrcClientById (c : IRCController) (id : Int) : Option ClientPtr :=
  c.ircClientsById.find? id

def nickname (c : IRCController) (p : ClientPtr) : String := (c.clients p).cliConfig.nick

/-- A message to the mailbox of the client. -/
def send (c : IRCController) (p : ClientPtr) (message : Message) : IRCController :=
  { c with
    clients := Function.update c.clients p ((c.clients p).send message)
    sent := c.sent ++ [(p, message)] }

/-- A client for the account, under its name and under its id. -/
def addNewIrcClient (env : Surroundings) (c : IRCController) (cliConfig : IRCClientConfig) :
    IRCController :=
  let ircClient := IRCClient.soEvtStart c.config cliConfig
    { now := env.now, loadedChannels := loadChannelsFor env.db cliConfig.id }
  { c with
    clients := Function.update c.clients c.allocated ircClient
    allocated := c.allocated + 1
    ircClientsByName := c.ircClientsByName.emplace cliConfig.nick c.allocated
    ircClientsById := c.ircClientsById.emplace cliConfig.id c.allocated }

def evtSendMessage (c : IRCController) (user channel text : String) : Option IRCController :=
  match c.getIrcClient user with
  | none => some c
  | some client =>
      if client ∈ c.destroyed then none
      else
        some { c.send client (.sendMessage channel text) with
          metrics := c.metrics ++ [(user, channel, text)] }

/-- To go through the pointer of a client. -/
def use (client : ClientPtr) : Serve IRCController Unit := do
  let c ← readState
  raise (if client ∈ c.destroyed then .error .undefined else .ok ())

def sendTo (client : ClientPtr) (message : Message) : Serve IRCController Unit := do
  use client
  update fun c => c.send client message

/-- The account is loaded and sent to its client. -/
def reloadEntry (env : Surroundings) (body : OrderedMap String Json) (entry : Int × ClientPtr) :
    Serve IRCController (OrderedMap String Json) := do
  ping env (accountRequest entry.1)
  let account := loadAccount env.db entry.1
  sendTo entry.2 (.reload account)
  return body.assign account.nick (.boolean true)

def evtHttpReload (env : Surroundings) : Serve IRCController Unit := do
  let c ← readState
  let body ← c.ircClientsById.entries.foldlM (reloadEntry env) .empty
  sendHttpResp 200 (.dumped (.object body.entries))

def customTo (data : String) (body : OrderedMap String Json) (key : String)
    (client : Option ClientPtr) : Serve IRCController (OrderedMap String Json) :=
  match client with
  | none => return body.assign key (.boolean false)
  | some client => do
      sendTo client (.sendIRC data)
      return body.assign key (.boolean true)

def customEntry (data : String) (body : OrderedMap String Json) (account : Json) :
    Serve IRCController (OrderedMap String Json) := do
  let c ← readState
  match account with
  | .string acc => customTo data body acc (c.getIrcClient acc)
  | .number id => customTo data body (toString id.getInt) (c.getIrcClientById id.getInt)
  | _ => return body

def evtHttpCustom (env : Surroundings) (body : String) : Serve IRCController Unit :=
  withJson env body fun req => do
    let data ← rethrow (req.member "data")
    match data with
    | .string data => do
        let accounts ← rethrow (req.member "accounts")
        match accounts with
        | .array accounts => do
            let body ← accounts.foldlM (customEntry data) .empty
            sendHttpResp 200 (.dumped (.object body.entries))
        | _ => sendHttpResp 400 (resp "Invalid accounts type")
    | _ => sendHttpResp 400 (resp "Invalid data type")

/-- Channels that are not strings are passed over. -/
def joinEntry (client : ClientPtr) (body : OrderedMap String Json) (channel : Json) :
    Serve IRCController (OrderedMap String Json) :=
  match channel with
  | .string chan => do
      sendTo client (.joinChannel chan)
      return body.assign chan (.object [("joined", .boolean true)])
  | _ => return body

def joinChannels (req : Json) (client : Option ClientPtr) : Serve IRCController Unit :=
  match client with
  | none => sendHttpResp 404 (resp "Account not found")
  | some client => do
      let channels ← rethrow (req.member "channels")
      match channels with
      | .array channels => do
          let body ← channels.foldlM (joinEntry client) .empty
          sendHttpResp 200 (.dumped (.object body.entries))
      | _ => sendHttpResp 400 (resp "Invalid channels type")

def evtHttpChannelJoin (env : Surroundings) (body : String) : Serve IRCController Unit :=
  withJson env body fun req => do
    let account ← rethrow (req.member "account")
    let c ← readState
    match account with
    | .string name => joinChannels req (c.getIrcClient name)
    | .number id => joinChannels req (c.getIrcClientById id.getInt)
    | _ => sendHttpResp 400 (resp "Invalid accounts type")

/-- Tell every client that has a name to leave the channel. -/
def leaveAll (chan : String) : Serve IRCController Unit := do
  let c ← readState
  c.ircClientsByName.entries.foldlM (fun _ entry => sendTo entry.2 (.leaveChannel chan)) ()

def leaveEntry (body : OrderedMap String Json) (channel : Json) :
    Serve IRCController (OrderedMap String Json) :=
  match channel with
  | .string chan => do
      leaveAll chan
      return body.assign chan (.object [("leaved", .boolean true)])
  | _ => return body

def evtHttpChannelLeave (env : Surroundings) (body : String) : Serve IRCController Unit :=
  withJson env body fun req => do
    let channels ← rethrow (req.member "channels")
    match channels with
    | .array channels => do
        let body ← channels.foldlM leaveEntry .empty
        sendHttpResp 200 (.dumped (.object body.entries))
    | _ => sendHttpResp 400 (resp "Invalid channels type")

/-- The client that `account` names, by its name or by its id. -/
def messageClient (c : IRCController) : Json → Option ClientPtr
  | .string name => c.getIrcClient name
  | .number id => c.getIrcClientById id.getInt
  | _ => none

def messageEntry (client : ClientPtr) (text : String) (accountBody : OrderedMap String Json)
    (channel : Json) : Serve IRCController (OrderedMap String Json) := do
  let chan ← rethrow channel.getString
  sendTo client (.sendMessage chan text)
  return accountBody.assign chan (.boolean true)

def messageAccount (text : String) (channels : List Json) (body : OrderedMap String Json)
    (account : Json) : Serve IRCController (OrderedMap String Json) := do
  let c ← readState
  match c.messageClient account with
  | none => return body
  | some client => do
      use client
      let accountBody ← channels.foldlM (messageEntry client text) .empty
      return body.assign (c.nickname client) (.object accountBody.entries)

def evtHttpChannelMessage (env : Surroundings) (body : String) : Serve IRCController Unit :=
  withJson env body fun req => do
    let text ← rethrow (req.member "text")
    match text with
    | .string text => do
        let accounts ← rethrow (req.member "accounts")
        match accounts with
        | .array accounts => do
            let channels ← rethrow (req.member "channels")
            match channels with
            | .array channels => do
                let body ← accounts.foldlM (messageAccount text channels) .empty
                sendHttpResp 200 (.dumped (.object body.entries))
            | _ => sendHttpResp 400 (resp "Invalid channels type")
        | _ => sendHttpResp 400 (resp "Invalid accounts type")
    | _ => sendHttpResp 400 (resp "Invalid text type")

def accountBody (id : Int) (result : String) : Body :=
  .dumped (.object [("id", .number (.integer id)), ("result", .string result)])

def evtHttpAccountAdd (env : Surroundings) (body : String) : Serve IRCController Unit :=
  withId env body "Wrong account id" fun id => do
    let c ← readState
    match c.getIrcClientById id with
    | some _ => sendHttpResp 403 (resp "Account already added")
    | none => do
        ping env (accountRequest id)
        let account := loadAccount env.db id
        if account.id = 0 then sendHttpResp 404 (resp "Account not found in db")
        else do
          update fun c => addNewIrcClient env c account
          sendHttpResp 200 (accountBody id "Account added")

/-- The name is looked up in the configuration the client has now. -/
def removeClient (id : Int) (client : ClientPtr) (c : IRCController) : IRCController :=
  let c := { c with ircClientsByName := c.ircClientsByName.erase (c.nickname client) }
  let c := c.send client .shutdown
  { c with ircClientsById := c.ircClientsById.erase id }

def evtHttpAccountRemove (env : Surroundings) (body : String) : Serve IRCController Unit :=
  withId env body "Wrong account id" fun id => do
    let c ← readState
    match c.getIrcClientById id with
    | none => sendHttpResp 404 (resp "Account not found")
    | some client => do
        use client
        update (removeClient id client)
        sendHttpResp 200 (accountBody id "Account removed")

def evtHttpAccountReload (env : Surroundings) (body : String) : Serve IRCController Unit :=
  withId env body "Wrong account id" fun id => do
    let c ← readState
    match c.getIrcClientById id with
    | none => sendHttpResp 404 (resp "Account not found")
    | some client => do
        use client
        ping env (accountRequest id)
        update fun c => c.send client (.reload (loadAccount env.db id))
        sendHttpResp 200 (accountBody id "Account reloaded")

def evtHttp (env : Surroundings) (body : String) : IrcRequest → Serve IRCController Unit
  | .reload => evtHttpReload env
  | .custom => evtHttpCustom env body
  | .channelJoin => evtHttpChannelJoin env body
  | .channelLeave => evtHttpChannelLeave env body
  | .channelMessage => evtHttpChannelMessage env body
  | .accountAdd => evtHttpAccountAdd env body
  | .accountRemove => evtHttpAccountRemove env body
  | .accountReload => evtHttpAccountReload env body

/-- The controller once it has started, with a client for each account. -/
def soEvtStart (config : IRCConnectionConfig) (env : Surroundings) : IRCController :=
  (loadAccounts env.db).foldl (addNewIrcClient env)
    { config := config
      ircClientsByName := .empty
      ircClientsById := .empty
      clients := fun _ => IRCClient.soEvtStart config {} {}
      allocated := 0
      sent := []
      metrics := []
      destroyed := [] }

/-- A client takes the step without a message from another agent. -/
def ownStep : IrcClient.Event → Bool
  | .receive _ => false
  | _ => true

/-- One step: a request, a message of a bot, a step of a client by itself, or its
end.  A handler is one step, and a step that is not defined is none. -/
def step (c : IRCController) : Event → Option IRCController
  | .http env request body =>
      match evtHttp env body request ⟨c, []⟩ with
      | .ok _ served => some served.state
      | .error _ _ => none
  | .sendMessage user channel text => c.evtSendMessage user channel text
  | .client p event =>
      if p < c.allocated ∧ ownStep event = true then
        ((c.clients p).step event).map fun client =>
          { c with clients := Function.update c.clients p client }
      else none
  | .destroy p =>
      if p < c.allocated ∧ (c.clients p).deregistered = true ∧ p ∉ c.destroyed then
        some { c with destroyed := c.destroyed ++ [p] }
      else none

theorem cliConfig_send (c : IRCController) (p q : ClientPtr) (m : Message) :
    ((c.send p m).clients q).cliConfig = (c.clients q).cliConfig := by
  by_cases hq : q = p
  · subst hq
    simp [send, IRCClient.send]
  · simp [send, hq]

theorem nickname_send (c : IRCController) (p q : ClientPtr) (m : Message) :
    (c.send p m).nickname q = c.nickname q :=
  congrArg IRCClientConfig.nick (cliConfig_send c p q m)

section Rules

variable {inv : IRCController → Prop} {s : Serving IRCController Response}
  {post : Unit → Serving IRCController Response → Prop}

theorem wp_use {client : ClientPtr} :
    wp False (use client) s post ↔ client ∉ s.state.destroyed ∧ post () s := by
  rw [use, wp_bind, wp_readState]
  by_cases hgone : client ∈ s.state.destroyed
  · simp [hgone, wp_raise_error]
  · simp [hgone, wp_raise_ok]

theorem wp_sendTo {client : ClientPtr} {message : Message} :
    wp False (sendTo client message) s post ↔
      client ∉ s.state.destroyed ∧ post () ⟨s.state.send client message, s.responses⟩ := by
  rw [sendTo, wp_bind, wp_use]
  rfl

theorem wp_use_of {client : ClientPtr} (h : post () s) : wp True (use client) s post := by
  rw [use, wp_bind, wp_readState]
  by_cases hgone : client ∈ s.state.destroyed
  · simp [hgone, wp_raise_error]
  · simpa [hgone, wp_raise_ok] using h

theorem wp_sendTo_of {client : ClientPtr} {message : Message}
    (h : post () ⟨s.state.send client message, s.responses⟩) :
    wp True (sendTo client message) s post := by
  rw [sendTo, wp_bind]
  exact wp_use_of h

theorem keeps_use (client : ClientPtr) : Keeps inv (use client) :=
  keeps_readState_bind fun _ => keeps_raise _

theorem keeps_sendTo {client : ClientPtr} {message : Message}
    (hsend : ∀ c, inv c → inv (c.send client message)) : Keeps inv (sendTo client message) :=
  (keeps_use client).bind fun _ => ensures_update hsend

theorem keeps_leaveAll {chan : String}
    (hsend : ∀ c p, inv c → inv (c.send p (.leaveChannel chan))) : Keeps inv (leaveAll chan) :=
  keeps_readState_bind fun _ => keeps_foldlM fun entry _ _ =>
    keeps_sendTo fun c => hsend c entry.2

end Rules

end IRCController

end TwitchChatWorker.IrcController
