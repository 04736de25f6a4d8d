import TwitchChatWorker.Bots
import TwitchChatWorker.IrcController
import TwitchChatWorker.Statistics

/-!
From the target of a request to the agent that handles it.  Every kind of
request has one agent.
-/

namespace TwitchChatWorker.HttpController

open TwitchChatWorker.Bots
open TwitchChatWorker.HttpRequests
open TwitchChatWorker.IrcClient
open TwitchChatWorker.IrcController
open TwitchChatWorker.JsonValues
open TwitchChatWorker.Lib.Handlers
open TwitchChatWorker.Statistics

/-- White space of ASCII. -/
def asciiSpace (c : Char) : Bool :=
  c = ' ' || c = '\t' || c = '\n' || c = '\x0b' || c = '\x0c' || c = '\r'

/-- `StrSplit` at the slashes with `SkipWhitespace`. -/
def path (target : String) : List String :=
  ((target.toList.splitOn '/').filter fun piece => !piece.all asciiSpace).map String.ofList

/-- A request goes to an agent or is answered at once. -/
inductive Routed where
  | answered (response : Response)
  | sent (request : Hreq)

/-- An answer of the controller itself. -/
def errorResponse (status : Nat) (error : String) : Response :=
  ⟨status, .dumped (.object [("error", .string error)])⟩

def statsRequest : String → Option StatsRequest
  | "irc" => some .irc
  | "account" => some .account
  | "channel" => some .channel
  | "bot" => some .bot
  | "storage" => some .storage
  | "db" => some .db
  | "so5disp" => some .so5disp
  | _ => none

def ircChannelRequest : String → Option IrcRequest
  | "join" => some .channelJoin
  | "leave" => some .channelLeave
  | "message" => some .channelMessage
  | _ => none

def ircAccountRequest : String → Option IrcRequest
  | "reload" => some .accountReload
  | "add" => some .accountAdd
  | "remove" => some .accountRemove
  | _ => none

def ircRequest (second : String) (rest : List String) : Option IrcRequest :=
  match second, rest with
  | "reload", _ => some .reload
  | "custom", _ => some .custom
  | "channel", third :: _ => ircChannelRequest third
  | "account", third :: _ => ircAccountRequest third
  | _, _ => none

def appRequest : String → Option AppRequest
  | "shutdown" => some .shutdown
  | "version" => some .version
  | _ => none

def botRequest : String → Option BotRequest
  | "add" => some .add
  | "remove" => some .remove
  | "reload" => some .reload
  | "reloadall" => some .reloadall
  | _ => none

/-- The request that the first parts of a path name. -/
def hreq (first second : String) (rest : List String) : Option Hreq :=
  match first with
  | "stats" => (statsRequest second).map .stats
  | "irc" => (ircRequest second rest).map .irc
  | "app" => (appRequest second).map .app
  | "bot" => (botRequest second).map .bot
  | _ => none

/-- `handleRequest`: answer at once, or send a message to the listeners. -/
def route (target : String) : Routed :=
  match path target with
  | first :: second :: rest =>
      match hreq first second rest with
      | some request => .sent request
      | none =>
          .answered (errorResponse 404 ("Failed to find resource '" ++ target ++ "'"))
  | _ => .answered (errorResponse 400 "Invalid path")

/-- The agents that listen to requests; `terminated` is the flag of the service. -/
structure Service where
  irc : IRCController
  bots : BotsEnvironment
  stats : StatsCollector
  terminated : Bool

/-- The agents that the start of `Controller` introduces; an exception ends the
program. -/
def Service.soEvtStart (config : IRCConnectionConfig) (env : Surroundings) : Option Service :=
  (BotsEnvironment.soEvtStart env).map fun bots =>
    ⟨IRCController.soEvtStart config env, bots, {}, false⟩

def evtHttpApp (env : Surroundings) : AppRequest → Serve Bool Unit
  | .shutdown => do
      sendHttpResp 200 (resp "Terminating")
      update fun _ => true
  | .version => sendHttpResp 200 (.dumped (.object [("version", .string env.version)]))

/-- A response is dumped before it is sent. -/
def dump {α : Type} (result : α × List Response) : Except Fault (α × List Response) :=
  if result.2.all fun response => response.body.encodable then .ok result
  else .error (.thrown .notUtf8)

/-- A handler works on its part of the service, and what it sends is dumped. -/
def runOn {σ : Type} (s : σ) (put : σ → Service) (h : Serve σ Unit) :
    Except Fault (Service × List Response) :=
  match h ⟨s, []⟩ with
  | .ok _ served => dump (put served.state, served.responses)
  | .error fault _ => .error fault

/-- The agent of a request handles it. -/
def dispatch (env : Surroundings) (s : Service) (body : String) :
    Hreq → Except Fault (Service × List Response)
  | .app request =>
      runOn s.terminated (fun terminated => { s with terminated }) (evtHttpApp env request)
  | .bot request =>
      runOn s.bots (fun bots => { s with bots }) (BotsEnvironment.evtHttp env body request)
  | .stats request =>
      runOn s.stats (fun stats => { s with stats }) (StatsCollector.evtHttp env body request)
  | .irc request =>
      runOn s.irc (fun irc => { s with irc }) (IRCController.evtHttp env body request)

def handleRequest (env : Surroundings) (s : Service) (target body : String) :
    Except Fault (Service × List Response) :=
  match route target with
  | .answered response => dump (s, [response])
  | .sent request => dispatch env s body request

end TwitchChatWorker.HttpController
