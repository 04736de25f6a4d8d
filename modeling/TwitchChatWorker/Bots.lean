import Mathlib.Logic.Function.Basic
import TwitchChatWorker.HttpRequests

/-!
The agent `BotsEnvironment` with the `BotEngine` agents that it has started.
Bots are named by the order in which they were started.  A mailbox is named by
its channel and delivers to every bot that has subscribed to it.
-/

namespace TwitchChatWorker.Bots

open TwitchChatWorker.DBController
open TwitchChatWorker.HttpRequests
open TwitchChatWorker.JsonValues
open TwitchChatWorker.Lib.Handlers
open TwitchChatWorker.Lib.OrderedMaps

/-- The place of a bot among all that were started. -/
abbrev BotPtr := Nat

/-- The channel that names a mailbox. -/
abbrev Mbox := String

/-- What the bots get of a `Chat::Message`. -/
structure ChatMessage where
  user : String
  channel : String
  text : String
  valid : Bool
deriving DecidableEq

/-- The messages of a bot. -/
inductive BotMessage where
  | shutdown
  | reload (config : BotConfiguration)
  | message (msg : ChatMessage)
deriving DecidableEq

/-- A message that is not from the chat. -/
def BotMessage.control : BotMessage → Bool
  | .message _ => false
  | _ => true

/-- `HandlerType` of a type id from the database. -/
inductive HandlerType where
  | lua | command | unknown
deriving DecidableEq

def HandlerType.ofId (typeId : Int) : HandlerType :=
  if typeId = 1 then .lua else if typeId = 2 then .command else .unknown

/-- The fields of a handler of the type Command. -/
structure BotMessageEventHandlerCommand where
  id : Int
  valid : Bool
  command : String
  user : String
  text : String
  mention : Bool

/-- The patterns stand for the regular expressions made of them. -/
structure BotMessageEventHandlerLua where
  id : Int
  valid : Bool
  script : String
  text : String
  user : String

inductive BotMessageEventHandler where
  | command (handler : BotMessageEventHandlerCommand)
  | lua (handler : BotMessageEventHandlerLua)

/-- The members `text` and `user` of the route. -/
def routeTexts (route : Json) : Except TypeError (String × String) :=
  match route with
  | .null => .ok ("", "")
  | route => do
      let t ← route.member "text"
      let u ← route.member "user"
      return (t.stringOrEmpty, u.stringOrEmpty)

/-- The member `mention` of the parameters. -/
def paramsMention (params : Json) : Except TypeError Bool :=
  match params with
  | .null => .ok false
  | params => do
      let m ← params.member "mention"
      return m.isTrue

/-- The constructor of `BotMessageEventHandlerCommand`. -/
def newCommand (parse : String → Option Json) (cfg : EventHandlerConfiguration) :
    Except TypeError BotMessageEventHandlerCommand :=
  match parse cfg.additional with
  | none => .ok ⟨cfg.id, false, "", "", cfg.text, false⟩
  | some add =>
      if cfg.text = "" then .ok ⟨cfg.id, false, "", "", cfg.text, false⟩
      else do
        let route ← add.member "route"
        let texts ← routeTexts route
        let params ← add.member "params"
        let mention ← paramsMention params
        return ⟨cfg.id, decide (texts.1 ≠ ""), texts.1, texts.2, cfg.text, mention⟩

/-- The constructor of `BotMessageEventHandlerLua`. -/
def newLua (parse : String → Option Json) (cfg : EventHandlerConfiguration) :
    Except TypeError BotMessageEventHandlerLua :=
  match parse cfg.additional with
  | none => .ok ⟨cfg.id, false, cfg.text, "", ""⟩
  | some add => do
      let route ← add.member "route"
      let texts ← routeTexts route
      return ⟨cfg.id, true, cfg.text, texts.1, texts.2⟩

/-- The handler of an entry, none for an unknown type. -/
def emplaceHandler (parse : String → Option Json) (cfg : EventHandlerConfiguration) :
    Except TypeError (List BotMessageEventHandler) :=
  match HandlerType.ofId cfg.typeId with
  | .lua => do return [.lua (← newLua parse cfg)]
  | .command => do return [.command (← newCommand parse cfg)]
  | .unknown => .ok []

/-- The handlers of a configuration in order; the first exception ends the loop. -/
def loadHandlers (parse : String → Option Json) :
    List EventHandlerConfiguration → Except TypeError (List BotMessageEventHandler)
  | [] => .ok []
  | cfg :: cfgs => do
      let handler ← emplaceHandler parse cfg
      let handlers ← loadHandlers parse cfgs
      return handler ++ handlers

/-- `handled` lists the messages that the bot gave to its handlers. -/
structure BotEngine where
  self : Mbox := ""
  config : BotConfiguration := {}
  massageHandlers : List BotMessageEventHandler := []
  inbox : List BotMessage := []
  handled : List ChatMessage := []
  deregistered : Bool := false

namespace BotEngine

/-- A message of the bot's own account is ignored to avoid looping. -/
def evtBotMessage (bot : BotEngine) (msg : ChatMessage) : BotEngine :=
  if msg.user = bot.config.account then bot
  else { bot with handled := bot.handled ++ [msg] }

def evtShutdown (bot : BotEngine) : BotEngine := { bot with deregistered := true }

def evtReload (env : Surroundings) (bot : BotEngine) (config : BotConfiguration) :
    Except TypeError BotEngine := do
  let massageHandlers ← loadHandlers env.parse config.handlers
  return { bot with config := config, massageHandlers := massageHandlers }

/-- What a bot does with the next message of its inbox. -/
def handle (env : Surroundings) (bot : BotEngine) : BotMessage → Except TypeError BotEngine
  | .shutdown => .ok bot.evtShutdown
  | .reload config => bot.evtReload env config
  | .message msg => .ok (bot.evtBotMessage msg)

/-- Take the next message out of the inbox; an exception ends the program. -/
def step (env : Surroundings) (bot : BotEngine) : Option BotEngine :=
  if bot.deregistered then none
  else
    match bot.inbox with
    | [] => none
    | m :: inbox => ({ bot with inbox := inbox }.handle env m).toOption

end BotEngine

structure BotsEnvironment where
  ignoreUsers : List String
  botsById : OrderedMap Int BotPtr
  botBoxes : OrderedMap String Mbox
  bots : BotPtr → BotEngine
  allocated : Nat

inductive Event where
  | http (env : Surroundings) (request : BotRequest) (body : String)
  | chatMessage (msg : ChatMessage)
  | bot (env : Surroundings) (p : BotPtr)

namespace BotsEnvironment

/-- The bot is one of those that the environment knows by id. -/
def registered (e : BotsEnvironment) (p : BotPtr) : Bool :=
  e.botsById.entries.any fun entry => decide (entry.2 = p)

def send (e : BotsEnvironment) (p : BotPtr) (m : BotMessage) : BotsEnvironment :=
  { e with
    bots := Function.update e.bots p { e.bots p with inbox := (e.bots p).inbox ++ [m] } }

/-- A message for a mailbox goes to all that have subscribed to it. -/
def publish (e : BotsEnvironment) (box : Mbox) (m : BotMessage) : BotsEnvironment :=
  { e with
    bots := fun p =>
      if p < e.allocated ∧ (e.bots p).deregistered = false ∧ (e.bots p).self = box then
        { e.bots p with inbox := (e.bots p).inbox ++ [m] }
      else e.bots p }

/-- A mailbox for the channel is made unless there is one. -/
def addBox (channel : String) (e : BotsEnvironment) : BotsEnvironment :=
  match e.botBoxes.find? channel with
  | some _ => e
  | none => { e with botBoxes := e.botBoxes.emplace channel channel }

def introduceBot (config : BotConfiguration) (handlers : List BotMessageEventHandler)
    (e : BotsEnvironment) : BotsEnvironment :=
  let bot : BotEngine :=
    { self := (e.botBoxes.find? config.channel).getD config.channel
      config := config
      massageHandlers := handlers }
  { e with
    bots := Function.update e.bots e.allocated bot
    allocated := e.allocated + 1
    botsById := e.botsById.emplace config.botId e.allocated }

def addBot (env : Surroundings) (config : BotConfiguration) : Serve BotsEnvironment Unit := do
  update (addBox config.channel)
  let handlers ← rethrow (loadHandlers env.parse config.handlers)
  update (introduceBot config handlers)

def evtChatMessage (e : BotsEnvironment) (msg : ChatMessage) : BotsEnvironment :=
  if msg.valid = false then e
  else if msg.user ∈ e.ignoreUsers then e
  else
    match e.botBoxes.find? msg.channel with
    | none => e
    | some box => e.publish box (.message msg)

/-- The body of an answer about one bot. -/
def botBody (key : String) (id : Int) (result : String) : Body :=
  .dumped (.object [(key, .number (.integer id)), ("result", .string result)])

def evtHttpAdd (env : Surroundings) (body : String) : Serve BotsEnvironment Unit :=
  withId env body "Wrong bot id" fun id => do
    let e ← readState
    match e.botsById.find? id with
    | some _ => sendHttpResp 403 (resp "Bot already added")
    | none => do
        ping env (botConfigurationRequest id)
        let config := loadBotConfiguration env.db id
        if config.botId = 0 then sendHttpResp 404 (resp "Bot not found in DB")
        else do
          addBot env config
          sendHttpResp 200 (botBody "id" config.botId "Bot added")

/-- Shut a bot down and forget it; its mailbox stays. -/
def removeBot (id : Int) (bot : BotPtr) (e : BotsEnvironment) : BotsEnvironment :=
  let e := e.send bot .shutdown
  { e with botsById := e.botsById.erase id }

def evtHttpRemove (env : Surroundings) (body : String) : Serve BotsEnvironment Unit :=
  withId env body "Wrong bot id" fun id => do
    let e ← readState
    match e.botsById.find? id with
    | none => sendHttpResp 404 (resp "Bot not found")
    | some bot => do
        update (removeBot id bot)
        sendHttpResp 200 (botBody "botId" id "Bot removed")

def evtHttpReload (env : Surroundings) (body : String) : Serve BotsEnvironment Unit :=
  withId env body "Wrong bot id" fun id => do
    let e ← readState
    match e.botsById.find? id with
    | none => sendHttpResp 404 (resp "Bot not found")
    | some bot => do
        ping env (botConfigurationRequest id)
        let config := loadBotConfiguration env.db id
        if config.botId = 0 then sendHttpResp 404 (resp "Bot not found in DB")
        else do
          update fun e => e.send bot (.reload config)
          sendHttpResp 200 (botBody "botId" id "Bot reloaded")

/-- A turn of the loop of `evtHttpReloadAll`. -/
def reloadEntry (env : Surroundings) (entry : Int × BotConfiguration) :
    Serve BotsEnvironment Unit := do
  let e ← readState
  match e.botsById.find? entry.1 with
  | none => addBot env entry.2
  | some bot => update fun e => e.send bot (.reload entry.2)

def evtHttpReloadAll (env : Surroundings) : Serve BotsEnvironment Unit := do
  ping env (botConfigurationsRequest ++ ";")
  (loadBotConfigurations env.db).entries.foldlM (fun _ entry => reloadEntry env entry) ()
  sendHttpResp 200 (resp "Reloaded")

def evtHttp (env : Surroundings) (body : String) : BotRequest → Serve BotsEnvironment Unit
  | .add => evtHttpAdd env body
  | .remove => evtHttpRemove env body
  | .reload => evtHttpReload env body
  | .reloadall => evtHttpReloadAll env

/-- The bots of the start; an exception ends the program. -/
def soEvtStart (env : Surroundings) : Option BotsEnvironment :=
  let start : BotsEnvironment :=
    { ignoreUsers := loadServiceAccountsNicknames env.db
      botsById := .empty
      botBoxes := .empty
      bots := fun _ => {}
      allocated := 0 }
  let bots : Serve BotsEnvironment Unit :=
    (loadBotConfigurations env.db).entries.foldlM (fun _ entry => addBot env entry.2) ()
  match bots ⟨start, []⟩ with
  | .ok _ served => some served.state
  | .error _ _ => none

def step (e : BotsEnvironment) : Event → Option BotsEnvironment
  | .http env request body =>
      match evtHttp env body request ⟨e, []⟩ with
      | .ok _ served => some served.state
      | .error _ _ => none
  | .chatMessage msg => some (e.evtChatMessage msg)
  | .bot env p =>
      if p < e.allocated then
        ((e.bots p).step env).map fun bot => { e with bots := Function.update e.bots p bot }
      else none

end BotsEnvironment

end TwitchChatWorker.Bots
