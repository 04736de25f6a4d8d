import TwitchChatWorker.BotReplies

/-!
What a bot sends when it handles a message of the chat
(`BotMessageEventHandlerCommand`, `BotMessageEventHandlerLua`).  The libraries
decide whether a pattern matches and what a script asks for.  A script keeps its
globals, so an answer belongs to one run of one handler.
-/

namespace TwitchChatWorker.BotHandlers

open TwitchChatWorker.BotReplies
open TwitchChatWorker.Bots
open TwitchChatWorker.DBController

/-- `engine.send` and `engine.log`. -/
inductive ScriptCall where
  | send (text : String)
  | log (text : String)

/-- The answers of the libraries while a bot handles one message: the error of
a pattern, whether it is found in a text, and for each handler what its script
calls and the error that ends the script. -/
structure Libraries where
  error : String → String := fun _ => ""
  partialMatch : String → String → Bool := fun _ _ => false
  safeScript : Nat → List ScriptCall × Option String := fun _ => ([], none)

/-- `Bot::LogMessage`. -/
structure LogMessage where
  userId : Int
  botId : Int
  handlerId : Int
  text : String
deriving DecidableEq

/-- What a handler sends: to the message sender and to the bot logger. -/
inductive Output where
  | sendMessage (m : SendMessage)
  | logMessage (m : LogMessage)
deriving DecidableEq

def log (config : BotConfiguration) (handlerId : Int) (text : String) : Output :=
  .logMessage ⟨config.userId, config.botId, handlerId, text⟩

/-- `BotMessageEventHandlerCommand::handleBotMessage`: what is sent is logged. -/
def handleBotMessageCommand (handler : BotMessageEventHandlerCommand) (config : BotConfiguration)
    (msg : ChatMessage) : List Output :=
  match handleCommand handler config msg with
  | none => []
  | some m => [.sendMessage m, log config handler.id m.text]

/-- No pattern matches everything, a pattern with an error nothing. -/
def matchPattern (libraries : Libraries) (pattern text : String) : Bool :=
  pattern = "" || (libraries.error pattern = "" && libraries.partialMatch pattern text)

/-- `BotMessageEventHandlerLua::match`. -/
def matchLua (libraries : Libraries) (handler : BotMessageEventHandlerLua) (msg : ChatMessage) :
    Bool :=
  handler.valid && matchPattern libraries handler.text msg.text &&
    matchPattern libraries handler.user msg.user

/-- What a call of a script makes the bot send. -/
def scriptOutput (config : BotConfiguration) (handlerId : Int) : ScriptCall → Output
  | .send text => .sendMessage ⟨config.account, config.channel, text⟩
  | .log text => log config handlerId text

/-- `BotMessageEventHandlerLua::handleBotMessage`: what the script called before
an error has been sent already. -/
def handleBotMessageLua (libraries : Libraries) (index : Nat)
    (handler : BotMessageEventHandlerLua) (config : BotConfiguration) (msg : ChatMessage) :
    List Output :=
  if matchLua libraries handler msg then
    let result := libraries.safeScript index
    result.1.map (scriptOutput config handler.id) ++
      (result.2.map (log config handler.id)).toList
  else []

/-- What a handler sends, with its place among the handlers. -/
def handleBotMessage (libraries : Libraries) (config : BotConfiguration) (msg : ChatMessage) :
    BotMessageEventHandler × Nat → List Output
  | (.command handler, _) => handleBotMessageCommand handler config msg
  | (.lua handler, index) => handleBotMessageLua libraries index handler config msg

/-- `BotEngine::evtBotMessage`. -/
def outputs (libraries : Libraries) (bot : BotEngine) (msg : ChatMessage) : List Output :=
  if msg.user = bot.config.account then []
  else bot.massageHandlers.zipIdx.flatMap (handleBotMessage libraries bot.config msg)

def Output.sendMessage? : Output → Option SendMessage
  | .sendMessage m => some m
  | .logMessage _ => none

def Output.logMessage? : Output → Option LogMessage
  | .sendMessage _ => none
  | .logMessage m => some m

/-- The messages among the output. -/
def sends (out : List Output) : List SendMessage := out.filterMap Output.sendMessage?

/-- The log records among the output. -/
def logs (out : List Output) : List LogMessage := out.filterMap Output.logMessage?

/-- An output speaks for the bot whatever its handlers are. -/
def Output.Of (config : BotConfiguration) : Output → Prop
  | .sendMessage m => m.user = config.account ∧ m.channel = config.channel
  | .logMessage m => m.userId = config.userId ∧ m.botId = config.botId

theorem output_of_handler {libraries : Libraries} {config : BotConfiguration} {msg : ChatMessage}
    {entry : BotMessageEventHandler × Nat} {output : Output}
    (h : output ∈ handleBotMessage libraries config msg entry) : output.Of config := by
  rcases entry with ⟨handler | handler, index⟩
  · simp only [handleBotMessage, handleBotMessageCommand] at h
    split at h
    · simp at h
    next m hm =>
      simp only [handleCommand] at hm
      split_ifs at hm
      obtain rfl := Option.some.inj hm
      rcases List.mem_pair.mp h with rfl | rfl <;> exact ⟨rfl, rfl⟩
  · simp only [handleBotMessage, handleBotMessageLua] at h
    split_ifs at h
    · rcases List.mem_append.mp h with h | h
      · obtain ⟨call, -, rfl⟩ := List.mem_map.mp h
        cases call <;> exact ⟨rfl, rfl⟩
      · obtain ⟨error, -, rfl⟩ := Option.map_eq_some_iff.mp (Option.mem_toList.mp h)
        exact ⟨rfl, rfl⟩
    · simp at h

theorem output_of_bot {libraries : Libraries} {bot : BotEngine} {msg : ChatMessage}
    {output : Output} (h : output ∈ outputs libraries bot msg) :
    msg.user ≠ bot.config.account ∧ output.Of bot.config := by
  simp only [outputs] at h
  split_ifs at h with hown
  · simp at h
  · obtain ⟨entry, -, hentry⟩ := List.mem_flatMap.mp h
    exact ⟨hown, output_of_handler hentry⟩

/-- Bots without scripts send what `BotReplies` says. -/
theorem sends_outputs_of_commands (libraries : Libraries) {bot : BotEngine}
    (hcommands : ∀ handler ∈ bot.massageHandlers, ∃ command, handler = .command command)
    (msg : ChatMessage) : sends (outputs libraries bot msg) = sent bot msg := by
  simp only [outputs, sent]
  split_ifs
  · rfl
  · have hall (handlers : List BotMessageEventHandler)
        (h : ∀ handler ∈ handlers, ∃ command, handler = .command command) (index : Nat) :
        sends ((handlers.zipIdx index).flatMap (handleBotMessage libraries bot.config msg)) =
          handlers.filterMap (commandReply bot.config msg) := by
      induction handlers generalizing index with
      | nil => rfl
      | cons handler handlers ih =>
          rw [List.forall_mem_cons] at h
          obtain ⟨⟨command, rfl⟩, hrest⟩ := h
          rw [List.zipIdx_cons, List.flatMap_cons, sends, List.filterMap_append]
          have htail := ih hrest (index + 1)
          rw [sends] at htail
          rw [htail, List.filterMap_cons]
          simp only [handleBotMessage, handleBotMessageCommand, commandReply]
          cases handleCommand command bot.config msg <;> rfl
    exact hall bot.massageHandlers hcommands 0

end TwitchChatWorker.BotHandlers
