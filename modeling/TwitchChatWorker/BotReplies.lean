import Mathlib.Data.Finset.Basic
import TwitchChatWorker.Bots
import TwitchChatWorker.Lib.Cascades

/-!
What bots with `Command` handlers send when a message arrives in the chat, and
what follows when everything they send comes back as a message of the chat.
What a script sends besides is in `BotHandlers`.
-/

namespace TwitchChatWorker.BotReplies

open Relation
open TwitchChatWorker.Bots
open TwitchChatWorker.DBController
open TwitchChatWorker.Lib.Cascades
open TwitchChatWorker.Lib.OrderedMaps

/-- `Irc::SendMessage`. -/
structure SendMessage where
  user : String
  channel : String
  text : String
deriving DecidableEq

/-- The text of a command, with the user mentioned in front if asked for. -/
def sendText (handler : BotMessageEventHandlerCommand) (user : String) : String :=
  if handler.mention then "@" ++ user ++ " " ++ handler.text else handler.text

/-- `handleBotMessage` of a command: the message that the handler sends. -/
def handleCommand (handler : BotMessageEventHandlerCommand) (config : BotConfiguration)
    (msg : ChatMessage) : Option SendMessage :=
  if handler.valid = false ∨ ¬handler.command.toList <+: msg.text.toList then none
  else if handler.user ≠ "" ∧ msg.user ≠ handler.user then none
  else some ⟨config.account, config.channel, sendText handler msg.user⟩

/-- The message that a handler without a script sends. -/
def commandReply (config : BotConfiguration) (msg : ChatMessage) :
    BotMessageEventHandler → Option SendMessage
  | .command handler => handleCommand handler config msg
  | .lua _ => none

/-- `evtBotMessage`: a message of the own account is ignored to avoid looping. -/
def sent (bot : BotEngine) (msg : ChatMessage) : List SendMessage :=
  if msg.user = bot.config.account then []
  else bot.massageHandlers.filterMap (commandReply bot.config msg)

/-- `evtChatMessage`: the bots to which a message of the chat goes. -/
def receivers (e : BotsEnvironment) (msg : ChatMessage) : List BotPtr :=
  if msg.valid = false then []
  else if msg.user ∈ e.ignoreUsers then []
  else
    match e.botBoxes.find? msg.channel with
    | none => []
    | some box => (List.range e.allocated).filter fun p =>
        (e.bots p).deregistered = false ∧ (e.bots p).self = box

/-- A sent message comes back in its channel; the message processor finds every
text valid but the empty one. -/
def returned (m : SendMessage) : ChatMessage :=
  ⟨m.user, m.channel, m.text, decide (m.text ≠ "")⟩

/-- What comes back from the chat after a message. -/
def replies (e : BotsEnvironment) (msg : ChatMessage) : List ChatMessage :=
  (receivers e msg).flatMap fun p => (sent (e.bots p) msg).map returned

/-- Running bots that have no scripts. -/
structure CommandBots where
  env : BotsEnvironment
  commands : ∀ p < env.allocated, ∀ handler ∈ (env.bots p).massageHandlers,
    ∃ command, handler = .command command

theorem mem_receivers {e : BotsEnvironment} {msg : ChatMessage} {p : BotPtr} :
    p ∈ receivers e msg ↔
      msg.valid = true ∧ msg.user ∉ e.ignoreUsers ∧ p < e.allocated ∧
        (e.bots p).deregistered = false ∧
        e.botBoxes.find? msg.channel = some (e.bots p).self := by
  unfold receivers
  split
  · next hvalid => simp [hvalid]
  · next hvalid =>
      split
      · next hignored => simp [hignored]
      · next hignored =>
          split
          · next hbox => simp [hbox]
          · next box hbox =>
              have hself : box = (e.bots p).self ↔ (e.bots p).self = box := eq_comm
              simp [hvalid, hignored, hbox, hself]

theorem bots_evtChatMessage (e : BotsEnvironment) (msg : ChatMessage) (p : BotPtr) :
    (e.evtChatMessage msg).bots p =
      if p ∈ receivers e msg then
        { e.bots p with inbox := (e.bots p).inbox ++ [.message msg] }
      else e.bots p := by
  simp only [mem_receivers]
  unfold BotsEnvironment.evtChatMessage
  split
  · next hvalid => simp [hvalid]
  · next hvalid =>
      split
      · next hignored => simp [hignored]
      · next hignored =>
          split
          · next hbox => simp [hbox]
          · next box hbox =>
              have hself : box = (e.bots p).self ↔ (e.bots p).self = box := eq_comm
              simp [BotsEnvironment.publish, hvalid, hignored, hbox, hself]

theorem sent_eq_nil_of_ignored (bot : BotEngine) (msg : ChatMessage)
    (hignored : bot.evtBotMessage msg = bot) : sent bot msg = [] := by
  unfold BotEngine.evtBotMessage at hignored
  split at hignored
  · next hown => rw [sent, if_pos hown]
  · have hlength := congrArg (fun b : BotEngine => b.handled.length) hignored
    simp at hlength

theorem mem_sent {bot : BotEngine} {msg : ChatMessage} {m : SendMessage}
    (hm : m ∈ sent bot msg) :
    msg.user ≠ bot.config.account ∧ m.user = bot.config.account ∧
      m.channel = bot.config.channel ∧
      ∃ handler, .command handler ∈ bot.massageHandlers ∧ m.text = sendText handler msg.user := by
  unfold sent at hm
  split at hm
  · simp at hm
  · next hother =>
      obtain ⟨handler, hhandler, hsome⟩ := List.mem_filterMap.mp hm
      cases handler with
      | lua handler => simp [commandReply] at hsome
      | command handler =>
          simp only [commandReply, handleCommand] at hsome
          split_ifs at hsome
          obtain rfl := Option.some.inj hsome
          exact ⟨hother, rfl, rfl, handler, hhandler, rfl⟩

theorem mem_replies {e : BotsEnvironment} {msg reply : ChatMessage} :
    reply ∈ replies e msg ↔
      ∃ p ∈ receivers e msg, ∃ m ∈ sent (e.bots p) msg, returned m = reply := by
  simp only [replies, List.mem_flatMap, List.mem_map]

section Finiteness

/-- Who can have written a message of the cascade. -/
def authors (e : BotsEnvironment) (msg : ChatMessage) : List String :=
  msg.user :: (List.range e.allocated).map fun p => (e.bots p).config.account

/-- All that a handler may ever send within the cascade. -/
def handlerReplies (e : BotsEnvironment) (msg : ChatMessage) (config : BotConfiguration) :
    BotMessageEventHandler → List ChatMessage
  | .command handler => (authors e msg).map fun author =>
      returned ⟨config.account, config.channel, sendText handler author⟩
  | .lua _ => []

/-- All messages that may occur in the cascade. -/
def possibleMessages (e : BotsEnvironment) (msg : ChatMessage) : List ChatMessage :=
  msg :: (List.range e.allocated).flatMap fun p =>
    (e.bots p).massageHandlers.flatMap (handlerReplies e msg (e.bots p).config)

theorem user_mem_authors {e : BotsEnvironment} {msg x : ChatMessage}
    (hx : x ∈ possibleMessages e msg) : x.user ∈ authors e msg := by
  rcases List.mem_cons.mp hx with rfl | hx
  · exact List.mem_cons_self
  · obtain ⟨p, hp, hx⟩ := List.mem_flatMap.mp hx
    obtain ⟨handler, -, hx⟩ := List.mem_flatMap.mp hx
    cases handler with
    | lua handler => simp [handlerReplies] at hx
    | command handler =>
        obtain ⟨author, -, rfl⟩ := List.mem_map.mp hx
        exact List.mem_cons_of_mem _ (List.mem_map_of_mem hp)

theorem replies_mem_possibleMessages {e : BotsEnvironment} {msg x y : ChatMessage}
    (hx : x ∈ possibleMessages e msg) (hy : y ∈ replies e x) : y ∈ possibleMessages e msg := by
  obtain ⟨p, hp, m, hm, rfl⟩ := mem_replies.mp hy
  obtain ⟨-, hallocated⟩ := (mem_receivers.mp hp).2
  obtain ⟨-, huser, hchannel, handler, hhandler, htext⟩ := mem_sent hm
  apply List.mem_cons_of_mem
  refine List.mem_flatMap.mpr ⟨p, List.mem_range.mpr hallocated.1, ?_⟩
  refine List.mem_flatMap.mpr ⟨_, hhandler, ?_⟩
  refine List.mem_map.mpr ⟨x.user, user_mem_authors hx, ?_⟩
  obtain ⟨user, channel, text⟩ := m
  simp only at huser hchannel htext
  rw [huser, hchannel, htext]

end Finiteness

/-- The replies that a message brings about come to an end: some generation of
them is empty, and no sequence of replies to replies is endless. -/
structure FiniteCascade (e : BotsEnvironment) (msg : ChatMessage) : Prop where
  ends : Ends (replies e) msg
  not_endless : ¬Endless (replies e) msg

theorem finiteCascade_iff_ends {e : BotsEnvironment} {msg : ChatMessage} :
    FiniteCascade e msg ↔ Ends (replies e) msg :=
  ⟨fun h => h.ends, fun h => ⟨h, ends_iff_not_endless.mp h⟩⟩

/-- The bots fall silent exactly when no replies lead back to a message that
has already been answered. -/
theorem finiteCascade_iff_not_reachesLoop (bots : CommandBots) (human : ChatMessage) :
    FiniteCascade bots.env human ↔ ¬ReachesLoop (replies bots.env) human := by
  rw [finiteCascade_iff_ends]
  apply ends_iff_not_reachesLoop (List.finite_toSet (possibleMessages bots.env human))
  · exact List.mem_cons_self
  · exact fun x hx y hy => replies_mem_possibleMessages hx hy

/-- No bot answers another one when every bot that hears a bot has the same
account, or the account is a service account. -/
theorem finiteCascade_of_guarded (e : BotsEnvironment) (human : ChatMessage)
    (hguarded : ∀ p < e.allocated, ∀ q < e.allocated,
      e.botBoxes.find? (e.bots p).config.channel = some (e.bots q).self →
      (e.bots p).config.account = (e.bots q).config.account ∨
        (e.bots p).config.account ∈ e.ignoreUsers) :
    FiniteCascade e human := by
  rw [finiteCascade_iff_ends]
  refine ⟨2, generation_succ_eq_nil.mpr fun reply hreply => ?_⟩
  refine generation_succ_eq_nil.mpr fun next hnext => ?_
  obtain ⟨p, hp, m, hm, rfl⟩ := mem_replies.mp hreply
  obtain ⟨q, hq, m', hm', rfl⟩ := mem_replies.mp hnext
  obtain ⟨-, huser, hchannel, -⟩ := mem_sent hm
  obtain ⟨hother, -⟩ := mem_sent hm'
  obtain ⟨-, -, hpallocated, -⟩ := mem_receivers.mp hp
  obtain ⟨-, hnotIgnored, hqallocated, -, hbox⟩ := mem_receivers.mp hq
  simp only [returned, huser, hchannel] at hother hnotIgnored hbox
  rcases hguarded p hpallocated q hqallocated hbox with hsame | hignored
  · exact absurd hsame hother
  · exact absurd hignored hnotIgnored

def greeter (id : Int) (account : String) : BotEngine where
  self := "den"
  config :=
    { botId := id, account := account, channel := "den", handlers := [⟨id, 2, "!hi", ""⟩] }
  massageHandlers := [.command ⟨id, true, "!hi", "", "!hi", false⟩]

example : newCommand (fun _ => some (.object [("route", .object [("text", .string "!hi")])]))
    ⟨1, 2, "!hi", ""⟩ = .ok ⟨1, true, "!hi", "", "!hi", false⟩ := rfl

/-- Two bots on one channel that greet with the command they answer. -/
def twoGreeters : CommandBots where
  env :=
    { ignoreUsers := []
      botsById := (OrderedMap.empty.assign 1 0).assign 2 1
      botBoxes := .assign .empty "den" "den"
      bots := fun p => if p = 0 then greeter 1 "alice" else greeter 2 "bob"
      allocated := 2 }
  commands := by
    intro p _ handler hhandler
    dsimp only at hhandler
    split at hhandler
    · exact ⟨_, List.mem_singleton.mp hhandler⟩
    · exact ⟨_, List.mem_singleton.mp hhandler⟩

theorem not_finiteCascade_twoGreeters :
    ¬FiniteCascade twoGreeters.env ⟨"carol", "den", "!hi", true⟩ := by
  intro hfinite
  have halice : (⟨"alice", "den", "!hi", true⟩ : ChatMessage) ∈
      replies twoGreeters.env ⟨"carol", "den", "!hi", true⟩ := by decide +kernel
  have hbob : (⟨"bob", "den", "!hi", true⟩ : ChatMessage) ∈
      replies twoGreeters.env ⟨"alice", "den", "!hi", true⟩ := by decide +kernel
  have hback : (⟨"alice", "den", "!hi", true⟩ : ChatMessage) ∈
      replies twoGreeters.env ⟨"bob", "den", "!hi", true⟩ := by decide +kernel
  have hends := hfinite.ends.of_reflTransGen (.single halice)
  exact not_ends_of_transGen (.tail (.single hbob) hback) hends

end TwitchChatWorker.BotReplies
