import TwitchChatWorker.BotAnswers
import TwitchChatWorker.BotReplies
import TwitchChatWorker.Lib.Scanning

/-!
What becomes of the entries of a bot configuration.  The constructors of the
handlers take a JSON document apart that was only checked to be well formed.
-/

namespace TwitchChatWorker.HandlerLoading

open TwitchChatWorker.BotAnswers
open TwitchChatWorker.BotReplies
open TwitchChatWorker.Bots
open TwitchChatWorker.DBController
open TwitchChatWorker.HttpRequests
open TwitchChatWorker.JsonValues
open TwitchChatWorker.Lib.Scanning

/-- The constructor of `BotEngine`. -/
def newBotEngine (env : Surroundings) (self : Mbox) (config : BotConfiguration) :
    Except TypeError BotEngine := do
  let massageHandlers ← loadHandlers env.parse config.handlers
  return { self := self, config := config, massageHandlers := massageHandlers }

/-- `match` of a script.  `partialMatch` tells whether a pattern is correct and
found in a text. -/
def matchLua (partialMatch : String → String → Bool) (handler : BotMessageEventHandlerLua)
    (msg : ChatMessage) : Bool :=
  if handler.valid = false then false
  else if handler.text ≠ "" ∧ partialMatch handler.text msg.text = false then false
  else if handler.user ≠ "" ∧ partialMatch handler.user msg.user = false then false
  else true

/-- Whether the constructor found the handler valid. -/
def valid : BotMessageEventHandler → Bool
  | .command handler => handler.valid
  | .lua handler => handler.valid

/-- Whether the handler sends its text or runs its script for a message. -/
def reacts (partialMatch : String → String → Bool) (config : BotConfiguration)
    (msg : ChatMessage) : BotMessageEventHandler → Bool
  | .command handler => (handleCommand handler config msg).isSome
  | .lua handler => matchLua partialMatch handler msg

/-- A member of a value, null where there is none or the value has no members. -/
def part (j : Json) (key : String) : Json :=
  match j.member key with
  | .ok value => value
  | .error _ => .null

/-- A text in the route of the additional value. -/
def routeText (add : Json) (key : String) : String :=
  (part (part add "route") key).stringOrEmpty

/-- Whether the additional value asks for the user to be mentioned. -/
def mention (add : Json) : Bool := (part (part add "params") "mention").isTrue

/-- The handler of an entry has its id and text, is disabled if `additional` is
malformed or a command has no text, and otherwise has the parts of `additional`
that are usable, or is disabled because some are not. -/
def Loaded (parse : String → Option Json) (cfg : EventHandlerConfiguration) :
    BotMessageEventHandler → Prop
  | .lua handler => HandlerType.ofId cfg.typeId = .lua ∧
      handler.id = cfg.id ∧ handler.script = cfg.text ∧
      match parse cfg.additional with
      | none => handler.valid = false
      | some add => handler.text = routeText add "text" ∧ handler.user = routeText add "user" ∧
          (UsableAdditional parse cfg → handler.valid = true)
  | .command handler => HandlerType.ofId cfg.typeId = .command ∧
      handler.id = cfg.id ∧ handler.text = cfg.text ∧
      match parse cfg.additional with
      | none => handler.valid = false
      | some add => if cfg.text = "" then handler.valid = false
          else handler.command = routeText add "text" ∧ handler.user = routeText add "user" ∧
            handler.mention = mention add ∧
            (UsableAdditional parse cfg → handler.valid = decide (handler.command ≠ ""))

/-- The entries whose types have a handler, enabled or not. -/
def knownEntries (config : BotConfiguration) : List EventHandlerConfiguration :=
  config.handlers.filter fun cfg => HandlerType.ofId cfg.typeId ≠ .unknown

/-- A new bot and a reloaded one have one handler for each known entry. -/
structure LoadsAll (env : Surroundings) (config : BotConfiguration) : Prop where
  construction : ∀ self, ∃ bot, newBotEngine env self config = .ok bot ∧ bot.config = config ∧
    List.Forall₂ (Loaded env.parse) (knownEntries config) bot.massageHandlers
  reload : ∀ bot : BotEngine, ∃ bot', bot.evtReload env config = .ok bot' ∧
    bot' = { bot with config := config, massageHandlers := bot'.massageHandlers } ∧
    List.Forall₂ (Loaded env.parse) (knownEntries config) bot'.massageHandlers
  disabled : ∀ handler, valid handler = false → ∀ partialMatch msg,
    reacts partialMatch config msg handler = false

section Reading

variable {parse : String → Option Json} {cfg : EventHandlerConfiguration}

theorem part_of_member {j value : Json} {key : String} (h : j.member key = .ok value) :
    part j key = value := by
  rw [part, h]

theorem routeTexts_eq {route : Json} {texts : String × String} (h : routeTexts route = .ok texts) :
    texts = ((part route "text").stringOrEmpty, (part route "user").stringOrEmpty) := by
  unfold routeTexts at h
  split at h
  · exact (Except.ok.inj h).symm
  · obtain ⟨t, ht, h⟩ := exists_of_bind_eq_ok h
    obtain ⟨u, hu, h⟩ := exists_of_bind_eq_ok h
    rw [part_of_member ht, part_of_member hu]
    exact (Except.ok.inj h).symm

theorem paramsMention_eq {params : Json} {result : Bool} (h : paramsMention params = .ok result) :
    result = (part params "mention").isTrue := by
  unfold paramsMention at h
  split at h
  · exact (Except.ok.inj h).symm
  · obtain ⟨m, hm, h⟩ := exists_of_bind_eq_ok h
    rw [part_of_member hm]
    exact (Except.ok.inj h).symm

theorem loaded_newLua {handler : BotMessageEventHandlerLua}
    (htype : HandlerType.ofId cfg.typeId = .lua) (h : newLua parse cfg = .ok handler) :
    Loaded parse cfg (.lua handler) := by
  unfold newLua at h
  cases hparse : parse cfg.additional with
  | none =>
      rw [hparse] at h
      obtain rfl := Except.ok.inj h
      simp [Loaded, htype, hparse]
  | some add =>
      rw [hparse] at h
      obtain ⟨route, hroute, h⟩ := exists_of_bind_eq_ok h
      obtain ⟨texts, htexts, h⟩ := exists_of_bind_eq_ok h
      obtain rfl := Except.ok.inj h
      simp [Loaded, htype, hparse, routeText, part_of_member hroute, routeTexts_eq htexts]

theorem loaded_newCommand {handler : BotMessageEventHandlerCommand}
    (htype : HandlerType.ofId cfg.typeId = .command) (h : newCommand parse cfg = .ok handler) :
    Loaded parse cfg (.command handler) := by
  unfold newCommand at h
  cases hparse : parse cfg.additional with
  | none =>
      rw [hparse] at h
      obtain rfl := Except.ok.inj h
      simp [Loaded, htype, hparse]
  | some add =>
      rw [hparse] at h
      dsimp only at h
      split_ifs at h with htext
      · obtain rfl := Except.ok.inj h
        simp [Loaded, htype, hparse, htext]
      · obtain ⟨route, hroute, h⟩ := exists_of_bind_eq_ok h
        obtain ⟨texts, htexts, h⟩ := exists_of_bind_eq_ok h
        obtain ⟨params, hparams, h⟩ := exists_of_bind_eq_ok h
        obtain ⟨mentioned, hmentioned, h⟩ := exists_of_bind_eq_ok h
        obtain rfl := Except.ok.inj h
        simp [Loaded, htype, hparse, htext, routeText, mention, part_of_member hroute,
          routeTexts_eq htexts, part_of_member hparams, paramsMention_eq hmentioned]

theorem loaded_emplaceHandler {handlers : List BotMessageEventHandler}
    (h : emplaceHandler parse cfg = .ok handlers) :
    if HandlerType.ofId cfg.typeId = .unknown then handlers = []
    else ∃ handler, handlers = [handler] ∧ Loaded parse cfg handler := by
  unfold emplaceHandler at h
  cases htype : HandlerType.ofId cfg.typeId with
  | lua =>
      rw [htype] at h
      obtain ⟨handler, hnew, h⟩ := exists_of_bind_eq_ok h
      exact ⟨.lua handler, (Except.ok.inj h).symm, loaded_newLua htype hnew⟩
  | command =>
      rw [htype] at h
      obtain ⟨handler, hnew, h⟩ := exists_of_bind_eq_ok h
      exact ⟨.command handler, (Except.ok.inj h).symm, loaded_newCommand htype hnew⟩
  | unknown =>
      rw [htype] at h
      exact (Except.ok.inj h).symm

theorem loaded_loadHandlers {cfgs : List EventHandlerConfiguration}
    {handlers : List BotMessageEventHandler} (h : loadHandlers parse cfgs = .ok handlers) :
    List.Forall₂ (Loaded parse)
      (cfgs.filter fun cfg => HandlerType.ofId cfg.typeId ≠ .unknown) handlers := by
  induction cfgs generalizing handlers with
  | nil =>
      obtain rfl := Except.ok.inj h
      exact .nil
  | cons cfg cfgs ih =>
      obtain ⟨first, hfirst, h⟩ := exists_of_bind_eq_ok h
      obtain ⟨rest, hrest, h⟩ := exists_of_bind_eq_ok h
      obtain rfl := Except.ok.inj h
      have hentry := loaded_emplaceHandler hfirst
      split_ifs at hentry with hunknown
      · rw [hentry, List.filter_cons_of_neg (by simpa using hunknown)]
        exact ih hrest
      · obtain ⟨handler, rfl, hloaded⟩ := hentry
        rw [List.filter_cons_of_pos (by simpa using hunknown)]
        exact .cons hloaded (ih hrest)

end Reading

theorem not_reacts_of_not_valid {handler : BotMessageEventHandler} (h : valid handler = false)
    (partialMatch : String → String → Bool) (config : BotConfiguration) (msg : ChatMessage) :
    reacts partialMatch config msg handler = false := by
  cases handler with
  | command handler => simp [reacts, handleCommand, show handler.valid = false from h]
  | lua handler => simp [reacts, matchLua, show handler.valid = false from h]

/-- A configuration is loaded exactly when every entry of a known type has a
malformed `additional`, or one that is null or an object with such a `route`
and, for a command, such `params`; a command without text may have any. -/
theorem loadsAll_iff (env : Surroundings) (config : BotConfiguration) :
    LoadsAll env config ↔ UsableHandlers env.parse config := by
  rw [UsableHandlers, ← loadHandlers_isOk]
  constructor
  · intro h
    obtain ⟨bot, hnew, -⟩ := h.construction ""
    obtain ⟨handlers, hload, -⟩ := exists_of_bind_eq_ok hnew
    exact ⟨handlers, hload⟩
  · rintro ⟨handlers, hload⟩
    have hloaded := loaded_loadHandlers hload
    constructor
    · intro self
      refine ⟨{ self := self, config := config, massageHandlers := handlers }, ?_, rfl, hloaded⟩
      rw [newBotEngine, hload]
      rfl
    · intro bot
      refine ⟨{ bot with config := config, massageHandlers := handlers }, ?_, rfl, hloaded⟩
      rw [BotEngine.evtReload, hload]
      rfl
    · intro handler hdisabled partialMatch msg
      exact not_reacts_of_not_valid hdisabled partialMatch config msg

theorem bots_introduceBot {env : Surroundings} {config : BotConfiguration}
    {handlers : List BotMessageEventHandler} (e : BotsEnvironment)
    (hload : loadHandlers env.parse config.handlers = .ok handlers) :
    newBotEngine env ((e.botBoxes.find? config.channel).getD config.channel) config =
      .ok ((e.introduceBot config handlers).bots e.allocated) := by
  rw [newBotEngine, hload]
  simp [BotsEnvironment.introduceBot, bind, Except.bind, pure, Except.pure]

/-- Every text is parsed to an array. -/
def arrays : Surroundings where
  parse _ := some (.array [])
  parse_encodable := by
    rintro - value ⟨⟩
    rfl
  tables _ := .unreachable

/-- One command whose `additional` is an array. -/
theorem not_loadsAll_array :
    ¬∀ (env : Surroundings) (config : BotConfiguration), LoadsAll env config := by
  intro hall
  obtain ⟨bot, hnew, -⟩ := (hall arrays
    { botId := 1, handlers := [⟨1, 2, "hello", "[]"⟩] }).construction ""
  cases hnew

end TwitchChatWorker.HandlerLoading
