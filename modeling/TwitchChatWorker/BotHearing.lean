import TwitchChatWorker.BotRouting
import TwitchChatWorker.Lib.Batching

/-!
What a bot hears of the chat.  Whatever happens to the bots meanwhile, a bot
hears messages of one channel only, in order and none of them twice.
-/

namespace TwitchChatWorker.BotHearing

open TwitchChatWorker.BotRouting
open TwitchChatWorker.Bots
open TwitchChatWorker.DBController
open TwitchChatWorker.HttpRequests
open TwitchChatWorker.Lib.Batching
open TwitchChatWorker.Lib.Handlers
open TwitchChatWorker.Lib.OrderedMaps
open TwitchChatWorker.Lib.Runs

/-- The message of the chat that a bot gets. -/
def chatOf : BotMessage → Option ChatMessage
  | .message msg => some msg
  | _ => none

/-- The messages that a bot has handled or is going to handle. -/
def heard (bot : BotEngine) : List ChatMessage := bot.handled ++ bot.inbox.filterMap chatOf

/-- What the environment passes on to the mailbox of a channel. -/
def passed (ignoreUsers : List String) (channel : Mbox) (messages : List ChatMessage) :
    List ChatMessage :=
  messages.filter fun msg => msg.valid && decide (msg.user ∉ ignoreUsers) &&
    decide (msg.channel = channel)

/-- The message of the chat that an event brings. -/
def saidBy : Event → Option ChatMessage
  | .chatMessage msg => some msg
  | _ => none

/-- The messages of the chat in a run. -/
def said (tr : List (Transition BotsEnvironment Event)) : List ChatMessage :=
  tr.filterMap fun t => saidBy t.event

/-- What every bot has heard, against all messages of the chat. -/
structure Hears (ignoreUsers : List String) (messages : List ChatMessage) (e : BotsEnvironment) :
    Prop where
  ignores : e.ignoreUsers = ignoreUsers
  boxes : e.botBoxes.Forall fun channel box => box = channel
  heard : ∀ p, (heard (e.bots p)).Sublist (passed ignoreUsers (e.bots p).self messages)

section Updates

variable {ignoreUsers : List String} {messages : List ChatMessage} {e : BotsEnvironment}

theorem Hears.change (h : Hears ignoreUsers messages e) {bots : BotPtr → BotEngine}
    (hself : ∀ p, (bots p).self = (e.bots p).self)
    (hheard : ∀ p, (BotHearing.heard (bots p)).Sublist (BotHearing.heard (e.bots p))) :
    Hears ignoreUsers messages { e with bots := bots } where
  ignores := h.ignores
  boxes := h.boxes
  heard p := by
    rw [hself]
    exact (hheard p).trans (h.heard p)

theorem heard_receive (bot : BotEngine) (m : BotMessage) :
    heard { bot with inbox := bot.inbox ++ [m] } = heard bot ++ (chatOf m).toList := by
  rw [heard, heard, List.filterMap_append, filterMap_singleton_toList, List.append_assoc]

theorem Hears.send (h : Hears ignoreUsers messages e) (p : BotPtr) {m : BotMessage}
    (hm : chatOf m = none) : Hears ignoreUsers messages (e.send p m) := by
  refine h.change (fun q => ?_) fun q => ?_ <;> rw [Function.update_apply] <;> split_ifs with heq
  · rw [heq]
  · rfl
  · rw [heard_receive, hm, Option.toList_none, List.append_nil, heq]
  · exact List.Sublist.refl _

theorem Hears.addBox (h : Hears ignoreUsers messages e) (channel : String) :
    Hears ignoreUsers messages (e.addBox channel) := by
  unfold BotsEnvironment.addBox
  split
  · exact h
  · exact ⟨h.ignores, h.boxes.emplace rfl, h.heard⟩

theorem Hears.introduceBot (h : Hears ignoreUsers messages e) (config : BotConfiguration)
    (handlers : List BotMessageEventHandler) :
    Hears ignoreUsers messages (e.introduceBot config handlers) := by
  refine ⟨h.ignores, h.boxes, fun p => ?_⟩
  simp only [BotsEnvironment.introduceBot, Function.update_apply]
  split_ifs
  · exact List.nil_sublist _
  · exact h.heard p

theorem Hears.removeBot (h : Hears ignoreUsers messages e) (id : Int) (bot : BotPtr) :
    Hears ignoreUsers messages (BotsEnvironment.removeBot id bot e) := by
  obtain ⟨hignores, hboxes, hheard⟩ := h.send bot (m := .shutdown) rfl
  exact ⟨hignores, hboxes, hheard⟩

theorem Hears.evtChatMessage (h : Hears ignoreUsers messages e) (msg : ChatMessage) :
    Hears ignoreUsers (messages ++ [msg]) (e.evtChatMessage msg) := by
  have hmore (channel : Mbox) : (passed ignoreUsers channel messages).Sublist
      (passed ignoreUsers channel (messages ++ [msg])) :=
    (List.sublist_append_left messages [msg]).filter _
  have hsame : Hears ignoreUsers (messages ++ [msg]) e :=
    ⟨h.ignores, h.boxes, fun p => (h.heard p).trans (hmore _)⟩
  unfold BotsEnvironment.evtChatMessage
  split_ifs with hvalid huser
  · exact hsame
  · exact hsame
  · split
    · exact hsame
    next box hbox =>
      obtain rfl := h.boxes _ _ hbox
      refine ⟨h.ignores, h.boxes, fun p => ?_⟩
      simp only [BotsEnvironment.publish]
      split_ifs with hp
      · obtain ⟨-, -, hself⟩ := hp
        rw [heard_receive, hself]
        have hpassed : passed ignoreUsers msg.channel (messages ++ [msg]) =
            passed ignoreUsers msg.channel messages ++ [msg] := by
          rw [h.ignores] at huser
          simp [passed, List.filter_append, hvalid, huser]
        rw [hpassed]
        exact (hself ▸ h.heard p).append_right _
      · exact hsame.heard p

theorem heard_step {env : Surroundings} {bot bot' : BotEngine} (hstep : bot.step env = some bot') :
    (heard bot').Sublist (heard bot) := by
  obtain ⟨-, m, inbox, hinbox, hhandle⟩ := step_cases hstep
  have hheard : heard bot = bot.handled ++ (chatOf m).toList ++ inbox.filterMap chatOf := by
    rw [heard, hinbox, List.append_assoc]
    cases m <;> rfl
  rw [hheard]
  cases m with
  | shutdown =>
      obtain rfl := Except.ok.inj hhandle
      simp [heard, BotEngine.evtShutdown, chatOf]
  | reload config =>
      obtain ⟨handlers, rfl⟩ := evtReload_cases hhandle
      simp [heard, chatOf]
  | message msg =>
      obtain rfl := Except.ok.inj hhandle
      unfold BotEngine.evtBotMessage
      split_ifs
      · exact (List.sublist_append_left _ _).append_right _
      · exact List.Sublist.refl _

theorem keeps_addBot (env : Surroundings) (config : BotConfiguration) :
    Keeps (Hears ignoreUsers messages) (BotsEnvironment.addBot env config) :=
  (ensures_update fun _ h => h.addBox config.channel).bind fun _ =>
    (keeps_rethrow _).bind fun handlers =>
      ensures_update fun _ h => h.introduceBot config handlers

theorem keeps_evtHttpAdd (env : Surroundings) (body : String) :
    Keeps (Hears ignoreUsers messages) (BotsEnvironment.evtHttpAdd env body) := by
  refine ensures_withId (fun _ h => h) fun id _ => keeps_readState_bind fun e => ?_
  cases e.botsById.find? id with
  | some bot => exact keeps_respond _
  | none =>
      refine (keeps_ping env _).bind fun _ => ?_
      by_cases hfound : (loadBotConfiguration env.db id).botId = 0
      · simp only [hfound, if_true]
        exact keeps_respond _
      · simp only [hfound, if_false]
        exact (keeps_addBot env _).bind fun _ => keeps_respond _

theorem keeps_evtHttpRemove (env : Surroundings) (body : String) :
    Keeps (Hears ignoreUsers messages) (BotsEnvironment.evtHttpRemove env body) := by
  refine ensures_withId (fun _ h => h) fun id _ => keeps_readState_bind fun e => ?_
  cases e.botsById.find? id with
  | none => exact keeps_respond _
  | some bot =>
      exact (ensures_update fun _ h => h.removeBot id bot).bind fun _ => keeps_respond _

theorem keeps_evtHttpReload (env : Surroundings) (body : String) :
    Keeps (Hears ignoreUsers messages) (BotsEnvironment.evtHttpReload env body) := by
  refine ensures_withId (fun _ h => h) fun id _ => keeps_readState_bind fun e => ?_
  cases e.botsById.find? id with
  | none => exact keeps_respond _
  | some bot =>
      refine (keeps_ping env _).bind fun _ => ?_
      by_cases hfound : (loadBotConfiguration env.db id).botId = 0
      · simp only [hfound, if_true]
        exact keeps_respond _
      · simp only [hfound, if_false]
        exact (ensures_update fun _ h => h.send bot rfl).bind fun _ => keeps_respond _

theorem keeps_evtHttpReloadAll (env : Surroundings) :
    Keeps (Hears ignoreUsers messages) (BotsEnvironment.evtHttpReloadAll env) := by
  refine (keeps_ping env _).bind fun _ =>
    (keeps_foldlM fun entry _ _ => keeps_readState_bind fun e => ?_).bind fun _ => keeps_respond _
  cases e.botsById.find? entry.1 with
  | none => exact keeps_addBot env entry.2
  | some bot => exact ensures_update fun _ h => h.send bot rfl

theorem keeps_evtHttp (env : Surroundings) (body : String) (request : BotRequest) :
    Keeps (Hears ignoreUsers messages) (BotsEnvironment.evtHttp env body request) := by
  cases request with
  | add => exact keeps_evtHttpAdd env body
  | remove => exact keeps_evtHttpRemove env body
  | reload => exact keeps_evtHttpReload env body
  | reloadall => exact keeps_evtHttpReloadAll env

theorem Hears.step (h : Hears ignoreUsers messages e) {event : Event} {e' : BotsEnvironment}
    (hstep : e.step event = some e') :
    Hears ignoreUsers (messages ++ (saidBy event).toList) e' := by
  cases event with
  | http env request body =>
      have hkeeps := keeps_evtHttp env body request ⟨e, []⟩ h
      simp only [BotsEnvironment.step] at hstep
      simp only [wp] at hkeeps
      split at hstep
      · next served heq =>
          obtain rfl := Option.some.inj hstep
          rw [heq] at hkeeps
          simpa [saidBy] using hkeeps
      · cases hstep
  | chatMessage msg =>
      obtain rfl := Option.some.inj hstep
      exact h.evtChatMessage msg
  | bot env p =>
      simp only [BotsEnvironment.step] at hstep
      split_ifs at hstep
      obtain ⟨bot, hbot, rfl⟩ := Option.map_eq_some_iff.mp hstep
      simp only [saidBy, Option.toList_none, List.append_nil]
      refine h.change (fun q => ?_) fun q => ?_ <;>
        rw [Function.update_apply] <;> split_ifs with heq
      · rw [heq]
        exact self_step hbot
      · rfl
      · rw [heq]
        exact heard_step hbot
      · exact List.Sublist.refl _

end Updates

theorem hears_soEvtStart {env : Surroundings} {start : BotsEnvironment}
    (hstart : BotsEnvironment.soEvtStart env = some start) :
    Hears start.ignoreUsers [] start := by
  simp only [BotsEnvironment.soEvtStart] at hstart
  split at hstart
  · next served heq =>
      obtain rfl := Option.some.inj hstart
      have hkeeps : Keeps (Hears (loadServiceAccountsNicknames env.db) [])
          ((loadBotConfigurations env.db).entries.foldlM
            (fun _ entry => BotsEnvironment.addBot env entry.2) ()) :=
        keeps_foldlM fun entry _ _ => keeps_addBot env entry.2
      have hears := hkeeps
        ⟨⟨loadServiceAccountsNicknames env.db, .empty, .empty, fun _ => {}, 0⟩, []⟩
        ⟨rfl, OrderedMap.forall_empty, fun _ => List.Sublist.refl _⟩
      simp only [wp, heq] at hears
      rw [hears.ignores]
      exact hears
  · cases hstart

theorem hears_of_run {env : Surroundings} {start e : BotsEnvironment}
    (hstart : BotsEnvironment.soEvtStart env = some start)
    {tr : List (Transition BotsEnvironment Event)} (hrun : Run BotsEnvironment.step start tr e) :
    Hears start.ignoreUsers (said tr) e := by
  induction hrun with
  | nil => exact hears_soEvtStart hstart
  | snoc _ hstep ih =>
      rw [said, List.filterMap_append, filterMap_singleton_toList]
      exact ih.step hstep

end TwitchChatWorker.BotHearing
