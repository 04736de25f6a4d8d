import TwitchChatWorker.AnswerRules

/-!
Which requests the agent `BotsEnvironment` answers once.  The constructors of the
handlers of a bot take the JSON values of the database apart, and throw where
these have another type.
-/

namespace TwitchChatWorker.BotAnswers

open TwitchChatWorker.AnswerRules
open TwitchChatWorker.Bots
open TwitchChatWorker.DBController
open TwitchChatWorker.HttpRequests
open TwitchChatWorker.JsonValues
open TwitchChatWorker.Lib.Handlers
open TwitchChatWorker.Lib.OrderedMaps

/-- The `additional` of a handler of a known type is discarded by the parser, or
an object or null whose `route` and `params`, where they are read, are too. -/
def UsableAdditional (parse : String → Option Json) (cfg : EventHandlerConfiguration) : Prop :=
  ∀ add, parse cfg.additional = some add →
    match HandlerType.ofId cfg.typeId with
    | .unknown => True
    | .lua => add.navigable = true ∧ ∀ route, add.member "route" = .ok route →
        route.navigable = true
    | .command => cfg.text ≠ "" → add.navigable = true ∧
        (∀ route, add.member "route" = .ok route → route.navigable = true) ∧
        ∀ params, add.member "params" = .ok params → params.navigable = true

/-- All handler rows of a bot can be made handlers. -/
def UsableHandlers (parse : String → Option Json) (config : BotConfiguration) : Prop :=
  ∀ cfg ∈ config.handlers, UsableAdditional parse cfg

/-- What a request to `BotsEnvironment` must be like to be answered once. -/
def UsableBot (env : Surroundings) (e : BotsEnvironment) (body : String) : BotRequest → Prop
  | .add => UsableJson env body ∧ ∀ id, requestedId env body = some id →
      e.botsById.find? id = none → env.Reaches (botConfigurationRequest id) ∧
        ((loadBotConfiguration env.db id).botId ≠ 0 →
          UsableHandlers env.parse (loadBotConfiguration env.db id))
  | .remove => UsableJson env body
  | .reload => UsableJson env body ∧ ∀ id, requestedId env body = some id →
      e.botsById.find? id ≠ none → env.Reaches (botConfigurationRequest id)
  | .reloadall => env.Reaches (botConfigurationsRequest ++ ";") ∧
      ∀ entry ∈ (loadBotConfigurations env.db).entries,
        e.botsById.find? entry.1 = none → UsableHandlers env.parse entry.2

theorem routeTexts_isOk {route : Json} :
    (∃ texts, routeTexts route = .ok texts) ↔ route.navigable = true := by
  cases route <;> simp [routeTexts, Json.member, Json.navigable, bind, Except.bind, pure,
    Except.pure]

theorem paramsMention_isOk {params : Json} :
    (∃ mention, paramsMention params = .ok mention) ↔ params.navigable = true := by
  cases params <;> simp [paramsMention, Json.member, Json.navigable, bind, Except.bind, pure,
    Except.pure]

theorem bind_isOk {α β : Type} {x : Except TypeError α} {f : α → Except TypeError β} :
    (∃ b, x >>= f = .ok b) ↔ ∃ a, x = .ok a ∧ ∃ b, f a = .ok b := by
  cases x <;> simp [bind, Except.bind]

theorem newLua_isOk {parse : String → Option Json} {cfg : EventHandlerConfiguration} :
    (∃ handler, newLua parse cfg = .ok handler) ↔
      ∀ add, parse cfg.additional = some add → add.navigable = true ∧
        ∀ route, add.member "route" = .ok route → route.navigable = true := by
  unfold newLua
  cases parse cfg.additional with
  | none => simp
  | some add =>
      simp only [Option.some.injEq, forall_eq', bind_isOk, pure, Except.pure, Except.ok.injEq,
        exists_eq', and_true, routeTexts_isOk]
      exact Json.exists_member_iff

theorem newCommand_isOk {parse : String → Option Json} {cfg : EventHandlerConfiguration} :
    (∃ handler, newCommand parse cfg = .ok handler) ↔
      ∀ add, parse cfg.additional = some add → cfg.text ≠ "" → add.navigable = true ∧
        (∀ route, add.member "route" = .ok route → route.navigable = true) ∧
        ∀ params, add.member "params" = .ok params → params.navigable = true := by
  unfold newCommand
  cases parse cfg.additional with
  | none => simp
  | some add =>
      by_cases htext : cfg.text = ""
      · simp [htext]
      · simp only [htext, if_false, Option.some.injEq, forall_eq', ne_eq, not_false_eq_true,
          forall_const, bind_isOk, pure, Except.pure, Except.ok.injEq, exists_eq', and_true,
          exists_and_right, routeTexts_isOk, paramsMention_isOk, ← and_assoc]
        rw [Json.exists_member_iff, Json.exists_member_iff]
        tauto

theorem emplaceHandler_isOk {parse : String → Option Json} {cfg : EventHandlerConfiguration} :
    (∃ handlers, emplaceHandler parse cfg = .ok handlers) ↔ UsableAdditional parse cfg := by
  unfold emplaceHandler UsableAdditional
  cases HandlerType.ofId cfg.typeId with
  | unknown => simp
  | lua => simp [bind_isOk, pure, Except.pure, newLua_isOk]
  | command => simp [bind_isOk, pure, Except.pure, newCommand_isOk]

theorem loadHandlers_isOk {parse : String → Option Json} {cfgs : List EventHandlerConfiguration} :
    (∃ handlers, loadHandlers parse cfgs = .ok handlers) ↔
      ∀ cfg ∈ cfgs, UsableAdditional parse cfg := by
  induction cfgs with
  | nil => simp [loadHandlers]
  | cons cfg cfgs ih =>
      simp only [loadHandlers, bind_isOk, pure, Except.pure, Except.ok.injEq, exists_eq', and_true,
        exists_and_right, List.forall_mem_cons, ih, emplaceHandler_isOk]

theorem wp_addBot {env : Surroundings} {config : BotConfiguration}
    {s : Serving BotsEnvironment Response}
    {post : Unit → Serving BotsEnvironment Response → Prop} :
    wp False (BotsEnvironment.addBot env config) s post ↔
      ∃ handlers, loadHandlers env.parse config.handlers = .ok handlers ∧
        post () ⟨(s.state.addBox config.channel).introduceBot config handlers, s.responses⟩ := by
  rw [BotsEnvironment.addBot, wp_bind, wp_update, wp_bind, wp_rethrow]
  rfl

theorem encodable_botBody {key : String} {id : Int} {result : String} (hkey : utf8 key = true)
    (hresult : utf8 result = true) : (BotsEnvironment.botBody key id result).encodable = true := by
  have hname : utf8 "result" = true := by rfl
  simp [BotsEnvironment.botBody, Body.encodable, Json.encodable, Json.encodableMembers, hkey,
    hname, hresult]

theorem answersOnce_evtHttpAdd (env : Surroundings) (body : String) (e : BotsEnvironment) :
    AnswersOnce (BotsEnvironment.evtHttpAdd env body) e ↔ UsableBot env e body .add := by
  rw [BotsEnvironment.evtHttpAdd, answersOnce_withId (by rfl), UsableBot]
  refine and_congr_right fun _ => forall_congr' fun id => imp_congr_right fun _ => ?_
  rw [answersOnce_readState]
  cases e.botsById.find? id with
  | some bot => simpa using answersOnce_sendHttpResp.mpr rfl
  | none =>
      simp only [forall_const]
      rw [answersOnce_ping]
      apply and_congr_right
      intro _
      by_cases hfound : (loadBotConfiguration env.db id).botId = 0
      · simp only [hfound, if_true, ne_eq, not_true_eq_false, false_imp_iff, iff_true]
        exact answersOnce_sendHttpResp.mpr (by rfl)
      · have hbody : (BotsEnvironment.botBody "id" (loadBotConfiguration env.db id).botId
            "Bot added").encodable = true := encodable_botBody (by rfl) (by rfl)
        simp only [hfound, if_false, ne_eq, not_false_eq_true, forall_const]
        rw [AnswersOnce, wp_bind_ok, wp_addBot]
        simp only [hbody, and_true]
        exact loadHandlers_isOk

theorem answersOnce_evtHttpRemove (env : Surroundings) (body : String) (e : BotsEnvironment) :
    AnswersOnce (BotsEnvironment.evtHttpRemove env body) e ↔ UsableBot env e body .remove := by
  rw [BotsEnvironment.evtHttpRemove, answersOnce_withId (by rfl), UsableBot, and_iff_left]
  intro id _
  rw [answersOnce_readState]
  cases e.botsById.find? id with
  | none => exact answersOnce_sendHttpResp.mpr (by rfl)
  | some bot => exact answersOnce_update.mpr (encodable_botBody (by rfl) (by rfl))

theorem answersOnce_evtHttpBotReload (env : Surroundings) (body : String)
    (e : BotsEnvironment) :
    AnswersOnce (BotsEnvironment.evtHttpReload env body) e ↔ UsableBot env e body .reload := by
  rw [BotsEnvironment.evtHttpReload, answersOnce_withId (by rfl), UsableBot]
  refine and_congr_right fun _ => forall_congr' fun id => imp_congr_right fun _ => ?_
  rw [answersOnce_readState]
  cases e.botsById.find? id with
  | none => simpa using answersOnce_sendHttpResp.mpr rfl
  | some bot =>
      simp only [ne_eq, reduceCtorEq, not_false_eq_true, forall_const]
      rw [answersOnce_ping, and_iff_left_iff_imp]
      intro _
      by_cases hfound : (loadBotConfiguration env.db id).botId = 0
      · simp only [hfound, if_true]
        exact answersOnce_sendHttpResp.mpr (by rfl)
      · simp only [hfound, if_false]
        exact answersOnce_update.mpr (encodable_botBody (by rfl) (by rfl))

theorem find?_addBot {e : BotsEnvironment} {config : BotConfiguration}
    {handlers : List BotMessageEventHandler} {key : Int} (hkey : key ≠ config.botId) :
    ((e.addBox config.channel).introduceBot config handlers).botsById.find? key =
      e.botsById.find? key := by
  have hbox : (e.addBox config.channel).botsById = e.botsById := by
    unfold BotsEnvironment.addBox
    split <;> rfl
  rw [BotsEnvironment.introduceBot, OrderedMap.find?_emplace, if_neg hkey, hbox]

theorem wp_reloadEntries_iff {env : Surroundings} {entries : List (Int × BotConfiguration)}
    (hentries : ∀ entry ∈ entries, entry.2.botId = entry.1)
    (hdistinct : (entries.map Prod.fst).Pairwise (· < ·))
    {s : Serving BotsEnvironment Response} (hs : s.responses = []) :
    wp False (entries.foldlM (fun _ entry => BotsEnvironment.reloadEntry env entry) ()) s
        (fun _ s' => s'.responses = []) ↔
      ∀ entry ∈ entries, s.state.botsById.find? entry.1 = none →
        UsableHandlers env.parse entry.2 := by
  induction entries generalizing s with
  | nil => simpa [wp_pure] using hs
  | cons entry entries ih =>
      rw [List.forall_mem_cons] at hentries
      rw [List.map_cons, List.pairwise_cons] at hdistinct
      rw [List.foldlM_cons, wp_bind, BotsEnvironment.reloadEntry, wp_bind, wp_readState,
        List.forall_mem_cons]
      cases hfind : s.state.botsById.find? entry.1 with
      | some bot =>
          simp only [reduceCtorEq, false_imp_iff, true_and]
          exact ih hentries.2 hdistinct.2 hs
      | none =>
          simp only [forall_const]
          rw [wp_addBot, UsableHandlers, ← loadHandlers_isOk, ← exists_and_right]
          refine exists_congr fun handlers => and_congr_right fun _ => ?_
          apply (ih hentries.2 hdistinct.2 (by exact hs)).trans
          refine forall_congr' fun later => forall_congr' fun hlater => ?_
          have hkey : later.1 ≠ entry.2.botId := by
            rw [hentries.1]
            exact (hdistinct.1 _ (List.mem_map_of_mem hlater)).ne'
          rw [find?_addBot hkey]

theorem answersOnce_evtHttpReloadAll (env : Surroundings) (body : String)
    (e : BotsEnvironment) :
    AnswersOnce (BotsEnvironment.evtHttpReloadAll env) e ↔ UsableBot env e body .reloadall := by
  have hbody : (resp "Reloaded").encodable = true := by rfl
  rw [BotsEnvironment.evtHttpReloadAll, answersOnce_ping, UsableBot, AnswersOnce, wp_bind_ok]
  simp only [hbody, and_true]
  apply and_congr_right
  intro _
  exact wp_reloadEntries_iff (fun _ hentry => botId_of_mem_loadBotConfigurations hentry)
    (loadBotConfigurations env.db).sorted rfl

theorem answersOnce_bots (env : Surroundings) (body : String) (request : BotRequest)
    (e : BotsEnvironment) :
    AnswersOnce (BotsEnvironment.evtHttp env body request) e ↔ UsableBot env e body request := by
  cases request with
  | add => exact answersOnce_evtHttpAdd env body e
  | remove => exact answersOnce_evtHttpRemove env body e
  | reload => exact answersOnce_evtHttpBotReload env body e
  | reloadall => exact answersOnce_evtHttpReloadAll env body e

end TwitchChatWorker.BotAnswers
