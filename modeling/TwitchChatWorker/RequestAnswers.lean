import TwitchChatWorker.AccountAnswers
import TwitchChatWorker.BotAnswers
import TwitchChatWorker.StatisticsAnswers

/-!
Which requests get exactly one answer, whatever their target and body.
-/

namespace TwitchChatWorker.RequestAnswers

open TwitchChatWorker.AccountAnswers
open TwitchChatWorker.AnswerRules
open TwitchChatWorker.BotAnswers
open TwitchChatWorker.HttpController
open TwitchChatWorker.HttpRequests
open TwitchChatWorker.IrcClient
open TwitchChatWorker.JsonValues
open TwitchChatWorker.Lib.Handlers
open TwitchChatWorker.StatisticsAnswers

/-- No fault, one response, and no change with a response other than 200. -/
def AnsweredOnce (before : Service) (result : Except Fault (Service × List Response)) : Prop :=
  ∃ after response, result = .ok (after, [response]) ∧
    (response.status ≠ 200 → after = before)

/-- What a request must be like to be answered once. -/
def Usable (env : Surroundings) (s : Service) (body : String) : Hreq → Prop
  | .app .shutdown => True
  | .app .version => utf8 env.version = true
  | .bot request => UsableBot env s.bots body request
  | .stats request => UsableStats env s.stats body request
  | .irc request => UsableIrc env s.irc body request

theorem answersOnce_app (env : Surroundings) (s : Service) (body : String) (request : AppRequest)
    (terminated : Bool) :
    AnswersOnce (evtHttpApp env request) terminated ↔ Usable env s body (.app request) := by
  cases request with
  | shutdown => exact iff_of_true ⟨_, rfl, by rfl, fun hne => absurd rfl hne⟩ trivial
  | version =>
      have hkey : utf8 "version" = true := by rfl
      rw [evtHttpApp, answersOnce_sendHttpResp]
      simp only [Body.encodable, Json.encodable_object, List.forall_mem_singleton, hkey, true_and,
        Json.encodable_string, Usable]

theorem answeredOnce_dump {before after : Service} {responses : List Response} :
    AnsweredOnce before (dump (after, responses)) ↔ ∃ response, responses = [response] ∧
      response.body.encodable = true ∧ (response.status ≠ 200 → after = before) := by
  unfold AnsweredOnce dump
  split_ifs with hall
  · constructor
    · rintro ⟨after', response, heq, hsame⟩
      obtain ⟨rfl, rfl⟩ := Prod.mk.inj (Except.ok.inj heq)
      exact ⟨response, rfl, by simpa using hall, hsame⟩
    · rintro ⟨response, rfl, -, hsame⟩
      exact ⟨after, response, rfl, hsame⟩
  · refine iff_of_false (fun ⟨_, _, heq, _⟩ => by cases heq) ?_
    rintro ⟨response, rfl, hencodable, -⟩
    exact hall (by simpa using hencodable)

theorem answeredOnce_runOn {σ : Type} {a : σ} {put : σ → Service} (hinj : Function.Injective put)
    (h : Serve σ Unit) : AnsweredOnce (put a) (runOn a put h) ↔ AnswersOnce h a := by
  unfold runOn AnswersOnce wp Answered
  cases h ⟨a, []⟩ with
  | ok _ served =>
      rw [answeredOnce_dump]
      simp only [hinj.eq_iff]
  | error fault _ => simp [AnsweredOnce]

theorem answeredOnce_dispatch (env : Surroundings) (s : Service) (body : String)
    (request : Hreq) :
    AnsweredOnce s (dispatch env s body request) ↔ Usable env s body request := by
  cases request with
  | app request =>
      have hinj : Function.Injective fun terminated => { s with terminated } :=
        fun _ _ h => congrArg Service.terminated h
      exact (answeredOnce_runOn hinj _).trans (answersOnce_app env s body request s.terminated)
  | bot request =>
      have hinj : Function.Injective fun bots => { s with bots } :=
        fun _ _ h => congrArg Service.bots h
      exact (answeredOnce_runOn hinj _).trans (answersOnce_bots env body request s.bots)
  | stats request =>
      have hinj : Function.Injective fun stats => { s with stats } :=
        fun _ _ h => congrArg Service.stats h
      exact (answeredOnce_runOn hinj _).trans (answersOnce_stats env body request s.stats)
  | irc request =>
      have hinj : Function.Injective fun irc => { s with irc } :=
        fun _ _ h => congrArg Service.irc h
      exact (answeredOnce_runOn hinj _).trans (answersOnce_irc env body request s.irc)

def emptyList : Surroundings where
  parse body := if body = "[]" then some (.array []) else none
  parse_encodable := by
    intro body value h
    obtain ⟨-, hvalue⟩ := Option.ite_none_right_eq_some.mp h
    exact Option.some.inj hvalue ▸ rfl
  tables _ := .failed

end TwitchChatWorker.RequestAnswers
