import TwitchChatWorker.HttpController

/-!
Rules for handlers that answer once.  A handler takes the body apart, goes
through lists, and ends with one response, whose texts must be UTF-8.
-/

namespace TwitchChatWorker.AnswerRules

open TwitchChatWorker.HttpRequests
open TwitchChatWorker.JsonValues
open TwitchChatWorker.Lib.Handlers
open TwitchChatWorker.Lib.OrderedMaps

/-- One response that can be dumped, and no change with one other than 200. -/
def Answered {σ : Type} (before : σ) (s : Serving σ Response) : Prop :=
  ∃ response, s.responses = [response] ∧ response.body.encodable = true ∧
    (response.status ≠ 200 → s.state = before)

/-- The handler ends without a fault and has answered. -/
abbrev AnswersOnce {σ : Type} (h : Serve σ Unit) (a : σ) : Prop :=
  wp False h ⟨a, []⟩ fun _ s => Answered a s

/-- A body that is parsed to something is an object or null. -/
def UsableJson (env : Surroundings) (body : String) : Prop :=
  ∀ req, env.parse body = some req → req.navigable = true

section Texts

variable {m : OrderedMap String Json} {key : String} {value : Json}

/-- All keys are UTF-8. -/
def Keyed (m : OrderedMap String Json) : Prop := m.Forall fun key _ => utf8 key = true

/-- All values can be dumped. -/
def Valued (m : OrderedMap String Json) : Prop := m.Forall fun _ value => value.encodable = true

theorem encodable_entries :
    (Json.object m.entries).encodable = true ↔ Keyed m ∧ Valued m := by
  rw [Json.encodable_object]
  constructor
  · intro h
    exact ⟨fun key value hfind => (h _ (OrderedMap.mem_entries_iff.mpr hfind)).1,
      fun key value hfind => (h _ (OrderedMap.mem_entries_iff.mpr hfind)).2⟩
  · rintro ⟨hkeyed, hvalued⟩ ⟨key, value⟩ hentry
    have hfind := OrderedMap.mem_entries_iff.mp hentry
    exact ⟨hkeyed key value hfind, hvalued key value hfind⟩

theorem keyed_assign : Keyed (m.assign key value) ↔ Keyed m ∧ utf8 key = true := by
  constructor
  · intro h
    refine ⟨fun other value' hfind => ?_, h key value (by simp [OrderedMap.find?_assign])⟩
    by_cases hother : other = key
    · exact hother ▸ h key value (by simp [OrderedMap.find?_assign])
    · exact h other value' (by simpa [OrderedMap.find?_assign, hother] using hfind)
  · rintro ⟨hm, hkey⟩
    exact hm.assign hkey

theorem Valued.assign (h : Valued m) (hvalue : value.encodable = true) :
    Valued (m.assign key value) :=
  OrderedMap.Forall.assign h hvalue

theorem encodable_empty :
    (Json.object (OrderedMap.empty : OrderedMap String Json).entries).encodable = true := rfl

theorem encodable_assign (h : (Json.object m.entries).encodable = true) (hkey : utf8 key = true)
    (hvalue : value.encodable = true) :
    (Json.object (m.assign key value).entries).encodable = true := by
  obtain ⟨hkeyed, hvalued⟩ := encodable_entries.mp h
  exact encodable_entries.mpr ⟨keyed_assign.mpr ⟨hkeyed, hkey⟩, hvalued.assign hvalue⟩

end Texts

variable {σ α : Type} {a : σ}

theorem answersOnce_sendHttpResp {status : Nat} {body : Body} :
    AnswersOnce (sendHttpResp status body) a ↔ body.encodable = true := by
  rw [AnswersOnce, sendHttpResp, wp_respond]
  constructor
  · rintro ⟨response, heq, hencodable, -⟩
    obtain rfl := List.singleton_inj.mp heq
    exact hencodable
  · intro hencodable
    exact ⟨_, rfl, hencodable, fun _ => rfl⟩

/-- A handler that ends with the response 200 must not respond before it. -/
theorem wp_bind_ok {h : Serve σ α} {body : α → Body} {s : Serving σ Response} {before : σ} :
    wp False (h >>= fun a => sendHttpResp 200 (body a)) s (fun _ s => Answered before s) ↔
      wp False h s fun a s' => s'.responses = [] ∧ (body a).encodable = true := by
  rw [wp_bind]
  constructor
  · intro hwp
    apply hwp.mono
    rintro a s' ⟨response, hresponses, hencodable, -⟩
    rcases List.append_eq_singleton_iff.mp hresponses with ⟨hnil, heq⟩ | ⟨-, hnil⟩
    · obtain rfl := List.singleton_inj.mp heq
      exact ⟨hnil, hencodable⟩
    · cases hnil
  · intro hwp
    apply hwp.mono
    rintro a s' ⟨hnil, hencodable⟩
    refine ⟨⟨200, body a⟩, ?_, hencodable, fun hne => absurd rfl hne⟩
    simp [hnil]

theorem answersOnce_update {f : σ → σ} {body : Body} :
    AnswersOnce (update f >>= fun _ => sendHttpResp 200 body) a ↔ body.encodable = true := by
  rw [AnswersOnce, wp_bind_ok, wp_update]
  exact and_iff_right rfl

theorem answersOnce_readState {f : σ → Serve σ Unit} :
    AnswersOnce (readState >>= f) a ↔ AnswersOnce (f a) a := by
  rw [AnswersOnce, wp_bind, wp_readState]

theorem answersOnce_ping {env : Surroundings} {request : String} {f : Unit → Serve σ Unit} :
    AnswersOnce (ping env request >>= f) a ↔ env.Reaches request ∧ AnswersOnce (f ()) a := by
  rw [AnswersOnce, wp_bind, wp_ping]

theorem answersOnce_withJson {env : Surroundings} {body : String} {f : Json → Serve σ Unit} :
    AnswersOnce (withJson env body f) a ↔
      ∀ req, env.parse body = some req → AnswersOnce (f req) a := by
  unfold withJson
  cases hparse : env.parse body with
  | none => simpa using answersOnce_sendHttpResp.mpr rfl
  | some req => simp

theorem answersOnce_rethrow {x : Except TypeError α} {f : α → Serve σ Unit} :
    AnswersOnce (rethrow x >>= f) a ↔ ∃ value, x = .ok value ∧ AnswersOnce (f value) a := by
  rw [AnswersOnce, wp_bind, wp_rethrow]

theorem answersOnce_member {req : Json} {key : String} {f : Json → Serve σ Unit} :
    AnswersOnce (rethrow (req.member key) >>= f) a ↔ req.navigable = true ∧
      ∀ value, req.member key = .ok value → AnswersOnce (f value) a := by
  rw [answersOnce_rethrow]
  exact Json.exists_member_iff

theorem answersOnce_withId {env : Surroundings} {body wrong : String} (hwrong : utf8 wrong = true)
    {f : Int → Serve σ Unit} : AnswersOnce (withId env body wrong f) a ↔
      UsableJson env body ∧ ∀ id, requestedId env body = some id → AnswersOnce (f id) a := by
  have hresp : (resp wrong).encodable = true := by
    refine Json.encodable_object.mpr fun entry hentry => ?_
    obtain rfl := List.mem_singleton.mp hentry
    have hresult : utf8 "result" = true := by rfl
    exact ⟨hresult, hwrong⟩
  unfold withId UsableJson requestedId
  cases hparse : env.parse body with
  | none => simpa using answersOnce_sendHttpResp.mpr rfl
  | some req =>
      simp only [Option.some.injEq, forall_eq']
      rw [answersOnce_member]
      apply and_congr_right
      intro hnavigable
      obtain ⟨value, hvalue⟩ := Json.navigable_iff.mp hnavigable "id"
      simp only [hvalue, Except.ok.injEq, forall_eq']
      cases value with
      | number id => simp
      | _ => simpa using answersOnce_sendHttpResp.mpr hresp

theorem exists_requested {env : Surroundings} {body : String} {req : Json}
    (hreq : env.parse body = some req) (hnavigable : req.navigable = true) (key : String) :
    ∃ value, req.member key = .ok value ∧ requested env body key = some value := by
  obtain ⟨value, hvalue⟩ := Json.navigable_iff.mp hnavigable key
  exact ⟨value, hvalue, requested_eq hreq hvalue⟩

theorem not_requested {env : Surroundings} {body : String} (hnone : env.parse body = none)
    (key : String) : requested env body key = none := by
  simp [requested, hnone]

theorem answersOnce_read {env : Surroundings} {body key : String} {req : Json}
    (hreq : env.parse body = some req) (hnavigable : req.navigable = true)
    {f : Json → Serve σ Unit} {value : Json} (hvalue : requested env body key = some value) :
    AnswersOnce (rethrow (req.member key) >>= f) a ↔ AnswersOnce (f value) a := by
  obtain ⟨value', hmember, hrequested⟩ := exists_requested hreq hnavigable key
  obtain rfl : value' = value := Option.some.inj (hrequested.symm.trans hvalue)
  rw [answersOnce_member, hmember]
  simp [hnavigable]

theorem answersOnce_members {env : Surroundings} {body key : String}
    {f : Json → Json → Serve σ Unit} {p : Prop} (hnone : env.parse body = none → p)
    (hsome : ∀ req value, env.parse body = some req → req.navigable = true →
      requested env body key = some value → (AnswersOnce (f req value) a ↔ p)) :
    AnswersOnce (withJson env body fun req => do f req (← rethrow (req.member key))) a ↔
      UsableJson env body ∧ p := by
  rw [answersOnce_withJson, UsableJson]
  cases hreq : env.parse body with
  | none => simpa using hnone hreq
  | some req =>
      simp only [Option.some.injEq, forall_eq']
      rw [answersOnce_member]
      apply and_congr_right
      intro hnavigable
      obtain ⟨value, hvalue, hrequested⟩ := exists_requested hreq hnavigable key
      simpa only [hvalue, Except.ok.injEq, forall_eq'] using
        hsome req value hreq hnavigable hrequested

end TwitchChatWorker.AnswerRules
