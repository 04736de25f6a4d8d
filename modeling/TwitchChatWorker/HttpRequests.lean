import TwitchChatWorker.DBController
import TwitchChatWorker.JsonValues
import TwitchChatWorker.Lib.Handlers

/-!
Control requests and what their handlers have in common.  A handler sends its
response to the HTTP controller as one more message.  It may also fail to end
well: an exception that leaves it ends the program, and a ping of the database
may go on forever.
-/

namespace TwitchChatWorker.HttpRequests

open TwitchChatWorker.DBController
open TwitchChatWorker.JsonValues
open TwitchChatWorker.Lib.Handlers

/-- The requests to the application itself. -/
inductive AppRequest where
  | shutdown | version
deriving DecidableEq

/-- The requests to `BotsEnvironment`. -/
inductive BotRequest where
  | add | remove | reload | reloadall
deriving DecidableEq

/-- The requests to `StatsCollector`. -/
inductive StatsRequest where
  | bot | storage | db | irc | account | channel | so5disp
deriving DecidableEq

/-- The requests to `IRCController`. -/
inductive IrcRequest where
  | reload | custom | channelJoin | channelLeave | channelMessage
  | accountAdd | accountRemove | accountReload
deriving DecidableEq

/-- The message types of the requests. -/
inductive Hreq where
  | app (request : AppRequest)
  | bot (request : BotRequest)
  | stats (request : StatsRequest)
  | irc (request : IrcRequest)
deriving DecidableEq

/-- A JSON value is dumped before it is sent. -/
inductive Body where
  | dumped (value : Json)
  | text (text : String)

/-- The body is a text already, or `dump` does not throw. -/
def Body.encodable : Body → Bool
  | .dumped value => value.encodable
  | .text _ => true

/-- What a handler sends back. -/
structure Response where
  status : Nat
  body : Body

/-- How a handler can go wrong: by an exception, by the use of an object that is
not there any more, or by never ending. -/
inductive Fault where
  | thrown (e : TypeError)
  | undefined
  | waiting

/-- What `lockConnection` of the pool of the database gives for a request: a null
pointer when the pool never had a connection, nothing while none comes free. -/
inductive Lock where
  | null
  | waiting
  | conn (conn : Connection)

/-- What becomes of the ping on the connection. -/
def Lock.Pings (lock : Lock) : Except Fault Bool → Prop
  | .ok result => ∃ conn, lock = .conn conn ∧ conn.Pinged result
  | .error (.thrown _) => False
  | .error .undefined => lock = .null
  | .error .waiting => lock = .waiting ∨ ∃ conn, lock = .conn conn ∧ ∀ result, ¬conn.Pinged result

theorem pings_default : ∀ _ : String, (Lock.conn {}).Pings (.ok true) :=
  fun _ => ⟨_, rfl, Connection.pinged_default⟩

/-- What a handler asks its surroundings: the JSON parser, which discards what
it cannot parse and all that is not UTF-8, the tables of the database with the
connections to it and their statistics, the time and the version that was built. -/
structure Surroundings where
  parse : String → Option Json
  parse_encodable : ∀ body value, parse body = some value → value.encodable = true
  tables : Database
  lock : String → Lock := fun _ => .conn {}
  pinged : String → Except Fault Bool := fun _ => .ok true
  pings : ∀ request, (lock request).Pings (pinged request) := by
    exact TwitchChatWorker.HttpRequests.pings_default
  dbStats : String := ""
  now : Int := 0
  version : String := ""

namespace Surroundings

/-- A connection comes free for the request, and the ping on it ends. -/
def Reaches (env : Surroundings) (request : String) : Prop :=
  ∃ conn result, env.lock request = .conn conn ∧ conn.Pinged result

/-- The database as the loaders see it, which give up after a ping that fails. -/
def db (env : Surroundings) : Database := fun request =>
  match env.pinged request with
  | .ok true => env.tables request
  | _ => .unreachable

theorem reaches_iff {env : Surroundings} {request : String} :
    env.Reaches request ↔ ∃ result, env.pinged request = .ok result := by
  have hpings := env.pings request
  constructor
  · rintro ⟨conn, result, hconn, hresult⟩
    rw [hconn] at hpings
    cases hpinged : env.pinged request with
    | ok result => exact ⟨result, rfl⟩
    | error fault =>
        rw [hpinged] at hpings
        cases fault with
        | thrown e => exact hpings.elim
        | undefined => cases hpings
        | waiting =>
            rcases hpings with hwaits | ⟨conn, heq, hnever⟩
            · cases hwaits
            · cases heq
              exact absurd hresult (hnever result)
  · rintro ⟨result, hresult⟩
    rw [hresult] at hpings
    obtain ⟨conn, hconn, hpinged⟩ := hpings
    exact ⟨conn, result, hconn, hpinged⟩

end Surroundings

/-- Surroundings in which every body asks for the same id. -/
def asking (id : Int) (tables : Database) : Surroundings where
  parse _ := some (.object [("id", .number (.integer id))])
  parse_encodable := by
    rintro - value ⟨⟩
    rfl
  tables := tables

/-- A handler of requests with the state of its agent. -/
abbrev Serve (σ α : Type) := Handler σ Response Fault α

variable {σ α : Type}

/-- The exception leaves the handler. -/
def rethrow (x : Except TypeError α) : Serve σ α := raise (x.mapError .thrown)

/-- The ping before the request. -/
def ping (env : Surroundings) (request : String) : Serve σ Unit := do
  let _ ← raise (env.pinged request)
  return ()

/-- `send_http_resp`. -/
def sendHttpResp (status : Nat) (body : Body) : Serve σ Unit := respond ⟨status, body⟩

def resp (result : String) : Body := .dumped (.object [("result", .string result)])

/-- The beginning of the handlers that work on the account or bot of an id. -/
def withId (env : Surroundings) (body : String) (wrong : String) (f : Int → Serve σ Unit) :
    Serve σ Unit :=
  match env.parse body with
  | none => sendHttpResp 501 (resp "Failed to parse JSON")
  | some req => do
      let id ← rethrow (req.member "id")
      match id with
      | .number id => f id.getInt
      | _ => sendHttpResp 400 (resp wrong)

/-- The beginning of the handlers that read more than an id. -/
def withJson (env : Surroundings) (body : String) (f : Json → Serve σ Unit) : Serve σ Unit :=
  match env.parse body with
  | none => sendHttpResp 400 (resp "Failed to parse JSON")
  | some req => f req

/-- The id that a body asks for. -/
def requestedId (env : Surroundings) (body : String) : Option Int :=
  match env.parse body with
  | none => none
  | some req =>
      match req.member "id" with
      | .ok (.number id) => some id.getInt
      | _ => none

/-- What the body has under the key. -/
def requested (env : Surroundings) (body key : String) : Option Json :=
  (env.parse body).bind fun req => (req.member key).toOption

theorem requested_eq {env : Surroundings} {body key : String} {req value : Json}
    (hreq : env.parse body = some req) (hvalue : req.member key = .ok value) :
    requested env body key = some value := by
  simp [requested, hreq, hvalue, Except.toOption]

theorem encodable_requested {env : Surroundings} {body key : String} {value : Json}
    (h : requested env body key = some value) : value.encodable = true := by
  obtain ⟨req, hreq, hvalue⟩ := Option.bind_eq_some_iff.mp h
  cases hmember : req.member key with
  | error e => simp [hmember, Except.toOption] at hvalue
  | ok value' =>
      obtain rfl : value' = value := by simpa [hmember, Except.toOption] using hvalue
      exact Json.encodable_member (env.parse_encodable body req hreq) hmember

section Rules

variable {thrown : Prop} {inv : σ → Prop} {s : Serving σ Response}

theorem wp_rethrow_ok (a : α) (post : α → Serving σ Response → Prop) :
    wp thrown (rethrow (.ok a)) s post ↔ post a s := Iff.rfl

theorem wp_rethrow_error (e : TypeError) (post : α → Serving σ Response → Prop) :
    wp thrown (rethrow (.error e)) s post ↔ thrown := Iff.rfl

theorem wp_rethrow (x : Except TypeError α) (post : α → Serving σ Response → Prop) :
    wp False (rethrow x) s post ↔ ∃ a, x = .ok a ∧ post a s := by
  cases x with
  | error e => simp [wp_rethrow_error]
  | ok a => simp [wp_rethrow_ok]

theorem keeps_rethrow (x : Except TypeError α) : Keeps inv (rethrow x) := keeps_raise _

theorem wp_ping {env : Surroundings} {request : String} {post : Unit → Serving σ Response → Prop} :
    wp False (ping env request) s post ↔ env.Reaches request ∧ post () s := by
  rw [Surroundings.reaches_iff, ← exists_and_right, ping, wp_bind, wp_raise]
  rfl

theorem keeps_ping (env : Surroundings) (request : String) :
    Keeps inv (ping env request) :=
  (keeps_raise _).bind fun _ => keeps_pure _

end Rules

theorem keeps_withJson {inv : σ → Prop} {env : Surroundings} {body : String}
    {f : Json → Serve σ Unit} (hf : ∀ req, Keeps inv (f req)) :
    Keeps inv (withJson env body f) := by
  unfold withJson
  split
  · exact keeps_respond _
  · exact hf _

theorem ensures_withId {pre post : σ → Prop} {env : Surroundings} {body wrong : String}
    {f : Int → Serve σ Unit} (himp : ∀ a, pre a → post a)
    (hf : ∀ id, requestedId env body = some id → Ensures pre post (f id)) :
    Ensures pre post (withId env body wrong f) := by
  unfold withId
  split
  · exact ensures_respond himp _
  · next req hreq =>
      intro s hs
      rw [wp_bind]
      cases hmember : req.member "id" with
      | error e => exact (wp_rethrow_error e _).mpr trivial
      | ok id =>
          rw [wp_rethrow_ok]
          cases id with
          | number id => exact hf _ (by simp [requestedId, hreq, hmember]) s hs
          | _ => exact ensures_respond himp _ s hs

end TwitchChatWorker.HttpRequests
