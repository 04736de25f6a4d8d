import TwitchChatWorker.JsonValues
import TwitchChatWorker.HttpSessions
import TwitchChatWorker.Lib.WorkerPools
import TwitchChatWorker.Uri

/-!
Notifications on their way out of the program (`HttpNotifier`, `HTTPClient`,
`HTTPClientSession`).  The agent `HttpNotifier` makes a request of each
notification and posts it to the threads of the client.  A thread that runs a
request stays with its session until the last operation of it has completed.
-/

namespace TwitchChatWorker.HttpNotifications

open TwitchChatWorker.HttpSessions (Stream)
open TwitchChatWorker.JsonValues
open TwitchChatWorker.Lib
open TwitchChatWorker.Lib.Runs
open TwitchChatWorker.Lib.WorkerPools (Pool Busy)
open TwitchChatWorker.Uri

/-- What the build defines: `APP_NAME`, `APP_BIN_NAME` and so on. -/
structure App where
  name : String := ""
  binName : String := ""
  version : String := ""
  gitHash : String := ""

/-- What does not change while the program runs: the threads of the client, the
user agent of the HTTP library, the build, and how a JSON value is dumped. -/
structure Setting where
  threads : Nat
  userAgent : Bytes := []
  app : App := {}
  dump : Json → Bytes

/-- What `HTTPRequestFactory` makes, as far as a session reads it. -/
structure HTTPRequest where
  method : String
  target : Bytes
  version : Nat
  keepAlive : Bool
  scheme : Bytes
  host : Bytes
  port : UInt16
  headers : List (String × Bytes)
  body : Bytes

/-- `HTTPRequestFactory::Request`. -/
def newRequest (setting : Setting) (method : String) (scheme host : Bytes) (port : UInt16)
    (path : Bytes) (headers : List (String × Bytes)) (body : Bytes) (keepAlive : Bool) :
    HTTPRequest where
  method := method
  target := path
  version := 11
  keepAlive := keepAlive
  scheme := scheme
  host := host
  port := port
  headers := [("Host", host), ("User-Agent", setting.userAgent)] ++ headers ++
    if body = [] then [] else [("Content-Length", bytes (toString body.length))]
  body := body

/-- `HTTPRequestFactory::Post`. -/
def post (setting : Setting) (url : URI) (body : Bytes) (contentType : String) : HTTPRequest :=
  newRequest setting "POST" url.scheme url.host url.getPort url.getPathAndQuery
    [("Content-Type", bytes contentType)] body false

inductive SlackType where
  | error | warning | info | trace
deriving DecidableEq

def SlackType.getColor : SlackType → String
  | .error => "#dc3545"
  | .warning => "#ffc107"
  | .info => "#17a2b8"
  | .trace => "#6c757d"

def SlackType.getTypeStr : SlackType → String
  | .error => "error"
  | .warning => "warn"
  | .info => "info"
  | .trace => "trace"

/-- `SlackNotifier::Text` and `SlackNotifier::Notify`. -/
inductive Notification where
  | text (text : String)
  | notify (type : SlackType) (text : String)

/-- A text block of the body. -/
def markdown (text : String) : Json :=
  .object [("text", .string text), ("type", .string "mrkdwn")]

/-- The members of an object are sorted. -/
def notifyBody (app : App) (type : SlackType) (text : String) : Json :=
  .object [("attachments", .array [.object [
    ("blocks", .array [
      .object [("text", .object [("text", .string text), ("type", .string "plain_text")]),
        ("type", .string "section")],
      .object [("elements", .array [
          markdown ("*" ++ app.name ++ "* " ++ app.version ++ " " ++ app.gitHash),
          markdown ("*Type*: " ++ type.getTypeStr)]),
        ("type", .string "context")]]),
    ("color", .string type.getColor)]])]

/-- The JSON body of a notification. -/
def Notification.body (app : App) : Notification → Json
  | .text content => .object [("text", .string content)]
  | .notify type content => notifyBody app type content

/-- `SlackNotifier::text` and `SlackNotifier::notify`. -/
def requestOf (setting : Setting) (hookUrl : URI) (n : Notification) : HTTPRequest :=
  post setting hookUrl (setting.dump (n.body setting.app)) "application/json"

/-- `SlackNotifier::valid`. -/
def valid (hookUrl : URI) : Bool :=
  !(hookUrl.scheme = [] && hookUrl.host = [] && hookUrl.path = [] && hookUrl.query = [] &&
    hookUrl.fragment = [])

inductive ErrorCode where
  | eof | notConnected | streamTruncated | timeout
  | other (message : String)
deriving DecidableEq

inductive Operation where
  | resolve | connect | handshake | write | read | shutdown
deriving DecidableEq

/-- `started` lists the operations of the session in order, `pending` is the one
that has not completed; `errors` lists what was logged. -/
structure HTTPClientSession where
  stream : Stream
  request : HTTPRequest
  started : List Operation := []
  pending : Option Operation := none
  errors : List (String × ErrorCode) := []

/-- What the surroundings answer: the error of setting the host name of the
server, the error of the completed operation, and that of shutting down a
socket without TLS. -/
structure Answer where
  sni : Option ErrorCode := none
  result : Option ErrorCode := none
  closed : Option ErrorCode := none

namespace HTTPClientSession

/-- An asynchronous operation begins. -/
def async (s : HTTPClientSession) (op : Operation) : HTTPClientSession :=
  { s with started := s.started ++ [op], pending := some op }

def logError (s : HTTPClientSession) (ec : ErrorCode) (context : String) : HTTPClientSession :=
  if ec = .streamTruncated ∨ ec = .timeout then s
  else { s with errors := s.errors ++ [(context, ec)] }

def onShutdown (s : HTTPClientSession) : Option ErrorCode → HTTPClientSession
  | none => s
  | some ec => if ec = .eof ∨ ec = .notConnected then s else s.logError ec "Failed shutdown"

/-- Without TLS the socket is shut down at once. -/
def close (s : HTTPClientSession) (closed : Option ErrorCode) : HTTPClientSession :=
  match s.stream with
  | .tcp => s.onShutdown closed
  | .ssl => s.async .shutdown

def onConnect (s : HTTPClientSession) : HTTPClientSession :=
  match s.stream with
  | .tcp => s.async .write
  | .ssl => s.async .handshake

/-- The texts that the handlers of the operations give to `logError`. -/
def context : Operation → String
  | .resolve => "resolve"
  | .connect => "connect"
  | .handshake => "handshake"
  | .write => "write"
  | .read => "read"
  | .shutdown => "Failed shutdown"

/-- The handler of an operation that has completed without an error. -/
def next (s : HTTPClientSession) (closed : Option ErrorCode) : Operation → HTTPClientSession
  | .resolve => s.async .connect
  | .connect => s.onConnect
  | .handshake => s.async .write
  | .write => s.async .read
  | .read => s.close closed
  | .shutdown => s.onShutdown none

/-- The pending operation completes: `onResolve`, `onConnect` and so on. -/
def complete (s : HTTPClientSession) (answer : Answer) : HTTPClientSession :=
  match s.pending with
  | none => s
  | some op =>
      let s := { s with pending := none }
      match answer.result, op with
      | some ec, .shutdown => s.onShutdown (some ec)
      | some ec, op => s.logError ec (context op)
      | none, op => s.next answer.closed op

/-- No operation is under way any more. -/
def done (s : HTTPClientSession) : Bool := s.pending.isNone

end HTTPClientSession

/-- The request is for a session with TLS. -/
def https (request : HTTPRequest) : Bool :=
  request.scheme = bytes "https" || request.port = 443

/-- The task that `HTTPClient::exec` posts, with `HTTPClientSession::run`. -/
def exec (request : HTTPRequest) (answer : Answer) : HTTPClientSession :=
  if https request then
    match answer.sni with
    | some ec => ({ stream := .ssl, request := request } : HTTPClientSession).logError ec
        "SSL SNI Hostname"
    | none => ({ stream := .ssl, request := request } : HTTPClientSession).async .resolve
  else ({ stream := .tcp, request := request } : HTTPClientSession).async .resolve

/-- The threads of the client as a pool of workers. -/
def client (setting : Setting) : WorkerPools.Setting HTTPRequest HTTPClientSession Answer where
  workers := setting.threads
  begin := exec
  advance := HTTPClientSession.complete
  done := HTTPClientSession.done

/-- `available` tells whether the HTTP client could be created. -/
structure HttpNotifier where
  slack : URI
  available : Bool
  mailbox : List Notification := []
  pool : Pool HTTPRequest HTTPClientSession := {}
  finished : Bool := false

def HttpNotifier.canSendSlack (s : HttpNotifier) : Bool := s.available && valid s.slack

/-- A request goes to the threads of the client. -/
def HttpNotifier.exec (s : HttpNotifier) (setting : Setting) (n : Notification) : HttpNotifier :=
  if s.canSendSlack then
    { s with pool := { s.pool with tasks := s.pool.tasks ++ [requestOf setting s.slack n] } }
  else s

def applicationStarted (app : App) : Notification :=
  .notify .trace ("Application started: \"" ++ app.binName ++ "\"")

def applicationShutdown (app : App) : Notification :=
  .notify .trace ("Application shutdown: \"" ++ app.binName ++ "\"")

def soEvtStart (setting : Setting) (slack : URI) (available : Bool) : HttpNotifier :=
  { slack := slack, available := available : HttpNotifier }.exec setting
    (applicationStarted setting.app)

inductive Event where
  /-- an agent sends a notification -/
  | send (n : Notification)
  /-- the agent handles the next notification -/
  | evtSlack
  | run (answer : Answer)
  | complete (thread : Nat) (answer : Answer)
  | soEvtFinish
  /-- the destructor of the client -/
  | stop

/-- A step of the client's threads. -/
def HttpNotifier.work (s : HttpNotifier) (setting : Setting)
    (e : WorkerPools.Event HTTPRequest Answer) : Option HttpNotifier :=
  (WorkerPools.step (client setting) s.pool e).map fun pool => { s with pool := pool }

/-- A finished agent handles nothing, and its client goes away after it. -/
def step (setting : Setting) (s : HttpNotifier) : Event → Option HttpNotifier
  | .send n => some { s with mailbox := s.mailbox ++ [n] }
  | .evtSlack =>
      match s.mailbox with
      | [] => none
      | n :: mailbox =>
          if s.finished then none else some ({ s with mailbox := mailbox }.exec setting n)
  | .run answer => s.work setting (.take answer)
  | .complete thread answer => s.work setting (.advance thread answer)
  | .soEvtFinish =>
      if s.finished then none
      else some { s.exec setting (applicationShutdown setting.app) with finished := true }
  | .stop => if s.finished then s.work setting .stop else none

/-- The operations of a session that meets no error. -/
def route : Stream → List Operation
  | .tcp => [.resolve, .connect, .write, .read]
  | .ssl => [.resolve, .connect, .handshake, .write, .read, .shutdown]

/-- The operations up to one of them. -/
def upTo (stream : Stream) (op : Operation) : List Operation :=
  (route stream).take ((route stream).idxOf op + 1)

/-- The operation that follows another one on the route of a session. -/
def next? : Stream → Operation → Option Operation
  | _, .resolve => some .connect
  | .tcp, .connect => some .write
  | .ssl, .connect => some .handshake
  | _, .handshake => some .write
  | _, .write => some .read
  | .ssl, .read => some .shutdown
  | .tcp, .read => none
  | _, .shutdown => none

/-- How many operations can still follow. -/
def rank : Operation → Nat
  | .resolve => 5
  | .connect => 4
  | .handshake => 3
  | .write => 2
  | .read => 1
  | .shutdown => 0

theorem upTo_next {stream : Stream} {op next : Operation} (h : next? stream op = some next)
    (hop : op ∈ route stream) :
    next ∈ route stream ∧ upTo stream next = upTo stream op ++ [next] := by
  cases stream <;> cases op <;> cases h <;> revert hop <;> decide

theorem rank_next {stream : Stream} {op next : Operation} (h : next? stream op = some next) :
    rank next < rank op := by
  cases stream <;> cases op <;> cases h <;> decide

/-- A session uses TLS when its request asks for it, and starts the operations
of its route in order: the request is written at most once, and with TLS only
after the handshake. -/
structure InOrder (s : HTTPClientSession) : Prop where
  stream : s.stream = if https s.request then .ssl else .tcp
  route : s.started <+: route s.stream
  pending : ∀ op ∈ s.pending, op ∈ HttpNotifications.route s.stream ∧ s.started = upTo s.stream op

namespace HTTPClientSession

variable {s : HTTPClientSession}

theorem frame_logError (s : HTTPClientSession) (ec : ErrorCode) (context : String) :
    (s.logError ec context).stream = s.stream ∧ (s.logError ec context).request = s.request ∧
      (s.logError ec context).started = s.started ∧
      (s.logError ec context).pending = s.pending := by
  unfold logError
  split <;> exact ⟨rfl, rfl, rfl, rfl⟩

theorem frame_onShutdown (s : HTTPClientSession) (closed : Option ErrorCode) :
    (s.onShutdown closed).stream = s.stream ∧ (s.onShutdown closed).request = s.request ∧
      (s.onShutdown closed).started = s.started ∧ (s.onShutdown closed).pending = s.pending := by
  cases closed with
  | none => exact ⟨rfl, rfl, rfl, rfl⟩
  | some ec =>
      unfold onShutdown
      dsimp only
      split
      · exact ⟨rfl, rfl, rfl, rfl⟩
      · exact frame_logError s ec "Failed shutdown"

/-- A session goes on with the next operation of its route, or it is over. -/
theorem complete_cases {op : Operation} (hpending : s.pending = some op) (answer : Answer) :
    (s.complete answer).stream = s.stream ∧ (s.complete answer).request = s.request ∧
      ((s.complete answer).started = s.started ∧ (s.complete answer).pending = none ∨
        ∃ next, next? s.stream op = some next ∧
          (s.complete answer).started = s.started ++ [next] ∧
          (s.complete answer).pending = some next) := by
  obtain ⟨stream, request, started, pending, errors⟩ := s
  obtain rfl : pending = some op := hpending
  have hended (t : HTTPClientSession)
      (hframe : t.stream = stream ∧ t.request = request ∧ t.started = started ∧ t.pending = none) :
      t.stream = stream ∧ t.request = request ∧
        (t.started = started ∧ t.pending = none ∨
          ∃ next, next? stream op = some next ∧ t.started = started ++ [next] ∧
            t.pending = some next) :=
    ⟨hframe.1, hframe.2.1, .inl hframe.2.2⟩
  unfold complete
  dsimp only
  cases answer.result with
  | some ec =>
      cases op with
      | shutdown => exact hended _ (frame_onShutdown _ (some ec))
      | _ => exact hended _ (frame_logError _ ec _)
  | none =>
      cases op with
      | resolve => exact ⟨rfl, rfl, .inr ⟨.connect, rfl, rfl, rfl⟩⟩
      | connect =>
          cases stream with
          | tcp => exact ⟨rfl, rfl, .inr ⟨.write, rfl, rfl, rfl⟩⟩
          | ssl => exact ⟨rfl, rfl, .inr ⟨.handshake, rfl, rfl, rfl⟩⟩
      | handshake => exact ⟨rfl, rfl, .inr ⟨.write, by cases stream <;> rfl, rfl, rfl⟩⟩
      | write => exact ⟨rfl, rfl, .inr ⟨.read, by cases stream <;> rfl, rfl, rfl⟩⟩
      | read =>
          cases stream with
          | tcp => exact hended _ (frame_onShutdown _ answer.closed)
          | ssl => exact ⟨rfl, rfl, .inr ⟨.shutdown, rfl, rfl, rfl⟩⟩
      | shutdown => exact hended _ ⟨rfl, rfl, rfl, rfl⟩

theorem request_complete (s : HTTPClientSession) (answer : Answer) :
    (s.complete answer).request = s.request := by
  cases hpending : s.pending with
  | none => rw [complete, hpending]
  | some op => exact (complete_cases hpending answer).2.1

theorem inOrder_complete (h : InOrder s) (answer : Answer) : InOrder (s.complete answer) := by
  cases hpending : s.pending with
  | none =>
      rw [HTTPClientSession.complete, hpending]
      exact h
  | some op =>
      obtain ⟨hop, hstarted⟩ := h.pending op hpending
      obtain ⟨hstream, hrequest, ⟨hsame, hover⟩ | ⟨next, hnext, hgrown, hpending'⟩⟩ :=
        complete_cases hpending answer
      · refine ⟨?_, ?_, ?_⟩
        · rw [hstream, hrequest, h.stream]
        · rw [hstream, hsame]
          exact h.route
        · rw [hover]
          exact fun _ hnone => nomatch hnone
      · obtain ⟨hmem, hupTo⟩ := upTo_next hnext hop
        have hgrown' : (s.complete answer).started = upTo s.stream next := by
          rw [hgrown, hstarted, hupTo]
        refine ⟨?_, ?_, ?_⟩
        · rw [hstream, hrequest, h.stream]
        · rw [hstream, hgrown']
          exact List.take_prefix _ _
        · rw [hpending', hstream]
          rintro other ⟨⟩
          exact ⟨hmem, hgrown'⟩

end HTTPClientSession

theorem request_exec (request : HTTPRequest) (answer : Answer) :
    (exec request answer).request = request := by
  unfold exec
  split
  · split
    · exact (HTTPClientSession.frame_logError _ _ _).2.1
    · rfl
  · rfl

theorem inOrder_exec (request : HTTPRequest) (answer : Answer) :
    InOrder (exec request answer) := by
  unfold exec
  split
  next hhttps =>
    split
    next ec _ =>
      obtain ⟨hstream, hrequest, hstarted, hpending⟩ := HTTPClientSession.frame_logError
        ({ stream := .ssl, request := request } : HTTPClientSession) ec "SSL SNI Hostname"
      refine ⟨?_, ?_, ?_⟩
      · rw [hstream, hrequest, if_pos hhttps]
      · rw [hstarted]
        exact List.nil_prefix
      · rw [hpending]
        exact fun _ hnone => nomatch hnone
    · refine ⟨(if_pos hhttps).symm, ?_, ?_⟩
      · exact ⟨_, rfl⟩
      · rintro op ⟨⟩
        exact ⟨List.mem_cons_self, rfl⟩
  next hplain =>
    refine ⟨(if_neg hplain).symm, ?_, ?_⟩
    · exact ⟨_, rfl⟩
    · rintro op ⟨⟩
      exact ⟨List.mem_cons_self, rfl⟩

/-- The notifications that the agent handles or makes itself in a step. -/
def notifications (setting : Setting) (t : Transition HttpNotifier Event) : List Notification :=
  match t.event with
  | .evtSlack => t.pre.mailbox.head?.toList
  | .soEvtFinish => [applicationShutdown setting.app]
  | _ => []

/-- The requests that are given to the client in a step. -/
def requests (setting : Setting) (t : Transition HttpNotifier Event) : List HTTPRequest :=
  if t.pre.canSendSlack then (notifications setting t).map (requestOf setting t.pre.slack)
  else []

/-- The request that a thread begins with in a step. -/
def begun (t : Transition HttpNotifier Event) : List HTTPRequest :=
  match t.event with
  | .run _ => t.pre.pool.tasks.head?.toList
  | _ => []

/-- The notifications that a step sends to the agent. -/
def sent (t : Transition HttpNotifier Event) : List Notification :=
  match t.event with
  | .send n => [n]
  | _ => []

/-- The notification that a step handles. -/
def handled (t : Transition HttpNotifier Event) : List Notification :=
  match t.event with
  | .evtSlack => t.pre.mailbox.head?.toList
  | _ => []

section Steps

variable {setting : Setting} {s s' : HttpNotifier}

theorem work_cases {e : WorkerPools.Event HTTPRequest Answer}
    (h : s.work setting e = some s') :
    WorkerPools.step (client setting) s.pool e = some s'.pool ∧ s'.mailbox = s.mailbox := by
  obtain ⟨pool, hpool, rfl⟩ := Option.map_eq_some_iff.mp h
  exact ⟨hpool, rfl⟩

theorem exec_cases (s : HttpNotifier) (setting : Setting) (n : Notification) :
    (s.exec setting n).mailbox = s.mailbox ∧
      (s.canSendSlack = false ∧ (s.exec setting n).pool = s.pool ∨
        s.canSendSlack = true ∧ WorkerPools.step (client setting) s.pool
          (.post (requestOf setting s.slack n)) = some (s.exec setting n).pool) := by
  unfold HttpNotifier.exec
  split
  next hcan => exact ⟨rfl, .inr ⟨hcan, rfl⟩⟩
  next hcannot => exact ⟨rfl, .inl ⟨Bool.eq_false_iff.mpr hcannot, rfl⟩⟩

theorem pool_step {e : Event} (hstep : step setting s e = some s') :
    (s'.pool = s.pool ∧ requests setting ⟨s, e, s'⟩ = [] ∧ begun ⟨s, e, s'⟩ = []) ∨
      ∃ m, WorkerPools.step (client setting) s.pool m = some s'.pool ∧
        m.posted = requests setting ⟨s, e, s'⟩ ∧
        WorkerPools.taken s.pool m = begun ⟨s, e, s'⟩ := by
  have hposted (t : HttpNotifier) (n : Notification) (ht : t.pool = s.pool)
      (hcan : t.canSendSlack = s.canSendSlack) (hslack : t.slack = s.slack)
      (hnotifications : notifications setting ⟨s, e, s'⟩ = [n])
      (hbegun : begun ⟨s, e, s'⟩ = []) (hexec : (t.exec setting n).pool = s'.pool) :
      (s'.pool = s.pool ∧ requests setting ⟨s, e, s'⟩ = [] ∧ begun ⟨s, e, s'⟩ = []) ∨
        ∃ m, WorkerPools.step (client setting) s.pool m = some s'.pool ∧
          m.posted = requests setting ⟨s, e, s'⟩ ∧
          WorkerPools.taken s.pool m = begun ⟨s, e, s'⟩ := by
    obtain ⟨-, ⟨hcannot, hsame⟩ | ⟨hsend, hpost⟩⟩ := exec_cases t setting n
    · refine .inl ⟨?_, ?_, hbegun⟩
      · rw [← hexec, hsame, ht]
      · rw [requests, ← hcan, hcannot]
        rfl
    · refine .inr ⟨.post (requestOf setting t.slack n), ?_, ?_, hbegun.symm⟩
      · rw [← hexec, ← ht]
        exact hpost
      · rw [requests, ← hcan, hsend, hnotifications, hslack]
        rfl
  have hquiet (m : WorkerPools.Event HTTPRequest Answer) (hm : s.work setting m = some s')
      (hnotifications : notifications setting ⟨s, e, s'⟩ = []) (hposts : m.posted = [])
      (hbegun : WorkerPools.taken s.pool m = begun ⟨s, e, s'⟩) :
      ∃ m, WorkerPools.step (client setting) s.pool m = some s'.pool ∧
        m.posted = requests setting ⟨s, e, s'⟩ ∧
        WorkerPools.taken s.pool m = begun ⟨s, e, s'⟩ := by
    refine ⟨m, (work_cases hm).1, ?_, hbegun⟩
    rw [requests, hnotifications, hposts, List.map_nil, ite_self]
  cases e with
  | send n =>
      obtain rfl := Option.some.inj hstep
      exact .inl ⟨rfl, by simp [requests, notifications], rfl⟩
  | evtSlack =>
      simp only [step] at hstep
      split at hstep
      · cases hstep
      next n mailbox hmailbox =>
        split_ifs at hstep
        obtain rfl := Option.some.inj hstep
        exact hposted { s with mailbox := mailbox } n rfl rfl rfl
          (by simp [notifications, hmailbox]) rfl rfl
  | run answer => exact .inr (hquiet (.take answer) hstep rfl rfl rfl)
  | complete thread answer => exact .inr (hquiet (.advance thread answer) hstep rfl rfl rfl)
  | soEvtFinish =>
      simp only [step] at hstep
      split_ifs at hstep
      obtain rfl := Option.some.inj hstep
      exact hposted s (applicationShutdown setting.app) rfl rfl rfl rfl rfl rfl
  | stop =>
      simp only [step] at hstep
      split_ifs at hstep
      exact .inr (hquiet .stop hstep rfl rfl rfl)

theorem mailbox_step {e : Event} (hstep : step setting s e = some s') :
    s.mailbox ++ sent ⟨s, e, s'⟩ = handled ⟨s, e, s'⟩ ++ s'.mailbox := by
  cases e with
  | send n => exact Option.some.inj hstep ▸ rfl
  | evtSlack =>
      simp only [step] at hstep
      split at hstep
      · cases hstep
      next n mailbox hmailbox =>
        split_ifs at hstep
        obtain rfl := Option.some.inj hstep
        simp only [sent, handled, hmailbox, (exec_cases _ setting n).1]
        exact List.append_nil _
  | run answer => exact (work_cases hstep).2 ▸ List.append_nil _
  | complete thread answer => exact (work_cases hstep).2 ▸ List.append_nil _
  | soEvtFinish =>
      simp only [step] at hstep
      split_ifs at hstep
      obtain rfl := Option.some.inj hstep
      simp only [sent, handled, (exec_cases _ setting _).1]
      exact List.append_nil _
  | stop =>
      simp only [step] at hstep
      split_ifs at hstep
      exact (work_cases hstep).2 ▸ List.append_nil _

end Steps

/-- Every notification that was sent is handled in order, and every request that
came of one is begun in order, by one session, which does what its request asks
for in the right order.  A single thread runs the sessions one after another. -/
structure Notified (setting : Setting) (s₀ : HttpNotifier)
    (tr : List (Transition HttpNotifier Event)) (s : HttpNotifier) : Prop where
  handled : tr.flatMap sent = tr.flatMap handled ++ s.mailbox
  begun : s₀.pool.tasks ++ tr.flatMap (requests setting) = tr.flatMap begun ++ s.pool.tasks
  once : (s.pool.jobs.map HTTPClientSession.request).Perm (tr.flatMap HttpNotifications.begun)
  inOrder : ∀ session ∈ s.pool.jobs, InOrder session
  threads : Busy (client setting) s.pool
  oneByOne : setting.threads ≤ 1 →
    (s.pool.ended ++ s.pool.running).map HTTPClientSession.request =
      tr.flatMap HttpNotifications.begun

theorem pool_soEvtStart (setting : Setting) (slack : URI) (available : Bool) :
    (soEvtStart setting slack available).pool.jobs = [] ∧
      (soEvtStart setting slack available).mailbox = [] ∧
      (soEvtStart setting slack available).pool.stopped = false := by
  simp only [soEvtStart, HttpNotifier.exec]
  split <;> exact ⟨rfl, rfl, rfl⟩

theorem notified_of_run (setting : Setting) (slack : URI) (available : Bool)
    (tr : List (Transition HttpNotifier Event)) (s : HttpNotifier)
    (hrun : Run (step setting) (soEvtStart setting slack available) tr s) :
    Notified setting (soEvtStart setting slack available) tr s := by
  obtain ⟨hjobs, hmailbox, -⟩ := pool_soEvtStart setting slack available
  obtain ⟨hrunning, hended⟩ := List.append_eq_nil_iff.mp hjobs
  induction hrun with
  | nil =>
      refine ⟨by rw [hmailbox]; rfl, List.append_nil _, by rw [hjobs]; rfl, ?_, ?_, fun _ => ?_⟩
      · rw [hjobs]
        exact fun _ hnone => nomatch hnone
      · refine ⟨?_, ?_, ?_⟩
        · rw [hrunning]
          exact Nat.zero_le _
        · rw [hrunning]
          exact fun _ hnone => nomatch hnone
        · rw [hended]
          exact fun _ hnone => nomatch hnone
      · rw [hended, hrunning]
        rfl
  | @snoc tr s e s' _ hstep ih =>
      have hone {α : Type} (f : Transition HttpNotifier Event → List α)
          (t : Transition HttpNotifier Event) :
          (tr ++ [t]).flatMap f = tr.flatMap f ++ f t := by
        rw [List.flatMap_append, List.flatMap_singleton]
      have hmail := congrArg (tr.flatMap HttpNotifications.handled ++ ·) (mailbox_step hstep)
      simp only [← List.append_assoc, ← ih.handled] at hmail
      rw [← hone, ← hone] at hmail
      rcases pool_step hstep with ⟨hpool, hrequests, hbegun⟩ | ⟨m, hm, hrequests, hbegun⟩
      · refine ⟨hmail, ?_, ?_, ?_, ?_, ?_⟩ <;> rw [hpool]
        · rw [hone, hone, hrequests, hbegun, List.append_nil, List.append_nil]
          exact ih.begun
        · rw [hone, hbegun, List.append_nil]
          exact ih.once
        · exact ih.inOrder
        · exact ih.threads
        · rw [hone, hbegun, List.append_nil]
          exact ih.oneByOne
      · refine ⟨hmail, ?_, ?_, ?_, ih.threads.step hm, fun hsingle => ?_⟩
        · rw [hone, hone, ← hrequests, ← hbegun, ← List.append_assoc, ih.begun, List.append_assoc,
            WorkerPools.tasks_step hm, List.append_assoc]
        · rw [hone, ← hbegun]
          exact (WorkerPools.jobs_step request_exec HTTPClientSession.request_complete hm).trans
            (ih.once.append_right _)
        · exact WorkerPools.forall_jobs_step inOrder_exec
            (fun _ answer h => HTTPClientSession.inOrder_complete h answer) ih.inOrder hm
        · rw [hone, ← hbegun, ← ih.oneByOne hsingle]
          exact WorkerPools.inOrder_step request_exec HTTPClientSession.request_complete
            ih.threads hsingle hm

/-- A hook with TLS, and a client with one thread. -/
def hook : URI where
  scheme := bytes "https"
  host := bytes "hooks"
  port := 443
  path := bytes "/T1"

def singleThread : Setting where
  threads := 1
  dump _ := bytes "{}"

/-- The first session meets a timeout, the second writes its request. -/
def twoNotifications : List Event :=
  [.send (.text "hi"), .run {}, .evtSlack, .complete 0 {}, .complete 0 { result := some .timeout },
    .run {}, .complete 0 {}, .complete 0 {}, .complete 0 {}, .complete 0 {}]

theorem twoNotifications_isSome :
    (Runs.exec (step singleThread) (soEvtStart singleThread hook true)
      twoNotifications).isSome := by
  decide +kernel

theorem notified_of_run_twoNotifications :
    Notified singleThread (soEvtStart singleThread hook true)
      (trace (step singleThread) (soEvtStart singleThread hook true) twoNotifications)
      ((Runs.exec (step singleThread) (soEvtStart singleThread hook true) twoNotifications).get
        twoNotifications_isSome) :=
  notified_of_run singleThread hook true _ _ (run_trace twoNotifications twoNotifications_isSome)

/-- What the threads of the client do. -/
def Event.own : Event → Prop
  | .run _ | .complete _ _ => True
  | _ => False

/-- The threads come to an end in a bounded number of steps, and unless the
client is stopped they have then run a session for every request. -/
structure Finishes (setting : Setting) (s₀ : HttpNotifier)
    (tr : List (Transition HttpNotifier Event)) (s : HttpNotifier) : Prop where
  bounded : ∀ es s', (∀ e ∈ es, e.own) → Runs.exec (step setting) s es = some s' →
    es.length ≤ 7 * s.pool.tasks.length + 6 * s.pool.running.length
  done : 0 < setting.threads → s.pool.stopped = false →
    (∀ e : Event, e.own → step setting s e = none) →
      (s.pool.ended.map HTTPClientSession.request).Perm
        (s₀.pool.tasks ++ tr.flatMap (requests setting))

section Progress

variable {setting : Setting} {s s' : HttpNotifier}

/-- How many operations a session has still before it. -/
def HTTPClientSession.left (s : HTTPClientSession) : Nat := (s.pending.map rank).getD 0

theorem left_le (s : HTTPClientSession) : s.left ≤ 5 := by
  rw [HTTPClientSession.left]
  cases s.pending with
  | none => exact Nat.zero_le _
  | some op => cases op <;> decide

theorem left_complete (s : HTTPClientSession) (answer : Answer)
    (hgoing : (s.complete answer).done = false) : (s.complete answer).left < s.left := by
  cases hpending : s.pending with
  | none => simp [HTTPClientSession.complete, HTTPClientSession.done, hpending] at hgoing
  | some op =>
      obtain ⟨-, -, ⟨-, hover⟩ | ⟨next, hnext, -, hpending'⟩⟩ :=
        HTTPClientSession.complete_cases hpending answer
      · simp [HTTPClientSession.done, hover] at hgoing
      · rw [HTTPClientSession.left, HTTPClientSession.left, hpending, hpending']
        exact rank_next hnext

theorem pending_step {e : Event} (hown : e.own) (hstep : step setting s e = some s') :
    WorkerPools.pending HTTPClientSession.left 5 s'.pool <
      WorkerPools.pending HTTPClientSession.left 5 s.pool := by
  have hfall (m : WorkerPools.Event HTTPRequest Answer) (hm : m.own)
      (hwork : s.work setting m = some s') :
      WorkerPools.pending HTTPClientSession.left 5 s'.pool <
        WorkerPools.pending HTTPClientSession.left 5 s.pool :=
    WorkerPools.pending_lt (fun _ _ => left_le _) left_complete hm (work_cases hwork).1
  cases e with
  | run answer => exact hfall (.take answer) trivial hstep
  | complete thread answer => exact hfall (.advance thread answer) trivial hstep
  | _ => exact hown.elim

theorem own_of_pool {m : WorkerPools.Event HTTPRequest Answer} (hown : m.own)
    (hm : (WorkerPools.step (client setting) s.pool m).isSome) :
    ∃ e : Event, e.own ∧ (step setting s e).isSome := by
  cases m with
  | take answer => exact ⟨.run answer, trivial, by rwa [step, HttpNotifier.work, Option.isSome_map]⟩
  | advance thread answer =>
      exact ⟨.complete thread answer, trivial, by rwa [step, HttpNotifier.work, Option.isSome_map]⟩
  | _ => exact hown.elim

end Progress

theorem finishes_of_run (setting : Setting) (slack : URI) (available : Bool)
    (tr : List (Transition HttpNotifier Event)) (s : HttpNotifier)
    (hrun : Run (step setting) (soEvtStart setting slack available) tr s) :
    Finishes setting (soEvtStart setting slack available) tr s := by
  have hnotified := notified_of_run setting slack available tr s hrun
  constructor
  · intro es s' hown hexec
    have hfall (s : HttpNotifier) (e : Event) (s' : HttpNotifier) (hown : e.own)
        (hstep : step setting s e = some s') :
        WorkerPools.pending HTTPClientSession.left 5 s'.pool <
          WorkerPools.pending HTTPClientSession.left 5 s.pool :=
      pending_step hown hstep
    have hle := length_add_le_of_exec hfall hown hexec
    have hsum := List.sum_le_card_nsmul (s.pool.running.map fun session => session.left + 1) 6
      fun n hn => ?_
    · rw [List.length_map, Nat.nsmul_eq_mul] at hsum
      simp only [WorkerPools.pending] at hle
      omega
    · obtain ⟨session, -, rfl⟩ := List.mem_map.mp hn
      exact Nat.succ_le_succ (left_le session)
  · intro hthreads hstopped hstuck
    have hidle : s.pool.tasks = [] ∧ s.pool.running = [] := by
      by_contra hbusy
      obtain ⟨m, hown, hm⟩ : ∃ m : WorkerPools.Event HTTPRequest Answer, m.own ∧
          (WorkerPools.step (client setting) s.pool m).isSome :=
        WorkerPools.exists_step hthreads hstopped {} (not_and_or.mp hbusy)
      obtain ⟨e, hown', he⟩ := own_of_pool hown hm
      simp [hstuck e hown'] at he
    have hbegun := hnotified.begun
    rw [hidle.1, List.append_nil] at hbegun
    have honce := hnotified.once
    rw [Pool.jobs, hidle.2, List.nil_append] at honce
    rwa [hbegun]

theorem finishes_of_run_twoNotifications :
    Finishes singleThread (soEvtStart singleThread hook true)
      (trace (step singleThread) (soEvtStart singleThread hook true) twoNotifications)
      ((Runs.exec (step singleThread) (soEvtStart singleThread hook true) twoNotifications).get
        twoNotifications_isSome) :=
  finishes_of_run singleThread hook true _ _ (run_trace twoNotifications twoNotifications_isSome)

end TwitchChatWorker.HttpNotifications
