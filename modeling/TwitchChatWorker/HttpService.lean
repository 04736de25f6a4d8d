import TwitchChatWorker.BasicAuthentication
import TwitchChatWorker.HttpSessions
import TwitchChatWorker.Lib.Batching
import TwitchChatWorker.RequestAnswers

/-!
The control interface as a whole: the listener, its connections, the
authentication, the routing of a request to an agent as a message, and the
response that comes back as another message.  Messages may be handled in any
order, and the connections go on meanwhile.
-/

namespace TwitchChatWorker.HttpService

open TwitchChatWorker.BasicAuthentication (documented)
open TwitchChatWorker.HttpController
open TwitchChatWorker.HttpRequests
open TwitchChatWorker.HttpSessions
open TwitchChatWorker.JsonValues
open TwitchChatWorker.Lib.Batching
open TwitchChatWorker.Lib.Runs
open TwitchChatWorker.RequestAnswers
open TwitchChatWorker.Uri

abbrev Request := BasicAuthentication.Request

abbrev HTTPServer := BasicAuthentication.HTTPServer

/-- What is written to a connection. -/
structure Reply where
  status : Nat
  version : Nat
  keepAlive : Bool
  body : Body

/-- A response with a length needs the end of the stream only to close it. -/
def Reply.needEof (reply : Reply) : Bool := !reply.keepAlive

/-- A refusal of the server itself. -/
def refusal (response : BasicAuthentication.Response) : Reply :=
  ⟨response.status, response.version, response.keepAlive, .dumped response.body⟩

/-- `HTTPResponseFactory::CreateResponse`. -/
def createResponse (req : Request) (response : HttpRequests.Response) : Reply :=
  ⟨response.status, req.version, req.keepAlive, response.body⟩

abbrev Session := HTTPServerSession Request Reply

/-- The `SendLambda` of a request holds its connection. -/
structure SendLambda where
  holder : Nat
  request : Nat
deriving DecidableEq

/-- The messages between the controller and the agents. -/
inductive Message where
  | hreq (request : Hreq)
  | resp (response : HttpRequests.Response)

/-- A message with the connection and the request that it belongs to. -/
structure Mail where
  send : SendLambda
  req : Request
  message : Message

/-- What does not change while the program runs: the configuration of the
server, and how the bytes of a request read as text. -/
structure Setting where
  boost : BasicAuthentication.Boost
  server : HTTPServer
  stream : Stream
  text : Bytes → String

/-- All connections, the messages on their way and the agents. -/
structure State where
  accepting : Bool := true
  sessions : List Session := []
  mail : List Mail := []
  service : Service

namespace State

/-- A step of one connection. -/
def stepSession (s : State) (c : Nat) (e : HttpSessions.Event Request Reply) : Option State :=
  match s.sessions[c]? with
  | none => none
  | some session =>
      (HttpSessions.step Reply.needEof session e).map fun session =>
        { s with sessions := s.sessions.set c session }

/-- The `SendLambda` of a request is called. -/
def sendReply (s : State) (send : SendLambda) (reply : Reply) : Option State :=
  s.stepSession send.holder (.send send.request reply)

/-- `HTTPServer::handleRequest` with `HttpController::handleRequest` behind it. -/
def handleRequest (setting : Setting) (s : State) (send : SendLambda) (req : Request) :
    Option State :=
  match BasicAuthentication.handleRequest setting.boost setting.server req with
  | .error _ => none
  | .ok (.sent response) => s.sendReply send (refusal response)
  | .ok (.passed req) =>
      match route (setting.text req.target) with
      | .answered response =>
          if response.body.encodable then s.sendReply send (createResponse req response) else none
      | .sent request => some { s with mail := s.mail ++ [⟨send, req, .hreq request⟩] }

/-- After an error the listener accepts no more. -/
def onAccept (setting : Setting) (s : State) : Option ErrorCode → State
  | some _ => { s with accepting := false }
  | none => { s with sessions := s.sessions ++ [.start setting.stream] }

/-- A connection has read a request, which is handled at once. -/
def onRead (setting : Setting) (s : State) (c : Nat) (req : Request) : Option State :=
  match s.sessions[c]? with
  | none => none
  | some session =>
      (s.stepSession c (.onRead (.ok req))).bind fun s =>
        s.handleRequest setting ⟨c, session.received.length⟩ req

/-- An agent handles a request, or the controller sends a response off.  A handler
with a fault ends the service. -/
def handle (setting : Setting) (env : Surroundings) (s : State) (mail : Mail) : Option State :=
  match mail.message with
  | .resp response => s.sendReply mail.send (createResponse mail.req response)
  | .hreq request =>
      match dispatch env s.service (setting.text mail.req.body) request with
      | .error _ => none
      | .ok (service, responses) =>
          some { s with
            service := service
            mail := s.mail ++ responses.map fun response =>
              ⟨mail.send, mail.req, .resp response⟩ }

end State

inductive Event where
  | onAccept (ec : Option ErrorCode)
  | completed (c : Nat) (e : HttpSessions.Event Request Reply)
  | handle (i : Nat) (env : Surroundings)

def step (setting : Setting) (s : State) : Event → Option State
  | .onAccept ec => if s.accepting then some (s.onAccept setting ec) else none
  | .completed c (.onRead (.ok req)) => s.onRead setting c req
  | .completed _ (.send _ _) => none
  | .completed c e => s.stepSession c e
  | .handle i env =>
      match s.mail[i]? with
      | none => none
      | some mail => { s with mail := s.mail.eraseIdx i }.handle setting env mail

/-! ### Every request gets its own response -/

/-- A handled request is one that its agent answers once. -/
def HandlesUsable (setting : Setting) (t : Transition State Event) : Prop :=
  match t.event with
  | .handle i env => ∀ mail request, t.pre.mail[i]? = some mail → mail.message = .hreq request →
      Usable env t.pre.service (setting.text mail.req.body) request
  | _ => True

/-- The `SendLambda`s that wait in messages, with their requests. -/
def lambdas (mail : List Mail) : List (SendLambda × Request) :=
  mail.map fun m => (m.send, m.req)

/-- The requests of a connection whose `SendLambda` waits. -/
def underWay (waiting : List (SendLambda × Request)) (c : Nat) : List Nat :=
  waiting.filterMap fun l => if l.1.holder = c then some l.1.request else none

/-- The request that was taken and has no response yet. -/
def owed (session : Session) : List Nat :=
  if session.written.length < session.received.length then [session.written.length] else []

/-- A response is made from the request that it answers. -/
def AnswersOwn (session : Session) : Prop :=
  ∀ i reply, (i, reply) ∈ session.written → ∃ req, session.received[i]? = some req ∧
    reply.version = req.version ∧ reply.keepAlive = req.keepAlive

/-- A connection goes on in turns, and exactly the request that it owes a
response waits, once. -/
structure Served (waiting : List (SendLambda × Request)) (c : Nat) (session : Session) : Prop where
  orderly : Orderly session
  waits : underWay waiting c = owed session
  own : ∀ l ∈ waiting, l.1.holder = c → session.received[l.1.request]? = some l.2
  answersOwn : AnswersOwn session

/-- `Served` for all connections, and every `SendLambda` holds one of them. -/
structure AllServed (sessions : List Session) (waiting : List (SendLambda × Request)) :
    Prop where
  served : ∀ c session, sessions[c]? = some session → Served waiting c session
  holders : ∀ l ∈ waiting, ∃ session, sessions[l.1.holder]? = some session

section Connections

variable {session session' : Session} {waiting : List (SendLambda × Request)} {c : Nat}

theorem owed_of_answered (h : session.received.length = session.written.length) :
    owed session = [] := by
  simp [owed, h]

theorem underWay_cons_self (i : Nat) (req : Request) (waiting : List (SendLambda × Request)) :
    underWay ((⟨c, i⟩, req) :: waiting) c = i :: underWay waiting c := by
  simp [underWay]

theorem underWay_cons_ne {send : SendLambda} (hne : send.holder ≠ c) (req : Request)
    (waiting : List (SendLambda × Request)) :
    underWay ((send, req) :: waiting) c = underWay waiting c := by
  simp [underWay, hne]

theorem Served.perm {waiting' : List (SendLambda × Request)} (h : Served waiting c session)
    (hperm : waiting.Perm waiting') : Served waiting' c session where
  orderly := h.orderly
  waits := by
    have howed : (underWay waiting' c).Perm (owed session) := by
      rw [← h.waits]
      exact (hperm.filterMap _).symm
    by_cases hlt : session.written.length < session.received.length
    · rw [owed, if_pos hlt] at howed ⊢
      exact List.perm_singleton.mp howed
    · rw [owed, if_neg hlt] at howed ⊢
      exact List.perm_nil.mp howed
  own := fun l hl => h.own l (hperm.mem_iff.mpr hl)
  answersOwn := h.answersOwn

/-- An event that neither takes a request nor sends a response. -/
theorem Served.quiet (h : Served waiting c session) {e : HttpSessions.Event Request Reply}
    (hasked : e.asked = []) (hsent : e.sent = [])
    (hstep : HttpSessions.step Reply.needEof session e = some session') :
    Served waiting c session' := by
  obtain ⟨hreceived, hwritten⟩ := frame_step hstep
  rw [hasked, List.append_nil] at hreceived
  rw [hsent, List.append_nil] at hwritten
  have hfresh : AnswersFresh ⟨session, e, session'⟩ := by
    cases e with
    | send request msg => simp [Event.sent] at hsent
    | _ => trivial
  refine ⟨(h.orderly.step_iff hstep).mpr hfresh, ?_, ?_, ?_⟩
  · rw [h.waits, owed, owed, hreceived, hwritten]
  · rw [hreceived]
    exact h.own
  · unfold AnswersOwn
    rw [hreceived, hwritten]
    exact h.answersOwn

theorem Served.ask (h : Served waiting c session) {req : Request}
    (hstep : HttpSessions.step Reply.needEof session (.onRead (.ok req)) = some session') :
    Served ((⟨c, session.received.length⟩, req) :: waiting) c session' := by
  obtain ⟨hreceived, hwritten⟩ := frame_step hstep
  simp only [Event.asked, Event.sent, List.append_nil] at hreceived hwritten
  obtain ⟨s₁, hfinished, -⟩ := Option.map_eq_some_iff.mp hstep
  obtain ⟨hops, -⟩ := finished_eq_some h.orderly.single hfinished
  have hanswered := h.orderly.answered hops
  refine ⟨(h.orderly.step_iff hstep).mpr trivial, ?_, ?_, ?_⟩
  · rw [underWay_cons_self, h.waits, owed_of_answered hanswered]
    simp [owed, hreceived, hwritten, hanswered]
  · intro l hl hholder
    rw [hreceived]
    rcases List.mem_cons.mp hl with rfl | hl
    · simp
    · have hown := h.own l hl hholder
      rw [List.getElem?_append_left (List.getElem?_eq_some_iff.mp hown).1]
      exact hown
  · intro i reply hmem
    rw [hwritten] at hmem
    obtain ⟨req', hreq', hfields⟩ := h.answersOwn i reply hmem
    refine ⟨req', ?_, hfields⟩
    rw [hreceived, List.getElem?_append_left (List.getElem?_eq_some_iff.mp hreq').1]
    exact hreq'

theorem Served.reply {i : Nat} {req : Request} {reply : Reply}
    (h : Served ((⟨c, i⟩, req) :: waiting) c session)
    (hversion : reply.version = req.version) (hkeepAlive : reply.keepAlive = req.keepAlive)
    (hstep : HttpSessions.step Reply.needEof session (.send i reply) = some session') :
    Served waiting c session' := by
  obtain ⟨hreceived, hwritten⟩ := frame_step hstep
  simp only [Event.asked, Event.sent, List.append_nil] at hreceived hwritten
  have hwaits := h.waits
  rw [underWay_cons_self] at hwaits
  have hreq := h.own (⟨c, i⟩, req) (by simp) rfl
  have hlt := (List.getElem?_eq_some_iff.mp hreq).1
  obtain ⟨rfl, hnone⟩ : i = session.written.length ∧ underWay waiting c = [] := by
    unfold owed at hwaits
    split at hwaits
    · simpa using hwaits
    · simp at hwaits
  have hfresh : session.written.length ∉ session.written.map Prod.fst := by
    simp [h.orderly.inOrder]
  have hlength := (h.orderly.eq_of_fresh hlt hfresh).2.2
  refine ⟨(h.orderly.step_iff hstep).mpr hfresh, ?_, ?_, ?_⟩
  · rw [hnone, owed_of_answered (by simp [hreceived, hwritten, hlength])]
  · rw [hreceived]
    exact fun l hl => h.own l (List.mem_cons_of_mem _ hl)
  · intro j answer hmem
    rw [hwritten] at hmem
    rw [hreceived]
    rcases List.mem_append.mp hmem with hmem | hmem
    · exact h.answersOwn j answer hmem
    · obtain ⟨rfl, rfl⟩ := Prod.mk.inj (List.mem_singleton.mp hmem)
      exact ⟨req, hreq, hversion, hkeepAlive⟩

end Connections

section States

variable {sessions : List Session} {waiting : List (SendLambda × Request)}

theorem AllServed.perm {waiting' : List (SendLambda × Request)} (h : AllServed sessions waiting)
    (hperm : waiting.Perm waiting') : AllServed sessions waiting' where
  served := fun c session hc => (h.served c session hc).perm hperm
  holders := fun l hl => h.holders l (hperm.mem_iff.mpr hl)

theorem AllServed.set {waiting' : List (SendLambda × Request)} (h : AllServed sessions waiting)
    {c : Nat} {session session' : Session} (hc : sessions[c]? = some session)
    (hserved : Served waiting' c session')
    (hwaits : ∀ c' ≠ c, underWay waiting' c' = underWay waiting c')
    (hmem : ∀ l ∈ waiting', l.1.holder ≠ c → l ∈ waiting) :
    AllServed (sessions.set c session') waiting' := by
  have hlt := (List.getElem?_eq_some_iff.mp hc).1
  constructor
  · intro c' other hother
    rcases eq_or_ne c c' with rfl | hne
    · rw [List.getElem?_set_self hlt] at hother
      exact Option.some.inj hother ▸ hserved
    · rw [List.getElem?_set_ne hne] at hother
      have hpre := h.served c' other hother
      exact ⟨hpre.orderly, (hwaits c' hne.symm).trans hpre.waits, fun l hl hholder =>
        hpre.own l (hmem l hl (hholder ▸ hne.symm)) hholder, hpre.answersOwn⟩
  · intro l hl
    rcases eq_or_ne l.1.holder c with hholder | hne
    · exact ⟨session', by rw [hholder, List.getElem?_set_self hlt]⟩
    · obtain ⟨other, hother⟩ := h.holders l (hmem l hl hne)
      exact ⟨other, by rw [List.getElem?_set_ne hne.symm, hother]⟩

theorem AllServed.accept (h : AllServed sessions waiting) (stream : Stream) :
    AllServed (sessions ++ [.start stream]) waiting := by
  constructor
  · intro c session hc
    by_cases hlt : c < sessions.length
    · rw [List.getElem?_append_left hlt] at hc
      exact h.served c session hc
    · rw [List.getElem?_append_right (Nat.le_of_not_lt hlt), List.getElem?_singleton] at hc
      split at hc
      next hlast =>
        obtain rfl := Option.some.inj hc
        have hnone : ∀ l ∈ waiting, l.1.holder ≠ c := by
          intro l hl heq
          obtain ⟨other, hother⟩ := h.holders l hl
          exact hlt (heq ▸ (List.getElem?_eq_some_iff.mp hother).1)
        refine ⟨orderly_start stream, ?_, fun l hl heq => absurd heq (hnone l hl), ?_⟩
        · rw [owed_of_answered (by cases stream <;> rfl)]
          simpa [underWay] using hnone
        · intro i reply hmem
          cases stream <;> simp [HTTPServerSession.start, HTTPServerSession.read,
            HTTPServerSession.async] at hmem
      · simp at hc
  · intro l hl
    obtain ⟨session, hsession⟩ := h.holders l hl
    exact ⟨session, by rw [List.getElem?_append_left (List.getElem?_eq_some_iff.mp hsession).1,
      hsession]⟩

theorem stepSession_eq_some {s s' : State} {c : Nat} {e : HttpSessions.Event Request Reply}
    (h : s.stepSession c e = some s') :
    ∃ session session', s.sessions[c]? = some session ∧
      HttpSessions.step Reply.needEof session e = some session' ∧
      s' = { s with sessions := s.sessions.set c session' } := by
  unfold State.stepSession at h
  split at h
  · simp at h
  next session hc =>
    obtain ⟨session', hstep, rfl⟩ := Option.map_eq_some_iff.mp h
    exact ⟨session, session', hc, hstep, rfl⟩

theorem AllServed.sendReply {s s' : State} {send : SendLambda} {req : Request} {reply : Reply}
    {waiting : List (SendLambda × Request)} (h : AllServed s.sessions ((send, req) :: waiting))
    (hversion : reply.version = req.version) (hkeepAlive : reply.keepAlive = req.keepAlive)
    (hsend : s.sendReply send reply = some s') :
    AllServed s'.sessions waiting ∧ s'.mail = s.mail := by
  obtain ⟨session, session', hc, hstep, rfl⟩ := stepSession_eq_some hsend
  refine ⟨h.set hc ((h.served _ session hc).reply hversion hkeepAlive hstep) ?_ ?_, rfl⟩
  · exact fun c' hne => (underWay_cons_ne (Ne.symm hne) req waiting).symm
  · exact fun l hl _ => List.mem_cons_of_mem _ hl

/-- The server refuses a request with a response made from it, or passes the
request on as it is. -/
theorem handled_cases {boost : BasicAuthentication.Boost} {server : HTTPServer} {req : Request}
    {handled : BasicAuthentication.Handled}
    (h : BasicAuthentication.handleRequest boost server req = .ok handled) :
    handled = .passed req ∨ ∃ status error,
      handled = .sent (BasicAuthentication.createResponse boost req status error) := by
  unfold BasicAuthentication.handleRequest at h
  split at h
  · split at h
    · exact Or.inr ⟨401, "Unauthorized", (Except.ok.inj h).symm⟩
    next value hfind =>
      obtain ⟨type, encoded, htype, hencoded⟩ := BasicAuthentication.exists_cut value
      simp only [htype, hencoded, bind, Except.bind] at h
      split_ifs at h
      · exact Or.inr ⟨406, "Not acceptable here", (Except.ok.inj h).symm⟩
      · exact Or.inr ⟨403, "Forbidden", (Except.ok.inj h).symm⟩
      · exact Or.inl (Except.ok.inj h).symm
  · exact Or.inl (Except.ok.inj h).symm

variable {setting : Setting} {s s' : State}

theorem lambdas_append (mail mail' : List Mail) :
    lambdas (mail ++ mail') = lambdas mail ++ lambdas mail' :=
  List.map_append

/-- What every reachable state keeps. -/
def Keeps (s : State) : Prop := AllServed s.sessions (lambdas s.mail)

theorem AllServed.keeps {send : SendLambda} {req : Request} {reply : Reply}
    (h : AllServed s.sessions ((send, req) :: lambdas s.mail))
    (hversion : reply.version = req.version) (hkeepAlive : reply.keepAlive = req.keepAlive)
    (hsend : s.sendReply send reply = some s') : Keeps s' := by
  obtain ⟨hserved, hmail⟩ := h.sendReply hversion hkeepAlive hsend
  rw [Keeps, hmail]
  exact hserved

theorem keeps_handleRequest {send : SendLambda} {req : Request}
    (h : AllServed s.sessions ((send, req) :: lambdas s.mail))
    (hhandle : s.handleRequest setting send req = some s') : Keeps s' := by
  unfold State.handleRequest at hhandle
  split at hhandle
  · simp at hhandle
  next response hsent =>
    rcases handled_cases hsent with hpass | ⟨status, error, hrefused⟩
    · simp at hpass
    · obtain rfl := BasicAuthentication.Handled.sent.inj hrefused
      exact h.keeps rfl rfl hhandle
  next passed hpass =>
    rcases handled_cases hpass with hsame | ⟨status, error, hrefused⟩
    · obtain rfl := BasicAuthentication.Handled.passed.inj hsame
      split at hhandle
      · obtain ⟨-, hreply⟩ := Option.ite_none_right_eq_some.mp hhandle
        exact h.keeps rfl rfl hreply
      · obtain rfl := Option.some.inj hhandle
        rw [Keeps, lambdas_append]
        exact h.perm (List.perm_append_singleton _ _).symm
    · simp at hrefused

theorem Keeps.onRead (h : Keeps s) {c : Nat} {req : Request}
    (hread : s.onRead setting c req = some s') : Keeps s' := by
  unfold State.onRead at hread
  split at hread
  · simp at hread
  next session hc =>
    obtain ⟨s₁, hstep, hhandle⟩ := Option.bind_eq_some_iff.mp hread
    obtain ⟨other, session', hother, hasked, rfl⟩ := stepSession_eq_some hstep
    obtain rfl : session = other := Option.some.inj (hc.symm.trans hother)
    refine keeps_handleRequest (s := { s with sessions := s.sessions.set c session' }) ?_ hhandle
    refine AllServed.set h hc ((h.served c session hc).ask hasked) ?_ ?_
    · exact fun c' hne => underWay_cons_ne (Ne.symm hne) req _
    · rintro l hl hne
      rcases List.mem_cons.mp hl with rfl | hl
      · exact absurd rfl hne
      · exact hl

theorem lambdas_eraseIdx {i : Nat} {mail : Mail} (hmail : s.mail[i]? = some mail) :
    (lambdas s.mail).Perm ((mail.send, mail.req) :: lambdas (s.mail.eraseIdx i)) :=
  (perm_of_getElem? hmail).1.map _

theorem Keeps.handle (h : Keeps s) {i : Nat} {mail : Mail} {env : Surroundings}
    (hmail : s.mail[i]? = some mail)
    (husable : ∀ request, mail.message = .hreq request →
      Usable env s.service (setting.text mail.req.body) request)
    (hhandle : { s with mail := s.mail.eraseIdx i }.handle setting env mail = some s') :
    Keeps s' := by
  unfold State.handle at hhandle
  split at hhandle
  · exact AllServed.keeps (s := { s with mail := s.mail.eraseIdx i })
      (AllServed.perm h (lambdas_eraseIdx hmail)) rfl rfl hhandle
  next request hmessage =>
    obtain ⟨after, response, hdispatch, -⟩ :=
      (answeredOnce_dispatch env s.service _ request).mpr (husable request hmessage)
    simp only [hdispatch, Option.some.injEq] at hhandle
    subst hhandle
    rw [Keeps, lambdas_append]
    exact AllServed.perm h
      ((lambdas_eraseIdx hmail).trans (List.perm_append_singleton _ _).symm)

theorem Keeps.step (h : Keeps s) {e : Event} (husable : HandlesUsable setting ⟨s, e, s'⟩)
    (hstep : step setting s e = some s') : Keeps s' := by
  cases e with
  | onAccept ec =>
      simp only [HttpService.step, Option.ite_none_right_eq_some, Option.some.injEq] at hstep
      obtain ⟨-, rfl⟩ := hstep
      cases ec with
      | none => exact AllServed.accept h setting.stream
      | some ec => exact h
  | completed c e =>
      have hquiet (hasked : e.asked = []) (hsent : e.sent = [])
          (hsession : s.stepSession c e = some s') : Keeps s' := by
        obtain ⟨session, session', hc, he, rfl⟩ := stepSession_eq_some hsession
        exact AllServed.set h hc ((h.served c session hc).quiet hasked hsent he)
          (fun _ _ => rfl) (fun _ hl _ => hl)
      match e with
      | .onRead (.ok req) => exact h.onRead hstep
      | .send _ _ => simp [HttpService.step] at hstep
      | .onRead (.error ec) | .handshake ec | .onWrite close ec | .onShutdown ec =>
          exact hquiet rfl rfl hstep
  | handle i env =>
      simp only [HttpService.step] at hstep
      split at hstep
      · simp at hstep
      next mail hmail =>
        exact h.handle hmail (fun request hrequest => husable mail request hmail hrequest) hstep

end States

def idle : HttpController.Service := (Service.soEvtStart {} emptyList).get rfl

def asciiText (text : Bytes) : String := String.ofList (text.map fun c => Char.ofNat c.toNat)

/-- The messages hold requests that the server has passed on. -/
def Passed (setting : Setting) (s : State) : Prop :=
  ∀ m ∈ s.mail, BasicAuthentication.handleRequest setting.boost setting.server m.req =
    .ok (.passed m.req)

section Passed

variable {setting : Setting} {s s' : State}

theorem frame_stepSession {c : Nat} {e : HttpSessions.Event Request Reply}
    (h : s.stepSession c e = some s') : s'.mail = s.mail ∧ s'.service = s.service := by
  obtain ⟨session, session', -, -, rfl⟩ := stepSession_eq_some h
  exact ⟨rfl, rfl⟩

theorem Passed.handleRequest (h : Passed setting s) {send : SendLambda} {req : Request}
    (hhandle : s.handleRequest setting send req = some s') :
    Passed setting s' ∧ s'.service = s.service := by
  have hreply {reply : Reply} (hsend : s.sendReply send reply = some s') :
      Passed setting s' ∧ s'.service = s.service := by
    obtain ⟨hmail, hservice⟩ := frame_stepSession hsend
    exact ⟨by rw [Passed, hmail]; exact h, hservice⟩
  unfold State.handleRequest at hhandle
  split at hhandle
  · simp at hhandle
  · exact hreply hhandle
  next passed hpass =>
    split at hhandle
    · exact hreply (Option.ite_none_right_eq_some.mp hhandle).2
    · obtain rfl := Option.some.inj hhandle
      refine ⟨fun m hm => ?_, rfl⟩
      rcases List.mem_append.mp hm with hm | hm
      · exact h m hm
      · obtain rfl := List.mem_singleton.mp hm
        rcases handled_cases hpass with hsame | ⟨status, error, hrefused⟩
        · obtain rfl := BasicAuthentication.Handled.passed.inj hsame
          exact hpass
        · simp at hrefused

theorem Passed.onRead (h : Passed setting s) {c : Nat} {req : Request}
    (hread : s.onRead setting c req = some s') :
    Passed setting s' ∧ s'.service = s.service := by
  unfold State.onRead at hread
  split at hread
  · simp at hread
  · obtain ⟨s₁, hstep, hhandle⟩ := Option.bind_eq_some_iff.mp hread
    obtain ⟨hmail, hservice⟩ := frame_stepSession hstep
    have h₁ : Passed setting s₁ := by rw [Passed, hmail]; exact h
    obtain ⟨hpassed, hsame⟩ := h₁.handleRequest hhandle
    exact ⟨hpassed, hsame.trans hservice⟩

theorem Passed.handle {rest : State} (h : Passed setting rest) {env : Surroundings} {mail : Mail}
    (hpass : BasicAuthentication.handleRequest setting.boost setting.server mail.req =
      .ok (.passed mail.req))
    (hhandle : rest.handle setting env mail = some s') : Passed setting s' := by
  unfold State.handle at hhandle
  split at hhandle
  · obtain ⟨hmail, -⟩ := frame_stepSession hhandle
    rw [Passed, hmail]
    exact h
  · split at hhandle
    · simp at hhandle
    · obtain rfl := Option.some.inj hhandle
      intro m hm
      rcases List.mem_append.mp hm with hm | hm
      · exact h m hm
      · obtain ⟨response, -, rfl⟩ := List.mem_map.mp hm
        exact hpass

/-- The agents change only when a message is handled. -/
theorem Passed.step (h : Passed setting s) {e : Event} (hstep : step setting s e = some s') :
    Passed setting s' ∧ (s'.service = s.service ∨
      ∃ i env mail, e = .handle i env ∧ s.mail[i]? = some mail) := by
  cases e with
  | onAccept ec =>
      simp only [HttpService.step, Option.ite_none_right_eq_some, Option.some.injEq] at hstep
      obtain ⟨-, rfl⟩ := hstep
      cases ec <;> exact ⟨h, Or.inl rfl⟩
  | completed c e =>
      have hquiet (hsession : s.stepSession c e = some s') :
          Passed setting s' ∧ s'.service = s.service := by
        obtain ⟨hmail, hservice⟩ := frame_stepSession hsession
        exact ⟨by rw [Passed, hmail]; exact h, hservice⟩
      match e with
      | .onRead (.ok req) => exact (h.onRead hstep).imp_right Or.inl
      | .send _ _ => simp [HttpService.step] at hstep
      | .onRead (.error ec) | .handshake ec | .onWrite close ec | .onShutdown ec =>
          exact (hquiet hstep).imp_right Or.inl
  | handle i env =>
      simp only [HttpService.step] at hstep
      split at hstep
      · simp at hstep
      next mail hmail =>
        have hrest : Passed setting { s with mail := s.mail.eraseIdx i } :=
          fun m hm => h m (List.mem_of_mem_eraseIdx hm)
        exact ⟨hrest.handle (h mail (List.mem_of_getElem? hmail)) hstep,
          Or.inr ⟨i, env, mail, rfl, hmail⟩⟩

end Passed

/-- With a password, the agents change only while they handle a request that
carries the credentials, whatever else happens on any connection. -/
theorem credentials_of_change (setting : Setting) (config : BasicAuthentication.HTTPServerConfig)
    (hboost : setting.boost.Documented)
    (hserver : setting.server = BasicAuthentication.newHTTPServer setting.boost config)
    (hpass : config.pass ≠ []) (service : HttpController.Service)
    (tr : List (Transition State Event)) (s : State)
    (hrun : Run (step setting) { service := service } tr s) :
    ∀ t ∈ tr, t.post.service ≠ t.pre.service → ∃ i env mail value,
      t.event = .handle i env ∧ t.pre.mail[i]? = some mail ∧
        BasicAuthentication.authorization mail.req = some value ∧
        value.1 = bytes "Basic " ++ BasicAuthentication.expected config := by
  intro t ht hchange
  obtain ⟨past, hpast, hstep⟩ := hrun.step_of_mem ht
  have hpassed : Passed setting t.pre :=
    hpast.always (by simp [Passed]) fun _ _ _ h he => (h.step he).1
  obtain ⟨-, hsame | ⟨i, env, mail, hevent, hmail⟩⟩ := hpassed.step hstep
  · exact absurd hsame hchange
  · have haccepts : BasicAuthentication.Accepts setting.boost config mail.req := by
      have h := hpassed mail (List.mem_of_getElem? hmail)
      rwa [hserver] at h
    obtain hnone | ⟨value, hvalue, heq⟩ := (BasicAuthentication.accepts_iff hboost).mp haccepts
    · exact absurd hnone hpass
    · exact ⟨i, env, mail, value, hevent, hmail, hvalue, heq⟩

def protectedBy : Setting :=
  ⟨documented, BasicAuthentication.newHTTPServer documented ⟨bytes "admin", bytes "secret"⟩, .tcp,
    asciiText⟩

def shutdownRequest : Request where
  target := bytes "/app/shutdown"
  fields := [⟨bytes "authorization", ⟨bytes "Basic YWRtaW46c2VjcmV0", by decide⟩⟩]

def authenticatedShutdown : List Event :=
  [.onAccept none, .completed 0 (.onRead (.ok shutdownRequest)), .handle 0 emptyList,
    .handle 0 emptyList, .completed 0 (.onWrite false none)]

theorem credentials_of_change_shutdown :
    ∃ s, exec (step protectedBy) { service := idle } authenticatedShutdown = some s ∧
      s.service.terminated = true ∧
      ∀ t ∈ trace (step protectedBy) { service := idle } authenticatedShutdown,
        t.post.service ≠ t.pre.service → ∃ i env mail value,
          t.event = .handle i env ∧ t.pre.mail[i]? = some mail ∧
            BasicAuthentication.authorization mail.req = some value ∧
            value.1 = bytes "Basic " ++
              BasicAuthentication.expected ⟨bytes "admin", bytes "secret"⟩ := by
  have hexec : (exec (step protectedBy) { service := idle } authenticatedShutdown).isSome := by
    decide +kernel
  refine ⟨_, (Option.some_get hexec).symm, by decide +kernel +revert, ?_⟩
  exact credentials_of_change protectedBy _ BasicAuthentication.documented_documented rfl
    (by decide) idle _ _ (run_trace authenticatedShutdown hexec)

end TwitchChatWorker.HttpService
