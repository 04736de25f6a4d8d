import TwitchChatWorker.Lib.Exchanges

/-!
One connection of the HTTP server (`http/server/HTTPServerSession.cpp`).  The
completion of an asynchronous operation and the call of a `SendLambda` are
steps.  Nothing in the code keeps two operations from being started, so the
operations that are under way are a list.
-/

namespace TwitchChatWorker.HttpSessions

open TwitchChatWorker.Lib
open TwitchChatWorker.Lib.Exchanges
open TwitchChatWorker.Lib.Runs

inductive Stream where
  | tcp | ssl
deriving DecidableEq

inductive ErrorCode where
  | endOfStream | streamTruncated | timeout
  | other (message : String)
deriving DecidableEq

/-- The asynchronous operations of a connection. -/
inductive Operation where
  | handshake | read
  | write (close : Bool)
  | shutdown
deriving DecidableEq

/-- `received` lists the requests that were handed to the handler; the
`SendLambda` of a request is named by its place there.  `written` lists the
responses given to `async_write`, each with the `SendLambda` that gave it. -/
structure HTTPServerSession (Req Res : Type*) where
  stream : Stream
  operations : List Operation := []
  received : List Req := []
  written : List (Nat × Res) := []
deriving DecidableEq

variable {Req Res : Type*}

namespace HTTPServerSession

/-- An asynchronous operation begins. -/
def async (s : HTTPServerSession Req Res) (op : Operation) : HTTPServerSession Req Res :=
  { s with operations := s.operations ++ [op] }

def read (s : HTTPServerSession Req Res) : HTTPServerSession Req Res := s.async .read

/-- `run` dispatches to `start`. -/
def start (stream : Stream) : HTTPServerSession Req Res :=
  match stream with
  | .tcp => { stream := stream : HTTPServerSession Req Res }.read
  | .ssl => { stream := stream : HTTPServerSession Req Res }.async .handshake

/-- Without TLS the end of sending is told at once. -/
def close (s : HTTPServerSession Req Res) : HTTPServerSession Req Res :=
  match s.stream with
  | .tcp => s
  | .ssl => s.async .shutdown

def handshake (s : HTTPServerSession Req Res) : Option ErrorCode → HTTPServerSession Req Res
  | some _ => s
  | none => s.read

/-- A request goes to the handler with a `SendLambda` of its own. -/
def onRead (s : HTTPServerSession Req Res) : Except ErrorCode Req → HTTPServerSession Req Res
  | .error ec => if ec = .endOfStream then s.close else s
  | .ok req => { s with received := s.received ++ [req] }

def onWrite (s : HTTPServerSession Req Res) (close : Bool) :
    Option ErrorCode → HTTPServerSession Req Res
  | some _ => s
  | none => if close then s.close else s.read

/-- `SendLambda::operator()`; `needEof` of the response closes the connection
after it. -/
def send (needEof : Res → Bool) (s : HTTPServerSession Req Res) (request : Nat) (msg : Res) :
    HTTPServerSession Req Res :=
  { s with written := s.written ++ [(request, msg)] }.async (.write (needEof msg))

/-- The operation has ended and its handler is called. -/
def finished (s : HTTPServerSession Req Res) (op : Operation) :
    Option (HTTPServerSession Req Res) :=
  if op ∈ s.operations then some { s with operations := s.operations.erase op } else none

end HTTPServerSession

inductive Event (Req Res : Type*) where
  | handshake (ec : Option ErrorCode)
  | onRead (result : Except ErrorCode Req)
  | onWrite (close : Bool) (ec : Option ErrorCode)
  | onShutdown (ec : Option ErrorCode)
  | send (request : Nat) (msg : Res)

/-- There is a `SendLambda` for every request that was handed over, and it can
be called again. -/
def step (needEof : Res → Bool) (s : HTTPServerSession Req Res) :
    Event Req Res → Option (HTTPServerSession Req Res)
  | .handshake ec => (s.finished .handshake).map (·.handshake ec)
  | .onRead result => (s.finished .read).map (·.onRead result)
  | .onWrite close ec => (s.finished (.write close)).map (·.onWrite close ec)
  | .onShutdown _ => s.finished .shutdown
  | .send request msg =>
      if request < s.received.length then some (s.send needEof request msg) else none

/-- The request that an event hands over. -/
def Event.asked : Event Req Res → List Req
  | .onRead (.ok req) => [req]
  | _ => []

/-- The response that an event writes. -/
def Event.sent : Event Req Res → List (Nat × Res)
  | .send request msg => [(request, msg)]
  | _ => []

theorem frame_close (s : HTTPServerSession Req Res) :
    s.close.received = s.received ∧ s.close.written = s.written := by
  unfold HTTPServerSession.close
  split <;> exact ⟨rfl, rfl⟩

theorem frame_finished {s s' : HTTPServerSession Req Res} {op : Operation}
    (h : s.finished op = some s') : s'.received = s.received ∧ s'.written = s.written := by
  simp only [HTTPServerSession.finished, Option.ite_none_right_eq_some, Option.some.injEq] at h
  obtain ⟨-, rfl⟩ := h
  exact ⟨rfl, rfl⟩

/-- Only a completed read hands a request over, and only a `SendLambda` writes. -/
theorem frame_step {needEof : Res → Bool} {s s' : HTTPServerSession Req Res}
    {e : Event Req Res} (hstep : step needEof s e = some s') :
    s'.received = s.received ++ e.asked ∧ s'.written = s.written ++ e.sent := by
  cases e with
  | handshake ec =>
      obtain ⟨s₁, hfinished, rfl⟩ := Option.map_eq_some_iff.mp hstep
      obtain ⟨hreceived, hwritten⟩ := frame_finished hfinished
      simp only [Event.asked, Event.sent, List.append_nil]
      cases ec <;> exact ⟨hreceived, hwritten⟩
  | onRead result =>
      obtain ⟨s₁, hfinished, rfl⟩ := Option.map_eq_some_iff.mp hstep
      obtain ⟨hreceived, hwritten⟩ := frame_finished hfinished
      cases result with
      | ok req => simp [HTTPServerSession.onRead, Event.asked, Event.sent, hreceived, hwritten]
      | error ec =>
          simp only [HTTPServerSession.onRead, Event.asked, Event.sent, List.append_nil]
          split
          · exact ⟨(frame_close s₁).1.trans hreceived, (frame_close s₁).2.trans hwritten⟩
          · exact ⟨hreceived, hwritten⟩
  | onWrite close ec =>
      obtain ⟨s₁, hfinished, rfl⟩ := Option.map_eq_some_iff.mp hstep
      obtain ⟨hreceived, hwritten⟩ := frame_finished hfinished
      simp only [Event.asked, Event.sent, List.append_nil]
      match close, ec with
      | true, none => exact ⟨(frame_close s₁).1.trans hreceived, (frame_close s₁).2.trans hwritten⟩
      | false, none | true, some ec | false, some ec => exact ⟨hreceived, hwritten⟩
  | onShutdown ec => simpa [Event.asked, Event.sent] using frame_finished hstep
  | send request msg =>
      simp only [step, Option.ite_none_right_eq_some, Option.some.injEq] at hstep
      obtain ⟨-, rfl⟩ := hstep
      simp [HTTPServerSession.send, HTTPServerSession.async, Event.asked, Event.sent]

/-! ### The turns of a connection -/

/-- Whose turn it is, told by the operation under way. -/
def HTTPServerSession.turn (s : HTTPServerSession Req Res) : Turn :=
  match s.operations with
  | [] => if s.written.length < s.received.length then .serving else .over
  | .handshake :: _ | .read :: _ => .asking
  | .write _ :: _ => .replying
  | .shutdown :: _ => .over

/-- The connection as an exchange of requests and responses. -/
def HTTPServerSession.exchange (s : HTTPServerSession Req Res) : Exchange Req Res where
  requests := s.received
  replies := s.written.map Prod.snd
  turn := s.turn

/-- What an event is in turns. -/
def moves : Event Req Res → List (Move Req Res)
  | .handshake none => []
  | .onRead (.ok req) => [.ask req]
  | .send _ msg => [.reply msg]
  | .onWrite false none => [.next]
  | .handshake (some _) | .onRead (.error _) | .onWrite _ _ | .onShutdown _ => [.hangUp]

/-- At most one operation is under way, the responses go out in the order of
the requests, and no request but the one being served is without one. -/
structure Orderly (s : HTTPServerSession Req Res) : Prop where
  single : s.operations.length ≤ 1
  inOrder : s.written.map Prod.fst = List.range s.written.length
  balanced : Exchanges.Balanced s.exchange

/-- The `SendLambda` that is called has not been called before. -/
def AnswersFresh (t : Transition (HTTPServerSession Req Res) (Event Req Res)) : Prop :=
  match t.event with
  | .send request _ => request ∉ t.pre.written.map Prod.fst
  | _ => True

instance : DecidablePred (AnswersFresh : Transition (HTTPServerSession Req Res) _ → Prop)
  | ⟨s, .send request _, _⟩ => inferInstanceAs (Decidable (request ∉ s.written.map Prod.fst))
  | ⟨_, .handshake _, _⟩ | ⟨_, .onRead _, _⟩ | ⟨_, .onWrite _ _, _⟩ | ⟨_, .onShutdown _, _⟩ =>
      inferInstanceAs (Decidable True)

/-- The event is the end of the connection. -/
def ends (e : Event Req Res) : Bool :=
  match moves e with
  | [.hangUp] => true
  | _ => false

section Steps

variable {needEof : Res → Bool} {s s' : HTTPServerSession Req Res}

theorem finished_eq_some {op : Operation} (hsingle : s.operations.length ≤ 1)
    (hfinished : s.finished op = some s') :
    s.operations = [op] ∧ s' = { s with operations := [] } := by
  simp only [HTTPServerSession.finished, Option.ite_none_right_eq_some,
    Option.some.injEq] at hfinished
  obtain ⟨hop, rfl⟩ := hfinished
  obtain ⟨other, hops⟩ := List.length_eq_one_iff.mp
    (Nat.le_antisymm hsingle (List.length_pos_of_mem hop))
  obtain rfl : op = other := by simpa [hops] using hop
  exact ⟨hops, by simp [hops]⟩

theorem Orderly.length_cases (h : Orderly s) :
    s.received.length = s.written.length ∨
      s.operations = [] ∧ s.received.length = s.written.length + 1 := by
  have hbalanced := h.balanced
  simp only [Exchanges.Balanced, HTTPServerSession.exchange, List.length_map,
    HTTPServerSession.turn] at hbalanced
  split at hbalanced
  next hnone =>
    split at hbalanced
    · exact Or.inr ⟨hnone, hbalanced⟩
    · exact Or.inl hbalanced
  all_goals exact Or.inl hbalanced

theorem Orderly.answered (h : Orderly s) {op : Operation} (hop : s.operations = [op]) :
    s.received.length = s.written.length := by
  rcases h.length_cases with heq | ⟨hnone, -⟩
  · exact heq
  · simp [hnone] at hop

/-- A `SendLambda` that is called for the first time belongs to the one request
without a response, and then no operation is under way. -/
theorem Orderly.eq_of_fresh (h : Orderly s) {request : Nat} (hlt : request < s.received.length)
    (hfresh : request ∉ s.written.map Prod.fst) :
    request = s.written.length ∧ s.operations = [] ∧
      s.received.length = s.written.length + 1 := by
  rw [h.inOrder, List.mem_range, Nat.not_lt] at hfresh
  rcases h.length_cases with heq | ⟨hnone, heq⟩
  · omega
  · exact ⟨by omega, hnone, heq⟩

theorem exchange_finished (s : HTTPServerSession Req Res)
    (hanswered : s.received.length = s.written.length) :
    ({ s with operations := [] } : HTTPServerSession Req Res).exchange =
      { s.exchange with turn := .over } := by
  simp [HTTPServerSession.exchange, HTTPServerSession.turn, hanswered]

theorem exchange_close (s : HTTPServerSession Req Res)
    (hanswered : s.received.length = s.written.length) :
    ({ s with operations := [] } : HTTPServerSession Req Res).close.exchange =
      { s.exchange with turn := .over } := by
  unfold HTTPServerSession.close
  split
  · exact exchange_finished s hanswered
  · rfl

theorem length_close_le (s : HTTPServerSession Req Res) :
    ({ s with operations := [] } : HTTPServerSession Req Res).close.operations.length ≤ 1 := by
  unfold HTTPServerSession.close
  split <;> simp [HTTPServerSession.async]

theorem Orderly.moves (h : Orderly s) {e : Event Req Res} (hfresh : AnswersFresh ⟨s, e, s'⟩)
    (hstep : step needEof s e = some s') :
    exec Exchanges.step s.exchange (moves e) = some s'.exchange := by
  cases e with
  | handshake ec =>
      obtain ⟨s₁, hfinished, rfl⟩ := Option.map_eq_some_iff.mp hstep
      obtain ⟨hops, rfl⟩ := finished_eq_some h.single hfinished
      have hturn : s.exchange.turn = .asking := by
        simp [HTTPServerSession.exchange, HTTPServerSession.turn, hops]
      cases ec with
      | none =>
          have hpost : s.exchange = { s.exchange with turn := .asking } := by rw [← hturn]
          exact congrArg some hpost
      | some ec =>
          rw [HTTPServerSession.handshake, exchange_finished s (h.answered hops)]
          exact exec_hangUp (by simp [hturn])
  | onRead result =>
      obtain ⟨s₁, hfinished, rfl⟩ := Option.map_eq_some_iff.mp hstep
      obtain ⟨hops, rfl⟩ := finished_eq_some h.single hfinished
      have hanswered := h.answered hops
      have hturn : s.exchange.turn = .asking := by
        simp [HTTPServerSession.exchange, HTTPServerSession.turn, hops]
      cases result with
      | ok req =>
          have hserving : (HTTPServerSession.onRead { s with operations := [] }
              (.ok req)).turn = .serving := by
            simp [HTTPServerSession.onRead, HTTPServerSession.turn, hanswered]
          have hpost : (HTTPServerSession.onRead { s with operations := [] } (.ok req)).exchange =
              ⟨s.received ++ [req], s.written.map Prod.snd, .serving⟩ := by
            rw [← hserving]
            rfl
          simp only [HttpSessions.moves, exec, Exchanges.step, hturn, if_true, hpost]
          rfl
      | error ec =>
          have hpost : (HTTPServerSession.onRead { s with operations := [] }
              (.error ec)).exchange = { s.exchange with turn := .over } := by
            by_cases hend : ec = .endOfStream
            · rw [HTTPServerSession.onRead, if_pos hend, exchange_close s hanswered]
            · rw [HTTPServerSession.onRead, if_neg hend, exchange_finished s hanswered]
          rw [hpost]
          exact exec_hangUp (by simp [hturn])
  | onWrite close ec =>
      obtain ⟨s₁, hfinished, rfl⟩ := Option.map_eq_some_iff.mp hstep
      obtain ⟨hops, rfl⟩ := finished_eq_some h.single hfinished
      have hanswered := h.answered hops
      have hturn : s.exchange.turn = .replying := by
        simp [HTTPServerSession.exchange, HTTPServerSession.turn, hops]
      cases ec with
      | some ec =>
          have hmoves : HttpSessions.moves (.onWrite close (some ec) : Event Req Res) =
              [.hangUp] := by
            cases close <;> rfl
          rw [hmoves, HTTPServerSession.onWrite, exchange_finished s hanswered]
          exact exec_hangUp (by simp [hturn])
      | none =>
          cases close with
          | false =>
              simp only [HttpSessions.moves, exec, Exchanges.step, hturn, if_true]
              rfl
          | true =>
              rw [HTTPServerSession.onWrite, if_pos rfl, exchange_close s hanswered]
              exact exec_hangUp (by simp [hturn])
  | onShutdown ec =>
      obtain ⟨hops, rfl⟩ := finished_eq_some h.single hstep
      rw [exchange_finished s (h.answered hops)]
      exact exec_hangUp (by simp [HTTPServerSession.exchange, HTTPServerSession.turn, hops])
  | send request msg =>
      simp only [HttpSessions.step, Option.ite_none_right_eq_some, Option.some.injEq] at hstep
      obtain ⟨hlt, rfl⟩ := hstep
      obtain ⟨rfl, hnone, heq⟩ := h.eq_of_fresh hlt hfresh
      have hturn : s.exchange.turn = .serving := by
        simp [HTTPServerSession.exchange, HTTPServerSession.turn, hnone, heq]
      simp only [HttpSessions.moves, exec, Exchanges.step, hturn, if_true]
      simp [HTTPServerSession.exchange, HTTPServerSession.turn, HTTPServerSession.send,
        HTTPServerSession.async, hnone]

theorem Orderly.length_le (h : Orderly s) {e : Event Req Res} (hfresh : AnswersFresh ⟨s, e, s'⟩)
    (hstep : step needEof s e = some s') : s'.operations.length ≤ 1 := by
  cases e with
  | handshake ec =>
      obtain ⟨s₁, hfinished, rfl⟩ := Option.map_eq_some_iff.mp hstep
      obtain ⟨-, rfl⟩ := finished_eq_some h.single hfinished
      cases ec with
      | none => exact Nat.le_refl 1
      | some ec => exact Nat.zero_le 1
  | onRead result =>
      obtain ⟨s₁, hfinished, rfl⟩ := Option.map_eq_some_iff.mp hstep
      obtain ⟨-, rfl⟩ := finished_eq_some h.single hfinished
      unfold HTTPServerSession.onRead
      split
      · split
        · exact length_close_le s
        · exact Nat.zero_le 1
      · exact Nat.zero_le 1
  | onWrite close ec =>
      obtain ⟨s₁, hfinished, rfl⟩ := Option.map_eq_some_iff.mp hstep
      obtain ⟨-, rfl⟩ := finished_eq_some h.single hfinished
      match close, ec with
      | false, none => exact Nat.le_refl 1
      | true, none => exact length_close_le s
      | true, some ec | false, some ec => exact Nat.zero_le 1
  | onShutdown ec =>
      obtain ⟨-, rfl⟩ := finished_eq_some h.single hstep
      exact Nat.zero_le 1
  | send request msg =>
      simp only [HttpSessions.step, Option.ite_none_right_eq_some, Option.some.injEq] at hstep
      obtain ⟨hlt, rfl⟩ := hstep
      obtain ⟨-, hnone, -⟩ := h.eq_of_fresh hlt hfresh
      simp [HTTPServerSession.send, HTTPServerSession.async, hnone]

/-- A `SendLambda` is called for the first time exactly when its response comes
in its order. -/
theorem Orderly.inOrder_iff (h : Orderly s) {e : Event Req Res}
    (hstep : step needEof s e = some s') :
    s'.written.map Prod.fst = List.range s'.written.length ↔ AnswersFresh ⟨s, e, s'⟩ := by
  rw [(frame_step hstep).2]
  cases e with
  | send request msg =>
      simp only [step, Option.ite_none_right_eq_some, Option.some.injEq] at hstep
      have hlast : (s.written ++ (Event.send request msg : Event Req Res).sent).map Prod.fst =
          List.range (s.written ++ (Event.send request msg : Event Req Res).sent).length ↔
            request = s.written.length := by
        simp [Event.sent, h.inOrder, List.range_succ]
      rw [hlast]
      constructor
      · rintro rfl
        simp [AnswersFresh, h.inOrder]
      · exact fun hfresh => (h.eq_of_fresh hstep.1 hfresh).1
  | _ => simpa [Event.sent, AnswersFresh] using h.inOrder

theorem orderly_start (stream : Stream) : Orderly (.start stream : HTTPServerSession Req Res) := by
  cases stream <;> exact ⟨Nat.le_refl 1, rfl, rfl⟩

theorem Orderly.step_iff (h : Orderly s) {e : Event Req Res}
    (hstep : step needEof s e = some s') : Orderly s' ↔ AnswersFresh ⟨s, e, s'⟩ :=
  ⟨fun hpost => (h.inOrder_iff hstep).mp hpost.inOrder, fun hfresh =>
    ⟨h.length_le hfresh hstep, (h.inOrder_iff hstep).mpr hfresh,
      h.balanced.exec (h.moves hfresh hstep)⟩⟩

theorem Orderly.turn_of_ends (h : Orderly s) {e : Event Req Res}
    (hfresh : AnswersFresh ⟨s, e, s'⟩) (hstep : step needEof s e = some s')
    (hends : ends e = true) : s'.turn = .over := by
  have hmoves := h.moves hfresh hstep
  unfold ends at hends
  split at hends
  next hhangUp => exact turn_of_exec_hangUp (hhangUp ▸ hmoves)
  · simp at hends

/-- Where a connection is over, nothing but its shutdown is under way. -/
theorem Orderly.onShutdown_of_over (h : Orderly s) (hover : s.turn = .over) {e : Event Req Res}
    (hfresh : AnswersFresh ⟨s, e, s'⟩) (hstep : step needEof s e = some s') :
    (∃ ec, e = .onShutdown ec) ∧ s'.turn = .over := by
  have hother : ∀ op s₁, s.finished op = some s₁ → op = .shutdown := by
    intro op s₁ hfinished
    obtain ⟨hops, -⟩ := finished_eq_some h.single hfinished
    cases op <;> simp [HTTPServerSession.turn, hops] at hover ⊢
  cases e with
  | handshake ec | onRead result | onWrite close ec =>
      obtain ⟨s₁, hfinished, -⟩ := Option.map_eq_some_iff.mp hstep
      simpa using hother _ _ hfinished
  | onShutdown ec => exact ⟨⟨ec, rfl⟩, h.turn_of_ends hfresh hstep rfl⟩
  | send request msg =>
      simp only [step, Option.ite_none_right_eq_some, Option.some.injEq] at hstep
      obtain ⟨-, hnone, heq⟩ := h.eq_of_fresh hstep.1 hfresh
      simp [HTTPServerSession.turn, hnone, heq] at hover

end Steps

section Runs

variable {needEof : Res → Bool} {stream : Stream} {s : HTTPServerSession Req Res}
  {tr : List (Transition (HTTPServerSession Req Res) (Event Req Res))}

theorem exchange_start (stream : Stream) :
    (HTTPServerSession.start stream : HTTPServerSession Req Res).exchange = ⟨[], [], .asking⟩ := by
  cases stream <;> rfl

theorem exchange_of_run (hrun : Run (step needEof) (.start stream) tr s)
    (hfresh : ∀ t ∈ tr, AnswersFresh t) :
    Orderly s ∧ ∃ taken, Run Exchanges.step ⟨[], [], .asking⟩ taken s.exchange := by
  obtain ⟨taken, x, hmoved, horderly, rfl⟩ :=
    hrun.simulates (R := fun s x => Orderly s ∧ x = s.exchange) AnswersFresh
      ⟨orderly_start stream, (exchange_start stream).symm⟩ (by
        rintro s e s' x ⟨horderly, rfl⟩ hguard hstep
        exact ⟨moves e, s'.exchange, horderly.moves hguard hstep,
          (horderly.step_iff hstep).mpr hguard, rfl⟩) hfresh
  exact ⟨horderly, taken, hmoved⟩

/-- After the end of a connection only its shutdown completes. -/
def QuietAfterEnd (tr : List (Transition (HTTPServerSession Req Res) (Event Req Res))) : Prop :=
  tr.Pairwise fun t u => ends t.event = true → ∃ ec, u.event = .onShutdown ec

theorem quietAfterEnd_of_run (hrun : Run (step needEof) (.start stream) tr s)
    (hfresh : ∀ t ∈ tr, AnswersFresh t) : QuietAfterEnd tr := by
  suffices h : Orderly s ∧ QuietAfterEnd tr ∧
      ((∃ t ∈ tr, ends t.event = true) → s.turn = .over) from h.2.1
  induction hrun with
  | nil => exact ⟨orderly_start stream, .nil, by simp⟩
  | @snoc tr s e s' _ hstep ih =>
      obtain ⟨horderly, hquiet, hover⟩ := ih fun t ht => hfresh t (by simp [ht])
      have hlast := hfresh ⟨s, e, s'⟩ (by simp)
      refine ⟨(horderly.step_iff hstep).mpr hlast, ?_, ?_⟩
      · refine List.pairwise_append.mpr ⟨hquiet, List.pairwise_singleton _ _, ?_⟩
        rintro t ht u hu hends
        obtain rfl := List.mem_singleton.mp hu
        exact (horderly.onShutdown_of_over (hover ⟨t, ht, hends⟩) hlast hstep).1
      · rintro ⟨t, ht, hends⟩
        rcases List.mem_append.mp ht with ht | ht
        · exact (horderly.onShutdown_of_over (hover ⟨t, ht, hends⟩) hlast hstep).2
        · obtain rfl := List.mem_singleton.mp ht
          exact horderly.turn_of_ends hlast hstep hends

/-- A connection goes on in turns, and is quiet after its end, exactly while no
`SendLambda` is called twice. -/
theorem orderlyAlong_iff (needEof : Res → Bool) (stream : Stream)
    (tr : List (Transition (HTTPServerSession Req Res) (Event Req Res)))
    (s : HTTPServerSession Req Res) (hrun : Run (step needEof) (.start stream) tr s) :
    (∀ t ∈ tr, Orderly t.post) ∧ QuietAfterEnd tr ↔ ∀ t ∈ tr, AnswersFresh t := by
  have hiff := hrun.forall_good_iff (fun _ => True) Orderly (fun _ => True) AnswersFresh trivial
    (orderly_start stream) (fun _ _ _ _ _ _ => trivial)
    (fun _ _ _ _ _ hstep hpre => hpre.step_iff hstep) fun _ _ => trivial
  exact ⟨fun h => hiff.mp h.1, fun h => ⟨hiff.mpr h, quietAfterEnd_of_run hrun h⟩⟩

/-- A client with TLS asks twice, and the second response closes. -/
def twoRequests : List (Event Nat String) :=
  [.handshake none, .onRead (.ok 7), .send 0 "hello", .onWrite false none, .onRead (.ok 8),
    .send 1 "bye", .onWrite true none, .onShutdown none]

theorem orderlyAlong_iff_twoRequests :
    (∀ t ∈ trace (step (· == "bye")) (.start .ssl) twoRequests, Orderly t.post) ∧
      QuietAfterEnd (trace (step (· == "bye")) (.start .ssl) twoRequests) :=
  (orderlyAlong_iff (· == "bye") .ssl _
    { stream := .ssl, received := [7, 8], written := [(0, "hello"), (1, "bye")] }
    (run_of_exec rfl)).mpr (by decide)

end Runs

end TwitchChatWorker.HttpSessions
