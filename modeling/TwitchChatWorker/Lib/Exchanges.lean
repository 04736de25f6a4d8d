import TwitchChatWorker.Lib.Runs

/-!
One connection in turns: a client asks, a server replies, and only a reply that
is through lets the client ask again.  The server never hangs up on a request
that it has taken.
-/

namespace TwitchChatWorker.Lib.Exchanges

open TwitchChatWorker.Lib.Runs

inductive Turn where
  | asking | serving | replying | over
deriving DecidableEq

/-- The replies that the server still owes. -/
def Turn.owed : Turn → Nat
  | .serving => 1
  | _ => 0

/-- Requests and replies so far, and whose turn it is. -/
structure Exchange (Req Res : Type*) where
  requests : List Req
  replies : List Res
  turn : Turn

inductive Move (Req Res : Type*) where
  | ask (req : Req)
  | reply (res : Res)
  | next
  | hangUp

variable {Req Res : Type*}

def step (x : Exchange Req Res) : Move Req Res → Option (Exchange Req Res)
  | .ask req =>
      if x.turn = .asking then some { x with requests := x.requests ++ [req], turn := .serving }
      else none
  | .reply res =>
      if x.turn = .serving then some { x with replies := x.replies ++ [res], turn := .replying }
      else none
  | .next => if x.turn = .replying then some { x with turn := .asking } else none
  | .hangUp => if x.turn = .serving then none else some { x with turn := .over }

theorem exec_hangUp {x : Exchange Req Res} (hturn : x.turn ≠ .serving) :
    exec step x [.hangUp] = some { x with turn := .over } := by
  simp [exec, step, hturn]

theorem turn_of_exec_hangUp {x x' : Exchange Req Res} (hexec : exec step x [.hangUp] = some x') :
    x'.turn = .over := by
  by_cases hturn : x.turn = .serving
  · simp [exec, step, hturn] at hexec
  · rw [exec_hangUp hturn] at hexec
    exact congrArg Exchange.turn (Option.some.inj hexec).symm

/-- Exactly the request that is being served has no reply. -/
def Balanced (x : Exchange Req Res) : Prop :=
  x.requests.length = x.replies.length + x.turn.owed

theorem Balanced.step {x x' : Exchange Req Res} (h : Balanced x) {m : Move Req Res}
    (hstep : step x m = some x') : Balanced x' := by
  unfold Balanced at *
  cases m with
  | ask req | reply res | next =>
      simp only [Exchanges.step, Option.ite_none_right_eq_some, Option.some.injEq] at hstep
      obtain ⟨hturn, rfl⟩ := hstep
      simp only [hturn, Turn.owed, List.length_append, List.length_singleton] at h ⊢
      omega
  | hangUp =>
      simp only [Exchanges.step, Option.ite_none_left_eq_some, Option.some.injEq] at hstep
      obtain ⟨hturn, rfl⟩ := hstep
      cases hx : x.turn <;> simp_all [Turn.owed]

theorem Balanced.exec {x x' : Exchange Req Res} (h : Balanced x) {moves : List (Move Req Res)}
    (hexec : exec Exchanges.step x moves = some x') : Balanced x' :=
  (run_of_exec hexec).always h fun _ _ _ hpre hstep => hpre.step hstep

theorem Balanced.length_le {x : Exchange Req Res} (h : Balanced x) :
    x.replies.length ≤ x.requests.length ∧ x.requests.length ≤ x.replies.length + 1 := by
  unfold Balanced Turn.owed at h
  split at h <;> omega

end TwitchChatWorker.Lib.Exchanges
