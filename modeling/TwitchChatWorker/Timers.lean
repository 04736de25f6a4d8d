import TwitchChatWorker.Lib.Multimaps

/-!
The queue of the timer.  A pass takes nodes out of the multimap that it goes
through and puts them back under new keys.
-/

namespace TwitchChatWorker.Timers

open TwitchChatWorker.Lib.Multimaps

/-- A function with the call that has set it: the number of the call among all,
and the interval it asks for. -/
structure Function where
  number : Nat
  intervalMs : Option Int64
deriving DecidableEq

/-- A node of the queue.  Sums of two `long long` wrap here. -/
structure Node where
  timestamp : Int64
  function : Function
  repeatMs : Int32
deriving DecidableEq

namespace Node

/-- Nodes stand in order of their time. -/
def key (node : Node) : Int := node.timestamp.toInt

def number (node : Node) : Nat := node.function.number

def repeated (node : Node) (now : Int64) : Node :=
  { node with timestamp := now + node.repeatMs.toInt64 }

end Node

structure Timer where
  queue : List Node := []
  calls : Nat := 0
deriving DecidableEq

namespace Timer

/-- A new node behind those with the same time. -/
def emplace (t : Timer) (timestamp : Int64) (intervalMs : Option Int64) (repeatMs : Int32) :
    Timer where
  queue := insert Node.key ⟨timestamp, ⟨t.calls, intervalMs⟩, repeatMs⟩ t.queue
  calls := t.calls + 1

def setTimer (t : Timer) (timestamp : Int64) : Timer := t.emplace timestamp none 0

def setTimeout (t : Timer) (now delayMs : Int64) : Timer := t.setTimer (now + delayMs)

/-- The interval is stored as an `int`. -/
def setInterval (t : Timer) (now intervalMs : Int64) : Timer :=
  t.emplace (now + intervalMs) (some intervalMs) intervalMs.toInt32

/-- The loop of `run` over the queue, from the node `it` on, with the functions
called so far.  There is no answer when the loop does not end within `steps`, and
none from an iterator that has lost its node. -/
def passLoop (now : Int64) (steps : Nat) (queue : List Node) (it : Option Nat)
    (called : List Function) : Option (List Node × List Function) :=
  match steps, it with
  | 0, _ => none
  | _ + 1, none => some (queue, called)
  | steps + 1, some number =>
      match node? Node.number number queue with
      | none => none
      | some node =>
          if now < node.timestamp then some (queue, called)
          else
            let called := called ++ [node.function]
            let next := next? Node.number number queue
            if 0 < node.repeatMs then
              let queue := extract Node.number number queue
              passLoop now steps (insert Node.key (node.repeated now) queue) next called
            else passLoop now steps (extract Node.number number queue) next called

/-- One pass of `run`: the queue that it leaves and the functions that it calls. -/
def pass (t : Timer) (now : Int64) (steps : Nat) : Option (List Node × List Function) :=
  passLoop now steps t.queue (t.queue.head?.map Node.number) []

end Timer

/-- The calls that set a timer, and the passes of the thread. -/
inductive Event where
  | setTimer (timestamp : Int64)
  | setTimeout (now delayMs : Int64)
  | setInterval (now intervalMs : Int64)
  | pass (now : Int64) (steps : Nat)
deriving DecidableEq

/-- An interval that is asked for is greater than zero, and a pass ends within its
steps. -/
def step (t : Timer) : Event → Option Timer
  | .setTimer timestamp => some (t.setTimer timestamp)
  | .setTimeout now delayMs => some (t.setTimeout now delayMs)
  | .setInterval now intervalMs =>
      if 0 < intervalMs then some (t.setInterval now intervalMs) else none
  | .pass now steps => (t.pass now steps).map fun result => { t with queue := result.1 }

end TwitchChatWorker.Timers
