import TwitchChatWorker.StatisticsBalance

/-!
The mailbox of `StatsCollector`.  The agents that measure something send their
metrics there, and the agent handles them in the order they came.
-/

namespace TwitchChatWorker.StatisticsDelivery

open TwitchChatWorker.StatisticsBalance

/-- The mailbox of `StatsCollector`, and the collector with its answers. -/
structure Delivery where
  mailbox : List Event := []
  gathering : Gathering := {}

namespace Delivery

def send (d : Delivery) (e : Event) : Delivery := { d with mailbox := d.mailbox ++ [e] }

def handle (d : Delivery) : Option Delivery :=
  match d.mailbox with
  | [] => none
  | e :: mailbox => (step d.gathering e).map fun gathering => ⟨mailbox, gathering⟩

/-- What the messages on the way add to the figure. -/
def waiting (figure : Figure) (d : Delivery) : Int := (d.mailbox.map figure.received).sum

def reported (figure : Figure) (d : Delivery) : Int :=
  (d.gathering.answers.map figure.reported).sum

/-- What is reported, stored and on its way. -/
def total (figure : Figure) (d : Delivery) : Int :=
  d.reported figure + figure.stored d.gathering.collector + d.waiting figure

/-- The agent can handle all that has been sent to it. -/
def Sound (d : Delivery) : Prop := ∀ e ∈ d.mailbox, WellFormed e

variable {d d' : Delivery}

theorem Sound.send (h : d.Sound) {e : Event} (hwell : WellFormed e) : (d.send e).Sound := by
  intro e' he'
  rcases List.mem_append.mp he' with he' | he'
  · exact h e' he'
  · rwa [List.mem_singleton.mp he']

theorem Sound.handle (h : d.Sound) (hhandle : d.handle = some d') : d'.Sound := by
  obtain ⟨mailbox, gathering⟩ := d
  cases mailbox with
  | nil => simp [Delivery.handle] at hhandle
  | cons e mailbox =>
      obtain ⟨gathering', -, rfl⟩ := Option.map_eq_some_iff.mp hhandle
      exact fun e' he' => h e' (List.mem_cons_of_mem _ he')

theorem total_send (figure : Figure) (d : Delivery) (e : Event) :
    (d.send e).total figure = d.total figure + figure.received e := by
  simp [total, reported, waiting, send, add_assoc]

theorem total_handle (figure : Figure) (hsound : d.Sound) (h : d.handle = some d') :
    d'.total figure ≡ d.total figure [ZMOD 2 ^ figure.width] := by
  obtain ⟨mailbox, gathering⟩ := d
  cases mailbox with
  | nil => simp [handle] at h
  | cons e mailbox =>
      obtain ⟨gathering', hstep, rfl⟩ := Option.map_eq_some_iff.mp h
      have haccounted := accounted_step figure gathering e gathering'
        (hsound e List.mem_cons_self) hstep
      have hwaiting := haccounted.add_right (mailbox.map figure.received).sum
      simp only [accounted] at hwaiting
      simpa [total, reported, waiting, add_assoc] using hwaiting

end Delivery

end TwitchChatWorker.StatisticsDelivery
