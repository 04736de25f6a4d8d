import Mathlib.Data.List.Basic
import Mathlib.Tactic.Common

/-!
Waiting for items under a monitor with one condition: consumers take an item or
block, producers put an item and notify one waiter after they have left the
monitor.  A notified consumer takes its item only when it enters the monitor
again, and a fresh consumer may come before it.
-/

namespace TwitchChatWorker.Lib.Wakeups

/-- The items that can be taken, the blocked consumers, those that are woken and
have not looked again, and the producers that still have to notify. -/
structure Counts where
  items : Nat
  blocked : Nat
  woken : Nat
  notifying : Nat

/-- What one step can do to the counts. -/
inductive Step (c c' : Counts) : Prop where
  /-- a consumer takes an item without waiting, or nothing happens -/
  | take (hitems : c'.items ≤ c.items) (hblocked : c'.blocked = c.blocked)
      (hwoken : c'.woken = c.woken) (hnotifying : c'.notifying = c.notifying)
  /-- a consumer finds no item, for the first time or again -/
  | block (hitems : c.items = 0) (hitems' : c'.items = 0)
  | retake (hitems : c.items = c'.items + 1) (hblocked : c'.blocked = c.blocked)
      (hwoken : c.woken = c'.woken + 1) (hnotifying : c'.notifying = c.notifying)
  | spurious (hitems : c'.items = c.items) (hblocked : c.blocked = c'.blocked + 1)
      (hwoken : c'.woken = c.woken + 1) (hnotifying : c'.notifying = c.notifying)
  | put (hitems : c'.items = c.items + 1) (hblocked : c'.blocked = c.blocked)
      (hwoken : c'.woken = c.woken) (hnotifying : c'.notifying = c.notifying + 1)
  | notify (hitems : c'.items = c.items) (hblocked : c.blocked = c'.blocked + 1)
      (hwoken : c'.woken = c.woken + 1) (hnotifying : c.notifying = c'.notifying + 1)
  | notifyNone (hitems : c'.items = c.items) (hblocked : c'.blocked = 0)

/-- While a consumer is blocked, every item has a consumer or a notification on
its way to it. -/
def Covered (c : Counts) : Prop :=
  0 < c.blocked → c.items ≤ c.woken + c.notifying

theorem Step.covered {c c' : Counts} (hstep : Step c c') (h : Covered c) : Covered c' := by
  unfold Covered at *
  cases hstep <;> omega

end TwitchChatWorker.Lib.Wakeups
