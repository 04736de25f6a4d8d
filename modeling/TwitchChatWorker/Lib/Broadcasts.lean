import Mathlib.Algebra.BigOperators.Group.List.Basic
import Mathlib.Algebra.GroupWithZero.Nat
import Mathlib.Algebra.Order.BigOperators.Group.List
import Mathlib.Data.List.Nodup
import Mathlib.Logic.Function.Basic
import TwitchChatWorker.Lib.Batching
import TwitchChatWorker.Lib.Runs

/-!
Items that workers publish to every subscriber.  A worker takes the next item,
makes of it what it publishes, and gives that to one subscriber after another;
the workers do not wait for each other.  A subscriber handles what it was given
in the order in which it was given.
-/

namespace TwitchChatWorker.Lib.Broadcasts

open TwitchChatWorker.Lib.Batching
open TwitchChatWorker.Lib.Runs

/-- What a worker publishes, with the subscribers that it has still to reach. -/
structure Publication (S β : Type*) where
  item : β
  left : List S

/-- Items that wait, items that workers publish, and the mailboxes of the subscribers.
-/
structure Broadcast (S α β : Type*) where
  waiting : List α := []
  publishing : List (Publication S β) := []
  mailbox : S → List β := fun _ => []
  handled : S → List β := fun _ => []

inductive Event (S α ι : Type*) where
  | accept (a : α)
  | take (extra : ι)
  | deliver (worker : Nat) (s : S)
  | publish (worker : Nat)
  | handle (s : S)

variable {S α β ι : Type*} [DecidableEq S]

/-- A worker makes an item of what it takes and of something of its own. -/
structure Setting (S α β ι : Type*) where
  workers : Nat
  subscribers : List S
  make : α → ι → β

/-- Undefined where the event cannot happen. -/
def step (setting : Setting S α β ι) (x : Broadcast S α β) :
    Event S α ι → Option (Broadcast S α β)
  | .accept a => some { x with waiting := x.waiting ++ [a] }
  | .take extra =>
      match x.waiting with
      | [] => none
      | a :: waiting =>
          if x.publishing.length < setting.workers then
            some { x with
              waiting := waiting
              publishing := x.publishing ++ [⟨setting.make a extra, setting.subscribers⟩] }
          else none
  | .deliver worker s =>
      match x.publishing[worker]? with
      | none => none
      | some p =>
          if s ∈ p.left then
            some { x with
              publishing := x.publishing.set worker { p with left := p.left.erase s }
              mailbox := Function.update x.mailbox s (x.mailbox s ++ [p.item]) }
          else none
  | .publish worker =>
      match x.publishing[worker]? with
      | none => none
      | some p =>
          if p.left.isEmpty then some { x with publishing := x.publishing.eraseIdx worker }
          else none
  | .handle s =>
      if s ∈ setting.subscribers then
        match x.mailbox s with
        | [] => none
        | b :: mailbox =>
            some { x with
              mailbox := Function.update x.mailbox s mailbox
              handled := Function.update x.handled s (x.handled s ++ [b]) }
      else none

def Event.accepted : Event S α ι → List α
  | .accept a => [a]
  | _ => []

/-- What is being published and has not reached the subscriber. -/
def owed (publishing : List (Publication S β)) (s : S) : List β :=
  publishing.filterMap fun p => if s ∈ p.left then some p.item else none

/-- What the subscriber was given. -/
def Broadcast.given (x : Broadcast S α β) (s : S) : List β := x.handled s ++ x.mailbox s

/-- Every accepted item waits, is being published or was given to the
subscriber, once. -/
structure Conserved (setting : Setting S α β ι) (source : β → α) (x : Broadcast S α β)
    (accepted : List α) : Prop where
  perm : ∀ s ∈ setting.subscribers,
    (x.waiting ++ (owed x.publishing s).map source ++ (x.given s).map source).Perm accepted
  left : ∀ p ∈ x.publishing, p.left.Nodup ∧ p.left ⊆ setting.subscribers
  workers : x.publishing.length ≤ setting.workers

section Steps

variable {setting : Setting S α β ι} {source : β → α} {x x' : Broadcast S α β}
  {accepted : List α}

theorem conserved_start : Conserved setting source ({} : Broadcast S α β) [] where
  perm := by simp [owed, Broadcast.given]
  left := by simp
  workers := Nat.zero_le _

theorem owed_append (publishing publishing' : List (Publication S β)) (s : S) :
    owed (publishing ++ publishing') s = owed publishing s ++ owed publishing' s :=
  List.filterMap_append

theorem given_update_mailbox (x : Broadcast S α β) (s s' : S) (b : β) :
    ({ x with mailbox := Function.update x.mailbox s (x.mailbox s ++ [b]) } :
      Broadcast S α β).given s' = x.given s' ++ if s' = s then [b] else [] := by
  rcases eq_or_ne s' s with rfl | hne
  · simp [Broadcast.given]
  · simp [Broadcast.given, hne]

theorem given_handle {s : S} {b : β} {rest : List β} (hmailbox : x.mailbox s = b :: rest)
    (s' : S) :
    ({ x with
        mailbox := Function.update x.mailbox s rest
        handled := Function.update x.handled s (x.handled s ++ [b]) } :
      Broadcast S α β).given s' = x.given s' := by
  rcases eq_or_ne s' s with rfl | hne
  · simp [Broadcast.given, hmailbox]
  · simp [Broadcast.given, hne]

theorem owed_set_perm {worker : Nat} {p : Publication S β}
    (hp : x.publishing[worker]? = some p) (hnodup : p.left.Nodup) {s : S} (hs : s ∈ p.left)
    (s' : S) :
    (owed x.publishing s').Perm
      (owed (x.publishing.set worker { p with left := p.left.erase s }) s' ++
        if s' = s then [p.item] else []) := by
  have hmoved : ((if s' = s then [p.item] else []) ++
      owed (x.publishing.set worker { p with left := p.left.erase s }) s').Perm
        ([] ++ owed x.publishing s') := by
    apply perm_filterMap_set hp
    rcases eq_or_ne s' s with rfl | hne
    · simp [hs, hnodup.not_mem_erase]
    · simp [hne, List.mem_erase_of_ne hne]
  exact (List.perm_append_comm.trans hmoved).symm

theorem owed_eraseIdx {worker : Nat} {p : Publication S β}
    (hp : x.publishing[worker]? = some p) (hleft : p.left = []) (s : S) :
    (owed (x.publishing.eraseIdx worker) s).Perm (owed x.publishing s) := by
  have hperm := (perm_of_getElem? hp).1.filterMap
    fun p : Publication S β => if s ∈ p.left then some p.item else none
  simpa [owed, hleft] using hperm.symm

theorem deliver_cases {worker : Nat} {s : S}
    (h : step setting x (.deliver worker s) = some x') :
    ∃ p, x.publishing[worker]? = some p ∧ s ∈ p.left ∧ x' = { x with
      publishing := x.publishing.set worker { p with left := p.left.erase s }
      mailbox := Function.update x.mailbox s (x.mailbox s ++ [p.item]) } := by
  simp only [step] at h
  split at h
  · simp at h
  next p hp =>
    simp only [Option.ite_none_right_eq_some, Option.some.injEq] at h
    exact ⟨p, hp, h.1, h.2.symm⟩

theorem publish_cases {worker : Nat} (h : step setting x (.publish worker) = some x') :
    ∃ p, x.publishing[worker]? = some p ∧ p.left = [] ∧
      x' = { x with publishing := x.publishing.eraseIdx worker } := by
  simp only [step] at h
  split at h
  · simp at h
  next p hp =>
    simp only [Option.ite_none_right_eq_some, Option.some.injEq, List.isEmpty_iff] at h
    exact ⟨p, hp, h.1, h.2.symm⟩

theorem take_cases {extra : ι} (h : step setting x (.take extra) = some x') :
    ∃ a waiting, x.waiting = a :: waiting ∧ x.publishing.length < setting.workers ∧
      x' = { x with
        waiting := waiting
        publishing := x.publishing ++ [⟨setting.make a extra, setting.subscribers⟩] } := by
  simp only [step] at h
  split at h
  · simp at h
  next a waiting hwaiting =>
    simp only [Option.ite_none_right_eq_some, Option.some.injEq] at h
    exact ⟨a, waiting, hwaiting, h.1, h.2.symm⟩

theorem handle_cases {s : S} (h : step setting x (.handle s) = some x') :
    ∃ b rest, x.mailbox s = b :: rest ∧ x' = { x with
      mailbox := Function.update x.mailbox s rest
      handled := Function.update x.handled s (x.handled s ++ [b]) } := by
  simp only [step, Option.ite_none_right_eq_some] at h
  obtain ⟨-, h⟩ := h
  split at h
  · simp at h
  next b rest hmailbox => exact ⟨b, rest, hmailbox, (Option.some.inj h).symm⟩

theorem Conserved.step (hsource : ∀ a extra, source (setting.make a extra) = a)
    (hsubscribers : setting.subscribers.Nodup) (h : Conserved setting source x accepted)
    {e : Event S α ι} (hstep : step setting x e = some x') :
    Conserved setting source x' (accepted ++ e.accepted) := by
  cases e with
  | accept a =>
      obtain rfl := Option.some.inj hstep
      refine ⟨fun s hs => ?_, h.left, h.workers⟩
      refine List.Perm.trans ?_ ((h.perm s hs).append_right [a])
      simp only [List.append_assoc]
      apply List.Perm.append_left
      rw [← List.append_assoc _ _ [a]]
      exact List.perm_append_comm
  | take extra =>
      obtain ⟨a, waiting, hwaiting, hfree, rfl⟩ := take_cases hstep
      simp only [Event.accepted, List.append_nil]
      refine ⟨fun s hs => ?_, ?_, ?_⟩
      · refine List.Perm.trans ?_ (h.perm s hs)
        have howed : owed [⟨setting.make a extra, setting.subscribers⟩] s =
            [setting.make a extra] := by
          simp [owed, hs]
        simp only [hwaiting, owed_append, howed, List.map_append, List.map_cons, List.map_nil,
          hsource]
        apply List.Perm.append_right
        rw [← List.append_assoc, List.cons_append]
        exact List.perm_append_singleton a _
      · intro p hp
        rcases List.mem_append.mp hp with hp | hp
        · exact h.left p hp
        · obtain rfl := List.mem_singleton.mp hp
          exact ⟨hsubscribers, List.Subset.refl _⟩
      · simpa using Nat.succ_le_of_lt hfree
  | deliver worker s =>
      obtain ⟨p, hp, hs, rfl⟩ := deliver_cases hstep
      simp only [Event.accepted, List.append_nil]
      have hmem := List.mem_of_getElem? hp
      refine ⟨fun s' hs' => ?_, fun q hq => ?_, by simpa using h.workers⟩
      · refine List.Perm.trans ?_ (h.perm s' hs')
        have hmoved := (owed_set_perm hp (h.left p hmem).1 hs s').map source
        rw [List.map_append] at hmoved
        have hgiven := given_update_mailbox x s s' p.item
        simp only [Broadcast.given] at hgiven ⊢
        rw [hgiven, List.map_append]
        simp only [List.append_assoc]
        apply List.Perm.append_left
        refine List.Perm.trans ?_ (hmoved.append_right _).symm
        rw [List.append_assoc]
        exact List.perm_append_comm.append_left _
      · rcases List.mem_or_eq_of_mem_set hq with hq | rfl
        · exact h.left q hq
        · exact ⟨(h.left p hmem).1.erase s,
            fun _ hin => (h.left p hmem).2 (List.mem_of_mem_erase hin)⟩
  | publish worker =>
      obtain ⟨p, hp, hleft, rfl⟩ := publish_cases hstep
      simp only [Event.accepted, List.append_nil]
      refine ⟨fun s hs => ?_, fun q hq => h.left q (List.mem_of_mem_eraseIdx hq), ?_⟩
      · refine List.Perm.trans ?_ (h.perm s hs)
        have howed := owed_eraseIdx hp hleft s
        exact ((howed.map source).append_left _).append_right _
      · exact (List.length_eraseIdx_le _ _).trans h.workers
  | handle s =>
      obtain ⟨b, rest, hmailbox, rfl⟩ := handle_cases hstep
      simp only [Event.accepted, List.append_nil]
      refine ⟨fun s' hs' => ?_, h.left, h.workers⟩
      rw [given_handle hmailbox]
      exact h.perm s' hs'

/-- The message that an event has the subscriber handle. -/
def Event.taken (x : Broadcast S α β) (s : S) : Event S α ι → Option β
  | .handle s' => if s' = s then (x.mailbox s).head? else none
  | _ => none

theorem handled_step {e : Event S α ι} (hstep : step setting x e = some x') (s : S) :
    x'.handled s = x.handled s ++ (e.taken x s).toList := by
  cases e with
  | accept a =>
      obtain rfl := Option.some.inj hstep
      simp [Event.taken]
  | take extra =>
      obtain ⟨a, waiting, -, -, rfl⟩ := take_cases hstep
      simp [Event.taken]
  | deliver worker s' =>
      obtain ⟨p, -, -, rfl⟩ := deliver_cases hstep
      simp [Event.taken]
  | publish worker =>
      obtain ⟨p, -, -, rfl⟩ := publish_cases hstep
      simp [Event.taken]
  | handle s' =>
      obtain ⟨b, rest, hmailbox, rfl⟩ := handle_cases hstep
      rcases eq_or_ne s s' with rfl | hne
      · simp [Event.taken, hmailbox]
      · simp [Event.taken, hne, hne.symm]

/-- Only what workers have made is published. -/
structure Made (setting : Setting S α β ι) (x : Broadcast S α β) : Prop where
  publishing : ∀ p ∈ x.publishing, ∃ a extra, p.item = setting.make a extra
  given : ∀ s, ∀ b ∈ x.given s, ∃ a extra, b = setting.make a extra

omit [DecidableEq S] in
theorem made_start : Made setting ({} : Broadcast S α β) where
  publishing := by simp
  given := by simp [Broadcast.given]

theorem Made.step (h : Made setting x) {e : Event S α ι} (hstep : step setting x e = some x') :
    Made setting x' := by
  cases e with
  | accept a =>
      obtain rfl := Option.some.inj hstep
      exact ⟨h.publishing, h.given⟩
  | take extra =>
      obtain ⟨a, waiting, -, -, rfl⟩ := take_cases hstep
      refine ⟨fun p hp => ?_, h.given⟩
      rcases List.mem_append.mp hp with hp | hp
      · exact h.publishing p hp
      · obtain rfl := List.mem_singleton.mp hp
        exact ⟨a, extra, rfl⟩
  | deliver worker s =>
      obtain ⟨p, hp, -, rfl⟩ := deliver_cases hstep
      have hmade := h.publishing p (List.mem_of_getElem? hp)
      refine ⟨fun q hq => ?_, fun s' b hb => ?_⟩
      · rcases List.mem_or_eq_of_mem_set hq with hq | rfl
        · exact h.publishing q hq
        · exact hmade
      · have hgiven := given_update_mailbox x s s' p.item
        simp only [Broadcast.given] at hgiven hb
        rw [hgiven] at hb
        rcases List.mem_append.mp hb with hb | hb
        · exact h.given s' b hb
        · split at hb
          · obtain rfl := List.mem_singleton.mp hb
            exact hmade
          · simp at hb
  | publish worker =>
      obtain ⟨p, hp, -, rfl⟩ := publish_cases hstep
      exact ⟨fun q hq => h.publishing q (List.mem_of_mem_eraseIdx hq), h.given⟩
  | handle s =>
      obtain ⟨b, rest, hmailbox, rfl⟩ := handle_cases hstep
      refine ⟨h.publishing, fun s' c hc => ?_⟩
      rw [given_handle hmailbox] at hc
      exact h.given s' c hc

theorem eq_singleton_of_getElem? {γ : Type*} {l : List γ} (hlength : l.length ≤ 1) {i : Nat}
    {c : γ} (h : l[i]? = some c) : l = [c] ∧ i = 0 := by
  obtain ⟨hlt, hget⟩ := List.getElem?_eq_some_iff.mp h
  obtain rfl : i = 0 := by omega
  obtain ⟨only, rfl⟩ := List.length_eq_one_iff.mp (Nat.le_antisymm hlength hlt)
  exact ⟨by simpa using hget, rfl⟩

/-- What the subscriber was given and is going to be given, in order. -/
def Broadcast.sequence (x : Broadcast S α β) (source : β → α) (s : S) : List α :=
  (x.given s).map source ++ (owed x.publishing s).map source ++ x.waiting

/-- A single worker keeps the order in which items are accepted. -/
theorem sequence_step (hsource : ∀ a extra, source (setting.make a extra) = a)
    (hworkers : setting.workers ≤ 1) (h : Conserved setting source x accepted)
    {e : Event S α ι} (hstep : step setting x e = some x') {s : S}
    (hs : s ∈ setting.subscribers) :
    x'.sequence source s = x.sequence source s ++ e.accepted := by
  have hfew := h.workers.trans hworkers
  cases e with
  | accept a =>
      obtain rfl := Option.some.inj hstep
      simp [Broadcast.sequence, Broadcast.given, Event.accepted]
  | take extra =>
      obtain ⟨a, waiting, hwaiting, hfree, rfl⟩ := take_cases hstep
      have hnone : x.publishing = [] := by
        rw [← List.length_eq_zero_iff]
        omega
      simp [Broadcast.sequence, Broadcast.given, owed, hnone, hwaiting, hs, hsource,
        Event.accepted]
  | deliver worker s' =>
      obtain ⟨p, hp, hs', rfl⟩ := deliver_cases hstep
      obtain ⟨hsingle, rfl⟩ := eq_singleton_of_getElem? hfew hp
      have hnodup := (h.left p (List.mem_of_getElem? hp)).1
      have hgiven := given_update_mailbox x s' s p.item
      simp only [Broadcast.given] at hgiven
      simp only [Broadcast.sequence, Broadcast.given, Event.accepted, List.append_nil, hgiven]
      rcases eq_or_ne s s' with rfl | hne
      · simp [owed, hsingle, hs', hnodup.not_mem_erase]
      · simp [owed, hsingle, hne, List.filterMap_cons, List.mem_erase_of_ne hne]
  | publish worker =>
      obtain ⟨p, hp, hleft, rfl⟩ := publish_cases hstep
      obtain ⟨hsingle, rfl⟩ := eq_singleton_of_getElem? hfew hp
      simp [Broadcast.sequence, Broadcast.given, owed, hsingle, hleft, Event.accepted]
  | handle s' =>
      obtain ⟨b, rest, hmailbox, rfl⟩ := handle_cases hstep
      simp only [Broadcast.sequence, given_handle hmailbox, Event.accepted, List.append_nil]

end Steps

/-! ### Work comes to an end -/

/-- Everything that is done without a new item. -/
def Event.own : Event S α ι → Prop
  | .accept _ => False
  | _ => True

/-- Nothing is on its way any more. -/
structure Drained (setting : Setting S α β ι) (x : Broadcast S α β) : Prop where
  waiting : x.waiting = []
  publishing : x.publishing = []
  mailbox : ∀ s ∈ setting.subscribers, x.mailbox s = []

/-- The steps that are left to do. -/
def pending (setting : Setting S α β ι) (x : Broadcast S α β) : Nat :=
  x.waiting.length * (2 * setting.subscribers.length + 2) +
    (x.publishing.map fun p => 2 * p.left.length + 1).sum +
    (setting.subscribers.map fun s => (x.mailbox s).length).sum

section Work

variable {setting : Setting S α β ι} {x x' : Broadcast S α β}

theorem Conserved.handled_perm {source : β → α} {accepted : List α}
    (h : Conserved setting source x accepted) (hdrained : Drained setting x) {s : S}
    (hs : s ∈ setting.subscribers) : ((x.handled s).map source).Perm accepted := by
  have hperm := h.perm s hs
  rw [Broadcast.given, hdrained.mailbox s hs, hdrained.waiting, hdrained.publishing] at hperm
  simpa [owed] using hperm

theorem exists_step (hworkers : 0 < setting.workers) (extra : ι) (h : ¬Drained setting x) :
    ∃ e : Event S α ι, e.own ∧ (step setting x e).isSome := by
  match hpublishing : x.publishing, hwaiting : x.waiting with
  | p :: publishing, _ =>
      match hleft : p.left with
      | [] => exact ⟨.publish 0, trivial, by simp [step, hpublishing, hleft]⟩
      | s :: left => exact ⟨.deliver 0 s, trivial, by simp [step, hpublishing, hleft]⟩
  | [], a :: waiting =>
      exact ⟨.take extra, trivial, by simp [step, hpublishing, hwaiting, hworkers]⟩
  | [], [] =>
      by_contra hstuck
      refine h ⟨hwaiting, hpublishing, fun s hs => ?_⟩
      match hmailbox : x.mailbox s with
      | [] => rfl
      | b :: rest =>
          exact absurd ⟨.handle s, trivial, by simp [step, hs, hmailbox]⟩ hstuck

theorem sum_lengths_update (subscribers : List S) (hnodup : subscribers.Nodup)
    (mailbox : S → List β) (s : S) (messages : List β) :
    (subscribers.map fun s' => (Function.update mailbox s messages s').length).sum +
        (if s ∈ subscribers then (mailbox s).length else 0) =
      (subscribers.map fun s' => (mailbox s').length).sum +
        if s ∈ subscribers then messages.length else 0 := by
  induction subscribers with
  | nil => rfl
  | cons first rest ih =>
      obtain ⟨hfirst, hrest⟩ := List.nodup_cons.mp hnodup
      have hnext := ih hrest
      simp only [List.map_cons, List.sum_cons, List.mem_cons]
      rcases eq_or_ne s first with rfl | hne
      · simp only [hfirst, if_false, Nat.add_zero] at hnext
        simp only [Function.update_self, true_or, if_true]
        omega
      · rw [Function.update_of_ne hne.symm]
        simp only [hne, false_or]
        omega

/-- Every step of the work is one of those that were left to do. -/
theorem pending_lt (hsubscribers : setting.subscribers.Nodup) {e : Event S α ι} (hown : e.own)
    (hstep : step setting x e = some x') : pending setting x' < pending setting x := by
  cases e with
  | accept a => exact hown.elim
  | take extra =>
      obtain ⟨a, waiting, hwaiting, -, rfl⟩ := take_cases hstep
      simp only [pending, hwaiting, List.length_cons, List.map_append, List.sum_append,
        List.map_cons, List.map_nil, List.sum_singleton, Nat.succ_mul]
      omega
  | deliver worker s =>
      obtain ⟨p, hp, hs, rfl⟩ := deliver_cases hstep
      obtain ⟨hpre, hset⟩ := perm_of_getElem? hp
      have hpublishing := (hpre.map fun p => 2 * p.left.length + 1).sum_eq
      have hpublishing' :=
        ((hset { p with left := p.left.erase s }).map fun p => 2 * p.left.length + 1).sum_eq
      have hmailbox := sum_lengths_update setting.subscribers hsubscribers x.mailbox s
        (x.mailbox s ++ [p.item])
      have hleft := List.length_erase_of_mem hs
      have hpos := List.length_pos_of_mem hs
      simp only [List.map_cons, List.sum_cons] at hpublishing hpublishing'
      simp only [List.length_append, List.length_singleton] at hmailbox
      simp only [pending]
      split at hmailbox <;> omega
  | publish worker =>
      obtain ⟨p, hp, hleft, rfl⟩ := publish_cases hstep
      have hperm := ((perm_of_getElem? hp).1.map fun p => 2 * p.left.length + 1).sum_eq
      simp only [List.map_cons, List.sum_cons] at hperm
      simp only [pending]
      omega
  | handle s =>
      have hs : s ∈ setting.subscribers := by
        simp only [step, Option.ite_none_right_eq_some] at hstep
        exact hstep.1
      obtain ⟨b, rest, hmailbox, rfl⟩ := handle_cases hstep
      have hsum := sum_lengths_update setting.subscribers hsubscribers x.mailbox s rest
      simp only [hs, if_true, hmailbox, List.length_cons] at hsum
      simp only [pending]
      omega

end Work

end TwitchChatWorker.Lib.Broadcasts
