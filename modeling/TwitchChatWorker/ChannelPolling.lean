import Mathlib.Algebra.Group.Int.Defs
import Mathlib.Data.String.Basic
import TwitchChatWorker.Lib.OrderedMaps
import TwitchChatWorker.Lib.Runs

/-!
`loadChannels(timestamp)` called again and again while rows of the table
`channel` are updated.  The clock counts in parts of a second; the database
stamps rows with the whole clock, the timestamp is in whole seconds.
-/

namespace TwitchChatWorker.ChannelPolling

open TwitchChatWorker.Lib.OrderedMaps
open TwitchChatWorker.Lib.Runs

/-- The version, the number of the update that wrote the row, is not stored. -/
structure Row where
  watch : Bool
  updated : Nat
  version : Nat
deriving DecidableEq

/-- A call that has returned: how many updates were committed before it began,
whether its request succeeded, and what it returned. -/
structure Call where
  begun : Nat
  successful : Bool
  channels : List (String × Row)
deriving DecidableEq

/-- How far a call of `loadChannels` has come. -/
inductive Phase where
  | idle
  | formatted (timestamp : Int) (begun : Nat)
  | pinged (timestamp : Int) (begun : Nat)
  | requested (begun : Nat) (successful : Bool) (channels : List (String × Row))
deriving DecidableEq

/-- `answered` is how many updates were committed when a request last succeeded. -/
structure Polling where
  clock : Nat
  channel : OrderedMap String Row
  timestamp : Int
  phase : Phase := .idle
  updates : List (String × Row) := []
  answered : Nat := 0
  calls : List Call := []

inductive Event where
  | tick (elapsed : Nat)
  | update (name : String) (watch : Bool)
  | format
  | ping (answered : Bool)
  | request (answered : Bool)
  | readClock

/-- `updated > to_timestamp(timestamp)`. -/
def Due (perSecond : Nat) (timestamp : Int) (row : Row) : Prop :=
  timestamp * perSecond < row.updated

instance (perSecond : Nat) (timestamp : Int) (row : Row) :
    Decidable (Due perSecond timestamp row) := inferInstanceAs (Decidable (_ < _))

namespace Polling

/-- The clock in whole seconds. -/
def seconds (perSecond : Nat) (s : Polling) : Int := (s.clock / perSecond : Nat)

/-- The rows that the request returns. -/
def dueRows (perSecond : Nat) (timestamp : Int) (s : Polling) : List (String × Row) :=
  s.channel.entries.filter fun entry => Due perSecond timestamp entry.2

/-- An update writes its row with the present time. -/
def commit (s : Polling) (name : String) (watch : Bool) : Polling :=
  let row : Row := ⟨watch, s.clock, s.updates.length + 1⟩
  { s with
    channel := s.channel.assign name row
    updates := s.updates ++ [(name, row)] }

/-- The statements of `loadChannels` that others can come between. -/
def step (perSecond : Nat) (s : Polling) : Event → Option Polling
  | .tick elapsed => some { s with clock := s.clock + elapsed }
  | .update name watch => some (s.commit name watch)
  | .format =>
      match s.phase with
      | .idle => some { s with phase := .formatted s.timestamp s.updates.length }
      | _ => none
  | .ping answered =>
      match s.phase with
      | .formatted timestamp begun =>
          if answered then some { s with phase := .pinged timestamp begun }
          else some { s with phase := .idle, calls := s.calls ++ [⟨begun, false, []⟩] }
      | _ => none
  | .request answered =>
      match s.phase with
      | .pinged timestamp begun =>
          if answered then
            let channels := s.dueRows perSecond timestamp
            some { s with
              phase := .requested begun true channels
              answered := s.updates.length }
          else some { s with phase := .requested begun false [] }
      | _ => none
  | .readClock =>
      match s.phase with
      | .requested begun successful channels =>
          some { s with
            timestamp := s.seconds perSecond
            phase := .idle
            calls := s.calls ++ [⟨begun, successful, channels⟩] }
      | _ => none

end Polling

/-- A call has returned the row of the update or a newer one. -/
def Returned (s : Polling) (update : String × Row) : Prop :=
  ∃ call ∈ s.calls, ∃ row, (update.1, row) ∈ call.channels ∧ update.2.version ≤ row.version

/-- Every update that was committed before a successful call began is returned
by the time that this call returns. -/
def LosesNoUpdate (s : Polling) : Prop :=
  ∀ call ∈ s.calls, call.successful = true →
    ∀ update ∈ s.updates.take call.begun, Returned s update

/-- What a call that has made its request is going to return. -/
def Phase.channels : Phase → List (String × Row)
  | .requested _ _ channels => channels
  | _ => []

/-- An update is stamped later than the timestamp, and the second that is read is
over by the time that a row is stamped which was committed after a request last
succeeded. -/
def Prompt (perSecond : Nat) (t : Transition Polling Event) : Prop :=
  match t.event with
  | .update _ _ => t.pre.timestamp * perSecond < t.pre.clock
  | .readClock =>
      ∀ entry ∈ t.pre.updates.drop t.pre.answered, entry ∈ t.pre.channel.entries →
        Due perSecond (t.pre.seconds perSecond) entry.2
  | _ => True

instance (perSecond : Nat) : DecidablePred (Prompt perSecond)
  | ⟨s, .update _ _, _⟩ => inferInstanceAs (Decidable (s.timestamp * perSecond < s.clock))
  | ⟨s, .readClock, _⟩ =>
      inferInstanceAs (Decidable (∀ entry ∈ s.updates.drop s.answered,
        entry ∈ s.channel.entries → Due perSecond (s.seconds perSecond) entry.2))
  | ⟨_, .tick _, _⟩ | ⟨_, .format, _⟩ | ⟨_, .ping _, _⟩ | ⟨_, .request _, _⟩ =>
      inferInstanceAs (Decidable True)

section Invariant

variable {perSecond : Nat} {s : Polling} {update : String × Row}

/-- The present row of the update's channel will be asked for by a next call. -/
def Awaited (perSecond : Nat) (s : Polling) (update : String × Row) : Prop :=
  ∃ row, (update.1, row) ∈ s.updates ∧ s.channel.find? update.1 = some row ∧
    update.2.version ≤ row.version ∧ Due perSecond s.timestamp row

/-- The row of the update or a newer one is among those of a request. -/
def InResult (channels : List (String × Row)) (update : String × Row) : Prop :=
  ∃ row, (update.1, row) ∈ channels ∧ update.2.version ≤ row.version

/-- What the phase of the call guarantees about the updates so far. -/
def PhaseCovers (perSecond : Nat) (s : Polling) : Prop :=
  match s.phase with
  | .idle => ∀ update ∈ s.updates, Returned s update ∨ Awaited perSecond s update
  | .formatted timestamp begun | .pinged timestamp begun =>
      timestamp = s.timestamp ∧ begun ≤ s.updates.length ∧
        ∀ update ∈ s.updates, Returned s update ∨ Awaited perSecond s update
  | .requested begun successful channels =>
      begun ≤ s.updates.length ∧ (successful = true → begun ≤ s.answered) ∧
        ∀ update ∈ s.updates,
          Returned s update ∨ InResult channels update ∨ Awaited perSecond s update

/-- What was committed before a request that succeeded is returned or held. -/
structure Inv (perSecond : Nat) (s : Polling) : Prop where
  versions : ∀ update ∈ s.updates, update.2.version ≤ s.updates.length
  begun : ∀ call ∈ s.calls, call.begun ≤ s.updates.length
  answered : s.answered ≤ s.updates.length
  found : ∀ update ∈ s.updates.take s.answered,
    Returned s update ∨ InResult s.phase.channels update
  covers : PhaseCovers perSecond s
  loses : LosesNoUpdate s

theorem Returned.mono {s' : Polling} (hcalls : ∀ call ∈ s.calls, call ∈ s'.calls)
    (h : Returned s update) : Returned s' update := by
  obtain ⟨call, hcall, row, hrow, hversion⟩ := h
  exact ⟨call, hcalls call hcall, row, hrow, hversion⟩

/-- The committed row is due because its stamp is later than the timestamp; it
takes the place of an older row that was awaited. -/
theorem awaited_commit (hlater : s.timestamp * perSecond < s.clock) (name : String) (watch : Bool)
    (hversion : update.2.version ≤ s.updates.length + 1)
    (h : update.1 = name ∨ Awaited perSecond s update) :
    Awaited perSecond (s.commit name watch) update := by
  simp only [Awaited, Polling.commit, OrderedMap.find?_assign]
  by_cases hname : update.1 = name
  · rw [if_pos hname, hname]
    exact ⟨_, List.mem_append_right _ List.mem_cons_self, rfl, hversion, hlater⟩
  · rw [if_neg hname]
    obtain ⟨row, hupdate, hfind, hkept⟩ := h.resolve_left hname
    exact ⟨row, List.mem_append_left _ hupdate, hfind, hkept⟩

theorem phaseCovers_commit (hversions : ∀ update ∈ s.updates,
      update.2.version ≤ s.updates.length) (hcovers : PhaseCovers perSecond s)
    (hlater : s.timestamp * perSecond < s.clock) (name : String) (watch : Bool) :
    PhaseCovers perSecond (s.commit name watch) := by
  have hold : ∀ update ∈ s.updates, Awaited perSecond s update →
      Awaited perSecond (s.commit name watch) update := by
    intro update hupdate hawaited
    exact awaited_commit hlater name watch (Nat.le_succ_of_le (hversions update hupdate))
      (.inr hawaited)
  have hnew : Awaited perSecond (s.commit name watch)
      (name, ⟨watch, s.clock, s.updates.length + 1⟩) :=
    awaited_commit hlater name watch (Nat.le_refl _) (.inl rfl)
  have hlength : (s.commit name watch).updates.length = s.updates.length + 1 := by
    simp [Polling.commit]
  have hsplit : ∀ {p : String × Row → Prop},
      (∀ update ∈ s.updates, p update) →
      p (name, ⟨watch, s.clock, s.updates.length + 1⟩) →
      ∀ update ∈ (s.commit name watch).updates, p update := by
    intro p hall hlast update hupdate
    rcases List.mem_append.mp hupdate with hmem | hmem
    · exact hall update hmem
    · exact (List.mem_singleton.mp hmem) ▸ hlast
  obtain ⟨clock, channel, timestamp, phase, updates, calls⟩ := s
  cases phase with
  | idle =>
      exact hsplit (fun update hmem => (hcovers update hmem).imp_right (hold update hmem))
        (.inr hnew)
  | formatted asked begun =>
      obtain ⟨hasked, hbegun, hall⟩ := hcovers
      exact ⟨hasked, hlength ▸ Nat.le_succ_of_le hbegun,
        hsplit (fun update hmem => (hall update hmem).imp_right (hold update hmem)) (.inr hnew)⟩
  | pinged asked begun =>
      obtain ⟨hasked, hbegun, hall⟩ := hcovers
      exact ⟨hasked, hlength ▸ Nat.le_succ_of_le hbegun,
        hsplit (fun update hmem => (hall update hmem).imp_right (hold update hmem)) (.inr hnew)⟩
  | requested begun successful channels =>
      obtain ⟨hbegun, hsuccess, hall⟩ := hcovers
      exact ⟨hlength ▸ Nat.le_succ_of_le hbegun, hsuccess, hsplit
        (fun update hmem => (hall update hmem).imp_right (Or.imp_right (hold update hmem)))
        (.inr (.inr hnew))⟩

theorem inv_commit (h : Inv perSecond s) (hlater : s.timestamp * perSecond < s.clock)
    (name : String) (watch : Bool) : Inv perSecond (s.commit name watch) where
  versions := by
    intro update hupdate
    rw [Polling.commit] at hupdate ⊢
    rw [List.length_append]
    rcases List.mem_append.mp hupdate with hmem | hmem
    · exact Nat.le_succ_of_le (h.versions update hmem)
    · obtain rfl := List.mem_singleton.mp hmem
      exact Nat.le_refl _
  begun := by
    intro call hcall
    rw [Polling.commit, List.length_append]
    exact Nat.le_succ_of_le (h.begun call hcall)
  answered := by
    rw [Polling.commit, List.length_append]
    exact Nat.le_succ_of_le h.answered
  found := by
    intro update hupdate
    rw [Polling.commit, List.take_append_of_le_length h.answered] at hupdate
    exact h.found update hupdate
  covers := phaseCovers_commit h.versions h.covers hlater name watch
  loses := by
    intro call hcall hsuccessful update hupdate
    rw [Polling.commit, List.take_append_of_le_length (h.begun call hcall)] at hupdate
    exact h.loses call hcall hsuccessful update hupdate

theorem mem_dueRows {timestamp : Int} {name : String} {row : Row} :
    (name, row) ∈ s.dueRows perSecond timestamp ↔
      s.channel.find? name = some row ∧ Due perSecond timestamp row := by
  simp [Polling.dueRows, List.mem_filter, OrderedMap.mem_entries_iff]

theorem Awaited.inResult (h : Awaited perSecond s update) :
    InResult (s.dueRows perSecond s.timestamp) update := by
  obtain ⟨row, -, hfind, hversion, hdue⟩ := h
  exact ⟨row, mem_dueRows.mpr ⟨hfind, hdue⟩, hversion⟩

theorem inv_unanswered {begun : Nat} {timestamp : Int} (h : Inv perSecond s)
    (hphase : s.phase.channels = [])
    (hcovers : timestamp = s.timestamp ∧ begun ≤ s.updates.length ∧
      ∀ update ∈ s.updates, Returned s update ∨ Awaited perSecond s update) :
    Inv perSecond { s with phase := .idle, calls := s.calls ++ [⟨begun, false, []⟩] } := by
  have hkept {update : String × Row} (hreturned : Returned s update) :
      Returned { s with phase := .idle, calls := s.calls ++ [⟨begun, false, []⟩] } update :=
    hreturned.mono fun call hcall => List.mem_append_left _ hcall
  constructor
  · exact h.versions
  · intro call hcall
    rcases List.mem_append.mp hcall with hmem | hmem
    · exact h.begun call hmem
    · obtain rfl := List.mem_singleton.mp hmem
      exact hcovers.2.1
  · exact h.answered
  · intro update hmem
    rcases h.found update hmem with hreturned | ⟨row, hrow, -⟩
    · exact .inl (hkept hreturned)
    · rw [hphase] at hrow
      cases hrow
  · exact fun update hmem => (hcovers.2.2 update hmem).imp_left hkept
  · intro call hcall hsuccessful update hmem
    rcases List.mem_append.mp hcall with hold | hlast
    · exact hkept (h.loses call hold hsuccessful update hmem)
    · obtain rfl := List.mem_singleton.mp hlast
      simp at hsuccessful

theorem inv_answered {begun : Nat} {timestamp : Int} (h : Inv perSecond s)
    (hphase : s.phase = .pinged timestamp begun) :
    Inv perSecond { s with
      phase := .requested begun true (s.dueRows perSecond timestamp)
      answered := s.updates.length } := by
  have hcovers := h.covers
  rw [PhaseCovers, hphase] at hcovers
  obtain ⟨rfl, hbegun, hall⟩ := hcovers
  refine ⟨h.versions, h.begun, Nat.le_refl _, fun update hmem => ?_, ?_, h.loses⟩
  · rcases hall update (List.mem_of_mem_take hmem) with hreturned | hawaited
    · exact .inl hreturned
    · exact .inr hawaited.inResult
  · exact ⟨hbegun, fun _ => hbegun, fun update hmem => (hall update hmem).imp_right .inr⟩

theorem inv_failed {begun : Nat} {timestamp : Int} (h : Inv perSecond s)
    (hphase : s.phase = .pinged timestamp begun) :
    Inv perSecond { s with phase := .requested begun false [] } := by
  have hcovers := h.covers
  rw [PhaseCovers, hphase] at hcovers
  obtain ⟨rfl, hbegun, hall⟩ := hcovers
  refine ⟨h.versions, h.begun, h.answered, ?_, ?_, h.loses⟩
  · have hfound := h.found
    rwa [hphase] at hfound
  · exact ⟨hbegun, nofun, fun update hmem => (hall update hmem).imp_right .inr⟩

/-- The call returns what it holds; what it does not hold stays awaited when
the timestamp does not pass it. -/
theorem inv_readClock {begun : Nat} {successful : Bool} {channels : List (String × Row)}
    (h : Inv perSecond s) (hphase : s.phase = .requested begun successful channels)
    (hprompt : ∀ entry ∈ s.updates.drop s.answered, entry ∈ s.channel.entries →
      Due perSecond (s.seconds perSecond) entry.2) :
    Inv perSecond { s with
      timestamp := s.seconds perSecond
      phase := .idle
      calls := s.calls ++ [⟨begun, successful, channels⟩] } := by
  have hcovers := h.covers
  rw [PhaseCovers, hphase] at hcovers
  obtain ⟨hbegun, hsuccess, hall⟩ := hcovers
  have hreturns {update : String × Row} (hfound : Returned s update ∨ InResult channels update) :
      Returned { s with
        timestamp := s.seconds perSecond
        phase := .idle
        calls := s.calls ++ [⟨begun, successful, channels⟩] } update := by
    rcases hfound with hreturned | ⟨row, hrow, hversion⟩
    · exact hreturned.mono fun call hcall => List.mem_append_left _ hcall
    · exact ⟨_, List.mem_append_right _ List.mem_cons_self, row, hrow, hversion⟩
  have hfound : ∀ update ∈ s.updates.take s.answered,
      Returned s update ∨ InResult channels update := by
    have hfound := h.found
    rwa [hphase] at hfound
  refine ⟨h.versions, fun call hcall => ?_, h.answered, fun update hmem => ?_,
    fun update hmem => ?_, fun call hcall hsuccessful update hmem => ?_⟩
  · rcases List.mem_append.mp hcall with hmem | hmem
    · exact h.begun call hmem
    · obtain rfl := List.mem_singleton.mp hmem
      exact hbegun
  · exact .inl (hreturns (hfound update hmem))
  · rcases hall update hmem with hreturned | hheld | ⟨row, hupdate, hfind, hversion, -⟩
    · exact .inl (hreturns (.inl hreturned))
    · exact .inl (hreturns (.inr hheld))
    · -- the present row was committed before or after the last request that succeeded
      rw [← List.take_append_drop s.answered s.updates] at hupdate
      rcases List.mem_append.mp hupdate with hbefore | hafter
      · refine .inl (hreturns ((hfound _ hbefore).imp ?_ ?_))
        · rintro ⟨call, hcall, row', hrow', hle⟩
          exact ⟨call, hcall, row', hrow', hversion.trans hle⟩
        · rintro ⟨row', hrow', hle⟩
          exact ⟨row', hrow', hversion.trans hle⟩
      · have hentry : (update.1, row) ∈ s.channel.entries := OrderedMap.mem_entries_iff.mpr hfind
        exact .inr ⟨row, List.mem_of_mem_drop hafter, hfind, hversion, hprompt _ hafter hentry⟩
  · rcases List.mem_append.mp hcall with hold | hlast
    · exact hreturns (.inl (h.loses call hold hsuccessful update hmem))
    · obtain rfl := List.mem_singleton.mp hlast
      exact hreturns (hfound update (List.take_subset_take_left _ (hsuccess hsuccessful) hmem))

theorem inv_step {s s' : Polling} {e : Event} (h : Inv perSecond s)
    (hprompt : Prompt perSecond ⟨s, e, s'⟩) (hstep : s.step perSecond e = some s') :
    Inv perSecond s' := by
  have hcovers := h.covers
  cases e with
  | tick elapsed =>
      obtain rfl := Option.some.inj hstep
      exact ⟨h.versions, h.begun, h.answered, h.found, h.covers, h.loses⟩
  | update name watch =>
      obtain rfl := Option.some.inj hstep
      exact inv_commit h hprompt name watch
  | format =>
      simp only [Polling.step] at hstep
      split at hstep
      · next hphase =>
          obtain rfl := Option.some.inj hstep
          have hfound := h.found
          rw [PhaseCovers, hphase] at hcovers
          rw [hphase] at hfound
          exact ⟨h.versions, h.begun, h.answered, hfound, ⟨rfl, Nat.le_refl _, hcovers⟩, h.loses⟩
      · simp at hstep
  | ping answered =>
      simp only [Polling.step] at hstep
      split at hstep
      · next timestamp begun hphase =>
          have hfound := h.found
          rw [PhaseCovers, hphase] at hcovers
          rw [hphase] at hfound
          split at hstep
          · obtain rfl := Option.some.inj hstep
            exact ⟨h.versions, h.begun, h.answered, hfound, hcovers, h.loses⟩
          · obtain rfl := Option.some.inj hstep
            exact inv_unanswered h (by rw [hphase]; rfl) hcovers
      · simp at hstep
  | request answered =>
      simp only [Polling.step] at hstep
      split at hstep
      · next timestamp begun hphase =>
          split at hstep
          · obtain rfl := Option.some.inj hstep
            exact inv_answered h hphase
          · obtain rfl := Option.some.inj hstep
            exact inv_failed h hphase
      · simp at hstep
  | readClock =>
      simp only [Polling.step] at hstep
      split at hstep
      · next begun successful channels hphase =>
          obtain rfl := Option.some.inj hstep
          exact inv_readClock h hphase hprompt
      · simp at hstep

end Invariant

/-- The state before the first call. -/
structure Start (s : Polling) : Prop where
  phase : s.phase = .idle
  updates : s.updates = []
  answered : s.answered = 0
  calls : s.calls = []

theorem Start.inv {perSecond : Nat} {s : Polling} (h : Start s) : Inv perSecond s where
  versions := by simp [h.updates]
  begun := by simp [h.calls]
  answered := by simp [h.answered]
  found := by simp [h.updates]
  covers := by simp [PhaseCovers, h.phase, h.updates]
  loses := by simp [LosesNoUpdate, h.calls]

/-- No update is lost in a run in which the timestamp passes no row that was committed
after a request last succeeded. -/
theorem losesNoUpdate_of_prompt {perSecond : Nat} {start s : Polling}
    {tr : List (Transition Polling Event)} (hstart : Start start)
    (hrun : Run (Polling.step perSecond) start tr s) (hprompt : ∀ t ∈ tr, Prompt perSecond t) :
    LosesNoUpdate s := by
  have hinv := hrun.invariant (Prompt perSecond) hstart.inv
    (fun s e s' h hguard hstep => inv_step h hguard hstep) hprompt
  exact hinv.loses

/-- A clock in microseconds. -/
def sampleStart : Polling where
  clock := 1500000
  channel := .empty
  timestamp := 0

def promptEvents : List Event :=
  [.update "den" true, .format, .ping true, .request true, .tick 1000000, .readClock,
    .update "den" false, .format, .ping false, .format, .ping true, .request true, .readClock]

theorem losesNoUpdate_of_prompt_sample :
    ∃ s, exec (Polling.step 1000000) sampleStart promptEvents = some s ∧ LosesNoUpdate s := by
  have hexec : (exec (Polling.step 1000000) sampleStart promptEvents).isSome := by
    decide +kernel
  exact ⟨_, (Option.some_get hexec).symm,
    losesNoUpdate_of_prompt ⟨rfl, rfl, rfl, rfl⟩ (run_trace promptEvents hexec) (by decide +kernel)⟩

/-- The request fails after the ping, the timestamp moves past the update, and
the next call does not ask for it any more. -/
def failedRequest : List Event :=
  [.update "den" true, .tick 1000000, .format, .ping true, .request false, .readClock,
    .format, .ping true, .request true, .readClock]

theorem not_losesNoUpdate_failedRequest :
    ∃ s, exec (Polling.step 1000000) sampleStart failedRequest = some s ∧ ¬LosesNoUpdate s := by
  have hlogs : (exec (Polling.step 1000000) sampleStart failedRequest).map
      (fun s => (s.updates, s.calls)) =
      some ([("den", ⟨true, 1500000, 1⟩)], [⟨1, false, []⟩, ⟨1, true, []⟩]) := by
    decide +kernel
  obtain ⟨s, hexec, hs⟩ := Option.map_eq_some_iff.mp hlogs
  obtain ⟨hupdates, hcalls⟩ := Prod.mk.inj hs
  refine ⟨s, hexec, fun hloses => ?_⟩
  obtain ⟨call, hcall, row, hrow, -⟩ := hloses ⟨1, true, []⟩ (by simp [hcalls]) rfl
    ("den", ⟨true, 1500000, 1⟩) (by simp [hupdates])
  rw [hcalls] at hcall
  have hempty : ∀ call ∈ [(⟨1, false, []⟩ : Call), ⟨1, true, []⟩], call.channels = [] := by
    decide
  rw [hempty call hcall] at hrow
  simp at hrow

end TwitchChatWorker.ChannelPolling
