import Mathlib.Data.Prod.Lex
import TwitchChatWorker.IrcController
import TwitchChatWorker.StatisticsDelivery

/-!
The counters of the IRC sessions on their way to the statistics
(`IRCSession.cpp`, `IRCClient::onStatistics`).  A session counts what its client
does with it in one statistic and what its selector reports in another.  A PING
sends the first away, a PONG the second; what a session has not sent stays with
it, also when its client has dropped it.  There is no lock: the selector thread
sends the JOINs of a login, and counts them in the first statistic too.
-/

namespace TwitchChatWorker.IrcMetrics

open TwitchChatWorker.ChannelList
open TwitchChatWorker.HttpRequests
open TwitchChatWorker.IrcClient
open TwitchChatWorker.IrcController
open TwitchChatWorker.Lib.OrderedMaps
open TwitchChatWorker.Lib.Runs
open TwitchChatWorker.Lib.Tallies
open TwitchChatWorker.Statistics
open TwitchChatWorker.StatisticsBalance
open TwitchChatWorker.StatisticsDelivery

/-- The two sets of counters of a session, one for each thread that writes them. -/
structure SessionStats where
  fromSo5Thread : IRCStatistic := {}
  fromSelectorThread : IRCStatistic := {}

/-- What a method of the session counts when the client calls it. -/
def calledStats (call : Call) : IRCStatistic :=
  let sent : UInt32 := if call.result then 1 else 0
  match call.method with
  | .connect =>
      if call.result then { connects := { success := 1 } } else { connects := { failed := 1 } }
  | .sendJoin _ => { commandsOut := { join := 1, count := sent } }
  | .sendPart _ => { commandsOut := { part := 1, count := sent } }
  | .sendMessage _ _ => { commandsOut := { privmsg := 1, count := sent } }
  | .sendPing _ | .sendRaw _ => { commandsOut := { count := sent } }
  | .connected | .loggedIn | .disconnect | .getId | .setPingTimer | .onDisconnected => {}

/-- Something that a session counts.  `onPong` stores the round trip time. -/
inductive Counting where
  | called (call : Call)
  | selector (stats : IRCStatistic)
  | onPong (rtt : UInt32)

/-- The statistic that is sent, and what the session counts from then on. -/
def Counting.run (stats : SessionStats) : Counting → Option IRCStatistic × SessionStats
  | .called call =>
      match call.method with
      | .sendPing _ =>
          (some stats.fromSo5Thread,
            { stats with fromSo5Thread := IRCStatistic.add {} (calledStats call) })
      | _ => (none, { stats with fromSo5Thread := stats.fromSo5Thread.add (calledStats call) })
  | .selector amount =>
      (none, { stats with fromSelectorThread := stats.fromSelectorThread.add amount })
  | .onPong rtt =>
      (some { stats.fromSelectorThread.add { commandsIn := { count := 1 } } with rtt := rtt },
        { stats with fromSelectorThread := {} })

/-- What is counted. -/
def Counting.amount : Counting → IRCStatistic
  | .called call => calledStats call
  | .selector amount => amount
  | .onPong _ => { commandsIn := { count := 1 } }

/-- The callbacks of a session that do nothing but count. -/
inductive Callback where
  | onSendDataLen (len : Int32)
  | onRecvDataLen (len : Int32)
  /-- `onNick`, `onQuit`, `onPart` and so on -/
  | onCommand

/-- A length is added to a counter of 64 bits without a sign. -/
def Callback.stats : Callback → IRCStatistic
  | .onSendDataLen len => { commandsOut := { bytes := UInt64.ofInt len.toInt } }
  | .onRecvDataLen len => { commandsIn := { bytes := UInt64.ofInt len.toInt } }
  | .onCommand => { commandsIn := { count := 1 } }

/-- When both threads count a JOIN at a time, its two counters may come to anything. -/
def SessionStats.raced (stats : SessionStats) (join count : UInt32) : SessionStats :=
  let out := { stats.fromSo5Thread.commandsOut with join := join, count := count }
  { stats with fromSo5Thread := { stats.fromSo5Thread with commandsOut := out } }

/-- A session by its client and its place. -/
abbrev SessionKey := ClientPtr ×ₗ SessionPtr

/-- The controller, the counters of the sessions and the way of the reports to
`StatsCollector`. -/
structure State where
  controller : IRCController
  stats : OrderedMap SessionKey SessionStats := .empty
  delivery : Delivery := {}

/-- `IRCClient::onStatistics`. -/
def onStatistics (client : IRCClient) (session : SessionPtr) (stats : IRCStatistic) :
    StatisticsBalance.Event :=
  .sessionMetrics (UInt32.ofNat (client.heap session).id) client.cliConfig.nick stats

def count (p : ClientPtr) (client : IRCClient) (s : State) (counting : SessionPtr × Counting) :
    State :=
  let key := toLex (p, counting.1)
  let counted := counting.2.run ((s.stats.find? key).getD {})
  { s with
    stats := s.stats.assign key counted.2
    delivery :=
      match counted.1 with
      | none => s.delivery
      | some stats => s.delivery.send (onStatistics client counting.1 stats) }

/-- What a callback counts before it tells the client. -/
def reported (client : IRCClient) : IrcClient.Event → List (SessionPtr × Counting)
  | .onLoggedIn session _ => [(session, .selector { connects := { loggedin := 1 } })]
  | .onJoined session _ => [(session, .selector { commandsIn := { count := 1 } })]
  | .onPong session now =>
      [(session, .onPong (UInt32.ofInt (now - (client.heap session).lastPingTime)))]
  | _ => []

/-- What the sessions of a client count in a step of it. -/
def countings (before after : IRCClient) (event : IrcClient.Event) :
    List (SessionPtr × Counting) :=
  reported before event ++ after.calls.map fun call => (call.session, .called call)

/-- A step of the controller or of a client with what the sessions count in it. -/
def controlled (s : State) (event : IrcController.Event) (controller : IRCController) : State :=
  match event with
  | .client p event =>
      (countings (s.controller.clients p) (controller.clients p) event).foldl
        (count p (controller.clients p)) { s with controller := controller }
  | _ => { s with controller := controller }

inductive Event where
  | controller (event : IrcController.Event)
  | callback (p : ClientPtr) (session : SessionPtr) (callback : Callback)
  | race (p : ClientPtr) (session : SessionPtr) (join count : UInt32)
  /-- another agent sends something to `StatsCollector` -/
  | send (event : StatisticsBalance.Event)
  | handle

def step (s : State) : Event → Option State
  | .controller event =>
      (s.controller.step event).map (controlled s event)
  | .callback p session callback =>
      if p < s.controller.allocated ∧ session < (s.controller.clients p).allocated then
        some (count p (s.controller.clients p) s (session, .selector callback.stats))
      else none
  | .race p session join count =>
      if p < s.controller.allocated ∧ session < (s.controller.clients p).allocated then
        let key := toLex (p, session)
        let stats := ((s.stats.find? key).getD {}).raced join count
        some { s with stats := s.stats.assign key stats }
      else none
  | .send (.sessionMetrics _ _ _) => none
  | .send event => some { s with delivery := s.delivery.send event }
  | .handle => s.delivery.handle.map fun delivery => { s with delivery := delivery }

def start (config : IRCConnectionConfig) (env : Surroundings) : State where
  controller := .soEvtStart config env

/-- The client whose sessions count in the step. -/
def clientOf (t : Transition State Event) : ClientPtr :=
  match t.event with
  | .controller (.client p _) | .callback p _ _ => p
  | _ => 0

/-- What the step counts, session by session. -/
def countingsOf (t : Transition State Event) : List (SessionPtr × Counting) :=
  match t.event with
  | .controller (.client p event) =>
      countings (t.pre.controller.clients p) (t.post.controller.clients p) event
  | .callback _ session callback => [(session, .selector callback.stats)]
  | _ => []

/-- What a step counts, in all sessions together. -/
def counted (counter : IrcCounter) (t : Transition State Event) : Int :=
  ((countingsOf t).map fun counting => counter.value counting.2.amount).sum

/-- Both sets of counters together. -/
def SessionStats.value (counter : IrcCounter) (stats : SessionStats) : Int :=
  counter.value stats.fromSo5Thread + counter.value stats.fromSelectorThread

/-- What the sessions have counted and not yet sent. -/
def unsent (counter : IrcCounter) (s : State) : Int :=
  (s.stats.entries.map fun entry => entry.2.value counter).sum

/-- What has been counted, wherever it stands. -/
def total (counter : IrcCounter) (s : State) : Int :=
  s.delivery.total (.irc counter) + unsent counter s

/-- What other agents send can be handled. -/
def SendsWellFormed (t : Transition State Event) : Prop :=
  match t.event with
  | .send event => WellFormed event
  | _ => True

/-- The ids of the sessions that count something are below `-1u`. -/
def IdsFit (t : Transition State Event) : Prop :=
  ∀ counting ∈ countingsOf t,
    ((t.post.controller.clients (clientOf t)).heap counting.1).id < 2 ^ 32 - 1

instance : DecidablePred IdsFit := fun _ => inferInstanceAs (Decidable (∀ _ ∈ _, _))

/-- The two threads do not race for the counter. -/
def RacesElsewhere (counter : IrcCounter) (t : Transition State Event) : Prop :=
  match t.event with
  | .race _ _ _ _ => counter ≠ .join ∧ counter ≠ .countOut
  | _ => True

/-- The events of a selector thread. -/
def onSelector : IrcClient.Event → Bool
  | .onLoggedIn _ _ | .onDisconnected _ _ | .onJoined _ _ | .onPong _ _ => true
  | _ => false

theorem value_sendJoins {counter : IrcCounter} (hjoin : counter ≠ .join)
    (hcount : counter ≠ .countOut) (env : Env) (p : SessionPtr) (names : List String) :
    ∀ c : IRCClient, (∀ call ∈ c.calls, counter.value (calledStats call) = 0) →
      ∀ call ∈ (names.foldl (fun c name => (c.sendJoin env p name).2) c).calls,
        counter.value (calledStats call) = 0 := by
  induction names with
  | nil => exact fun _ hbefore => hbefore
  | cons name names ih =>
      intro c hbefore
      refine ih _ fun call hcall => ?_
      rcases List.mem_append.mp hcall with hcall | hcall
      · exact hbefore call hcall
      · obtain rfl := List.mem_singleton.mp hcall
        cases counter <;> first | rfl | contradiction

/-- Nothing but JOINs is counted by a selector thread in the first statistic, so these
are the counters that the threads can race for. -/
theorem value_of_onSelector {c c' : IRCClient} {event : IrcClient.Event}
    (hselector : onSelector event = true) (hstep : c.step event = some c')
    {counter : IrcCounter} (hjoin : counter ≠ .join) (hcount : counter ≠ .countOut) :
    ∀ call ∈ c'.calls, counter.value (calledStats call) = 0 := by
  simp only [IRCClient.step] at hstep
  split_ifs at hstep
  cases event with
  | onLoggedIn p env =>
      dsimp only at hstep
      split_ifs at hstep
      simp only [IRCClient.onLoggedIn] at hstep
      split at hstep
      · cases hstep
      next reserved channels hreserve =>
        obtain rfl := Option.some.inj hstep
        intro call hcall
        rcases List.mem_append.mp hcall with hcall | hcall
        · exact value_sendJoins hjoin hcount env p reserved _ (by simp) call hcall
        · obtain rfl := List.mem_singleton.mp hcall
          cases counter <;> rfl
  | onDisconnected p reason =>
      dsimp only at hstep
      split_ifs at hstep
      obtain rfl := Option.some.inj hstep
      exact List.forall_mem_nil _
  | onJoined p name =>
      dsimp only at hstep
      split_ifs at hstep
      obtain rfl := Option.some.inj hstep
      exact List.forall_mem_nil _
  | onPong p now =>
      dsimp only at hstep
      split_ifs at hstep
      obtain rfl := Option.some.inj hstep
      exact List.forall_mem_nil _
  | _ => cases hselector

section Counts

variable {counter : IrcCounter} {s s' : State} {p : ClientPtr} {client : IRCClient}

theorem value_empty (counter : IrcCounter) : SessionStats.value counter {} = 0 := by
  simp [SessionStats.value, counter.value_empty]

theorem value_run (counter : IrcCounter) (stats : SessionStats) (counting : Counting) :
    (counting.run stats).2.value counter + ((counting.run stats).1.map counter.value).getD 0 ≡
      stats.value counter + counter.value counting.amount [ZMOD 2 ^ counter.width] := by
  cases counting with
  | called call =>
      simp only [Counting.run, Counting.amount]
      split
      · have hfresh := counter.value_add {} (calledStats call)
        rw [counter.value_empty, zero_add] at hfresh
        have hsum := hfresh.add_right (stats.value counter)
        simp only [SessionStats.value, Option.map_some, Option.getD_some] at hsum ⊢
        convert hsum using 1 <;> omega
      · have hadd := counter.value_add stats.fromSo5Thread (calledStats call)
        simpa [SessionStats.value, add_right_comm] using
          hadd.add_right (counter.value stats.fromSelectorThread)
  | selector amount =>
      have hadd := counter.value_add stats.fromSelectorThread amount
      simpa [Counting.run, Counting.amount, SessionStats.value, add_assoc] using
        hadd.add_left (counter.value stats.fromSo5Thread)
  | onPong rtt =>
      have hadd := counter.value_add stats.fromSelectorThread { commandsIn := { count := 1 } }
      have hsent : counter.value
          { stats.fromSelectorThread.add { commandsIn := { count := 1 } } with rtt := rtt } =
          counter.value (stats.fromSelectorThread.add { commandsIn := { count := 1 } }) := by
        cases counter <;> rfl
      simpa [Counting.run, Counting.amount, SessionStats.value, counter.value_empty, hsent,
        add_assoc] using hadd.add_left (counter.value stats.fromSo5Thread)

theorem unsent_assign (counter : IrcCounter) (s : State) (key : SessionKey)
    (stats : SessionStats) :
    ((s.stats.assign key stats).entries.map fun entry => entry.2.value counter).sum +
        ((s.stats.find? key).getD {}).value counter = unsent counter s + stats.value counter := by
  have hsum := sum_entries_upsert s.stats key (fun _ => stats) (SessionStats.value counter)
  rwa [getD_map_of_zero (value_empty counter)] at hsum

theorem total_count (counter : IrcCounter) (p : ClientPtr) (client : IRCClient) (s : State)
    (counting : SessionPtr × Counting) :
    total counter (count p client s counting) ≡
      total counter s + counter.value counting.2.amount [ZMOD 2 ^ counter.width] := by
  let old := (s.stats.find? (toLex (p, counting.1))).getD {}
  have hrun := value_run counter old counting.2
  have hunsent := unsent_assign counter s (toLex (p, counting.1)) (counting.2.run old).2
  have hdelivery : (count p client s counting).delivery.total (.irc counter) =
      s.delivery.total (.irc counter) + ((counting.2.run old).1.map counter.value).getD 0 := by
    simp only [count]
    cases hsent : (counting.2.run old).1 with
    | none => simp
    | some stats => simp [Delivery.total_send, onStatistics, Figure.received]
  have hsum := hrun.add_left (total counter s - old.value counter)
  convert hsum using 1
  · rw [total, total, hdelivery]
    have hnew : unsent counter (count p client s counting) + old.value counter =
      unsent counter s + (counting.2.run old).2.value counter := hunsent
    omega
  · omega

theorem total_foldl (counter : IrcCounter) (p : ClientPtr) (client : IRCClient) (s : State)
    (countings : List (SessionPtr × Counting)) :
    total counter (countings.foldl (count p client) s) ≡
      total counter s + (countings.map fun counting => counter.value counting.2.amount).sum
      [ZMOD 2 ^ counter.width] := by
  induction countings generalizing s with
  | nil => simp
  | cons counting countings ih =>
      rw [List.foldl_cons, List.map_cons, List.sum_cons, ← add_assoc]
      exact (ih _).trans ((total_count counter p client s counting).add_right _)

theorem controller_foldl (p : ClientPtr) (client : IRCClient) (s : State)
    (countings : List (SessionPtr × Counting)) :
    (countings.foldl (count p client) s).controller = s.controller := by
  induction countings generalizing s with
  | nil => rfl
  | cons counting countings ih => exact ih (count p client s counting)

theorem controller_controlled (s : State) (event : IrcController.Event)
    (controller : IRCController) : (controlled s event controller).controller = controller := by
  cases event with
  | client p event => exact controller_foldl p _ _ _
  | _ => rfl

theorem value_raced (hjoin : counter ≠ .join) (hcount : counter ≠ .countOut)
    (stats : SessionStats) (join count : UInt32) :
    (stats.raced join count).value counter = stats.value counter := by
  cases counter with
  | join => exact absurd rfl hjoin
  | countOut => exact absurd rfl hcount
  | _ => rfl

theorem total_step (counter : IrcCounter) (hsound : s.delivery.Sound) {event : Event}
    (hraces : RacesElsewhere counter ⟨s, event, s'⟩) (hstep : step s event = some s') :
    total counter s' ≡ total counter s + counted counter ⟨s, event, s'⟩
      [ZMOD 2 ^ counter.width] := by
  cases event with
  | controller event =>
      obtain ⟨controller, -, rfl⟩ := Option.map_eq_some_iff.mp hstep
      cases event with
      | client p event =>
          simp only [counted, countingsOf, controller_controlled]
          exact total_foldl counter p _ { s with controller := controller } _
      | _ => simp [total, unsent, counted, countingsOf, controlled]
  | callback p session callback =>
      simp only [step] at hstep
      split_ifs at hstep
      obtain rfl := Option.some.inj hstep
      have hcount := total_count counter p (s.controller.clients p) s
        (session, .selector callback.stats)
      simpa [counted, countingsOf, Counting.amount] using hcount
  | race p session join count =>
      simp only [step] at hstep
      split_ifs at hstep
      obtain rfl := Option.some.inj hstep
      let old := (s.stats.find? (toLex (p, session))).getD {}
      have hunsent := unsent_assign counter s (toLex (p, session)) (old.raced join count)
      rw [value_raced hraces.1 hraces.2] at hunsent
      have hsame : unsent counter { s with
          stats := s.stats.assign (toLex (p, session)) (old.raced join count) } =
          unsent counter s := add_right_cancel hunsent
      rw [total, total, hsame]
      simp [counted, countingsOf]
  | send event =>
      cases event with
      | sessionMetrics => simp [step] at hstep
      | _ =>
          obtain rfl := Option.some.inj hstep
          simp [total, unsent, counted, countingsOf, Delivery.total_send, Figure.received]
  | handle =>
      obtain ⟨delivery, hhandle, rfl⟩ := Option.map_eq_some_iff.mp hstep
      have htotal := Delivery.total_handle (.irc counter) hsound hhandle
      simpa [total, unsent, counted, countingsOf, Figure.width] using
        htotal.add_right (unsent counter s)

theorem sound_count (h : s.delivery.Sound) (p : ClientPtr) {client : IRCClient}
    {counting : SessionPtr × Counting} (hid : (client.heap counting.1).id < 2 ^ 32 - 1) :
    (count p client s counting).delivery.Sound := by
  simp only [count]
  split
  · exact h
  · refine h.send ?_
    simp only [onStatistics, WellFormed, UInt32.toNat_ofNat']
    omega

theorem sound_foldl (h : s.delivery.Sound) (p : ClientPtr) {client : IRCClient}
    {countings : List (SessionPtr × Counting)}
    (hids : ∀ counting ∈ countings, (client.heap counting.1).id < 2 ^ 32 - 1) :
    (countings.foldl (count p client) s).delivery.Sound := by
  induction countings generalizing s with
  | nil => exact h
  | cons counting countings ih =>
      rw [List.forall_mem_cons] at hids
      exact ih (sound_count h p hids.1) hids.2

theorem sound_step (h : s.delivery.Sound) {event : Event}
    (hwell : SendsWellFormed ⟨s, event, s'⟩) (hids : IdsFit ⟨s, event, s'⟩)
    (hstep : step s event = some s') : s'.delivery.Sound := by
  cases event with
  | controller event =>
      obtain ⟨controller, -, rfl⟩ := Option.map_eq_some_iff.mp hstep
      cases event with
      | client p event =>
          simp only [IdsFit, countingsOf, clientOf, controller_controlled] at hids
          have hbefore : ({ s with controller := controller } : State).delivery.Sound := h
          exact sound_foldl hbefore p hids
      | _ => exact h
  | callback p session callback =>
      simp only [step] at hstep
      split_ifs at hstep
      obtain rfl := Option.some.inj hstep
      exact h
  | race p session join count =>
      simp only [step] at hstep
      split_ifs at hstep
      obtain rfl := Option.some.inj hstep
      exact h
  | send event =>
      cases event with
      | sessionMetrics => simp [step] at hstep
      | _ =>
          obtain rfl := Option.some.inj hstep
          exact h.send hwell
  | handle =>
      obtain ⟨delivery, hhandle, rfl⟩ := Option.map_eq_some_iff.mp hstep
      exact h.handle hhandle

end Counts

section Runs

variable {config : IRCConnectionConfig} {env : Surroundings}
  {tr : List (Transition State Event)} {s : State}

theorem sound_of_run (hrun : Run step (start config env) tr s)
    (hwell : ∀ t ∈ tr, SendsWellFormed t) (hids : ∀ t ∈ tr, IdsFit t) :
    ∀ t ∈ tr, t.pre.delivery.Sound := by
  intro t ht
  obtain ⟨past, future, rfl⟩ := List.append_of_mem ht
  obtain ⟨hpast, -⟩ := hrun.step_of_split past t future rfl
  have hstart : (start config env).delivery.Sound := by simp [Delivery.Sound, start]
  exact hpast.invariant (fun t => SendsWellFormed t ∧ IdsFit t) hstart
    (fun _ _ _ h hsound hstep => sound_step h hsound.1 hsound.2 hstep)
    fun u hu => ⟨hwell u (List.mem_append_left _ hu), hids u (List.mem_append_left _ hu)⟩

theorem total_start (counter : IrcCounter) : total counter (start config env) = 0 := by
  simp [total, unsent, start, OrderedMap.empty, Delivery.total, Delivery.reported,
    Delivery.waiting, Figure.stored, counter.value_empty]

end Runs

/-- What all sessions have counted is in the answers of the statistics agent,
stored in it, on the way to it, or not yet sent, for every counter that the
threads have not raced for. -/
theorem counted_of_run (config : IRCConnectionConfig) (env : Surroundings)
    (tr : List (Transition State Event)) (s : State) (hrun : Run step (start config env) tr s)
    (hwell : ∀ t ∈ tr, SendsWellFormed t) (hids : ∀ t ∈ tr, IdsFit t) (counter : IrcCounter)
    (hraces : ∀ t ∈ tr, RacesElsewhere counter t) :
    (tr.map (counted counter)).sum ≡
      (s.delivery.gathering.answers.map (Figure.irc counter).reported).sum +
        counter.value s.delivery.gathering.collector.allIrcStats +
        (s.delivery.mailbox.map (Figure.irc counter).received).sum +
        unsent counter s [ZMOD 2 ^ counter.width] := by
  have hbalance := run_balance (fun t => t.pre.delivery.Sound ∧ RacesElsewhere counter t)
    (fun _ _ _ h hstep => total_step counter h.1 h.2 hstep) hrun
    fun t ht => ⟨sound_of_run hrun hwell hids t ht, hraces t ht⟩
  rw [total_start, zero_add] at hbalance
  exact hbalance.symm

/-- The session of an account connects, logs in and sends a message, and its threads
race for the JOINs; its statistics go with a PING and with the PONG, and are
reported. -/
def pinged : List Event :=
  [.controller (.client 0 (.handle {})), .callback 0 0 (.onSendDataLen 40),
    .controller (.client 0 (.onLoggedIn 0 {})), .race 0 0 3 8,
    .controller (.sendMessage "alice" "den" "hi"),
    .controller (.client 0 (.handle {})), .callback 0 0 .onCommand,
    .controller (.client 0 (.pingTick 0)), .controller (.client 0 (.handle { now := 7 })),
    .controller (.client 0 (.onPong 0 9)), .handle, .handle,
    .send (.http (listing "" []) "" .irc), .handle, .callback 0 0 (.onRecvDataLen 12)]

def startPinged : State :=
  start {} (asking 0 fun _ => .rows [["1", "alice", "alice", "", "20", "20", "3", "2", "1"]])

theorem pinged_isSome : (exec step startPinged pinged).isSome := by
  decide +kernel

theorem counted_of_run_pinged :
    let tr := trace step startPinged pinged
    let s := (exec step startPinged pinged).get pinged_isSome
    (tr.map (counted .privmsg)).sum ≡
      (s.delivery.gathering.answers.map (Figure.irc .privmsg).reported).sum +
        IrcCounter.privmsg.value s.delivery.gathering.collector.allIrcStats +
        (s.delivery.mailbox.map (Figure.irc .privmsg).received).sum +
        unsent .privmsg s [ZMOD 2 ^ 32] := by
  refine counted_of_run {} _ _ _ (run_trace pinged pinged_isSome) ?_ (by decide +kernel) .privmsg ?_
  · intro t ht
    have hevent := event_mem_of_mem_trace ht
    unfold SendsWellFormed
    split
    next sent heq =>
      rw [heq] at hevent
      obtain rfl : sent = .http (listing "" []) "" .irc := by simpa [pinged] using hevent
      trivial
    · trivial
  · intro t ht
    unfold RacesElsewhere
    split
    · exact ⟨nofun, nofun⟩
    · trivial

end TwitchChatWorker.IrcMetrics
