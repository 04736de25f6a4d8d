import TwitchChatWorker.BotHearing
import TwitchChatWorker.Lib.Broadcasts
import TwitchChatWorker.StatisticsBalance
import TwitchChatWorker.StorageBatches
import TwitchChatWorker.StorageInserts

/-!
The way of a chat message through the program (`so5_flow.md`): a session
receives a line, the client sends it to the message processor, and the
processor publishes it to the storage, to the statistics and to the bots.  The
threads of the processor, the three agents, and everything else that these
agents do, go on in any order.
-/

namespace TwitchChatWorker.MessageFlow

open TwitchChatWorker.BotHearing
open TwitchChatWorker.Bots
open TwitchChatWorker.Lib
open TwitchChatWorker.Lib.Batching
open TwitchChatWorker.Lib.Broadcasts
open TwitchChatWorker.Lib.Handlers
open TwitchChatWorker.Lib.Runs
open TwitchChatWorker.Lib.Tallies
open TwitchChatWorker.StatisticsBalance
open TwitchChatWorker.StorageBatches
open TwitchChatWorker.StorageInserts (UInt128 LogMessage)

/-- What a chat line carries, `IRCMessage`. -/
structure IRCMessage where
  channel : String
  nickname : String
  text : String
  timestamp : Int64
deriving DecidableEq

/-- `Chat::Message`. -/
structure Message extends StorageInserts.Message where
  valid : Bool
deriving DecidableEq

/-- What the bots read of a message. -/
def Message.chat (m : Message) : ChatMessage := ⟨m.user, m.channel, m.text, m.valid⟩

/-- The line that a message was made from. -/
def Message.line (m : Message) : IRCMessage := ⟨m.channel, m.user, m.text, m.timestamp⟩

/-- The channel of a line.  The first character of an empty parameter is read
outside of it. -/
def cutChannel (param : String) : Option String :=
  match param.toList with
  | [] => none
  | c :: name => some (if c = '#' then String.ofList name else param)

/-- `IRCSession::onChannel` and `onCtcpAction`: the message for the client, if
the line has parameters. -/
def onChannel (origin : String) (params : List String) (now : Int64) :
    Option (Option IRCMessage) :=
  match params with
  | [] => some none
  | first :: rest =>
      (cutChannel first).map fun channel =>
        some ⟨channel, origin, (first :: rest).getLast (by simp), now⟩

/-- `detect` is the short name of the language that the library finds. -/
structure MessageProcessorConfig where
  languageRecognition : Bool := false
  detect : String → String := fun _ => ""
  threads : Nat := 2

/-- `MessageProcessor::transform`. -/
def transform (config : MessageProcessorConfig) (message : IRCMessage) (uuid : UInt128) :
    Message where
  uuid := uuid
  user := message.nickname
  channel := message.channel
  text := message.text
  lang := if config.languageRecognition then config.detect message.text else "UNKNOWN"
  timestamp := message.timestamp
  valid := decide (message.text ≠ "")

/-- The agents that subscribe to the publisher mailbox. -/
inductive Subscriber where
  | storage | statsCollector | botsEnvironment
deriving DecidableEq

/-- The agents that subscribe to chat messages. -/
def subscribers : List Subscriber := [.storage, .statsCollector, .botsEnvironment]

def processor (config : MessageProcessorConfig) :
    Broadcasts.Setting Subscriber IRCMessage Message UInt128 :=
  ⟨config.threads, subscribers, transform config⟩

/-- The processor with its threads, and the three agents behind it. -/
structure State where
  flow : Broadcast Subscriber IRCMessage Message := {}
  storage : Storage Message LogMessage
  gathering : Gathering := {}
  environment : BotsEnvironment

/-- Steps of the flow, with the other work of the agents in between. -/
inductive Event where
  | onChannel (origin : String) (params : List String) (now : Int64)
  /-- A thread of the processor takes a message and gives it a UUID. -/
  | take (uuid : UInt128)
  | deliver (thread : Nat) (agent : Subscriber)
  | publish (thread : Nat)
  /-- An agent takes a chat message from its queue. -/
  | handle (agent : Subscriber) (now : Int)
  | storage (e : StorageBatches.Event Message LogMessage)
  | statsCollector (e : StatisticsBalance.Event)
  | botsEnvironment (e : Bots.Event)

namespace State

def work (config : MessageProcessorConfig) (s : State)
    (e : Broadcasts.Event Subscriber IRCMessage UInt128) : Option State :=
  (Broadcasts.step (processor config) s.flow e).map fun flow => { s with flow := flow }

/-- The handlers of a chat message. -/
def receive (s : State) (agent : Subscriber) (now : Int) (msg : Message) : State :=
  match agent with
  | .storage => { s with storage := storeMessage s.storage msg }
  | .statsCollector =>
      let collector := s.gathering.collector.evtRecvMessageMetric now msg.channel
      { s with gathering := { s.gathering with collector := collector } }
  | .botsEnvironment => { s with environment := s.environment.evtChatMessage msg.chat }

end State

/-- Chat messages reach the agents from their queues only. -/
def step (config : MessageProcessorConfig) (s : State) : Event → Option State
  | .onChannel origin params now =>
      match onChannel origin params now with
      | none => none
      | some none => some s
      | some (some message) => s.work config (.accept message)
  | .take uuid => s.work config (.take uuid)
  | .deliver thread agent => s.work config (.deliver thread agent)
  | .publish thread => s.work config (.publish thread)
  | .handle agent now =>
      match s.flow.mailbox agent with
      | [] => none
      | msg :: _ => (s.work config (.handle agent)).map fun s => s.receive agent now msg
  | .storage (.storeMessage _) => none
  | .storage e =>
      (StorageBatches.step s.storage e).map fun storage => { s with storage := storage }
  | .statsCollector (.message _ _) => none
  | .statsCollector e =>
      (StatisticsBalance.step s.gathering e).map fun gathering => { s with gathering := gathering }
  | .botsEnvironment (.chatMessage _) => none
  | .botsEnvironment e =>
      (s.environment.step e).map fun environment => { s with environment := environment }

/-- The line that an event brings. -/
def Event.line : Event → Option IRCMessage
  | .onChannel origin params now => (MessageFlow.onChannel origin params now).join
  | _ => none

/-- What an event does to the messages that are on their way. -/
def Event.move : Event → Option (Broadcasts.Event Subscriber IRCMessage UInt128)
  | .onChannel origin params now => (MessageFlow.onChannel origin params now).join.map .accept
  | .take uuid => some (.take uuid)
  | .deliver thread agent => some (.deliver thread agent)
  | .publish thread => some (.publish thread)
  | .handle agent _ => some (.handle agent)
  | .storage _ | .statsCollector _ | .botsEnvironment _ => none

/-- The chat lines that came in. -/
def lines (tr : List (Transition State Event)) : List IRCMessage :=
  tr.filterMap fun t => t.event.line

/-- Everything that goes on without a new line. -/
def Event.own : Event → Prop
  | .take _ | .deliver _ _ | .publish _ | .handle _ _ => True
  | _ => False

section Steps

variable {config : MessageProcessorConfig} {s s' : State}

theorem work_eq_some {b : Broadcasts.Event Subscriber IRCMessage UInt128}
    (h : s.work config b = some s') :
    ∃ flow, Broadcasts.step (processor config) s.flow b = some flow ∧
      s' = { s with flow := flow } := by
  obtain ⟨flow, hflow, rfl⟩ := Option.map_eq_some_iff.mp h
  exact ⟨flow, hflow, rfl⟩

theorem flow_receive (s : State) (agent : Subscriber) (now : Int) (msg : Message) :
    (s.receive agent now msg).flow = s.flow := by
  cases agent <;> rfl

theorem handle_eq_some {agent : Subscriber} {now : Int}
    (hstep : step config s (.handle agent now) = some s') :
    ∃ msg rest flow, s.flow.mailbox agent = msg :: rest ∧
      Broadcasts.step (processor config) s.flow (.handle agent) = some flow ∧
      s' = { s with flow := flow }.receive agent now msg := by
  simp only [step] at hstep
  split at hstep
  · simp at hstep
  next msg rest hmailbox =>
    obtain ⟨s₁, hwork, rfl⟩ := Option.map_eq_some_iff.mp hstep
    obtain ⟨flow, hflow, rfl⟩ := work_eq_some hwork
    exact ⟨msg, rest, flow, hmailbox, hflow, rfl⟩

theorem storage_eq_some {e : StorageBatches.Event Message LogMessage}
    (hstep : step config s (.storage e) = some s') :
    (∀ msg, e ≠ .storeMessage msg) ∧ ∃ storage, StorageBatches.step s.storage e = some storage ∧
      s' = { s with storage := storage } := by
  cases e with
  | storeMessage msg => simp [step] at hstep
  | _ =>
      simp only [step, Option.map_eq_some_iff] at hstep
      obtain ⟨storage, hstorage, rfl⟩ := hstep
      exact ⟨by simp, storage, hstorage, rfl⟩

theorem statsCollector_eq_some {e : StatisticsBalance.Event}
    (hstep : step config s (.statsCollector e) = some s') :
    (∀ now channel, e ≠ .message now channel) ∧
      ∃ gathering, StatisticsBalance.step s.gathering e = some gathering ∧
        s' = { s with gathering := gathering } := by
  cases e with
  | message now channel => simp [step] at hstep
  | _ =>
      simp only [step, Option.map_eq_some_iff] at hstep
      obtain ⟨gathering, hgathering, rfl⟩ := hstep
      exact ⟨by simp, gathering, hgathering, rfl⟩

theorem botsEnvironment_eq_some {e : Bots.Event}
    (hstep : step config s (.botsEnvironment e) = some s') :
    (∀ msg, e ≠ .chatMessage msg) ∧ ∃ environment, s.environment.step e = some environment ∧
      s' = { s with environment := environment } := by
  cases e with
  | chatMessage msg => simp [step] at hstep
  | _ =>
      simp only [step, Option.map_eq_some_iff] at hstep
      obtain ⟨environment, henvironment, rfl⟩ := hstep
      exact ⟨by simp, environment, henvironment, rfl⟩

theorem flow_step {e : Event} (hstep : step config s e = some s') :
    (e.move = none ∧ s'.flow = s.flow) ∨
      ∃ b, e.move = some b ∧ Broadcasts.step (processor config) s.flow b = some s'.flow := by
  cases e with
  | onChannel origin params now =>
      simp only [step] at hstep
      split at hstep
      · simp at hstep
      next heq =>
        obtain rfl := Option.some.inj hstep
        exact Or.inl ⟨by simp [Event.move, heq], rfl⟩
      next message heq =>
        obtain ⟨flow, hflow, rfl⟩ := work_eq_some hstep
        exact Or.inr ⟨.accept message, by simp [Event.move, heq], hflow⟩
  | take uuid =>
      obtain ⟨flow, hflow, rfl⟩ := work_eq_some hstep
      exact Or.inr ⟨_, rfl, hflow⟩
  | deliver thread agent =>
      obtain ⟨flow, hflow, rfl⟩ := work_eq_some hstep
      exact Or.inr ⟨_, rfl, hflow⟩
  | publish thread =>
      obtain ⟨flow, hflow, rfl⟩ := work_eq_some hstep
      exact Or.inr ⟨_, rfl, hflow⟩
  | handle agent now =>
      obtain ⟨msg, rest, flow, -, hflow, rfl⟩ := handle_eq_some hstep
      rw [flow_receive]
      exact Or.inr ⟨_, rfl, hflow⟩
  | storage e =>
      obtain ⟨-, storage, -, rfl⟩ := storage_eq_some hstep
      exact Or.inl ⟨rfl, rfl⟩
  | statsCollector e =>
      obtain ⟨-, gathering, -, rfl⟩ := statsCollector_eq_some hstep
      exact Or.inl ⟨rfl, rfl⟩
  | botsEnvironment e =>
      obtain ⟨-, environment, -, rfl⟩ := botsEnvironment_eq_some hstep
      exact Or.inl ⟨rfl, rfl⟩

theorem accepted_move {e : Event} {b : Broadcasts.Event Subscriber IRCMessage UInt128}
    (hmove : e.move = some b) : b.accepted = e.line.toList := by
  cases e with
  | onChannel origin params now =>
      obtain ⟨message, hline, rfl⟩ := Option.map_eq_some_iff.mp hmove
      rw [Event.line, hline]
      rfl
  | storage e | statsCollector e | botsEnvironment e => simp [Event.move] at hmove
  | _ =>
      obtain rfl := Option.some.inj hmove
      rfl

theorem line_of_move_none {e : Event} (hmove : e.move = none) : e.line = none := by
  cases e with
  | onChannel origin params now => exact Option.map_eq_none_iff.mp hmove
  | _ => rfl

/-- The message that an event has the agent handle. -/
def handledBy (agent : Subscriber) (t : Transition State Event) : Option Message :=
  t.event.move.bind (·.taken t.pre.flow agent)

theorem handled_step {e : Event} (hstep : step config s e = some s') (agent : Subscriber) :
    s'.flow.handled agent = s.flow.handled agent ++ (handledBy agent ⟨s, e, s'⟩).toList := by
  rcases flow_step hstep with ⟨hmove, hflow⟩ | ⟨b, hmove, hflow⟩
  · simp [handledBy, hmove, hflow]
  · simpa [handledBy, hmove] using Broadcasts.handled_step hflow agent

end Steps

/-! ### Every line reaches every agent once -/

/-- What of the lines an agent has not handled yet. -/
def onTheWay (s : State) (agent : Subscriber) : List IRCMessage :=
  s.flow.waiting ++ (owed s.flow.publishing agent).map Message.line ++
    (s.flow.mailbox agent).map Message.line

/-- Every line is on the way to each agent or was handled by it, once and as it
was received; with one thread, in the order of the lines.  Without new lines the
program is done with all of them in a bounded number of steps. -/
structure Delivered (config : MessageProcessorConfig) (s : State) (lines : List IRCMessage) :
    Prop where
  once : ∀ agent, (onTheWay s agent ++ (s.flow.handled agent).map Message.line).Perm lines
  asReceived : ∀ agent, ∀ msg ∈ s.flow.handled agent,
    msg = transform config msg.line msg.uuid
  inOrder : config.threads ≤ 1 →
    ∀ agent, (s.flow.handled agent).map Message.line <+: lines
  bounded : ∀ es s', (∀ e ∈ es, e.own) → exec (step config) s es = some s' →
    es.length ≤ pending (processor config) s.flow
  done : 0 < config.threads → (∀ e : Event, e.own → step config s e = none) →
    ∀ agent, ((s.flow.handled agent).map Message.line).Perm lines

/-- The agents at the start, with the bots that are known then. -/
def started (batchSize : Nat) (environment : BotsEnvironment) : State where
  storage := { batchSize := batchSize }
  environment := environment

section Delivery

variable {config : MessageProcessorConfig} {s s' : State}

theorem mem_subscribers (agent : Subscriber) : agent ∈ subscribers := by
  cases agent <;> simp [subscribers]

theorem nodup_subscribers : subscribers.Nodup := by decide

theorem own_step {e : Event} (hown : e.own) (hstep : step config s e = some s') :
    ∃ b, b.own ∧ Broadcasts.step (processor config) s.flow b = some s'.flow := by
  rcases flow_step hstep with ⟨hmove, -⟩ | ⟨b, hmove, hflow⟩
  · cases e <;> first | exact hown.elim | simp [Event.move] at hmove
  · refine ⟨b, ?_, hflow⟩
    cases e <;> first | exact hown.elim | exact Option.some.inj hmove ▸ trivial

/-- What can be done about the messages on their way, the program can do. -/
theorem own_of_flow {b : Broadcasts.Event Subscriber IRCMessage UInt128} (hown : b.own)
    (hflow : (Broadcasts.step (processor config) s.flow b).isSome) :
    ∃ e : Event, e.own ∧ (step config s e).isSome := by
  obtain ⟨flow, hflow⟩ := Option.isSome_iff_exists.mp hflow
  cases b with
  | accept message => exact hown.elim
  | take uuid => exact ⟨.take uuid, trivial, by simp [step, State.work, hflow]⟩
  | deliver thread agent =>
      exact ⟨.deliver thread agent, trivial, by simp [step, State.work, hflow]⟩
  | publish thread => exact ⟨.publish thread, trivial, by simp [step, State.work, hflow]⟩
  | handle agent =>
      obtain ⟨msg, rest, hmailbox, -⟩ := handle_cases hflow
      exact ⟨.handle agent 0, trivial, by simp [step, State.work, hflow, hmailbox]⟩

theorem conserved_of_run {batchSize : Nat} {environment : BotsEnvironment}
    {tr : List (Transition State Event)}
    (hrun : Run (step config) (started batchSize environment) tr s) :
    Conserved (processor config) Message.line s.flow (lines tr) ∧ Made (processor config) s.flow ∧
      (config.threads ≤ 1 → ∀ agent, s.flow.sequence Message.line agent = lines tr) := by
  have hsource : ∀ message uuid,
      Message.line ((processor config).make message uuid) = message := fun _ _ => rfl
  induction hrun with
  | nil => exact ⟨conserved_start, made_start, fun _ _ => rfl⟩
  | @snoc tr s e s' _ hstep ih =>
      obtain ⟨hconserved, hmade, hsequence⟩ := ih
      have hlines : lines (tr ++ [⟨s, e, s'⟩]) = lines tr ++ e.line.toList := by
        rw [lines, List.filterMap_append, filterMap_singleton_toList]
        rfl
      rw [hlines]
      rcases flow_step hstep with ⟨hmove, hflow⟩ | ⟨b, hmove, hflow⟩
      · rw [hflow, line_of_move_none hmove, Option.toList_none, List.append_nil]
        exact ⟨hconserved, hmade, hsequence⟩
      · rw [← accepted_move hmove]
        refine ⟨hconserved.step hsource nodup_subscribers hflow, hmade.step hflow, ?_⟩
        intro hthreads agent
        rw [sequence_step hsource hthreads hconserved hflow (mem_subscribers agent),
          hsequence hthreads agent]

variable {batchSize : Nat} {environment : BotsEnvironment} {tr : List (Transition State Event)}

theorem once_of_run (hrun : Run (step config) (started batchSize environment) tr s)
    (agent : Subscriber) :
    (onTheWay s agent ++ (s.flow.handled agent).map Message.line).Perm (lines tr) := by
  refine List.Perm.trans ?_ ((conserved_of_run hrun).1.perm agent (mem_subscribers agent))
  rw [onTheWay, Broadcast.given, List.map_append]
  simp only [List.append_assoc]
  exact (List.perm_append_comm.append_left _).append_left _

theorem asReceived_of_run (hrun : Run (step config) (started batchSize environment) tr s)
    (agent : Subscriber) :
    ∀ msg ∈ s.flow.handled agent, msg = transform config msg.line msg.uuid := by
  intro msg hmsg
  obtain ⟨message, uuid, rfl⟩ :=
    (conserved_of_run hrun).2.1.given agent msg (List.mem_append_left _ hmsg)
  rfl

theorem prefix_of_run (hrun : Run (step config) (started batchSize environment) tr s)
    (hthreads : config.threads ≤ 1) (agent : Subscriber) :
    (s.flow.handled agent).map Message.line <+: lines tr := by
  rw [← (conserved_of_run hrun).2.2 hthreads agent, Broadcast.sequence, Broadcast.given,
    List.map_append]
  simp only [List.append_assoc]
  exact List.prefix_append _ _

theorem delivered_of_run (config : MessageProcessorConfig) (batchSize : Nat)
    (environment : BotsEnvironment) (tr : List (Transition State Event)) (s : State)
    (hrun : Run (step config) (started batchSize environment) tr s) :
    Delivered config s (lines tr) := by
  refine ⟨once_of_run hrun, asReceived_of_run hrun, prefix_of_run hrun, ?_, ?_⟩
  · intro es s' hown hexec
    have hfall (s : State) (e : Event) (s' : State) (hown : e.own)
        (hstep : step config s e = some s') :
        pending (processor config) s'.flow < pending (processor config) s.flow := by
      obtain ⟨b, hb, hflow⟩ := own_step hown hstep
      exact pending_lt nodup_subscribers hb hflow
    have hle := length_add_le_of_exec hfall hown hexec
    omega
  · intro hthreads hstuck agent
    refine (conserved_of_run hrun).1.handled_perm ?_ (mem_subscribers agent)
    by_contra hdrained
    obtain ⟨b, hb, hflow⟩ := exists_step hthreads (0, 0) hdrained
    obtain ⟨e, he, hsome⟩ := own_of_flow hb hflow
    simp [hstuck e he] at hsome

/-- The second line reaches the bot first. -/
def overtaking : List Event :=
  [.onChannel "bob" ["#a", "hi"] 1, .onChannel "eve" ["#a", "hello"] 2, .take (0, 1), .take (0, 2),
    .deliver 1 .botsEnvironment, .deliver 0 .botsEnvironment, .handle .botsEnvironment 5,
    .deliver 0 .storage, .deliver 0 .statsCollector, .publish 0, .handle .storage 6,
    .storage .flush, .handle .statsCollector 7,
    .statsCollector (.http (listing "" []) "" .channel)]

theorem isSome_overtaking :
    (exec (step {}) (started 2 BotRouting.onChannelA) overtaking).isSome := by
  decide +kernel

theorem delivered_of_run_overtaking :
    Delivered {} ((exec (step {}) (started 2 BotRouting.onChannelA) overtaking).get
        isSome_overtaking)
      (lines (trace (step {}) (started 2 BotRouting.onChannelA) overtaking)) :=
  delivered_of_run {} 2 BotRouting.onChannelA _ _ (run_trace overtaking isSome_overtaking)

end Delivery

/-! ### What the agents make of the lines -/

theorem handled_of_run {config : MessageProcessorConfig} {batchSize : Nat}
    {environment : BotsEnvironment} {tr : List (Transition State Event)} {s : State}
    (hrun : Run (step config) (started batchSize environment) tr s) (agent : Subscriber) :
    s.flow.handled agent = tr.filterMap (handledBy agent) := by
  induction hrun with
  | nil => rfl
  | snoc _ hstep ih =>
      rw [handled_step hstep, ih, List.filterMap_append, filterMap_singleton_toList]

/-- What an event is for each of the agents alone. -/
def storageEvent (t : Transition State Event) :
    Option (StorageBatches.Event Message LogMessage) :=
  match t.event with
  | .storage e => some e
  | _ => (handledBy .storage t).map .storeMessage

/-- The step as one of `StatsCollector`. -/
def statsEvent (t : Transition State Event) : Option StatisticsBalance.Event :=
  match t.event with
  | .statsCollector e => some e
  | .handle .statsCollector now =>
      (handledBy .statsCollector t).map fun msg => .message now msg.channel
  | _ => none

/-- The step as one of `BotsEnvironment`. -/
def botsEvent (t : Transition State Event) : Option Bots.Event :=
  match t.event with
  | .botsEnvironment e => some e
  | _ => (handledBy .botsEnvironment t).map fun msg => .chatMessage msg.chat

/-- A step of the program as a step of the storage. -/
def storagePart (t : Transition State Event) :
    Option (Transition (Storage Message LogMessage) (StorageBatches.Event Message LogMessage)) :=
  (storageEvent t).map fun e => ⟨t.pre.storage, e, t.post.storage⟩

section Parts

variable {config : MessageProcessorConfig} {s s' : State} {batchSize : Nat}
  {environment : BotsEnvironment} {tr : List (Transition State Event)}

theorem frame_work {b : Broadcasts.Event Subscriber IRCMessage UInt128}
    (h : s.work config b = some s') :
    s'.storage = s.storage ∧ s'.gathering = s.gathering ∧ s'.environment = s.environment := by
  obtain ⟨flow, -, rfl⟩ := work_eq_some h
  exact ⟨rfl, rfl, rfl⟩

theorem frame_onChannel {origin : String} {params : List String} {now : Int64}
    (hstep : step config s (.onChannel origin params now) = some s') :
    s'.storage = s.storage ∧ s'.gathering = s.gathering ∧ s'.environment = s.environment := by
  simp only [step] at hstep
  split at hstep
  · simp at hstep
  · obtain rfl := Option.some.inj hstep
    exact ⟨rfl, rfl, rfl⟩
  · exact frame_work hstep

theorem handledBy_onChannel (agent : Subscriber) (origin : String) (params : List String)
    (now : Int64) : handledBy agent ⟨s, .onChannel origin params now, s'⟩ = none := by
  cases hline : (onChannel origin params now).join <;>
    simp [handledBy, Event.move, Broadcasts.Event.taken, hline]

theorem handledBy_handle {agent agent' : Subscriber} {now : Int} {msg : Message}
    {rest : List Message} (hmailbox : s.flow.mailbox agent' = msg :: rest) :
    handledBy agent ⟨s, .handle agent' now, s'⟩ = if agent' = agent then some msg else none := by
  simp only [handledBy, Event.move, Option.bind_some, Broadcasts.Event.taken]
  split
  next heq => rw [← heq, hmailbox, List.head?_cons]
  · rfl

theorem run_storage (hrun : Run (step config) (started batchSize environment) tr s) :
    Run StorageBatches.step { batchSize := batchSize } (tr.filterMap storagePart) s.storage := by
  refine hrun.project State.storage storageEvent fun s e s' hstep => ?_
  cases e with
  | onChannel origin params now =>
      exact Or.inl ⟨by simp [storageEvent, handledBy_onChannel], (frame_onChannel hstep).1⟩
  | take uuid => exact Or.inl ⟨rfl, (frame_work hstep).1⟩
  | deliver thread agent => exact Or.inl ⟨rfl, (frame_work hstep).1⟩
  | publish thread => exact Or.inl ⟨rfl, (frame_work hstep).1⟩
  | handle agent now =>
      obtain ⟨msg, rest, flow, hmailbox, -, rfl⟩ := handle_eq_some hstep
      cases agent with
      | storage =>
          exact Or.inr ⟨.storeMessage msg, by simp [storageEvent, handledBy_handle hmailbox], rfl⟩
      | statsCollector | botsEnvironment =>
          exact Or.inl ⟨by simp [storageEvent, handledBy_handle hmailbox], rfl⟩
  | storage e =>
      obtain ⟨-, storage, hstorage, rfl⟩ := storage_eq_some hstep
      exact Or.inr ⟨e, rfl, hstorage⟩
  | statsCollector e =>
      obtain ⟨-, gathering, -, rfl⟩ := statsCollector_eq_some hstep
      exact Or.inl ⟨rfl, rfl⟩
  | botsEnvironment e =>
      obtain ⟨-, environment, -, rfl⟩ := botsEnvironment_eq_some hstep
      exact Or.inl ⟨rfl, rfl⟩

theorem run_statsCollector (hrun : Run (step config) (started batchSize environment) tr s) :
    Run StatisticsBalance.step {}
      (tr.filterMap fun t => (statsEvent t).map fun e => ⟨t.pre.gathering, e, t.post.gathering⟩)
      s.gathering := by
  refine hrun.project State.gathering statsEvent fun s e s' hstep => ?_
  cases e with
  | onChannel origin params now => exact Or.inl ⟨rfl, (frame_onChannel hstep).2.1⟩
  | take uuid => exact Or.inl ⟨rfl, (frame_work hstep).2.1⟩
  | deliver thread agent => exact Or.inl ⟨rfl, (frame_work hstep).2.1⟩
  | publish thread => exact Or.inl ⟨rfl, (frame_work hstep).2.1⟩
  | handle agent now =>
      obtain ⟨msg, rest, flow, hmailbox, -, rfl⟩ := handle_eq_some hstep
      cases agent with
      | statsCollector =>
          exact Or.inr ⟨.message now msg.channel, by simp [statsEvent, handledBy_handle hmailbox],
            rfl⟩
      | storage | botsEnvironment => exact Or.inl ⟨rfl, rfl⟩
  | storage e =>
      obtain ⟨-, storage, -, rfl⟩ := storage_eq_some hstep
      exact Or.inl ⟨rfl, rfl⟩
  | statsCollector e =>
      obtain ⟨-, gathering, hgathering, rfl⟩ := statsCollector_eq_some hstep
      exact Or.inr ⟨e, rfl, hgathering⟩
  | botsEnvironment e =>
      obtain ⟨-, environment, -, rfl⟩ := botsEnvironment_eq_some hstep
      exact Or.inl ⟨rfl, rfl⟩

theorem run_botsEnvironment (hrun : Run (step config) (started batchSize environment) tr s) :
    Run BotsEnvironment.step environment
      (tr.filterMap fun t => (botsEvent t).map fun e => ⟨t.pre.environment, e, t.post.environment⟩)
      s.environment := by
  refine hrun.project State.environment botsEvent fun s e s' hstep => ?_
  cases e with
  | onChannel origin params now =>
      exact Or.inl ⟨by simp [botsEvent, handledBy_onChannel], (frame_onChannel hstep).2.2⟩
  | take uuid => exact Or.inl ⟨rfl, (frame_work hstep).2.2⟩
  | deliver thread agent => exact Or.inl ⟨rfl, (frame_work hstep).2.2⟩
  | publish thread => exact Or.inl ⟨rfl, (frame_work hstep).2.2⟩
  | handle agent now =>
      obtain ⟨msg, rest, flow, hmailbox, -, rfl⟩ := handle_eq_some hstep
      cases agent with
      | botsEnvironment =>
          exact Or.inr ⟨.chatMessage msg.chat, by simp [botsEvent, handledBy_handle hmailbox], rfl⟩
      | storage | statsCollector =>
          exact Or.inl ⟨by simp [botsEvent, handledBy_handle hmailbox], rfl⟩
  | storage e =>
      obtain ⟨-, storage, -, rfl⟩ := storage_eq_some hstep
      exact Or.inl ⟨rfl, rfl⟩
  | statsCollector e =>
      obtain ⟨-, gathering, -, rfl⟩ := statsCollector_eq_some hstep
      exact Or.inl ⟨rfl, rfl⟩
  | botsEnvironment e =>
      obtain ⟨-, environment, henvironment, rfl⟩ := botsEnvironment_eq_some hstep
      exact Or.inr ⟨e, rfl, henvironment⟩

end Parts

/-- A message that the storage handles finds room in the batch. -/
def FindsRoom (t : Transition State Event) : Prop :=
  match t.event with
  | .handle .storage _ => t.pre.storage.msgBatch.length < t.pre.storage.batchSize
  | _ => True

instance : DecidablePred FindsRoom
  | ⟨s, .handle .storage _, _⟩ =>
      inferInstanceAs (Decidable (s.storage.msgBatch.length < s.storage.batchSize))
  | ⟨_, .handle .statsCollector _, _⟩ | ⟨_, .handle .botsEnvironment _, _⟩
  | ⟨_, .onChannel _ _ _, _⟩ | ⟨_, .take _, _⟩ | ⟨_, .deliver _ _, _⟩ | ⟨_, .publish _, _⟩
  | ⟨_, .storage _, _⟩ | ⟨_, .statsCollector _, _⟩ | ⟨_, .botsEnvironment _, _⟩ =>
      inferInstanceAs (Decidable True)

section Keeping

variable {config : MessageProcessorConfig} {s s' : State} {batchSize : Nat}
  {environment : BotsEnvironment} {tr : List (Transition State Event)}

theorem stored_storagePart {e : Event} (hstep : step config s e = some s') :
    (storagePart ⟨s, e, s'⟩).bind storedMessage = handledBy .storage ⟨s, e, s'⟩ := by
  cases e with
  | storage b =>
      obtain ⟨hother, -⟩ := storage_eq_some hstep
      cases b with
      | storeMessage msg => exact absurd rfl (hother msg)
      | _ => rfl
  | _ =>
      simp only [storagePart, storageEvent, Option.map_map]
      cases handledBy .storage ⟨s, _, s'⟩ <;> rfl

theorem findsRoom_iff_accepted {e : Event} (hstep : step config s e = some s') :
    FindsRoom ⟨s, e, s'⟩ ↔
      (storagePart ⟨s, e, s'⟩).bind acceptedMessage = handledBy .storage ⟨s, e, s'⟩ := by
  cases e with
  | onChannel origin params now => simp [FindsRoom, storagePart, storageEvent, handledBy_onChannel]
  | take uuid | deliver thread agent | publish thread | statsCollector e | botsEnvironment e =>
      exact iff_of_true trivial rfl
  | storage b =>
      obtain ⟨hother, -⟩ := storage_eq_some hstep
      cases b with
      | storeMessage msg => exact absurd rfl (hother msg)
      | _ => exact iff_of_true trivial rfl
  | handle agent now =>
      obtain ⟨msg, rest, flow, hmailbox, -, -⟩ := handle_eq_some hstep
      cases agent with
      | storage =>
          simp only [FindsRoom, storagePart, storageEvent, handledBy_handle hmailbox, if_true,
            Option.map_some, Option.bind_some, acceptedMessage]
          split <;> simp_all
      | statsCollector | botsEnvironment =>
          simp [FindsRoom, storagePart, storageEvent, handledBy_handle hmailbox]

/-- Every line is on the way to the storage, in the batch, or was given to
`process`, once, exactly while every message finds room in the batch. -/
theorem linesKept_iff_findsRoom (config : MessageProcessorConfig) (batchSize : Nat)
    (environment : BotsEnvironment) (tr : List (Transition State Event)) (s : State)
    (hrun : Run (step config) (started batchSize environment) tr s) :
    (onTheWay s .storage ++ (messagePlaces s.storage).all.map Message.line).Perm (lines tr) ↔
      ∀ t ∈ tr, FindsRoom t := by
  have honce := once_of_run hrun .storage
  have hkept := (conserves_accepted (run_storage hrun)).1.perm
  have hhandled := handled_of_run hrun .storage
  have hstored : s.flow.handled .storage = storedMessages (tr.filterMap storagePart) := by
    rw [hhandled, storedMessages, List.filterMap_filterMap]
    refine List.filterMap_congr fun t ht => ?_
    obtain ⟨-, -, hstep⟩ := hrun.step_of_mem ht
    exact (stored_storagePart hstep).symm
  constructor
  · intro hperm t ht
    obtain ⟨-, -, hstep⟩ := hrun.step_of_mem ht
    have hlength : (storedMessages (tr.filterMap storagePart)).length =
        (acceptedMessages (tr.filterMap storagePart)).length := by
      have h := (hperm.trans honce.symm).length_eq
      simp only [List.length_append, List.length_map, hstored] at h
      exact (Nat.add_left_cancel h).symm.trans hkept.length_eq
    have hagree := filterMap_agree acceptedMessage_cases (Nat.le_of_eq hlength)
    rw [findsRoom_iff_accepted hstep, ← stored_storagePart hstep]
    cases hpart : storagePart t with
    | none => rfl
    | some u => exact hagree u (List.mem_filterMap.mpr ⟨t, ht, hpart⟩)
  · intro hroom
    have haccepted : acceptedMessages (tr.filterMap storagePart) = s.flow.handled .storage := by
      rw [hhandled, acceptedMessages, List.filterMap_filterMap]
      refine List.filterMap_congr fun t ht => ?_
      obtain ⟨-, -, hstep⟩ := hrun.step_of_mem ht
      exact (findsRoom_iff_accepted hstep).mp (hroom t ht)
    refine List.Perm.trans ?_ honce
    rw [← haccepted]
    exact (hkept.map Message.line).append_left _

theorem linesKept_iff_findsRoom_overtaking :
    let s := (exec (step {}) (started 2 BotRouting.onChannelA) overtaking).get isSome_overtaking
    let tr := trace (step {}) (started 2 BotRouting.onChannelA) overtaking
    (onTheWay s .storage ++ (messagePlaces s.storage).all.map Message.line).Perm (lines tr) :=
  (linesKept_iff_findsRoom {} 2 BotRouting.onChannelA _ _
    (run_trace overtaking isSome_overtaking)).mpr (by decide +kernel)

theorem received_statsEvent {e : Event} (hstep : step config s e = some s') (chan : String) :
    ((statsEvent ⟨s, e, s'⟩).map (Figure.channel .incoming chan).received).getD 0 =
      ((handledBy .statsCollector ⟨s, e, s'⟩).toList.countP (·.channel = chan) : Int) := by
  cases e with
  | onChannel origin params now => simp [statsEvent, handledBy_onChannel]
  | take uuid | deliver thread agent | publish thread | storage e | botsEnvironment e => rfl
  | statsCollector e =>
      obtain ⟨hother, -⟩ := statsCollector_eq_some hstep
      cases e with
      | message now channel => exact absurd rfl (hother now channel)
      | _ => rfl
  | handle agent now =>
      obtain ⟨msg, rest, flow, hmailbox, -, -⟩ := handle_eq_some hstep
      cases agent with
      | statsCollector =>
          simp only [statsEvent, handledBy_handle hmailbox, if_true, Option.map_some,
            Option.getD_some, Figure.received, Option.toList_some, List.countP_singleton]
          split <;> simp_all
      | storage | botsEnvironment => simp [statsEvent, handledBy_handle hmailbox]

theorem sum_received (hrun : Run (step config) (started batchSize environment) tr s)
    (chan : String) :
    ((tr.filterMap statsEvent).map (Figure.channel .incoming chan).received).sum =
      ((s.flow.handled .statsCollector).countP (·.channel = chan) : Int) := by
  induction hrun with
  | nil => rfl
  | @snoc tr s e s' _ hstep ih =>
      have hlast := received_statsEvent hstep chan
      rw [handled_step hstep, List.countP_append, List.filterMap_append, List.map_append,
        List.sum_append, ih, filterMap_singleton_toList, Nat.cast_add, ← hlast]
      cases statsEvent ⟨s, e, s'⟩ <;> simp

/-- The lines of a channel are on the way to the statistics, stored there, or
reported, in counters that wrap. -/
theorem linesCounted (config : MessageProcessorConfig) (batchSize : Nat)
    (environment : BotsEnvironment) (tr : List (Transition State Event)) (s : State)
    (hrun : Run (step config) (started batchSize environment) tr s)
    (hwell : ∀ t ∈ tr, ∀ e, t.event = .statsCollector e → WellFormed e) (chan : String) :
    accounted (.channel .incoming chan) s.gathering +
        (onTheWay s .statsCollector).countP (·.channel = chan) ≡
      (lines tr).countP (·.channel = chan) [ZMOD 2 ^ 32] := by
  have hexec := (run_statsCollector hrun).exec_events
  have hmap : (tr.filterMap fun t => (statsEvent t).map fun e =>
      (⟨t.pre.gathering, e, t.post.gathering⟩ : Transition Gathering StatisticsBalance.Event)).map
        Transition.event = tr.filterMap statsEvent := by
    rw [List.map_filterMap]
    simp [Function.comp_def]
  rw [hmap] at hexec
  have hevents : ∀ e ∈ tr.filterMap statsEvent, WellFormed e := by
    intro e he
    obtain ⟨t, ht, hevent⟩ := List.mem_filterMap.mp he
    unfold statsEvent at hevent
    split at hevent
    next own heq =>
      obtain rfl := Option.some.inj hevent
      exact hwell t ht own heq
    · obtain ⟨msg, -, rfl⟩ := Option.map_eq_some_iff.mp hevent
      trivial
    · simp at hevent
  have hbalance := exec_balance (accounted_step (.channel .incoming chan)) hevents hexec
  have hstart : accounted (.channel .incoming chan) {} = 0 := by
    simp [accounted, Figure.stored, Direction.value_empty]
  rw [hstart, zero_add, sum_received hrun chan] at hbalance
  have hcount := (once_of_run hrun .statsCollector).countP_eq fun line => line.channel = chan
  rw [List.countP_append, List.countP_map] at hcount
  have hlines : ((s.flow.handled .statsCollector).countP (·.channel = chan) : Int) +
      (onTheWay s .statsCollector).countP (·.channel = chan) =
        (lines tr).countP (·.channel = chan) := by
    rw [← hcount, Nat.cast_add, add_comm]
    rfl
  rw [← hlines]
  exact hbalance.add_right _

theorem linesCounted_overtaking :
    let s := (exec (step {}) (started 2 BotRouting.onChannelA) overtaking).get isSome_overtaking
    let tr := trace (step {}) (started 2 BotRouting.onChannelA) overtaking
    accounted (.channel .incoming "a") s.gathering +
        (onTheWay s .statsCollector).countP (·.channel = "a") ≡
      (lines tr).countP (·.channel = "a") [ZMOD 2 ^ 32] := by
  refine linesCounted {} 2 BotRouting.onChannelA _ _ (run_trace overtaking isSome_overtaking) ?_ "a"
  intro t ht e he
  have hmem := event_mem_of_mem_trace ht
  rw [he] at hmem
  simp only [overtaking, List.mem_cons, List.not_mem_nil, reduceCtorEq, false_or, or_false,
    Event.statsCollector.injEq] at hmem
  rw [hmem]
  exact Or.inl rfl

end Keeping

section Hearing

variable {config : MessageProcessorConfig} {s s' : State} {batchSize : Nat}
  {environment : BotsEnvironment} {tr : List (Transition State Event)}

/-- A line as the bots see it. -/
def IRCMessage.chat (line : IRCMessage) : ChatMessage :=
  ⟨line.nickname, line.channel, line.text, decide (line.text ≠ "")⟩

theorem saidBy_botsEvent {e : Event} (hstep : step config s e = some s') :
    (botsEvent ⟨s, e, s'⟩).bind saidBy =
      (handledBy .botsEnvironment ⟨s, e, s'⟩).map Message.chat := by
  cases e with
  | botsEnvironment b =>
      obtain ⟨hother, -⟩ := botsEnvironment_eq_some hstep
      cases b with
      | chatMessage msg => exact absurd rfl (hother msg)
      | _ => rfl
  | _ =>
      simp only [botsEvent]
      cases handledBy .botsEnvironment ⟨s, _, s'⟩ <;> rfl

theorem said_botsEvent (hrun : Run (step config) (started batchSize environment) tr s) :
    said (tr.filterMap fun t => (botsEvent t).map fun e =>
      ⟨t.pre.environment, e, t.post.environment⟩) =
        ((s.flow.handled .botsEnvironment).map Message.line).map IRCMessage.chat := by
  have hchat : ∀ msg ∈ s.flow.handled .botsEnvironment, msg.line.chat = msg.chat := by
    intro msg hmsg
    rw [asReceived_of_run hrun .botsEnvironment msg hmsg]
    rfl
  rw [List.map_map, List.map_congr_left (f := IRCMessage.chat ∘ Message.line) hchat,
    handled_of_run hrun .botsEnvironment, List.map_filterMap, said, List.filterMap_filterMap]
  refine List.filterMap_congr fun t ht => ?_
  obtain ⟨-, -, hstep⟩ := hrun.step_of_mem ht
  rw [← saidBy_botsEvent hstep]
  cases botsEvent t <;> rfl

/-- A bot hears the lines of its channel, no line twice, no empty one and none of
an ignored user; with one thread it hears them in order. -/
theorem botsHear (config : MessageProcessorConfig) (batchSize : Nat)
    (env : HttpRequests.Surroundings) (environment : BotsEnvironment)
    (hstart : BotsEnvironment.soEvtStart env = some environment)
    (tr : List (Transition State Event)) (s : State)
    (hrun : Run (step config) (started batchSize environment) tr s) (p : BotPtr) :
    (heard (s.environment.bots p)).Subperm
        (passed environment.ignoreUsers (s.environment.bots p).self
          ((lines tr).map IRCMessage.chat)) ∧
      (config.threads ≤ 1 → (heard (s.environment.bots p)).Sublist
        (passed environment.ignoreUsers (s.environment.bots p).self
          ((lines tr).map IRCMessage.chat))) := by
  have hheard := (hears_of_run hstart (run_botsEnvironment hrun)).heard p
  rw [said_botsEvent hrun] at hheard
  constructor
  · have hperm := ((once_of_run hrun .botsEnvironment).map IRCMessage.chat).filter fun msg =>
      msg.valid && decide (msg.user ∉ environment.ignoreUsers) &&
        decide (msg.channel = (s.environment.bots p).self)
    rw [List.map_append, List.filter_append] at hperm
    exact (hheard.trans (List.sublist_append_right _ _)).subperm.trans hperm.subperm
  · intro hthreads
    have hordered := prefix_of_run hrun hthreads .botsEnvironment
    exact hheard.trans ((hordered.sublist.map IRCMessage.chat).filter _)

theorem botsHear_overtaking :
    let s := (exec (step {}) (started 2 BotRouting.onChannelA) overtaking).get isSome_overtaking
    let tr := trace (step {}) (started 2 BotRouting.onChannelA) overtaking
    (heard (s.environment.bots 0)).Subperm
        (passed BotRouting.onChannelA.ignoreUsers (s.environment.bots 0).self
          ((lines tr).map IRCMessage.chat)) ∧
      (2 ≤ 1 → (heard (s.environment.bots 0)).Sublist
        (passed BotRouting.onChannelA.ignoreUsers (s.environment.bots 0).self
          ((lines tr).map IRCMessage.chat))) :=
  botsHear {} 2 _ BotRouting.onChannelA (Option.some_get _).symm _ _
    (run_trace overtaking isSome_overtaking) 0

end Hearing

end TwitchChatWorker.MessageFlow
