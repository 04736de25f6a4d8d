import Mathlib.Data.List.Flatten
import TwitchChatWorker.BotHandlers
import TwitchChatWorker.BotHearing
import TwitchChatWorker.ClientSpeech

/-!
The way of a message from a bot into the chat.  A bot sends it to the agent
`IRCController`, which passes it on to the client of the account, and the client
hands it to one of its sessions.  What the library then takes is said, what it
refuses is lost.  Requests make clients say something too.
-/

namespace TwitchChatWorker.OutgoingMessages

open TwitchChatWorker.BotHandlers
open TwitchChatWorker.BotHearing
open TwitchChatWorker.BotReplies
open TwitchChatWorker.Bots
open TwitchChatWorker.ClientSpeech
open TwitchChatWorker.HttpRequests
open TwitchChatWorker.IrcClient
open TwitchChatWorker.IrcController
open TwitchChatWorker.Lib.Handlers
open TwitchChatWorker.Lib.OrderedMaps
open TwitchChatWorker.Lib.Runs

/-- `mailbox` holds the messages of bots that `IRCController` has not handled,
`logged` what has been sent to the bot logger. -/
structure State where
  environment : BotsEnvironment
  controller : IRCController
  mailbox : List SendMessage := []
  logged : List LogMessage := []

inductive Event where
  | bots (libraries : Libraries) (event : Bots.Event)
  /-- `IRCController` handles the next message of a bot -/
  | evtSendMessage
  | controller (event : IrcController.Event)

/-- What the handlers of a bot send in a step of the bots. -/
def answered (libraries : Libraries) (e : BotsEnvironment) : Bots.Event → List Output
  | .bot _ p =>
      match (e.bots p).inbox with
      | .message msg :: _ => outputs libraries (e.bots p) msg
      | _ => []
  | _ => []

def step (s : State) : Event → Option State
  | .bots libraries event =>
      (s.environment.step event).map fun environment =>
        let out := answered libraries s.environment event
        { s with
          environment := environment
          mailbox := s.mailbox ++ sends out
          logged := s.logged ++ logs out }
  | .evtSendMessage =>
      match s.mailbox with
      | [] => none
      | m :: mailbox =>
          (s.controller.evtSendMessage m.user m.channel m.text).map fun controller =>
            { s with mailbox := mailbox, controller := controller }
  | .controller (.sendMessage _ _ _) => none
  | .controller event =>
      (s.controller.step event).map fun controller => { s with controller := controller }

/-- The bots and the clients are started with the rows of their own time. -/
def start (config : IRCConnectionConfig) (botsEnv ircEnv : Surroundings) : Option State :=
  (BotsEnvironment.soEvtStart botsEnv).map fun environment =>
    { environment := environment, controller := .soEvtStart config ircEnv }

/-- The messages that bots send in a step. -/
def posted (t : Transition State Event) : List SendMessage :=
  match t.event with
  | .bots libraries event => sends (answered libraries t.pre.environment event)
  | _ => []

/-- The message that `IRCController` handles in a step. -/
def taken (t : Transition State Event) : List SendMessage :=
  match t.event with
  | .evtSendMessage => t.pre.mailbox.head?.toList
  | _ => []

/-- What a message of a bot makes a client say. -/
def passed (c : IRCController) (p : ClientPtr) (m : SendMessage) : List Method :=
  if c.getIrcClient m.user = some p then [.sendMessage m.channel m.text] else []

/-- What a step makes a client say. -/
def directed (p : ClientPtr) (t : Transition State Event) : List Method :=
  match t.event with
  | .evtSendMessage => (taken t).flatMap (passed t.pre.controller p)
  | .controller (.http env request body) => requested t.pre.controller env body p request
  | _ => []

/-- What `f` reads off a step of the client `p`. -/
def ofClient (f : IRCClient → List Method) (p : ClientPtr) (t : Transition State Event) :
    List Method :=
  match t.event with
  | .controller (.client q _) => if q = p then f (t.post.controller.clients p) else []
  | _ => []

/-- What a client hands to its sessions in a step. -/
def handed (p : ClientPtr) (t : Transition State Event) : List Method :=
  ofClient ClientSpeech.handed p t

/-- What the library takes of it, and what it refuses. -/
def said (p : ClientPtr) (t : Transition State Event) : List Method := ofClient took p t

/-- The messages that the step drops because no session takes them. -/
def refused (p : ClientPtr) (t : Transition State Event) : List Method :=
  ofClient ClientSpeech.refused p t

def queue (p : ClientPtr) (s : State) : List Method := waiting (s.controller.clients p)

section Steps

variable {s s' : State}

theorem mailbox_step {event : Event} (hstep : step s event = some s') :
    s.mailbox ++ posted ⟨s, event, s'⟩ = taken ⟨s, event, s'⟩ ++ s'.mailbox := by
  cases event with
  | bots libraries event =>
      obtain ⟨environment, -, rfl⟩ := Option.map_eq_some_iff.mp hstep
      rfl
  | evtSendMessage =>
      simp only [step] at hstep
      split at hstep
      · cases hstep
      next m mailbox hmailbox =>
        obtain ⟨controller, -, rfl⟩ := Option.map_eq_some_iff.mp hstep
        simp only [posted, taken, hmailbox, List.append_nil]
        rfl
  | controller event =>
      cases event with
      | sendMessage user channel text => cases hstep
      | http env request body =>
          obtain ⟨controller, -, rfl⟩ := Option.map_eq_some_iff.mp hstep
          exact List.append_nil _
      | client _ _ | destroy _ =>
          obtain ⟨controller, -, rfl⟩ := Option.map_eq_some_iff.mp hstep
          exact List.append_nil _

theorem asked_evtSendMessage {c c' : IRCController} (h : Ready c) {m : SendMessage}
    (hsend : c.evtSendMessage m.user m.channel m.text = some c') :
    Asked c (fun p => passed c p m) c' := by
  simp only [IRCController.evtSendMessage] at hsend
  simp only [passed]
  cases hclient : c.getIrcClient m.user with
  | none =>
      rw [hclient] at hsend
      simp only [reduceCtorEq, if_false]
      exact Option.some.inj hsend ▸ h.asked
  | some client =>
      rw [hclient] at hsend
      dsimp only at hsend
      split_ifs at hsend
      obtain rfl := Option.some.inj hsend
      have hsent := h.asked.send (m := .sendMessage m.channel m.text)
        (.inr (h.names m.user client hclient))
      simp only [Option.some.injEq, eq_comm (a := client)]
      exact ⟨⟨hsent.ready.undelayed, hsent.ready.fresh, hsent.ready.names, hsent.ready.ids⟩,
        hsent.waiting_eq⟩

theorem http_step {c c' : IRCController} (h : Ready c) {env : Surroundings}
    {request : IrcRequest} {body : String} (hstep : c.step (.http env request body) = some c') :
    Asked c (fun p => requested c env body p request) c' := by
  have hasked := asked_evtHttp h env body request
  simp only [IRCController.step] at hstep
  split at hstep
  next served heq =>
    obtain rfl := Option.some.inj hstep
    simpa only [wp, heq] using hasked
  · cases hstep

theorem client_step {c c' : IRCController} (h : Ready c) {p : ClientPtr}
    {event : IrcClient.Event} (hstep : c.step (.client p event) = some c') :
    Ready c' ∧ Speaks (c.clients p) (c'.clients p) ∧ ∀ q ≠ p, c'.clients q = c.clients q := by
  simp only [IRCController.step] at hstep
  split_ifs at hstep with hown
  obtain ⟨client, hclient, rfl⟩ := Option.map_eq_some_iff.mp hstep
  have hspeaks : Speaks (c.clients p) client := .step (h.undelayed p) hown.2 hclient
  refine ⟨⟨fun q => ?_, fun q hq => ?_, h.names, h.ids⟩, ?_, fun q hq => ?_⟩
  · dsimp only
    rw [Function.update_apply]
    split_ifs
    · exact hspeaks.undelayed
    · exact h.undelayed q
  · dsimp only
    rw [Function.update_of_ne (hown.1.trans_le hq).ne']
    exact h.fresh q hq
  · dsimp only
    rwa [Function.update_self]
  · exact Function.update_of_ne hq _ _

theorem destroy_step {c c' : IRCController} {p : ClientPtr}
    (hstep : c.step (.destroy p) = some c') :
    c'.clients = c.clients ∧ (Ready c → Ready c') := by
  simp only [IRCController.step, Option.ite_none_right_eq_some, Option.some.injEq] at hstep
  obtain ⟨-, rfl⟩ := hstep
  exact ⟨rfl, fun h => ⟨h.undelayed, h.fresh, h.names, h.ids⟩⟩

def Sound (s : State) : Prop := Ready s.controller

theorem Sound.step (h : Sound s) {event : Event} (hstep : OutgoingMessages.step s event = some s') :
    Sound s' := by
  cases event with
  | bots libraries event =>
      obtain ⟨environment, -, rfl⟩ := Option.map_eq_some_iff.mp hstep
      exact h
  | evtSendMessage =>
      simp only [OutgoingMessages.step] at hstep
      split at hstep
      · cases hstep
      next m mailbox hmailbox =>
        obtain ⟨controller, hsend, rfl⟩ := Option.map_eq_some_iff.mp hstep
        exact (asked_evtSendMessage h hsend).ready
  | controller event =>
      cases event with
      | sendMessage user channel text => cases hstep
      | http env request body =>
          obtain ⟨controller, hcontroller, rfl⟩ := Option.map_eq_some_iff.mp hstep
          exact (http_step h hcontroller).ready
      | client p event =>
          obtain ⟨controller, hcontroller, rfl⟩ := Option.map_eq_some_iff.mp hstep
          exact (client_step h hcontroller).1
      | destroy p =>
          obtain ⟨controller, hcontroller, rfl⟩ := Option.map_eq_some_iff.mp hstep
          exact (destroy_step hcontroller).2 h

/-- A client hands over what it was asked to say first. -/
theorem queue_step (h : Ready s.controller) {event : Event} (hstep : step s event = some s')
    (p : ClientPtr) :
    queue p s ++ directed p ⟨s, event, s'⟩ = handed p ⟨s, event, s'⟩ ++ queue p s' := by
  cases event with
  | bots libraries event =>
      obtain ⟨environment, -, rfl⟩ := Option.map_eq_some_iff.mp hstep
      exact List.append_nil _
  | evtSendMessage =>
      simp only [step] at hstep
      split at hstep
      · cases hstep
      next m mailbox hmailbox =>
        obtain ⟨controller, hsend, rfl⟩ := Option.map_eq_some_iff.mp hstep
        have hwaiting := (asked_evtSendMessage h hsend).waiting_eq p
        simp only [directed, taken, hmailbox, List.head?_cons, Option.toList_some,
          List.flatMap_singleton]
        exact hwaiting.symm
  | controller event =>
      cases event with
      | sendMessage user channel text => cases hstep
      | http env request body =>
          obtain ⟨controller, hcontroller, rfl⟩ := Option.map_eq_some_iff.mp hstep
          exact ((http_step h hcontroller).waiting_eq p).symm
      | client q event =>
          obtain ⟨controller, hcontroller, rfl⟩ := Option.map_eq_some_iff.mp hstep
          obtain ⟨-, hspeaks, hothers⟩ := client_step h hcontroller
          simp only [directed, handed, ofClient, List.append_nil]
          split_ifs with heq
          · subst heq
            exact hspeaks.order
          · rw [queue, queue, hothers p (Ne.symm heq), List.nil_append]
      | destroy q =>
          obtain ⟨controller, hcontroller, rfl⟩ := Option.map_eq_some_iff.mp hstep
          simp only [directed, handed, ofClient, queue, (destroy_step hcontroller).1,
            List.append_nil, List.nil_append]

theorem mem_queue_of_handed (h : Ready s.controller) {event : Event}
    (hstep : step s event = some s') {p : ClientPtr} {command : Method}
    (hhanded : command ∈ handed p ⟨s, event, s'⟩) : command ∈ queue p s := by
  have hqueue := queue_step h hstep p
  have hdirected : directed p ⟨s, event, s'⟩ = [] := by
    rcases event with _ | _ | (_ | _ | _ | _)
    all_goals first | rfl | exact absurd hhanded List.not_mem_nil
  rw [hdirected, List.append_nil] at hqueue
  rw [hqueue]
  exact List.mem_append_left _ hhanded

end Steps

theorem asked_soEvtStart (config : IRCConnectionConfig) (env : Surroundings) :
    Ready (.soEvtStart config env) ∧
      ∀ p, waiting ((IRCController.soEvtStart config env).clients p) = [] := by
  have hquiet : speech (IRCClient.soEvtStart config {} {}) = ⟨[], [], []⟩ :=
    speech_soEvtStart _ _ _
  have hadd (before : IRCController) (accounts : List IRCClientConfig) (c : IRCController)
      (h : Asked before (fun _ => []) c) :
      Asked before (fun _ => []) (accounts.foldl (IRCController.addNewIrcClient env) c) := by
    induction accounts generalizing c with
    | nil => exact h
    | cons account accounts ih => exact ih _ (h.add env account)
  let empty : IRCController :=
    ⟨config, .empty, .empty, fun _ => IRCClient.soEvtStart config {} {}, 0, [], [], []⟩
  have hempty : Ready empty :=
    ⟨fun _ => congrArg Speech.delayed hquiet, fun _ _ => congrArg Speech.waiting hquiet,
      OrderedMap.forall_empty, OrderedMap.forall_empty⟩
  have hall : Asked empty (fun _ => []) (.soEvtStart config env) :=
    hadd empty _ empty hempty.asked
  refine ⟨hall.ready, fun p => ?_⟩
  rw [hall.waiting_eq, List.append_nil]
  exact congrArg Speech.waiting hquiet

theorem said_sublist (p : ClientPtr) (t : Transition State Event) :
    (said p t).Sublist (handed p t) := by
  unfold said handed ofClient
  split
  · split_ifs
    · exact took_sublist _
    · exact List.Sublist.refl _
  · exact List.Sublist.refl _

theorem said_eq_handed {p : ClientPtr} {t : Transition State Event} (h : refused p t = []) :
    said p t = handed p t := by
  unfold refused said handed ofClient at *
  split at h
  · split_ifs at h ⊢
    · exact took_eq_handed h
    · rfl
  · rfl

/-- What bots send is handled by the controller in order, and what clients are
asked to say they hand over in order, each of it once and to a session of the
client.  The library takes it only if that session is connected, and all of it
is said unless the library refuses some. -/
structure Conveyed (tr : List (Transition State Event)) (s : State) : Prop where
  handled : tr.flatMap posted = tr.flatMap taken ++ s.mailbox
  handed : ∀ p, tr.flatMap (directed p) = tr.flatMap (handed p) ++ queue p s
  member : ∀ t ∈ tr, ∀ p event, t.event = .controller (.client p event) →
    ∀ call ∈ (t.post.controller.clients p).calls, handed? call ≠ none →
      OnSession (t.pre.controller.clients p) call
  said : ∀ p, (tr.flatMap (said p)).Sublist (tr.flatMap (directed p))
  complete : ∀ p, (∀ t ∈ tr, refused p t = []) →
    tr.flatMap (directed p) = tr.flatMap (OutgoingMessages.said p) ++ queue p s

theorem ready_of_run {config : IRCConnectionConfig} {botsEnv ircEnv : Surroundings} {s₀ s : State}
    {tr : List (Transition State Event)} (hstart : start config botsEnv ircEnv = some s₀)
    (hrun : Run step s₀ tr s) : Ready s.controller := by
  obtain ⟨environment, -, rfl⟩ := Option.map_eq_some_iff.mp hstart
  have hsound : Sound ⟨environment, .soEvtStart config ircEnv, [], []⟩ :=
    (asked_soEvtStart config ircEnv).1
  exact hrun.always hsound fun _ _ _ h hstep => h.step hstep

theorem conveyed_of_run (config : IRCConnectionConfig) (botsEnv ircEnv : Surroundings)
    (s₀ s : State) (tr : List (Transition State Event))
    (hstart : start config botsEnv ircEnv = some s₀) (hrun : Run step s₀ tr s) :
    Conveyed tr s := by
  have hbefore {past : List (Transition State Event)} {s' : State} (hpast : Run step s₀ past s') :
      Ready s'.controller := ready_of_run hstart hpast
  obtain ⟨environment, -, rfl⟩ := Option.map_eq_some_iff.mp hstart
  obtain ⟨hready, hwaiting⟩ := asked_soEvtStart config ircEnv
  have hsound : Sound ⟨environment, .soEvtStart config ircEnv, [], []⟩ := hready
  have hhanded (p : ClientPtr) :
      tr.flatMap (directed p) = tr.flatMap (handed p) ++ queue p s := by
    have hfifo := hrun.fifo Sound (queue p) (directed p) (handed p) hsound
      (fun _ _ _ h hstep => h.step hstep) fun _ _ _ h hstep => queue_step h hstep p
    rwa [queue, hwaiting, List.nil_append] at hfifo
  refine ⟨?_, hhanded, ?_, fun p => ?_, fun p hnone => ?_⟩
  · exact hrun.fifo (fun _ => True) State.mailbox posted taken trivial
      (fun _ _ _ _ _ => trivial) fun _ _ _ _ hstep => mailbox_step hstep
  · intro t ht p event hevent
    obtain ⟨past, hpast, hstep⟩ := hrun.step_of_mem ht
    rw [hevent] at hstep
    obtain ⟨controller, hcontroller, hpost⟩ := Option.map_eq_some_iff.mp hstep
    rw [← hpost]
    exact (client_step (hbefore hpast) hcontroller).2.1.member
  · rw [hhanded]
    exact (List.Sublist.flatMap_right tr fun t _ => said_sublist p t).trans
      (List.sublist_append_left _ _)
  · have hall : tr.flatMap (said p) = tr.flatMap (handed p) := by
      rw [List.flatMap_def, List.flatMap_def,
        List.map_congr_left fun t ht => said_eq_handed (hnone t ht)]
    rw [hall, hhanded]

/-- The database of a bot with one script, which every text parses for. -/
def botRows : Surroundings :=
  asking 0 fun _ => .rows [["1", "7", "alice", "den", "5", "1", "engine.send('hi')", ""]]

def accountRows : Surroundings :=
  asking 0 fun _ => .rows [["1", "alice", "alice", "", "20", "20", "3", "2", "1"]]

/-- The script of a bot answers a message, and the client of its account says
the answer. -/
def answering : List Event :=
  [.controller (.client 0 (.handle {})), .bots {} (.chatMessage ⟨"bob", "den", "hello", true⟩),
    .bots { safeScript := fun _ => ([.send "hi", .log "done"], none) } (.bot botRows 0),
    .evtSendMessage, .controller (.client 0 (.handle {}))]

theorem start_isSome : (start {} botRows accountRows).isSome := by
  decide +kernel

theorem answering_isSome : (exec step ((start {} botRows accountRows).get start_isSome)
    answering).isSome := by
  decide +kernel

theorem conveyed_of_run_answering :
    Conveyed (trace step ((start {} botRows accountRows).get start_isSome) answering)
      ((exec step ((start {} botRows accountRows).get start_isSome) answering).get
        answering_isSome) :=
  conveyed_of_run {} botRows accountRows _ _ _ (Option.some_get start_isSome).symm
    (run_trace answering answering_isSome)

/-- The messages of the chat in a run. -/
def chat (tr : List (Transition State Event)) : List ChatMessage :=
  tr.filterMap fun t =>
    match t.event with
    | .bots _ event => saidBy event
    | _ => none

/-- A bot handles a message of its channel by somebody else and answers it, for
its account and in the channel of its configuration. -/
structure Answers (ignoreUsers : List String) (messages : List ChatMessage)
    (libraries : Libraries) (bot : BotEngine) (msg : ChatMessage) (m : SendMessage) : Prop where
  handles : bot.inbox.head? = some (.message msg)
  sends : .sendMessage m ∈ outputs libraries bot msg
  said : msg ∈ messages
  valid : msg.valid = true
  notIgnored : msg.user ∉ ignoreUsers
  heard : msg.channel = bot.self
  other : msg.user ≠ bot.config.account
  account : m.user = bot.config.account
  channel : m.channel = bot.config.channel

/-- Why a client says something: a request has asked for it, or a bot has answered
a message, and later the controller has passed the answer on to the client, which
then had the name of the account. -/
inductive Occasion (ignoreUsers : List String) (past : List (Transition State Event))
    (p : ClientPtr) : Method → Prop where
  | request {t : Transition State Event} {env : Surroundings} {request : IrcRequest}
      {body : String} {command : Method} (ht : t ∈ past)
      (hevent : t.event = .controller (.http env request body))
      (hrequested : command ∈ requested t.pre.controller env body p request) :
      Occasion ignoreUsers past p command
  | answer {before between after : List (Transition State Event)} {t u : Transition State Event}
      {libraries : Libraries} {env : Surroundings} {bot : BotPtr} {msg : ChatMessage}
      {m : SendMessage} (hpast : past = before ++ t :: (between ++ u :: after))
      (hevent : t.event = .bots libraries (.bot env bot))
      (hanswers : Answers ignoreUsers (chat before) libraries (t.pre.environment.bots bot) msg m)
      (htaken : taken u = [m]) (hclient : u.pre.controller.getIrcClient m.user = some p) :
      Occasion ignoreUsers past p (.sendMessage m.channel m.text)

/-- The step as one of the bots. -/
def botsStep (t : Transition State Event) : Option Bots.Event :=
  match t.event with
  | .bots _ event => some event
  | _ => none

theorem chat_eq_said (tr : List (Transition State Event)) :
    BotHearing.said (tr.filterMap fun t => (botsStep t).map fun event =>
      ⟨t.pre.environment, event, t.post.environment⟩) = chat tr := by
  rw [BotHearing.said, List.filterMap_filterMap, chat]
  congr 1
  funext t
  rcases t with ⟨pre, event | _ | _, post⟩ <;> rfl

section Provenance

variable {s s₀ : State} {tr : List (Transition State Event)} {config : IRCConnectionConfig}
  {botsEnv ircEnv : Surroundings}

theorem environment_step {s' : State} {event : Event} (hstep : step s event = some s') :
    (botsStep ⟨s, event, s'⟩ = none ∧ s'.environment = s.environment) ∨
      ∃ e, botsStep ⟨s, event, s'⟩ = some e ∧ s.environment.step e = some s'.environment := by
  cases event with
  | bots libraries event =>
      obtain ⟨environment', hbots, rfl⟩ := Option.map_eq_some_iff.mp hstep
      exact .inr ⟨event, rfl, hbots⟩
  | evtSendMessage =>
      simp only [step] at hstep
      split at hstep
      · cases hstep
      · obtain ⟨controller, -, rfl⟩ := Option.map_eq_some_iff.mp hstep
        exact .inl ⟨rfl, rfl⟩
  | controller event =>
      cases event with
      | sendMessage user channel text => cases hstep
      | http env request body =>
          obtain ⟨controller, -, rfl⟩ := Option.map_eq_some_iff.mp hstep
          exact .inl ⟨rfl, rfl⟩
      | client _ _ | destroy _ =>
          obtain ⟨controller, -, rfl⟩ := Option.map_eq_some_iff.mp hstep
          exact .inl ⟨rfl, rfl⟩

theorem hears_of_run (hstart : start config botsEnv ircEnv = some s₀) (hrun : Run step s₀ tr s) :
    Hears s₀.environment.ignoreUsers (chat tr) s.environment := by
  obtain ⟨environment, henvironment, rfl⟩ := Option.map_eq_some_iff.mp hstart
  rw [← chat_eq_said]
  exact BotHearing.hears_of_run henvironment
    (hrun.project State.environment botsStep fun _ _ _ => environment_step)

theorem answers_of_posted (hstart : start config botsEnv ircEnv = some s₀)
    {past : List (Transition State Event)} {t : Transition State Event}
    (hpast : Run step s₀ past t.pre) {m : SendMessage} (hm : m ∈ posted t) :
    ∃ libraries env bot msg, t.event = .bots libraries (.bot env bot) ∧
      Answers s₀.environment.ignoreUsers (chat past) libraries (t.pre.environment.bots bot)
        msg m := by
  have hears := (hears_of_run hstart hpast).heard
  unfold posted at hm
  split at hm
  next libraries event hevent =>
    unfold answered at hm
    split at hm
    next env bot =>
      split at hm
      next msg inbox hinbox =>
        obtain ⟨output, houtput, hsend⟩ := List.mem_filterMap.mp hm
        obtain ⟨hother, hof⟩ := output_of_bot houtput
        cases output with
        | logMessage _ => cases hsend
        | sendMessage m' =>
            obtain rfl := Option.some.inj hsend
            have hheard : msg ∈ BotHearing.heard (t.pre.environment.bots bot) := by
              rw [BotHearing.heard, hinbox]
              exact List.mem_append_right _ List.mem_cons_self
            obtain ⟨hsaid, hpassed⟩ := List.mem_filter.mp ((hears bot).subset hheard)
            simp only [Bool.and_eq_true, decide_eq_true_eq] at hpassed
            obtain ⟨⟨hvalid, hallowed⟩, hchannel⟩ := hpassed
            have hhandles : (t.pre.environment.bots bot).inbox.head? = some (.message msg) := by
              rw [hinbox, List.head?_cons]
            exact ⟨libraries, env, bot, msg, hevent, hhandles, houtput, hsaid, hvalid, hallowed,
              hchannel, hother, hof.1, hof.2⟩
      · cases hm
    · cases hm
  · cases hm

end Provenance

/-- A client hands nothing to its sessions that no request and no bot has made it
say before. -/
theorem occasion_of_run (config : IRCConnectionConfig) (botsEnv ircEnv : Surroundings)
    (s₀ s : State) (tr : List (Transition State Event))
    (hstart : start config botsEnv ircEnv = some s₀) (hrun : Run step s₀ tr s)
    (past : List (Transition State Event)) (v : Transition State Event)
    (future : List (Transition State Event)) (hsplit : tr = past ++ v :: future) (p : ClientPtr) :
    ∀ command ∈ handed p v, Occasion s₀.environment.ignoreUsers past p command := by
  intro command hhanded
  obtain ⟨hpast, hstep⟩ := hrun.step_of_split past v future hsplit
  have hconveyed := conveyed_of_run config botsEnv ircEnv s₀ v.pre past hstart hpast
  have hdirected : command ∈ past.flatMap (directed p) := by
    rw [hconveyed.handed]
    exact List.mem_append_right _ (mem_queue_of_handed (ready_of_run hstart hpast) hstep hhanded)
  obtain ⟨u, hu, hcommand⟩ := List.mem_flatMap.mp hdirected
  unfold directed at hcommand
  split at hcommand
  next hevent =>
    obtain ⟨m, hm, hpassed⟩ := List.mem_flatMap.mp hcommand
    simp only [passed] at hpassed
    split_ifs at hpassed with hclient
    · obtain rfl := List.mem_singleton.mp hpassed
      obtain ⟨earlier, after, rfl⟩ := List.append_of_mem hu
      obtain ⟨hearlier, -⟩ := hpast.step_of_split earlier u after rfl
      have hhead : u.pre.mailbox.head? = some m := by
        simpa only [taken, hevent, Option.mem_toList, Option.mem_def] using hm
      have hposted : m ∈ earlier.flatMap posted := by
        rw [(conveyed_of_run config botsEnv ircEnv s₀ u.pre earlier hstart hearlier).handled]
        exact List.mem_append_right _ (List.mem_of_mem_head? hhead)
      obtain ⟨t, ht, hm'⟩ := List.mem_flatMap.mp hposted
      obtain ⟨before, between, rfl⟩ := List.append_of_mem ht
      obtain ⟨hbefore, -⟩ := hearlier.step_of_split before t between rfl
      obtain ⟨libraries, env, bot, msg, hbot, hanswers⟩ := answers_of_posted hstart hbefore hm'
      have hpast' : before ++ t :: between ++ u :: after =
          before ++ t :: (between ++ u :: after) := by
        rw [List.append_assoc, List.cons_append]
      refine .answer hpast' hbot hanswers ?_ hclient
      rw [taken, hevent, hhead]
      rfl
    · cases hpassed
  next hevent => exact .request hu hevent hcommand
  · cases hcommand

theorem occasion_of_run_answering :
    Occasion ((start {} botRows accountRows).get start_isSome).environment.ignoreUsers
      ((trace step ((start {} botRows accountRows).get start_isSome) answering).take 4) 0
      (.sendMessage "den" "hi") :=
  occasion_of_run {} botRows accountRows _ _ _ (Option.some_get start_isSome).symm
    (run_trace answering answering_isSome) _ _ [] (List.take_append_drop 4 _).symm 0 _
    (by decide +kernel)

end TwitchChatWorker.OutgoingMessages
