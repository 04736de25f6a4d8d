import Mathlib.Algebra.Group.Nat.Defs
import TwitchChatWorker.IrcClientLinks

/-!
Which connection a login timeout ends.  The client runs against a clock: a
delayed message has a due time and gets into the queue no earlier.  Every
message carries the number of the step that sent it, so that a check of the
login can be told from the checks of other connections of its session.
-/

namespace TwitchChatWorker.LoginTimeout

open TwitchChatWorker.ChannelList
open TwitchChatWorker.IrcClient
open TwitchChatWorker.IrcClientSteps
open TwitchChatWorker.IrcClientLinks
open TwitchChatWorker.SessionLifetime
open TwitchChatWorker.Lib.Runs

def loginTimeout : Nat := 3000
def sessionJoinTimeout : Nat := 3000

/-- The delay in milliseconds that the client sends a message with. -/
def delay : Message → Nat
  | .loggedInCheck _ => loginTimeout
  | .checkJoinedChannels _ _ => sessionJoinTimeout
  | .connect _ attempt => 1000 * 2 ^ attempt.toNat
  | _ => 0

/-- A delayed message by the time it is due and the step that sent it. -/
structure Timer where
  due : Nat
  sentBy : Nat
deriving DecidableEq

/-- A client with its clock, the number of steps taken, and its messages again,
each with the step that sent it and, while it is delayed, its due time. -/
structure Timed where
  client : IRCClient
  clock : Nat
  steps : Nat
  queue : List (Message × Nat)
  timers : List (Message × Timer)

/-- Time passes, or the client takes a step. -/
inductive Tick where
  | wait (ms : Nat)
  | act (event : Event)

def Tick.event? : Tick → Option Event
  | .wait _ => none
  | .act event => some event

def start (conConfig : IRCConnectionConfig) (cliConfig : IRCClientConfig) (env : Env) : Timed where
  client := .soEvtStart conConfig cliConfig env
  clock := 0
  steps := 0
  queue := (IRCClient.soEvtStart conConfig cliConfig env).queue.map fun m => (m, 0)
  timers := []

def Timed.restQueue (s : Timed) : Event → List (Message × Nat)
  | .handle _ => s.queue.tail
  | _ => s.queue

/-- The state after the step in which the client has become `client`. -/
def Timed.after (s : Timed) (event : Event) (client : IRCClient) : Timed where
  client := client
  clock := s.clock
  steps := s.steps + 1
  queue :=
    match event with
    | .expire i => s.queue ++ (s.timers[i]?.map fun timer => (timer.1, timer.2.sentBy)).toList
    | _ => s.restQueue event ++
        (client.queue.drop (s.restQueue event).length).map fun m => (m, s.steps)
  timers :=
    match event with
    | .expire i => s.timers.eraseIdx i
    | _ => s.timers ++
        (client.delayed.drop s.timers.length).map fun m => (m, ⟨s.clock + delay m, s.steps⟩)

/-- A timer fires once it is due. -/
def Timed.isDue (s : Timed) : Event → Bool
  | .expire i => s.timers[i]?.any fun timer => timer.2.due ≤ s.clock
  | _ => true

def step (s : Timed) : Tick → Option Timed
  | .wait ms => some { s with clock := s.clock + ms, steps := s.steps + 1 }
  | .act event =>
      if s.isDue event then (s.client.step event).map (s.after event) else none

/-- `LoggedInCheck` for the session. -/
def isCheckOf (session : SessionPtr) : Message → Bool
  | .loggedInCheck p => p == session
  | _ => false

/-- The checks of the login of a session on their way. -/
def checks (c : IRCClient) (session : SessionPtr) : Nat :=
  c.pending.countP (isCheckOf session)

/-- The session that the step ends the connection of, because a check of the
login finds it not logged in. -/
def timedOut (t : Transition Timed Tick) : Option SessionPtr :=
  match t.event, t.pre.client.queue.head? with
  | .act (.handle _), some (.loggedInCheck session) =>
      if (t.pre.client.heap session).logged then none else some session
  | _, _ => none

/-- The step connects the session. -/
def Connects (t : Transition Timed Tick) (session : SessionPtr) : Prop :=
  (t.pre.client.heap session).connected = false ∧
    (t.post.client.heap session).connected = true

def LogsIn (t : Transition Timed Tick) (session : SessionPtr) : Prop :=
  ∃ event ∈ t.event.event?, event.login? = some session

instance (t : Transition Timed Tick) (session : SessionPtr) : Decidable (Connects t session) :=
  inferInstanceAs (Decidable (_ ∧ _))

instance (t : Transition Timed Tick) (session : SessionPtr) : Decidable (LogsIn t session) :=
  inferInstanceAs (Decidable (∃ _ ∈ _, _))

/-- A timeout ends the connection that armed its check: that was the last
connect of the session, at least the timeout ago, and no login followed it. -/
def KillsOwn (past : List (Transition Timed Tick)) (t : Transition Timed Tick) : Prop :=
  ∀ session ∈ timedOut t, ∃ a ∈ past, Connects a session ∧
    t.pre.queue.head?.map Prod.snd = some a.pre.steps ∧
    a.pre.clock + loginTimeout ≤ t.pre.clock ∧
    ∀ u ∈ past, a.pre.steps < u.pre.steps → ¬Connects u session ∧ ¬LogsIn u session

/-- A check that finds its session not logged in is the only check of it on its
way. -/
def LastCheck (t : Transition Timed Tick) : Prop :=
  ∀ session ∈ timedOut t, checks t.pre.client session = 1

/-- The step handles no `Reload`. -/
def Unreloaded (t : Transition Timed Tick) : Prop :=
  ∀ event ∈ t.event.event?, NoReload ⟨t.pre.client, event, t.post.client⟩

instance : DecidablePred LastCheck := fun _ => inferInstanceAs (Decidable (∀ _ ∈ _, _))

instance : DecidablePred Unreloaded := fun _ => inferInstanceAs (Decidable (∀ _ ∈ _, _))

instance (past : List (Transition Timed Tick)) (t : Transition Timed Tick) :
    Decidable (KillsOwn past t) :=
  inferInstanceAs (Decidable (∀ _ ∈ _, ∃ _ ∈ _, _))

/-! ### What a step does to the checks of one session -/

theorem logged_of_link {c c' : IRCClient} {e : Event} (hlink : LinkStep c e c')
    {session : SessionPtr} (hlogged : (c'.heap session).logged = false) :
    ((c.heap session).logged = false ∧ e.login? ≠ some session) ∨
      ((c.heap session).connected = false ∧ (c'.heap session).connected = true) := by
  have hkept : ∀ {flags : SessionPtr → Flags}, c'.view.flags = flags →
      (flags session).logged = false := fun hflags => hflags ▸ hlogged
  have hnoLogin : ∀ m, c.handled e = some m → e.login? ≠ some session := by
    intro m hm
    cases e with
    | handle env => simp [Event.login?]
    | _ => cases hm
  cases hlink with
  | expired i m event stored queue_eq delayed_eq flags_eq =>
      exact Or.inl ⟨hkept flags_eq, by simp [event, Event.login?]⟩
  | redundant p attempt handled linked posts =>
      exact Or.inl ⟨hkept posts.flags_eq, hnoLogin _ handled⟩
  | connected p attempt handled down posts =>
      by_cases heq : session = p
      · subst heq
        refine Or.inr ⟨down, ?_⟩
        have hflags := congrFun posts.flags_eq session
        simp only [connected, Function.update_self] at hflags
        exact congrArg Flags.connected hflags
      · refine Or.inl ⟨?_, hnoLogin _ handled⟩
        have hflags := hkept posts.flags_eq
        rwa [flags_connected_of_ne _ heq] at hflags
  | failed p attempt handled down posts =>
      exact Or.inl ⟨hkept posts.flags_eq, hnoLogin _ handled⟩
  | dropped p cause handled posts =>
      refine Or.inl ⟨?_, ?_⟩
      · have hflags := hkept posts.flags_eq
        by_cases heq : session = p
        · subst heq
          simp only [dropped, Function.update_self] at hflags
          exact hflags
        · rwa [flags_dropped_of_ne _ heq] at hflags
      · cases e with
        | onLoggedIn q env => cases cause
        | _ => simp [Event.login?]
  | loggedIn p env names event posts =>
      have hflags := hkept posts.flags_eq
      by_cases heq : session = p
      · simp [loggedIn, heq] at hflags
      · rw [flags_loggedIn_of_ne _ _ heq] at hflags
        exact Or.inl ⟨hflags, by simpa [event, Event.login?] using Ne.symm heq⟩
  | unlinked sent late event handled checked quiet login fresh posts =>
      exact Or.inl ⟨hkept posts.flags_eq, by simp [login]⟩

/-- Only a handled Connect connects a session, and it arms a check. -/
theorem posts_of_connected {c c' : IRCClient} {e : Event} (hlink : LinkStep c e c')
    {session : SessionPtr} (hdown : (c.heap session).connected = false)
    (hup : (c'.heap session).connected = true) :
    (∃ attempt, c.handled e = some (.connect session attempt)) ∧
      ∃ flags, Posts c e c' [] [.loggedInCheck session] flags := by
  have hkept : ∀ {flags : SessionPtr → Flags}, c'.view.flags = flags →
      (flags session).connected ≠ (c.view.flags session).connected := fun hflags heq => by
    have hup' : (c'.view.flags session).connected = true := hup
    rw [hflags, heq] at hup'
    exact Bool.false_ne_true (hdown.symm.trans hup')
  cases hlink with
  | expired i m event stored queue_eq delayed_eq flags_eq => exact absurd rfl (hkept flags_eq)
  | redundant p attempt handled linked posts => exact absurd rfl (hkept posts.flags_eq)
  | connected p attempt handled down posts =>
      by_cases heq : session = p
      · subst heq
        exact ⟨⟨attempt, handled⟩, _, posts⟩
      · exact absurd (by rw [flags_connected_of_ne _ heq]) (hkept posts.flags_eq)
  | failed p attempt handled down posts => exact absurd rfl (hkept posts.flags_eq)
  | dropped p cause handled posts =>
      by_cases heq : session = p
      · have hup' : (c'.view.flags session).connected = true := hup
        rw [posts.flags_eq] at hup'
        simp [dropped, heq] at hup'
      · exact absurd (by rw [flags_dropped_of_ne _ heq]) (hkept posts.flags_eq)
  | loggedIn p env names event posts =>
      exact absurd (connected_loggedIn _ _ _ _) (hkept posts.flags_eq)
  | unlinked sent late event handled checked quiet login fresh posts =>
      exact absurd rfl (hkept posts.flags_eq)

theorem checks_of_link {c c' : IRCClient} {e : Event} (hlink : LinkStep c e c')
    {session : SessionPtr}
    (hconnects : ¬((c.heap session).connected = false ∧ (c'.heap session).connected = true)) :
    checks c' session + (c.handled e).toList.countP (isCheckOf session) = checks c session := by
  unfold checks
  cases hlink with
  | expired i m event stored queue_eq delayed_eq flags_eq =>
      simpa [event, IRCClient.handled] using
        countP_expired stored queue_eq delayed_eq (isCheckOf session)
  | redundant p attempt handled linked posts => exact posts.countP (isCheckOf session)
  | connected p attempt handled down posts =>
      have hcount := posts.countP (isCheckOf session)
      have hne : p ≠ session := by
        rintro rfl
        refine hconnects ⟨down, ?_⟩
        have hflags := congrFun posts.flags_eq p
        simp only [connected, Function.update_self] at hflags
        exact congrArg Flags.connected hflags
      simpa [isCheckOf, hne] using hcount
  | failed p attempt handled down posts =>
      simpa [isCheckOf] using posts.countP (isCheckOf session)
  | dropped p cause handled posts =>
      simpa [isCheckOf] using posts.countP (isCheckOf session)
  | loggedIn p env names event posts =>
      simpa [isCheckOf] using posts.countP (isCheckOf session)
  | unlinked sent late event handled checked quiet login fresh posts =>
      have hcount := posts.countP (isCheckOf session)
      have hnone : (sent ++ late).countP (isCheckOf session) = 0 := by
        apply List.countP_eq_zero.mpr
        intro m hm
        cases m with
        | loggedInCheck p => cases fresh _ hm
        | _ => simp [isCheckOf]
      rw [hnone] at hcount
      exact hcount

/-! ### The messages and the steps that sent them -/

theorem shape_of_link {c c' : IRCClient} {e : Event} (hlink : LinkStep c e c')
    (hexpire : ∀ i, e ≠ .expire i) :
    ∃ sent late, c'.queue = rest c e ++ sent ∧ c'.delayed = c.delayed ++ late := by
  have hshape : ∀ {sent late : List Message} {flags : SessionPtr → Flags},
      Posts c e c' sent late flags →
      ∃ sent late, c'.queue = rest c e ++ sent ∧ c'.delayed = c.delayed ++ late :=
    fun posts => ⟨_, _, posts.queue_eq, posts.delayed_eq⟩
  cases hlink with
  | expired i m event => exact absurd event (hexpire i)
  | redundant session attempt handled linked posts => exact hshape posts
  | connected session attempt handled down posts => exact hshape posts
  | failed session attempt handled down posts => exact hshape posts
  | dropped session cause handled posts => exact hshape posts
  | loggedIn session env names event posts => exact hshape posts
  | unlinked sent late event handled checked quiet login fresh posts => exact hshape posts

/-- The stamped messages are the messages of the client. -/
structure Aligned (s : Timed) : Prop where
  queue_eq : s.queue.map Prod.fst = s.client.queue
  timers_eq : s.timers.map Prod.fst = s.client.delayed

theorem aligned_start (conConfig : IRCConnectionConfig) (cliConfig : IRCClientConfig) (env : Env) :
    Aligned (start conConfig cliConfig env) where
  queue_eq := by simp [start, Function.comp_def]
  timers_eq := by
    obtain ⟨-, -, hdelayed, -⟩ := addNewSessions_spec
      { conConfig := conConfig
        cliConfig := cliConfig
        channels := .load env.loadedChannels
        sessions := []
        curSessionRoundRobin := 0
        heap := fun _ => {}
        allocated := 0
        queue := []
        delayed := []
        outbox := []
        calls := []
        deregistered := false } env (IRCClient.startCount cliConfig)
    exact hdelayed.symm

theorem Aligned.restQueue_map {s : Timed} (h : Aligned s) (e : Event) :
    (s.restQueue e).map Prod.fst = rest s.client e := by
  cases e with
  | handle env => simp only [Timed.restQueue, rest, List.map_tail, h.queue_eq]
  | _ => exact h.queue_eq

theorem queue_after {s : Timed} {e : Event} (hexpire : ∀ i, e ≠ .expire i) (c : IRCClient) :
    (s.after e c).queue = s.restQueue e ++
      (c.queue.drop (s.restQueue e).length).map fun m => (m, s.steps) := by
  cases e with
  | expire i => exact absurd rfl (hexpire i)
  | _ => rfl

theorem timers_after {s : Timed} {e : Event} (hexpire : ∀ i, e ≠ .expire i) (c : IRCClient) :
    (s.after e c).timers = s.timers ++
      (c.delayed.drop s.timers.length).map fun m => (m, ⟨s.clock + delay m, s.steps⟩) := by
  cases e with
  | expire i => exact absurd rfl (hexpire i)
  | _ => rfl

theorem Aligned.after {s : Timed} (h : Aligned s) {e : Event} {c : IRCClient}
    (hlink : LinkStep s.client e c) : Aligned (s.after e c) := by
  by_cases hexpire : ∃ i, e = .expire i
  · obtain ⟨i, rfl⟩ := hexpire
    cases hlink with
    | expired j m event stored queue_eq delayed_eq =>
        obtain rfl : i = j := Event.expire.inj event
        have hstored : (s.timers[i]?).map Prod.fst = some m := by
          rw [← List.getElem?_map, h.timers_eq, stored]
        obtain ⟨timer, htimer, rfl⟩ := Option.map_eq_some_iff.mp hstored
        refine ⟨?_, ?_⟩
        · change List.map Prod.fst (s.queue ++ _) = c.queue
          rw [htimer, queue_eq, List.map_append, h.queue_eq]
          rfl
        · change List.map Prod.fst (s.timers.eraseIdx i) = c.delayed
          rw [delayed_eq, ← h.timers_eq, List.eraseIdx_map]
    | redundant session attempt handled => cases handled
    | connected session attempt handled => cases handled
    | failed session attempt handled => cases handled
    | dropped session cause => cases cause
    | loggedIn session env names event => cases event
    | unlinked sent late event handled checked quiet login fresh posts =>
        exact absurd rfl (event i)
  · have hne : ∀ i, e ≠ .expire i := fun i heq => hexpire ⟨i, heq⟩
    obtain ⟨sent, late, hqueue, hdelayed⟩ := shape_of_link hlink hne
    have hrest := congrArg List.length (h.restQueue_map e)
    have htimers := congrArg List.length h.timers_eq
    rw [List.length_map] at hrest htimers
    refine ⟨?_, ?_⟩
    · rw [queue_after hne]
      simp only [List.map_append, List.map_map, h.restQueue_map, Function.comp_def, List.map_id']
      rw [hrest, hqueue, List.drop_left]
      exact hqueue.symm
    · rw [timers_after hne]
      simp only [List.map_append, List.map_map, h.timers_eq, Function.comp_def, List.map_id']
      rw [htimers, hdelayed, List.drop_left]
      exact hdelayed.symm

theorem mem_queue_after {s : Timed} {e : Event} {c : IRCClient} {x : Message × Nat}
    (hx : x ∈ s.queue) :
    x ∈ (s.after e c).queue ∨ ∃ env, e = .handle env ∧ s.queue.head? = some x := by
  by_cases hexpire : ∃ i, e = .expire i
  · obtain ⟨i, rfl⟩ := hexpire
    exact Or.inl (List.mem_append_left _ hx)
  · rw [queue_after (fun i heq => hexpire ⟨i, heq⟩)]
    cases e with
    | handle env =>
        cases hqueue : s.queue with
        | nil => simp [hqueue] at hx
        | cons y queue =>
            rw [hqueue] at hx
            rcases List.mem_cons.mp hx with rfl | hx
            · exact Or.inr ⟨env, rfl, rfl⟩
            · refine Or.inl (List.mem_append_left _ ?_)
              simpa [Timed.restQueue, hqueue] using hx
    | _ => exact Or.inl (List.mem_append_left _ hx)

theorem mem_timers_after {s : Timed} {e : Event} {c : IRCClient} {x : Message × Timer}
    (hdue : s.isDue e = true) (hx : x ∈ s.timers) :
    x ∈ (s.after e c).timers ∨
      (x.1, x.2.sentBy) ∈ (s.after e c).queue ∧ x.2.due ≤ s.clock := by
  by_cases hexpire : ∃ i, e = .expire i
  · obtain ⟨i, rfl⟩ := hexpire
    obtain ⟨j, hj⟩ := List.mem_iff_getElem?.mp hx
    by_cases heq : j = i
    · subst heq
      refine Or.inr ⟨?_, by simpa [Timed.isDue, hj] using hdue⟩
      exact List.mem_append_right _ (by simp [hj])
    · exact Or.inl (List.mem_eraseIdx_iff_getElem?.mpr ⟨j, heq, hj⟩)
  · rw [timers_after (fun i heq => hexpire ⟨i, heq⟩)]
    exact Or.inl (List.mem_append_left _ hx)

/-- The last connect of a session. -/
def Latest (past : List (Transition Timed Tick)) (a : Transition Timed Tick)
    (session : SessionPtr) : Prop :=
  a ∈ past ∧ Connects a session ∧ ∀ u ∈ past, a.pre.steps < u.pre.steps → ¬Connects u session

/-- Where the check is that the connect `a` has armed: in the queue once it is
due, delayed until then, or it has done its work. -/
def CheckKept (s : Timed) (a : Transition Timed Tick) (session : SessionPtr) : Prop :=
  ((.loggedInCheck session, a.pre.steps) ∈ s.queue ∧ a.pre.clock + loginTimeout ≤ s.clock) ∨
    (.loggedInCheck session, ⟨a.pre.clock + loginTimeout, a.pre.steps⟩) ∈ s.timers ∨
    (s.client.heap session).logged = true ∨ checks s.client session = 0

/-- The invariant behind the timeout, with the steps so far. -/
structure Tracked (past : List (Transition Timed Tick)) (s : Timed) : Prop where
  aligned : Aligned s
  steps_lt : ∀ u ∈ past, u.pre.steps < s.steps
  armed : ∀ session, 0 < checks s.client session → ∃ a, Latest past a session
  kept : ∀ session a, Latest past a session → CheckKept s a session
  unlogged : ∀ session a, Latest past a session → (s.client.heap session).logged = false →
    ∀ u ∈ past, a.pre.steps < u.pre.steps → ¬LogsIn u session

/-- The last connect of a longer history: the new step, or the last one before
it. -/
theorem Latest.of_snoc {past : List (Transition Timed Tick)} {t a : Transition Timed Tick}
    {session : SessionPtr} (h : Latest (past ++ [t]) a session)
    (hlt : ∀ u ∈ past, u.pre.steps < t.pre.steps) :
    (a = t ∧ Connects t session) ∨ (Latest past a session ∧ ¬Connects t session) := by
  obtain ⟨ha, hconnects, hlast⟩ := h
  rcases List.mem_append.mp ha with ha | ha
  · refine Or.inr ⟨⟨ha, hconnects, fun u hu => hlast u (List.mem_append_left _ hu)⟩, ?_⟩
    exact hlast t (by simp) (hlt a ha)
  · obtain rfl := List.mem_singleton.mp ha
    exact Or.inl ⟨rfl, hconnects⟩

theorem Latest.snoc {past : List (Transition Timed Tick)} {t a : Transition Timed Tick}
    {session : SessionPtr} (h : Latest past a session) (hconnects : ¬Connects t session) :
    Latest (past ++ [t]) a session := by
  obtain ⟨ha, hfirst, hlast⟩ := h
  refine ⟨List.mem_append_left _ ha, hfirst, fun u hu hlt => ?_⟩
  rcases List.mem_append.mp hu with hu | hu
  · exact hlast u hu hlt
  · obtain rfl := List.mem_singleton.mp hu
    exact hconnects

theorem latest_last {past : List (Transition Timed Tick)} {t : Transition Timed Tick}
    {session : SessionPtr} (hconnects : Connects t session)
    (hlt : ∀ u ∈ past, u.pre.steps < t.pre.steps) : Latest (past ++ [t]) t session := by
  refine ⟨by simp, hconnects, fun u hu hafter => ?_⟩
  rcases List.mem_append.mp hu with hu | hu
  · exact absurd (hlt u hu) (by omega)
  · obtain rfl := List.mem_singleton.mp hu
    exact absurd hafter (by omega)

theorem tracked_start (conConfig : IRCConnectionConfig) (cliConfig : IRCClientConfig) (env : Env) :
    Tracked [] (start conConfig cliConfig env) where
  aligned := aligned_start conConfig cliConfig env
  steps_lt := by simp
  armed := by
    obtain ⟨-, hpending, -⟩ := soEvtStart_spec conConfig cliConfig env
    intro session hchecks
    have hnone : checks (start conConfig cliConfig env).client session = 0 := by
      rw [checks, start, hpending, List.countP_map]
      exact List.countP_eq_zero.mpr fun p _ => by simp [isCheckOf]
    omega
  kept := by simp [Latest]
  unlogged := by simp [Latest]

section

variable {past : List (Transition Timed Tick)} {s : Timed} {e : Event} {c : IRCClient}

theorem Tracked.connect_kept (h : Tracked past s) (hlink : LinkStep s.client e c)
    {session : SessionPtr} (hconnects : Connects ⟨s, .act e, s.after e c⟩ session) :
    CheckKept (s.after e c) ⟨s, .act e, s.after e c⟩ session := by
  obtain ⟨⟨attempt, hhandled⟩, flags, posts⟩ := posts_of_connected hlink hconnects.1 hconnects.2
  have hexpire : ∀ i, e ≠ .expire i := by
    rintro i rfl
    cases hhandled
  have htimers := congrArg List.length h.aligned.timers_eq
  rw [List.length_map] at htimers
  refine Or.inr (Or.inl ?_)
  rw [timers_after hexpire, htimers, posts.delayed_eq, List.drop_left]
  simp [delay]

theorem Tracked.check_kept (h : Tracked past s) (hlink : LinkStep s.client e c)
    (hdue : s.isDue e = true) (hlast : LastCheck ⟨s, .act e, s.after e c⟩)
    {a : Transition Timed Tick} {session : SessionPtr} (ha : Latest past a session)
    (hconnects : ¬Connects ⟨s, .act e, s.after e c⟩ session) :
    CheckKept (s.after e c) a session := by
  have hchecks := checks_of_link hlink hconnects
  have hlogged : (s.client.heap session).logged = true → (c.heap session).logged = true := by
    intro hlogged
    by_contra hlost
    rcases logged_of_link hlink (by simpa using hlost) with ⟨hfalse, -⟩ | hboth
    · simp [hlogged] at hfalse
    · exact hconnects hboth
  rcases h.kept session a ha with ⟨hmem, hclock⟩ | hmem | hdone | hnone
  · rcases mem_queue_after (e := e) (c := c) hmem with hmem | ⟨env, rfl, hhead⟩
    · exact Or.inl ⟨hmem, hclock⟩
    · have hhandled : s.client.handled (.handle env) = some (.loggedInCheck session) := by
        rw [IRCClient.handled, ← h.aligned.queue_eq, List.head?_map, hhead]
        rfl
      cases hpre : (s.client.heap session).logged with
      | true => exact Or.inr (Or.inr (Or.inl (hlogged hpre)))
      | false =>
          -- the check that ends the connection was the only one
          have htimedOut : timedOut ⟨s, .act (.handle env), s.after (.handle env) c⟩ =
              some session := by
            have hqueue : s.client.queue.head? = some (.loggedInCheck session) := hhandled
            simp [timedOut, hqueue, hpre]
          have hone : checks s.client session = 1 := hlast session htimedOut
          rw [hhandled] at hchecks
          simp only [Option.toList_some, List.countP_singleton, isCheckOf, beq_self_eq_true,
            if_true] at hchecks
          refine Or.inr (Or.inr (Or.inr ?_))
          change checks c session = 0
          omega
  · rcases mem_timers_after (c := c) hdue hmem with hmem | ⟨hmem, hclock⟩
    · exact Or.inr (Or.inl hmem)
    · exact Or.inl ⟨hmem, hclock⟩
  · exact Or.inr (Or.inr (Or.inl (hlogged hdone)))
  · refine Or.inr (Or.inr (Or.inr ?_))
    change checks c session = 0
    omega

theorem Tracked.act (h : Tracked past s) (hlink : LinkStep s.client e c)
    (hdue : s.isDue e = true) (hlast : LastCheck ⟨s, .act e, s.after e c⟩) :
    Tracked (past ++ [⟨s, .act e, s.after e c⟩]) (s.after e c) where
  aligned := h.aligned.after hlink
  steps_lt := by
    intro u hu
    change u.pre.steps < s.steps + 1
    rcases List.mem_append.mp hu with hu | hu
    · exact Nat.lt_succ_of_lt (h.steps_lt u hu)
    · obtain rfl := List.mem_singleton.mp hu
      exact Nat.lt_succ_self _
  armed := by
    intro session hchecks
    by_cases hconnects : Connects ⟨s, .act e, s.after e c⟩ session
    · exact ⟨_, latest_last hconnects h.steps_lt⟩
    · have hcount := checks_of_link hlink hconnects
      have hpos : 0 < checks c session := hchecks
      obtain ⟨a, ha⟩ := h.armed session (by omega)
      exact ⟨a, ha.snoc hconnects⟩
  kept := by
    intro session a ha
    rcases ha.of_snoc h.steps_lt with ⟨rfl, hconnects⟩ | ⟨ha, hconnects⟩
    · exact h.connect_kept hlink hconnects
    · exact h.check_kept hlink hdue hlast ha hconnects
  unlogged := by
    intro session a ha hlogged u hu hafter
    rcases ha.of_snoc h.steps_lt with ⟨rfl, -⟩ | ⟨ha, hconnects⟩
    · rcases List.mem_append.mp hu with hu | hu
      · exact absurd (h.steps_lt u hu) (Nat.lt_asymm hafter)
      · obtain rfl := List.mem_singleton.mp hu
        exact absurd hafter (Nat.lt_irrefl _)
    · rcases logged_of_link hlink hlogged with ⟨hpre, hlogin⟩ | hboth
      · rcases List.mem_append.mp hu with hu | hu
        · exact h.unlogged session a ha hpre u hu hafter
        · obtain rfl := List.mem_singleton.mp hu
          rintro ⟨event, hevent, heq⟩
          obtain rfl := Option.some.inj hevent
          exact hlogin heq
      · exact absurd hboth hconnects

theorem Tracked.wait (h : Tracked past s) (ms : Nat) :
    Tracked (past ++ [⟨s, .wait ms, { s with clock := s.clock + ms, steps := s.steps + 1 }⟩])
      { s with clock := s.clock + ms, steps := s.steps + 1 } := by
  have hconnects : ∀ session, ¬Connects
      ⟨s, .wait ms, { s with clock := s.clock + ms, steps := s.steps + 1 }⟩ session :=
    fun session hboth => Bool.false_ne_true (hboth.1.symm.trans hboth.2)
  refine ⟨⟨h.aligned.queue_eq, h.aligned.timers_eq⟩, fun u hu => ?_, fun session hchecks => ?_,
    fun session a ha => ?_, fun session a ha hlogged u hu hafter => ?_⟩
  · rcases List.mem_append.mp hu with hu | hu
    · exact Nat.lt_succ_of_lt (h.steps_lt u hu)
    · obtain rfl := List.mem_singleton.mp hu
      exact Nat.lt_succ_self _
  · obtain ⟨a, ha⟩ := h.armed session hchecks
    exact ⟨a, ha.snoc (hconnects session)⟩
  · rcases ha.of_snoc h.steps_lt with ⟨-, hboth⟩ | ⟨ha, -⟩
    · exact absurd hboth (hconnects session)
    · exact (h.kept session a ha).imp_left fun hqueue =>
        ⟨hqueue.1, Nat.le_trans hqueue.2 (Nat.le_add_right _ _)⟩
  · rcases ha.of_snoc h.steps_lt with ⟨-, hboth⟩ | ⟨ha, -⟩
    · exact absurd hboth (hconnects session)
    · rcases List.mem_append.mp hu with hu | hu
      · exact h.unlogged session a ha hlogged u hu hafter
      · obtain rfl := List.mem_singleton.mp hu
        rintro ⟨event, hevent, -⟩
        cases hevent

theorem Tracked.killsOwn (h : Tracked past s) {tick : Tick} {s' : Timed}
    (hlast : LastCheck ⟨s, tick, s'⟩) : KillsOwn past ⟨s, tick, s'⟩ := by
  intro session htimedOut
  have hone := hlast session htimedOut
  obtain ⟨hhead, hlogged⟩ : s.client.queue.head? = some (.loggedInCheck session) ∧
      (s.client.heap session).logged = false := by
    simp only [timedOut] at htimedOut
    split at htimedOut
    next p hevent hhead =>
      split at htimedOut
      · cases htimedOut
      next hlogged =>
        obtain rfl := Option.some.inj htimedOut
        exact ⟨hhead, by simpa using hlogged⟩
    · cases htimedOut
  obtain ⟨x, queue, hqueue⟩ : ∃ x queue, s.queue = x :: queue := by
    cases hqueue : s.queue with
    | nil => simp [← h.aligned.queue_eq, hqueue] at hhead
    | cons x queue => exact ⟨x, queue, rfl⟩
  have hclient : s.client.queue = x.1 :: queue.map Prod.fst := by
    rw [← h.aligned.queue_eq, hqueue, List.map_cons]
  have hx : x.1 = .loggedInCheck session := by simpa [hclient] using hhead
  -- any other check of the session would be a second one
  have hother : ∀ m ∈ queue.map Prod.fst ++ s.client.delayed, m ≠ .loggedInCheck session := by
    rintro m hm rfl
    have hcount := List.countP_pos_iff.mpr ⟨_, hm, show isCheckOf session (.loggedInCheck session)
      from beq_self_eq_true session⟩
    rw [checks, IRCClient.pending, hclient, hx, List.cons_append, List.countP_cons] at hone
    simp only [isCheckOf, beq_self_eq_true, if_true] at hone hcount
    omega
  obtain ⟨a, ha⟩ := h.armed session (Nat.lt_of_lt_of_eq Nat.zero_lt_one hone.symm)
  refine ⟨a, ha.1, ha.2.1, ?_⟩
  rcases h.kept session a ha with ⟨hmem, hclock⟩ | hmem | hdone | hnone
  · rw [hqueue] at hmem
    rcases List.mem_cons.mp hmem with rfl | hmem
    · refine ⟨by simp [hqueue], hclock, fun u hu hafter => ⟨ha.2.2 u hu hafter, ?_⟩⟩
      exact h.unlogged session a ha hlogged u hu hafter
    · exact absurd rfl (hother _ (List.mem_append_left _ (List.mem_map_of_mem hmem)))
  · have hdelayed : Message.loggedInCheck session ∈ s.client.delayed := by
      rw [← h.aligned.timers_eq]
      exact List.mem_map_of_mem hmem
    exact absurd rfl (hother _ (List.mem_append_right _ hdelayed))
  · simp [hlogged] at hdone
  · exact absurd hnone (by rw [hone]; exact Nat.one_ne_zero)

end

/-- In every run whose timeouts find no other check of their session, a timeout
ends the connection that armed it. -/
theorem killsOwn_of_lastCheck (conConfig : IRCConnectionConfig) (cliConfig : IRCClientConfig)
    (env : Env) {tr : List (Transition Timed Tick)} {s : Timed}
    (hrun : Run step (start conConfig cliConfig env) tr s) (hreload : ∀ t ∈ tr, Unreloaded t)
    (hlast : ∀ t ∈ tr, LastCheck t) :
    ∀ past t future, tr = past ++ t :: future → KillsOwn past t := by
  rintro past t future rfl
  obtain ⟨hpast, -⟩ := hrun.step_of_split past t future rfl
  have htracked : Tracked past t.pre := by
    refine hpast.historyInvariant (fun _ t => Unreloaded t ∧ LastCheck t)
      (tracked_start conConfig cliConfig env) ?_ ?_
    · intro tr s tick s' _ h hguard hstep
      cases tick with
      | wait ms =>
          obtain rfl := Option.some.inj hstep
          exact h.wait ms
      | act e =>
          simp only [step] at hstep
          split at hstep
          next hdue =>
            obtain ⟨c, hclient, rfl⟩ := Option.map_eq_some_iff.mp hstep
            exact h.act (step_link (hguard.1 e rfl) hclient) hdue hguard.2
          · cases hstep
    · rintro before u after rfl
      exact ⟨hreload u (by simp), hlast u (by simp)⟩
  exact htracked.killsOwn (hlast t (by simp))

/-- A connection without a login is ended by its own check, and the next one
logs in. -/
theorem killsOwn_of_lastCheck_timeout :
    (exec step (start {} {} {})
      [.act (.handle {}), .wait 3000, .act (.expire 0), .act (.handle {}),
        .act (.handle { now := 3000 }), .wait 100, .act (.onLoggedIn 0 { now := 3100 })]).isSome ∧
    ∀ past t future, trace step (start {} {} {})
      [.act (.handle {}), .wait 3000, .act (.expire 0), .act (.handle {}),
        .act (.handle { now := 3000 }), .wait 100, .act (.onLoggedIn 0 { now := 3100 })] =
      past ++ t :: future → KillsOwn past t :=
  ⟨by decide, killsOwn_of_lastCheck {} {} {} (run_trace _ (by decide)) (by decide) (by decide)⟩

/-- A connection is dropped after two seconds and made again at once; a second
later the check of the first one ends the second one. -/
theorem not_killsOwn_reconnected :
    ¬∀ (conConfig : IRCConnectionConfig) (cliConfig : IRCClientConfig) (env : Env)
      (tr : List (Transition Timed Tick)) (s : Timed),
      Run step (start conConfig cliConfig env) tr s → (∀ t ∈ tr, Unreloaded t) →
      ∀ past t future, tr = past ++ t :: future → KillsOwn past t := by
  intro hall
  let events : List Tick := [.act (.handle {}), .wait 2000, .act (.onDisconnected 0 "reset"),
    .act (.handle { now := 2000 }), .wait 1000, .act (.expire 0), .act (.handle { now := 3000 })]
  let tr := trace step (start {} {} {}) events
  have hsplit : tr = tr.take 6 ++ tr.get ⟨6, by decide⟩ :: tr.drop 7 := by
    rw [List.get_eq_getElem, List.getElem_cons_drop, List.take_append_drop]
  have hkills := hall {} {} {} tr _ (run_trace events (by decide)) (by decide) _ _ _ hsplit
  exact absurd hkills (by decide)

end TwitchChatWorker.LoginTimeout
