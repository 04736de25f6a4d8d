import Mathlib.Data.List.Perm.Basic
import TwitchChatWorker.IrcClient

/-!
What one step of a client can do to its channels, its sessions and the messages
on their way.  Everything proved about runs of a client rests on `step_effect`.
-/

namespace TwitchChatWorker.IrcClientSteps

open TwitchChatWorker.ChannelList
open TwitchChatWorker.IrcClient
open TwitchChatWorker.Lib

/-- Besides calls of sessions nothing changed. -/
structure OnlyCalls (c c' : IRCClient) (kind : Call → Prop) : Prop where
  view_eq : c'.view = c.view
  queue_eq : c'.queue = c.queue
  delayed_eq : c'.delayed = c.delayed
  calls : ∀ call ∈ c'.calls, call ∈ c.calls ∨ kind call

theorem OnlyCalls.refl (c : IRCClient) (kind : Call → Prop) : OnlyCalls c c kind :=
  ⟨rfl, rfl, rfl, fun _ h => .inl h⟩

theorem OnlyCalls.trans {c₁ c₂ c₃ : IRCClient} {kind : Call → Prop}
    (h₁ : OnlyCalls c₁ c₂ kind) (h₂ : OnlyCalls c₂ c₃ kind) : OnlyCalls c₁ c₃ kind where
  view_eq := h₂.view_eq.trans h₁.view_eq
  queue_eq := h₂.queue_eq.trans h₁.queue_eq
  delayed_eq := h₂.delayed_eq.trans h₁.delayed_eq
  calls := fun call hcall => (h₂.calls call hcall).elim (h₁.calls call) .inr

theorem onlyCalls_called {c : IRCClient} {session : SessionPtr} {method : Method}
    {result : Bool} {kind : Call → Prop} (h : kind ⟨session, method, result⟩) :
    OnlyCalls c (c.called session method result) kind where
  view_eq := rfl
  queue_eq := rfl
  delayed_eq := rfl
  calls := by
    intro call hcall
    simp only [IRCClient.calls_called, List.mem_append, List.mem_singleton] at hcall
    rcases hcall with hcall | rfl
    · exact .inl hcall
    · exact .inr h

theorem onlyCalls_internalIrcSend {c : IRCClient} {env : Env} {session : SessionPtr}
    {command : Method} {kind : Call → Prop}
    (h : ∀ result : Bool, (result = true → (c.heap session).connected = true) →
      kind ⟨session, command, result⟩) :
    OnlyCalls c (c.internalIrcSend env session command).2 kind :=
  onlyCalls_called (h _ fun hresult => (Bool.and_eq_true_iff.mp hresult).1)

theorem onlyCalls_foldl {kind : Call → Prop} {f : IRCClient → String → IRCClient}
    {names : List String} {c : IRCClient}
    (h : ∀ c₁ : IRCClient, c₁.view = c.view → ∀ name ∈ names, OnlyCalls c₁ (f c₁ name) kind) :
    OnlyCalls c (names.foldl f c) kind := by
  induction names generalizing c with
  | nil => exact .refl c kind
  | cons name names ih =>
      have hfirst := h c rfl name (by simp)
      refine hfirst.trans (ih fun c₁ hc₁ other hother => ?_)
      exact h c₁ (hc₁.trans hfirst.view_eq) other (List.mem_cons_of_mem _ hother)

theorem OnlyCalls.mono {c c' : IRCClient} {kind kind' : Call → Prop} (h : OnlyCalls c c' kind)
    (hkind : ∀ call, kind call → kind' call) : OnlyCalls c c' kind' :=
  ⟨h.view_eq, h.queue_eq, h.delayed_eq,
    fun call hcall => (h.calls call hcall).imp_right (hkind call)⟩

/-- The client as a handler finds it: the message is taken, nothing called yet. -/
def opened (c : IRCClient) (queue : List Message) : IRCClient :=
  { c with calls := [], queue := queue }

@[simp] theorem view_opened (c : IRCClient) (queue : List Message) :
    (opened c queue).view = c.view := rfl

@[simp] theorem queue_opened (c : IRCClient) (queue : List Message) :
    (opened c queue).queue = queue := rfl

@[simp] theorem delayed_opened (c : IRCClient) (queue : List Message) :
    (opened c queue).delayed = c.delayed := rfl

@[simp] theorem calls_opened (c : IRCClient) (queue : List Message) :
    (opened c queue).calls = [] := rfl

@[simp] theorem heap_opened (c : IRCClient) (queue : List Message) :
    (opened c queue).heap = c.heap := rfl

/-- How a step can come to a session. -/
inductive Reaches (c : IRCClient) (e : Event) (session : SessionPtr) : Prop where
  | member (h : session ∈ c.sessions)
  | handled {m : Message} (h : c.handled e = some m) (hsession : m.session? = some session)
  | callback (h : e.callback? = some session)
  | attached {name : String} (h : c.channels.sessionOf name = some session)

/-- In the step of `e` the client got the given view; the handled message left
and `posted` joined the messages on their way. -/
structure Became (c : IRCClient) (e : Event) (c' : IRCClient) (view : View)
    (posted : List Message) : Prop where
  view_eq : c'.view = view
  calls : ∀ call ∈ c'.calls, Reaches c e call.session
  kept : ∃ kept, c.pending.Perm ((c.handled e).toList ++ kept) ∧ c'.pending.Perm (posted ++ kept)

theorem became {c c' : IRCClient} {e : Event} {view : View} {queue : List Message}
    (sent late : List Message)
    (htaken : c.queue = (c.handled e).toList ++ queue) (hview : c'.view = view)
    (hqueue : c'.queue = queue ++ sent) (hdelayed : c'.delayed = c.delayed ++ late)
    (hcalls : ∀ call ∈ c'.calls, Reaches c e call.session) :
    Became c e c' view (sent ++ late) where
  view_eq := hview
  calls := hcalls
  kept := by
    refine ⟨queue ++ c.delayed, by simp [IRCClient.pending, htaken], ?_⟩
    apply List.perm_iff_count.mpr
    intro message
    simp only [IRCClient.pending, hqueue, hdelayed, List.count_append]
    omega

section

variable {c c' : IRCClient} {e : Event} {view : View} {posted : List Message}

theorem Became.cliConfig_eq (h : Became c e c' view posted) : c'.cliConfig = view.cliConfig :=
  congrArg View.cliConfig h.view_eq

theorem Became.channels_eq (h : Became c e c' view posted) : c'.channels = view.channels :=
  congrArg View.channels h.view_eq

theorem Became.sessions_eq (h : Became c e c' view posted) : c'.sessions = view.sessions :=
  congrArg View.sessions h.view_eq

theorem Became.allocated_eq (h : Became c e c' view posted) : c'.allocated = view.allocated :=
  congrArg View.allocated h.view_eq

theorem Became.find?_eq (h : Became c e c' view posted) {name : String} {channel : Channel}
    (hfind : c'.channels.find? name = some channel) :
    view.channels.find? name = some channel := by
  rw [← h.channels_eq]
  exact hfind

theorem online_of_became (h : Became c e c' view posted) (session : SessionPtr) :
    c'.online session = ((view.flags session).connected && (view.flags session).logged) := by
  rw [← h.view_eq]
  rfl

theorem Became.mem_pending (h : Became c e c' view posted) {m : Message}
    (hm : m ∈ c'.pending) : m ∈ posted ∨ m ∈ c.pending := by
  obtain ⟨kept, hpre, hpost⟩ := h.kept
  rcases List.mem_append.mp (hpost.mem_iff.mp hm) with hm | hm
  · exact .inl hm
  · exact .inr (hpre.mem_iff.mpr (List.mem_append_right _ hm))

theorem Became.mem_of_posted (h : Became c e c' view posted) {m : Message} (hm : m ∈ posted) :
    m ∈ c'.pending := by
  obtain ⟨kept, -, hpost⟩ := h.kept
  exact hpost.mem_iff.mpr (List.mem_append_left _ hm)

theorem Became.mem_of_ne (h : Became c e c' view posted) {m : Message} (hm : m ∈ c.pending)
    (hne : c.handled e ≠ some m) : m ∈ c'.pending := by
  obtain ⟨kept, hpre, hpost⟩ := h.kept
  rcases List.mem_append.mp (hpre.mem_iff.mp hm) with hm | hm
  · exact absurd (Option.mem_toList.mp hm) hne
  · exact hpost.mem_iff.mpr (List.mem_append_right _ hm)

end

theorem online_eq (c : IRCClient) (session : SessionPtr) :
    c.online session = ((c.view.flags session).connected && (c.view.flags session).logged) := rfl

theorem handled_mem_pending {c : IRCClient} {e : Event} {m : Message}
    (h : c.handled e = some m) : m ∈ c.pending := by
  cases e with
  | handle env => exact List.mem_append_left _ (List.mem_of_mem_head? h)
  | _ => simp [IRCClient.handled] at h

/-- Messages that follow a JOIN. -/
def aboutJoin : Message → Bool
  | .channelJoined _ _ | .checkJoinedChannels _ _ => true
  | _ => false

def connected (view : View) (session : SessionPtr) : View :=
  { view with
    flags := Function.update view.flags session
      { view.flags session with connected := true, logged := false } }

/-- A session loses its connection, its ping timer and its channels. -/
def dropped (view : View) (session : SessionPtr) : View :=
  { view with
    channels := view.channels.detachAndPartFromSession session
    flags := Function.update view.flags session
      { view.flags session with connected := false, pingTimer := false } }

/-- The view after a login, which reserves channels. -/
def loggedIn (view : View) (session : SessionPtr) (capacity : Nat) : View :=
  { view with
    channels := (view.channels.reserve capacity session).2
    flags := Function.update view.flags session
      { view.flags session with logged := true, pingTimer := true } }

/-- The view after `Reload`, with `count` new sessions. -/
def reloaded (view : View) (config : IRCClientConfig) (channels : IRCChannelList)
    (count : Nat) : View where
  cliConfig := config
  channels := channels
  sessions := List.range' view.allocated count
  allocated := view.allocated + count
  flags p :=
    if p ∈ List.range' view.allocated count then {}
    else if p ∈ view.sessions then { view.flags p with connected := false, pingTimer := false }
    else view.flags p

def attachedChannel (channel : String) (session : SessionPtr) : Channel :=
  { name := channel, session := some session }

/-- The session whose JOIN for the channel the library takes, when the client
joins it now. -/
def joinedOn (c : IRCClient) (env : Env) (channel : String) : Option SessionPtr :=
  match c.getNextConnectedSessionRoundRobin with
  | some (some session, c') => if (c'.sendJoin env session channel).1 then some session else none
  | _ => none

/-- What the step of `e` did. -/
inductive Effect (c : IRCClient) (e : Event) (c' : IRCClient) : Prop where
  | quiet (posted : List Message) (became : Became c e c' c.view posted)
      (callback : e.callback? = none)
      (handled : ∀ m, c.handled e = some m → aboutJoin m = false)
      (untracked : ∀ m ∈ posted, aboutJoin m = false)
      (origin : ∀ m ∈ posted, ∀ session, m.session? = some session →
        (∃ m', c.handled e = some m' ∧ m'.session? = some session) ∨
          (c.view.flags session).pingTimer = true)
      (sent : c'.sent = [])
  | connected (session : SessionPtr) (attempt : Int)
      (handled : c.handled e = some (.connect session attempt))
      (became : Became c e c' (connected c.view session) [.loggedInCheck session])
      (sent : c'.sent = [])
  | dropped (session : SessionPtr)
      (handled : ∀ m, c.handled e = some m → aboutJoin m = false)
      (cause : (∃ m, c.handled e = some m ∧ m.session? = some session) ∨
        ∃ reason, e = .onDisconnected session reason ∧ session < c.allocated)
      (became : Became c e c' (dropped c.view session) [.connect session 0])
      (sent : c'.sent = [])
  | loggedIn (session : SessionPtr) (env : Env) (capacity : Nat)
      (event : e = .onLoggedIn session env) (allocated : session < c.allocated)
      (quota : c.channels.capacity c.cliConfig.sessionCount = some capacity)
      (became : Became c e c' (loggedIn c.view session capacity)
        [.checkJoinedChannels session (c.channels.reserve capacity session).1])
      (sent : ∀ x ∈ c'.sent, ∃ name ∈ (c.channels.reserve capacity session).1,
        x = (session, .join name))
  | echoed (session : SessionPtr) (channel : String) (event : e = .onJoined session channel)
      (allocated : session < c.allocated)
      (became : Became c e c' c.view [.channelJoined session channel]) (sent : c'.sent = [])
  | marked (session : SessionPtr) (channel : String)
      (handled : c.handled e = some (.channelJoined session channel))
      (became : Became c e c' { c.view with channels := c.channels.markChannelJoined channel } [])
      (sent : c'.sent = [])
  | checked (session : SessionPtr) (names : List String)
      (handled : c.handled e = some (.checkJoinedChannels session names))
      (became : Became c e c' c.view
        (if c.channels.selectNotJoinedChannels names = [] then []
          else [.checkJoinedChannels session (c.channels.selectNotJoinedChannels names)]))
      (sent : ∀ x ∈ c'.sent, (c.view.flags session).connected = true ∧
        ∃ name ∈ c.channels.selectNotJoinedChannels names,
          x = (session, .part name) ∨ x = (session, .join name))
  | joined (session : SessionPtr) (channel : String)
      (handled : c.handled e = some (.joinChannel channel)) (member : session ∈ c.sessions)
      (connected : (c.view.flags session).connected = true)
      (fresh : c.channels.find? channel = none)
      (chosen : ∃ env, e = .handle env ∧
        joinedOn (opened c c.queue.tail) env channel = some session)
      (became : Became c e c'
        { c.view with channels := c.channels.addChannel (attachedChannel channel session) } [])
      (sent : c'.sent = [(session, .join channel)])
  | left (session : SessionPtr) (channel : String) (stored : Channel) (env : Env)
      (event : e = .handle env)
      (handled : c.handled e = some (.leaveChannel channel))
      (found : c.channels.find? channel = some stored) (attached : stored.session = some session)
      (became : Became c e c' { c.view with channels := c.channels.removeChannel channel } [])
      (sent : c'.sent =
        if (c.view.flags session).connected && env.sendOk 0 then [(session, .part channel)]
        else [])
  | reloaded (env : Env) (config : IRCClientConfig) (event : e = .handle env)
      (handled : c.handled e = some (.reload config))
      (became : Became c e c'
        (reloaded c.view config (.load env.loadedChannels) (IRCClient.startCount config))
        ((List.range' c.allocated (IRCClient.startCount config)).map fun p => .connect p 0))
      (sent : c'.sent = [])

@[simp] theorem view_sessionOnDisconnected (c : IRCClient) (session : SessionPtr)
    (reason : String) :
    (c.sessionOnDisconnected session reason).view = dropped c.view session := by
  have h := c.view_updateSession session fun s => { s with pingTimer := false, connected := false }
  exact congrArg (fun view : View =>
    { view with channels := view.channels.detachAndPartFromSession session }) h

@[simp] theorem queue_sessionOnDisconnected (c : IRCClient) (session : SessionPtr)
    (reason : String) :
    (c.sessionOnDisconnected session reason).queue = c.queue ++ [.connect session 0] := rfl

@[simp] theorem delayed_sessionOnDisconnected (c : IRCClient) (session : SessionPtr)
    (reason : String) : (c.sessionOnDisconnected session reason).delayed = c.delayed := rfl

@[simp] theorem calls_sessionOnDisconnected (c : IRCClient) (session : SessionPtr)
    (reason : String) : (c.sessionOnDisconnected session reason).calls = c.calls := rfl

theorem addNewSessions_spec (c : IRCClient) (env : Env) (n : Nat) :
    let new := List.range' c.allocated n
    (c.addNewSessions env n).view =
        { c.view with
          sessions := c.sessions ++ new
          allocated := c.allocated + n
          flags := fun p => if p ∈ new then {} else c.view.flags p } ∧
      (c.addNewSessions env n).queue = c.queue ++ new.map (fun p => .connect p 0) ∧
      (c.addNewSessions env n).delayed = c.delayed ∧ (c.addNewSessions env n).calls = c.calls := by
  induction n generalizing c with
  | zero => simp [IRCClient.addNewSessions, IRCClient.view]
  | succ n ih =>
      obtain ⟨hview, hqueue, hdelayed, hcalls⟩ := ih (c.addNewSession env)
      refine ⟨?_, ?_, hdelayed, hcalls⟩
      · simp only [IRCClient.addNewSessions, hview]
        simp only [IRCClient.view, IRCClient.addNewSession, IRCClient.send, List.range'_succ,
          List.append_assoc, List.singleton_append, View.mk.injEq, true_and]
        refine ⟨by omega, ?_⟩
        funext p
        by_cases hp : p = c.allocated <;> simp [hp, IRCSession.flags]
      · simp only [IRCClient.addNewSessions, hqueue]
        simp [IRCClient.addNewSession, IRCClient.send, List.range'_succ]

theorem soEvtStart_spec (conConfig : IRCConnectionConfig) (cliConfig : IRCClientConfig)
    (env : Env) :
    let start := IRCClient.soEvtStart conConfig cliConfig env
    let new := List.range (IRCClient.startCount cliConfig)
    start.view = ⟨cliConfig, .load env.loadedChannels, new, IRCClient.startCount cliConfig,
        fun _ => {}⟩ ∧
      start.pending = new.map (fun p => .connect p 0) ∧ start.calls = [] := by
  obtain ⟨hview, hqueue, hdelayed, hcalls⟩ := addNewSessions_spec
    { conConfig := conConfig
      cliConfig := cliConfig
      channels := .load env.loadedChannels
      sessions := []
      curSessionRoundRobin := 0
      heap := fun _ => {}
      allocated := 0
      queue := []
      delayed := []
      outbox := []
      calls := []
      deregistered := false } env (IRCClient.startCount cliConfig)
  refine ⟨?_, ?_, hcalls⟩
  · simp only [IRCClient.soEvtStart, hview, List.range_eq_range', List.nil_append, Nat.zero_add]
    simp only [IRCClient.view, View.mk.injEq, true_and]
    funext p
    split_ifs <;> rfl
  · simp only [IRCClient.soEvtStart, IRCClient.pending, hqueue, hdelayed, List.range_eq_range',
      List.nil_append, List.append_nil]

theorem foldl_discardSession_spec (c : IRCClient) (sessions : List SessionPtr) :
    let c' := sessions.foldl IRCClient.discardSession c
    c'.view =
        { c.view with
          flags := fun p =>
            if p ∈ sessions then { c.view.flags p with connected := false, pingTimer := false }
            else c.view.flags p } ∧
      c'.queue = c.queue ∧ c'.delayed = c.delayed ∧
      ∀ call ∈ c'.calls, call ∈ c.calls ∨ call.session ∈ sessions ∧ call.sent? = none := by
  induction sessions generalizing c with
  | nil => simp
  | cons session sessions ih =>
      obtain ⟨hview, hqueue, hdelayed, hcalls⟩ := ih (c.discardSession session)
      refine ⟨?_, hqueue, hdelayed, ?_⟩
      · simp only [List.foldl_cons, hview]
        simp only [IRCClient.discardSession, IRCClient.view_updateSession,
          IRCClient.view_called, View.mk.injEq, true_and]
        funext p
        by_cases hp : p = session <;> simp [hp, IRCSession.flags, IRCClient.view]
      · intro call hcall
        rcases hcalls call hcall with hcall | ⟨hmem, hsent⟩
        · simp only [IRCClient.discardSession, IRCClient.calls_updateSession,
            IRCClient.calls_called, List.mem_append, List.mem_singleton] at hcall
          rcases hcall with (hcall | rfl) | rfl
          · exact .inl hcall
          · exact .inr ⟨by simp, rfl⟩
          · exact .inr ⟨by simp, rfl⟩
        · exact .inr ⟨List.mem_cons_of_mem _ hmem, hsent⟩

theorem sent?_of_connected {call : Call} (h : call.method = .connected) : call.sent? = none := by
  unfold Call.sent?
  split <;> simp_all

theorem searchConnected_spec {fuel : Nat} {c c' : IRCClient} {last session : Option SessionPtr}
    (h : IRCClient.searchConnected fuel c last = some (session, c')) :
    OnlyCalls c c' (fun call => call.session ∈ c.sessions ∧ call.method = .connected) ∧
      ∀ p, session = some p → last = some p ∨ p ∈ c.sessions := by
  induction fuel generalizing c last with
  | zero =>
      simp only [IRCClient.searchConnected, Option.some.injEq, Prod.mk.injEq] at h
      obtain ⟨rfl, rfl⟩ := h
      exact ⟨.refl _ _, fun p hp => .inl hp⟩
  | succ fuel ih =>
      simp only [IRCClient.searchConnected, IRCClient.getNextSessionRoundRobin] at h
      split at h
      · simp at h
      rename_i found c₁ hnext
      split at hnext
      · simp at hnext
      rename_i i cursor hindex
      split at hnext
      · simp at hnext
      rename_i stored hget
      simp only [Option.some.injEq, Prod.mk.injEq] at hnext
      obtain ⟨rfl, rfl⟩ := hnext
      have hmem : stored ∈ c.sessions := List.mem_of_getElem? hget
      let visited : IRCClient := { c with curSessionRoundRobin := cursor }
      have hcalled : OnlyCalls visited
          (visited.called stored .connected (c.heap stored).connected)
          fun call => call.session ∈ c.sessions ∧ call.method = .connected :=
        onlyCalls_called ⟨hmem, rfl⟩
      have hnow : OnlyCalls c _ _ :=
        ⟨hcalled.view_eq, hcalled.queue_eq, hcalled.delayed_eq, hcalled.calls⟩
      split at h
      · simp only [Option.some.injEq, Prod.mk.injEq] at h
        obtain ⟨rfl, rfl⟩ := h
        exact ⟨hnow, fun p hp => .inr (Option.some.inj hp ▸ hmem)⟩
      · obtain ⟨hrest, hsession⟩ := ih h
        refine ⟨hnow.trans hrest, fun p hp => ?_⟩
        rcases hsession p hp with heq | hp
        · exact .inr (Option.some.inj heq ▸ hmem)
        · exact .inr hp

theorem getNextConnectedSessionRoundRobin_spec {c c' : IRCClient} {session : Option SessionPtr}
    (h : c.getNextConnectedSessionRoundRobin = some (session, c')) :
    OnlyCalls c c' (fun call => call.session ∈ c.sessions ∧ call.method = .connected) ∧
      ∀ p, session = some p → p ∈ c.sessions := by
  obtain ⟨hcalls, hsession⟩ := searchConnected_spec h
  exact ⟨hcalls, fun p hp => (hsession p hp).resolve_left (by simp)⟩

theorem OnlyCalls.sent_eq_nil {c c' : IRCClient} {kind : Call → Prop} (h : OnlyCalls c c' kind)
    (hcalls : c.calls = []) (hkind : ∀ call, kind call → call.sent? = none) : c'.sent = [] := by
  apply List.filterMap_eq_nil_iff.mpr
  intro call hcall
  rcases h.calls call hcall with hcall | hcall
  · simp [hcalls] at hcall
  · exact hkind call hcall

theorem OnlyCalls.forall_sent {c c' : IRCClient} {kind : Call → Prop} (h : OnlyCalls c c' kind)
    (hcalls : c.calls = []) : ∀ x ∈ c'.sent, ∃ call, kind call ∧ call.sent? = some x := by
  intro x hx
  obtain ⟨call, hcall, hsent⟩ := List.mem_filterMap.mp hx
  refine ⟨call, (h.calls call hcall).resolve_left ?_, hsent⟩
  simp [hcalls]

theorem handled_handle {c : IRCClient} {message : Message} {queue : List Message}
    (hqueue : c.queue = message :: queue) (env : Env) :
    c.handled (.handle env) = some message := by
  simp [IRCClient.handled, hqueue]

theorem taken_handle {c : IRCClient} {message : Message} {queue : List Message}
    (hqueue : c.queue = message :: queue) (env : Env) :
    c.queue = (c.handled (.handle env)).toList ++ queue := by
  simp [IRCClient.handled, hqueue]

section Handlers

variable {c c' : IRCClient} {env : Env} {queue : List Message}

/-- A call on a session within reach that sends nothing. -/
def Idle (c : IRCClient) (e : Event) (call : Call) : Prop :=
  Reaches c e call.session ∧ call.sent? = none

theorem Effect.onlyCalls {message : Message} (hqueue : c.queue = message :: queue)
    (hmessage : aboutJoin message = false)
    (h : OnlyCalls (opened c queue) c' (Idle c (.handle env))) : Effect c (.handle env) c' := by
  have hhandled := handled_handle hqueue env
  refine .quiet [] ?_ rfl (by simpa [hhandled] using hmessage) (by simp) (by simp)
    (h.sent_eq_nil rfl fun call hcall => hcall.2)
  refine became [] [] (taken_handle hqueue env) h.view_eq
    (by simp [h.queue_eq]) (by simp [h.delayed_eq]) fun call hcall => ?_
  exact ((h.calls call hcall).resolve_left (by simp)).1

theorem effect_evtConnect {session : SessionPtr} {attempt : Int}
    (hqueue : c.queue = .connect session attempt :: queue) :
    Effect c (.handle env) ((opened c queue).evtConnect env session attempt) := by
  have hhandled := handled_handle hqueue env
  have htaken := taken_handle hqueue env
  have hreaches : Reaches c (.handle env) session := .handled hhandled rfl
  cases hconnected : (c.heap session).connected with
  | true =>
      have heq : (opened c queue).evtConnect env session attempt =
          (opened c queue).called session .connected true := by
        simp [IRCClient.evtConnect, hconnected]
      rw [heq]
      exact .onlyCalls hqueue rfl (onlyCalls_called ⟨hreaches, rfl⟩)
  | false =>
      cases hok : env.connectOk with
      | true =>
          have heq : (opened c queue).evtConnect env session attempt =
              ((((opened c queue).called session .connected false).called session
                .connect true).updateSession session fun s =>
                  { s with
                    connected := true
                    logged := false
                    lastPingTime := env.now
                    lastPongTime := env.now }).sendDelayed (.loggedInCheck session) := by
            simp [IRCClient.evtConnect, IRCClient.connectSession, hconnected, hok]
          rw [heq]
          refine .connected session attempt hhandled ?_ rfl
          refine became [] [.loggedInCheck session] htaken ?_ (by simp)
            (by simp) (by simpa using hreaches)
          rw [IRCClient.view_sendDelayed, IRCClient.view_updateSession]
          rfl
      | false =>
          have heq : (opened c queue).evtConnect env session attempt =
              (((opened c queue).called session .connected false).called session
                .connect false).sendDelayed
                  (.connect session (IRCClient.nextAttempt c.conConfig attempt)) := by
            simp [IRCClient.evtConnect, IRCClient.connectSession, hconnected, hok]
            rfl
          rw [heq]
          refine .quiet [.connect session (IRCClient.nextAttempt c.conConfig attempt)] ?_ rfl
            (by simp [hhandled, aboutJoin]) (by simp [aboutJoin]) ?_ rfl
          · exact became [] [.connect session _] htaken rfl (by simp) (by simp)
              (by simpa using hreaches)
          · intro m hm p hp
            obtain rfl := List.mem_singleton.mp hm
            exact .inl ⟨_, hhandled, hp⟩

theorem effect_evtLoggedInCheck {session : SessionPtr}
    (hqueue : c.queue = .loggedInCheck session :: queue) :
    Effect c (.handle env) ((opened c queue).evtLoggedInCheck session) := by
  have hhandled := handled_handle hqueue env
  have hreaches : Reaches c (.handle env) session := .handled hhandled rfl
  simp only [IRCClient.evtLoggedInCheck]
  split_ifs with hlogged
  · exact .onlyCalls hqueue rfl (onlyCalls_called ⟨hreaches, rfl⟩)
  · refine .dropped session (by simp [hhandled, aboutJoin]) (.inl ⟨_, hhandled, rfl⟩) ?_ rfl
    exact became [.connect session 0] [] (taken_handle hqueue env)
      (by simp) (by simp) (by simp) (by simpa using hreaches)

theorem effect_evtSendPING {session : SessionPtr} {host : String}
    (hqueue : c.queue = .sendPING session host :: queue) :
    Effect c (.handle env) ((opened c queue).evtSendPING env session host) := by
  have hhandled := handled_handle hqueue env
  have hreaches : Reaches c (.handle env) session := .handled hhandled rfl
  have hcalls : OnlyCalls (opened c queue)
      ((opened c queue).internalIrcSend env session (.sendPing host)).2
      (Idle c (.handle env)) :=
    onlyCalls_internalIrcSend fun result _ => ⟨hreaches, by cases result <;> rfl⟩
  simp only [IRCClient.evtSendPING, IRCClient.sendPing]
  split_ifs with htimeout hsent
  · refine .dropped session (by simp [hhandled, aboutJoin]) (.inl ⟨_, hhandled, rfl⟩) ?_ rfl
    exact became [.connect session 0] [] (taken_handle hqueue env)
      (by simp) (by simp) (by simp) (by simpa using hreaches)
  · refine .onlyCalls hqueue rfl ⟨?_, hcalls.queue_eq, hcalls.delayed_eq, hcalls.calls⟩
    rw [IRCClient.view_updateSession, hcalls.view_eq]
    simp [IRCSession.flags, IRCClient.view, IRCClient.internalIrcSend]
  · exact .onlyCalls hqueue rfl hcalls

theorem effect_evtReload {config : IRCClientConfig} (hqueue : c.queue = .reload config :: queue) :
    Effect c (.handle env) ((opened c queue).evtReload env config) := by
  have hhandled := handled_handle hqueue env
  obtain ⟨discarded, hdiscarded⟩ : ∃ discarded, discarded =
      c.sessions.foldl IRCClient.discardSession { opened c queue with cliConfig := config } :=
    ⟨_, rfl⟩
  have heq : (opened c queue).evtReload env config =
      ({ discarded with sessions := [], channels := .load env.loadedChannels } :
        IRCClient).addNewSessions env (IRCClient.startCount config) := by
    rw [hdiscarded]
    rfl
  obtain ⟨hview, hqueue₁, hdelayed, hcalls⟩ :=
    foldl_discardSession_spec { opened c queue with cliConfig := config } c.sessions
  rw [← hdiscarded] at hview hqueue₁ hdelayed hcalls
  obtain ⟨hview', hqueue', hdelayed', hcalls'⟩ := addNewSessions_spec
    { discarded with sessions := [], channels := .load env.loadedChannels } env
    (IRCClient.startCount config)
  have hallocated : discarded.allocated = c.allocated := congrArg View.allocated hview
  have hflags := congrArg View.flags hview
  have hconfig : discarded.cliConfig = config := congrArg View.cliConfig hview
  rw [heq]
  refine .reloaded env config rfl hhandled ?_ ?_
  · rw [← List.append_nil (List.map _ _)]
    refine became _ _ (taken_handle hqueue env) ?_ ?_ ?_ ?_
    · rw [hview']
      simp only [reloaded, View.mk.injEq, List.nil_append, hallocated]
      refine ⟨hconfig, rfl, rfl, rfl, ?_⟩
      funext p
      exact congrArg (fun flags : Flags =>
        if p ∈ List.range' c.allocated (IRCClient.startCount config) then {} else flags)
        (congrFun hflags p)
    · rw [hqueue', hqueue₁, hallocated]
      rfl
    · rw [hdelayed', hdelayed, List.append_nil]
      rfl
    · intro call hcall
      rw [hcalls'] at hcall
      exact .member ((hcalls call hcall).resolve_left (by simp)).1
  · apply List.filterMap_eq_nil_iff.mpr
    intro call hcall
    rw [hcalls'] at hcall
    rcases hcalls call hcall with hcall | ⟨-, hsent⟩
    · simp at hcall
    · exact hsent

theorem effect_evtJoinChannel {channel : String} (hqueue : c.queue = .joinChannel channel :: queue)
    (h : (opened c queue).evtJoinChannel env channel = some c') : Effect c (.handle env) c' := by
  have hhandled := handled_handle hqueue env
  simp only [IRCClient.evtJoinChannel] at h
  split at h
  · simp at h
  rename_i session c₁ hsearch
  obtain ⟨hsearched, hmember⟩ := getNextConnectedSessionRoundRobin_spec hsearch
  have hcalls : OnlyCalls (opened c queue) c₁ (Idle c (.handle env)) :=
    hsearched.mono fun call hcall => ⟨.member hcall.1, sent?_of_connected hcall.2⟩
  have hchannels : c₁.channels = c.channels := congrArg View.channels hcalls.view_eq
  simp only [IRCClient.joinToChannel] at h
  split at h
  · obtain rfl := Option.some.inj h
    exact .onlyCalls hqueue rfl hcalls
  rename_i hfresh
  split at h
  · simp at h
  rename_i session
  split at h
  · rename_i hsent
    obtain rfl := Option.some.inj h
    have hreaches : Reaches c (.handle env) session := .member (hmember session rfl)
    have hchosen : joinedOn (opened c c.queue.tail) env channel = some session := by
      simp [joinedOn, hqueue, hsearch, hsent]
    refine .joined session channel hhandled (hmember session rfl) ?_ ?_ ⟨env, rfl, hchosen⟩ ?_ ?_
    · have hconnected : (c₁.view.flags session).connected = true :=
        (Bool.and_eq_true_iff.mp hsent).1
      rwa [hcalls.view_eq] at hconnected
    · rw [IRCChannelList.inList_iff, hchannels] at hfresh
      simpa [Option.eq_none_iff_forall_ne_some] using hfresh
    · refine became [] [] (taken_handle hqueue env) ?_ ?_ ?_ ?_
      · exact congrArg (fun view : View =>
          { view with
            channels := view.channels.addChannel (attachedChannel channel session) }) hcalls.view_eq
      · exact hcalls.queue_eq.trans (List.append_nil _).symm
      · exact hcalls.delayed_eq.trans (List.append_nil _).symm
      · intro call hcall
        rcases List.mem_append.mp hcall with hcall | hcall
        · exact ((hcalls.calls call hcall).resolve_left (by simp)).1
        · exact List.mem_singleton.mp hcall ▸ hreaches
    · have hnone := hcalls.sent_eq_nil rfl fun call hcall => hcall.2
      have hjoin : (c₁.sendJoin env session channel).2.sent =
          c₁.sent ++ [(session, .join channel)] := by
        simp only [IRCClient.sendJoin, IRCClient.internalIrcSend] at hsent
        simp [IRCClient.sent, IRCClient.sendJoin, IRCClient.internalIrcSend, hsent, Call.sent?]
      rw [hnone, List.nil_append] at hjoin
      exact hjoin
  · rename_i hrefused
    obtain rfl := Option.some.inj h
    simp only [IRCClient.sendJoin, IRCClient.internalIrcSend, Bool.not_eq_true] at hrefused
    refine .onlyCalls hqueue rfl (hcalls.trans (onlyCalls_called ?_))
    rw [hrefused]
    exact ⟨.member (hmember session rfl), rfl⟩

theorem effect_evtLeaveChannel {channel : String}
    (hqueue : c.queue = .leaveChannel channel :: queue)
    (h : (opened c queue).evtLeaveChannel env channel = some c') :
    Effect c (.handle env) c' := by
  have hhandled := handled_handle hqueue env
  simp only [IRCClient.evtLeaveChannel, IRCClient.leaveFromChannel,
    IRCChannelList.extractChannel] at h
  split at h
  · rename_i hextract
    obtain rfl := Option.some.inj h
    exact .onlyCalls hqueue rfl (.refl _ _)
  rename_i stored channels hextract
  split at h
  · simp at h
  rename_i session hsession
  obtain rfl := Option.some.inj h
  split at hextract
  · simp at hextract
  rename_i found hfound
  simp only [Prod.mk.injEq, Option.some.injEq] at hextract
  obtain ⟨rfl, rfl⟩ := hextract
  refine .left session channel found env rfl hhandled hfound hsession ?_ ?_
  · refine became [] [] (taken_handle hqueue env) rfl
      (List.append_nil _).symm (List.append_nil _).symm fun call hcall => ?_
    obtain rfl := List.mem_singleton.mp hcall
    exact .attached (IRCChannelList.sessionOf_eq_some_iff.mpr ⟨found, hfound, hsession⟩)
  · change List.filterMap Call.sent? [⟨session, .sendPart channel,
      (c.view.flags session).connected && env.sendOk 0⟩] = _
    cases (c.view.flags session).connected && env.sendOk 0 <;> rfl

theorem effect_sendOnNext {message : Message} {command : Method}
    (hqueue : c.queue = message :: queue) (hmessage : aboutJoin message = false)
    (hcommand : ∀ session result, Call.sent? ⟨session, command, result⟩ = none)
    (h : (opened c queue).sendOnNext env command = some c') : Effect c (.handle env) c' := by
  simp only [IRCClient.sendOnNext] at h
  split at h
  · simp at h
  · simp at h
  rename_i session c₁ hsearch
  obtain rfl := Option.some.inj h
  obtain ⟨hcalls, hmember⟩ := getNextConnectedSessionRoundRobin_spec hsearch
  exact .onlyCalls hqueue hmessage
    ((hcalls.mono fun call hcall => ⟨.member hcall.1, sent?_of_connected hcall.2⟩).trans
      (onlyCalls_called ⟨.member (hmember session rfl), hcommand _ _⟩))

theorem effect_evtGatherStats (hqueue : c.queue = .gatherStats :: queue) :
    Effect c (.handle env) (opened c queue).evtGatherStats := by
  refine .onlyCalls hqueue rfl ⟨rfl, rfl, rfl, fun call hcall => ?_⟩
  rcases List.mem_append.mp hcall with hcall | hcall
  · exact .inl hcall
  · obtain ⟨session, hsession, rfl⟩ := List.mem_map.mp hcall
    obtain ⟨⟨name, channel⟩, hentry, hattached⟩ := List.mem_filterMap.mp hsession
    have hfind : c.channels.find? name = some channel :=
      OrderedMaps.OrderedMap.mem_entries_iff.mp hentry
    exact .inr ⟨.attached (IRCChannelList.sessionOf_eq_some_iff.mpr ⟨channel, hfind, hattached⟩),
      rfl⟩

theorem effect_evtChannelJoined {session : SessionPtr} {channel : String}
    (hqueue : c.queue = .channelJoined session channel :: queue) :
    Effect c (.handle env) ((opened c queue).evtChannelJoined channel) :=
  .marked session channel (handled_handle hqueue env)
    (became [] [] (taken_handle hqueue env) rfl (List.append_nil _).symm
      (List.append_nil _).symm (by simp [IRCClient.evtChannelJoined])) rfl

theorem effect_evtCheckJoinedChannels {session : SessionPtr} {names : List String}
    (hqueue : c.queue = .checkJoinedChannels session names :: queue) :
    Effect c (.handle env) ((opened c queue).evtCheckJoinedChannels env session names) := by
  have hhandled := handled_handle hqueue env
  have hchannels : (opened c queue).channels = c.channels := rfl
  simp only [IRCClient.evtCheckJoinedChannels, hchannels]
  by_cases hnone : c.channels.selectNotJoinedChannels names = []
  · rw [if_pos hnone]
    refine .checked session names hhandled ?_ (by simp [IRCClient.sent])
    rw [if_pos hnone]
    exact became [] [] (taken_handle hqueue env) rfl (List.append_nil _).symm
      (List.append_nil _).symm (by simp)
  · have hcalls : OnlyCalls (opened c queue)
        ((c.channels.selectNotJoinedChannels names).foldl (IRCClient.rejoin env session)
          (opened c queue))
        (fun call => call.session = session ∧ ∀ x, call.sent? = some x →
          (c.view.flags session).connected = true ∧
          ∃ name ∈ c.channels.selectNotJoinedChannels names,
            x = (session, .part name) ∨ x = (session, .join name)) := by
      apply onlyCalls_foldl
      intro c₁ hc₁ name hname
      have hflags : (c₁.heap session).connected = (c.view.flags session).connected :=
        congrArg (fun view : View => (view.flags session).connected) hc₁
      refine (onlyCalls_internalIrcSend ?_).trans (onlyCalls_internalIrcSend ?_)
      · refine fun result hresult => ⟨rfl, fun x hx => ?_⟩
        cases result with
        | false => simp [Call.sent?] at hx
        | true => exact ⟨hflags ▸ hresult rfl, name, hname, .inl (Option.some.inj hx).symm⟩
      · refine fun result hresult => ⟨rfl, fun x hx => ?_⟩
        cases result with
        | false => simp [Call.sent?] at hx
        | true => exact ⟨hflags ▸ hresult rfl, name, hname, .inr (Option.some.inj hx).symm⟩
    rw [if_neg hnone]
    refine .checked session names hhandled ?_ ?_
    · rw [if_neg hnone]
      refine became [] [_] (taken_handle hqueue env) hcalls.view_eq
        (by simpa using hcalls.queue_eq) (by simp [hcalls.delayed_eq]) fun call hcall => ?_
      exact .handled hhandled
        (congrArg some ((hcalls.calls call hcall).resolve_left (by simp)).1.symm)
    · intro x hx
      obtain ⟨call, hcall, hsent⟩ := hcalls.forall_sent rfl x hx
      exact hcall.2 x hsent

theorem effect_handle {message : Message} (hqueue : c.queue = message :: queue)
    (h : (opened c queue).handle env message = some c') : Effect c (.handle env) c' := by
  cases message with
  | connect session attempt => exact Option.some.inj h ▸ effect_evtConnect hqueue
  | loggedInCheck session => exact Option.some.inj h ▸ effect_evtLoggedInCheck hqueue
  | reload config => exact Option.some.inj h ▸ effect_evtReload hqueue
  | shutdown =>
      obtain rfl := Option.some.inj h
      exact .onlyCalls hqueue rfl ⟨rfl, rfl, rfl, fun call hcall => .inl hcall⟩
  | joinChannel channel => exact effect_evtJoinChannel hqueue h
  | leaveChannel channel => exact effect_evtLeaveChannel hqueue h
  | sendPING session host => exact Option.some.inj h ▸ effect_evtSendPING hqueue
  | sendMessage channel text => exact effect_sendOnNext hqueue rfl (fun _ result => rfl) h
  | sendIRC message => exact effect_sendOnNext hqueue rfl (fun _ result => rfl) h
  | gatherStats => exact Option.some.inj h ▸ effect_evtGatherStats hqueue
  | channelJoined session channel => exact Option.some.inj h ▸ effect_evtChannelJoined hqueue
  | checkJoinedChannels session names =>
      exact Option.some.inj h ▸ effect_evtCheckJoinedChannels hqueue

end Handlers

section Callbacks

variable {c c' : IRCClient}

theorem effect_onLoggedIn {env : Env} {session : SessionPtr} (hsession : session < c.allocated)
    (h : (opened c c.queue).onLoggedIn env session = some c') :
    Effect c (.onLoggedIn session env) c' := by
  simp only [IRCClient.onLoggedIn, IRCChannelList.reserveChannelsForSession] at h
  split at h
  · simp at h
  rename_i reserved channels hreserve
  split at hreserve
  · simp at hreserve
  rename_i capacity hcapacity
  obtain ⟨logged, hlogged⟩ : ∃ logged, logged = (opened c c.queue).updateSession session
      fun s => { s with logged := true } := ⟨_, rfl⟩
  have hview : logged.view = { c.view with
      flags := Function.update c.view.flags session
        { c.view.flags session with logged := true } } := by
    rw [hlogged, IRCClient.view_updateSession]
    rfl
  have hqueue : logged.queue = c.queue := hlogged ▸ rfl
  have hdelayed : logged.delayed = c.delayed := hlogged ▸ rfl
  have hnone : logged.calls = [] := hlogged ▸ rfl
  have hchannels : logged.channels = c.channels := congrArg View.channels hview
  have hconfig : logged.cliConfig = c.cliConfig := congrArg View.cliConfig hview
  rw [← hlogged] at h hreserve hcapacity
  rw [hchannels] at hreserve
  rw [hchannels, hconfig] at hcapacity
  obtain ⟨rfl, rfl⟩ : (c.channels.reserve capacity session).1 = reserved ∧
      (c.channels.reserve capacity session).2 = channels := by
    simpa [Prod.ext_iff] using hreserve
  obtain ⟨joining, hjoining⟩ : ∃ joining, joining =
      (c.channels.reserve capacity session).1.foldl
        (fun c channel => (c.sendJoin env session channel).2)
        { logged with channels := (c.channels.reserve capacity session).2 } := ⟨_, rfl⟩
  have hcalls : OnlyCalls { logged with channels := (c.channels.reserve capacity session).2 }
      joining (fun call => call.session = session ∧ ∀ x, call.sent? = some x →
        ∃ name ∈ (c.channels.reserve capacity session).1, x = (session, .join name)) := by
    rw [hjoining]
    refine onlyCalls_foldl fun c₁ hc₁ name hname => onlyCalls_internalIrcSend ?_
    refine fun result hresult => ⟨rfl, fun x hx => ?_⟩
    cases result with
    | false => simp [Call.sent?] at hx
    | true => exact ⟨name, hname, (Option.some.inj hx).symm⟩
  obtain rfl := Option.some.inj h
  rw [← hjoining]
  refine .loggedIn session env capacity rfl hsession hcapacity ?_ ?_
  · refine became [] [.checkJoinedChannels session _] rfl ?_
      (by simp [hcalls.queue_eq, hqueue]) (by simp [hcalls.delayed_eq, hdelayed])
      fun call hcall => .callback ?_
    swap
    · rcases List.mem_append.mp hcall with hcall | hcall
      · exact congrArg some ((hcalls.calls call hcall).resolve_left (by simp [hnone])).1.symm
      · exact List.mem_singleton.mp hcall ▸ rfl
    have hjoined : joining.view = { c.view with
        channels := (c.channels.reserve capacity session).2
        flags := Function.update c.view.flags session
          { c.view.flags session with logged := true } } :=
      hcalls.view_eq.trans (congrArg (fun view : View =>
        { view with channels := (c.channels.reserve capacity session).2 }) hview)
    have harmed : ({ joining.heap session with pingTimer := true } : IRCSession).flags =
        { joining.view.flags session with pingTimer := true } := rfl
    simp only [IRCClient.view_sendDelayed, IRCClient.view_updateSession, IRCClient.view_called,
      IRCClient.heap_called, harmed]
    rw [hjoined]
    simp only [Function.update_self, Function.update_idem]
    rfl
  · intro x hx
    have hsent : x ∈ joining.sent := by
      simpa [IRCClient.sent, Call.sent?] using hx
    obtain ⟨call, hcall, hx⟩ := hcalls.forall_sent hnone x hsent
    exact hcall.2 x hx

theorem Effect.posts {e : Event} (hcallback : e.callback? = none)
    (hhandled : c.handled e = none) {message : Message}
    (hmessage : aboutJoin message = false)
    (horigin : ∀ session, message.session? = some session →
      (c.view.flags session).pingTimer = true) :
    Effect c e ((opened c c.queue).send message) := by
  refine .quiet [message] ?_ hcallback (by simp [hhandled]) (by simpa using hmessage) ?_ rfl
  · exact became [message] [] (by simp [hhandled]) rfl rfl
      (List.append_nil _).symm (by simp)
  · intro m hm session hsession
    obtain rfl := List.mem_singleton.mp hm
    exact .inr (horigin session hsession)

end Callbacks

theorem step_effect {c c' : IRCClient} {e : Event} (h : c.step e = some c') : Effect c e c' := by
  simp only [IRCClient.step] at h
  split at h
  · simp at h
  cases e with
  | handle env =>
      dsimp only at h
      split at h
      · simp at h
      · rename_i message queue hqueue
        exact effect_handle hqueue h
  | expire i =>
      dsimp only at h
      split at h
      · simp at h
      · rename_i message hmessage
        obtain rfl := Option.some.inj h
        refine .quiet [] ⟨rfl, by simp, c.pending, .refl _, ?_⟩ rfl
          (by simp [IRCClient.handled]) (by simp)
          (by simp) rfl
        simp only [IRCClient.pending, IRCClient.queue_send, IRCClient.delayed_send,
          List.append_assoc, List.singleton_append, List.nil_append]
        obtain ⟨hi, rfl⟩ := List.getElem?_eq_some_iff.mp hmessage
        exact (List.getElem_cons_eraseIdx_perm hi).append_left c.queue
  | pingTick session =>
      dsimp only at h
      split at h
      · rename_i harmed
        obtain rfl := Option.some.inj h
        refine .posts rfl rfl rfl fun p hp => ?_
        obtain rfl := Option.some.inj hp
        exact harmed
      · simp at h
  | statsTick =>
      obtain rfl := Option.some.inj h
      exact .posts rfl rfl rfl fun p hp => by simp [Message.session?] at hp
  | receive message =>
      dsimp only at h
      split at h
      · rename_i hexternal
        obtain rfl := Option.some.inj h
        refine .posts rfl rfl ?_ fun p hp => ?_ <;> cases message <;>
          simp_all [Message.external, Message.session?, aboutJoin]
      · simp at h
  | onLoggedIn session env =>
      dsimp only at h
      split at h
      · rename_i hsession
        exact effect_onLoggedIn hsession h
      · simp at h
  | onDisconnected session reason =>
      dsimp only at h
      split at h
      · rename_i hsession
        obtain rfl := Option.some.inj h
        refine .dropped session (by simp [IRCClient.handled]) (.inr ⟨reason, rfl, hsession⟩) ?_ rfl
        exact became [_] [] rfl (view_sessionOnDisconnected _ _ _) rfl
          (List.append_nil _).symm (by simp)
      · simp at h
  | onJoined session channel =>
      dsimp only at h
      split at h
      · rename_i hsession
        obtain rfl := Option.some.inj h
        refine .echoed session channel rfl hsession ?_ rfl
        exact became [_] [] rfl rfl rfl (List.append_nil _).symm
          (by simp [IRCClient.onJoined])
      · simp at h
  | onPong session now =>
      dsimp only at h
      split at h
      · obtain rfl := Option.some.inj h
        refine .quiet [] ?_ rfl (by simp [IRCClient.handled]) (by simp) (by simp) rfl
        refine became [] [] rfl ?_ (List.append_nil _).symm
          (List.append_nil _).symm (by simp [IRCClient.onPong])
        rw [IRCClient.onPong, IRCClient.view_updateSession]
        exact congrArg (fun flags => { c.view with flags := flags }) (Function.update_eq_self _ _)
      · simp at h

theorem step_calls {c c' : IRCClient} {e : Event} (h : c.step e = some c') :
    ∀ call ∈ c'.calls, Reaches c e call.session := by
  cases step_effect h with
  | quiet posted became => exact became.calls
  | connected session attempt handled became => exact became.calls
  | dropped session handled cause became => exact became.calls
  | loggedIn session env capacity event allocated quota became => exact became.calls
  | echoed session channel event allocated became => exact became.calls
  | marked session channel handled became => exact became.calls
  | checked session names handled became => exact became.calls
  | joined session channel handled member connected fresh chosen became => exact became.calls
  | left session channel stored env event handled found attached became => exact became.calls
  | reloaded env config event handled became => exact became.calls

end TwitchChatWorker.IrcClientSteps
