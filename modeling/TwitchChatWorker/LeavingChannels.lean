import TwitchChatWorker.IrcClientSteps
import TwitchChatWorker.Lib.Runs

/-!
What a client does with a LeaveChannel message.  The request is broadcast to
every client and finds the channel by name alone, attached or not.  It may also be
attached to a session that is not there any more: a reload discards the sessions
of a client, and one that still logs in before the selector drops it gets channels.
-/

namespace TwitchChatWorker.LeavingChannels

open TwitchChatWorker.ChannelList
open TwitchChatWorker.IrcClient
open TwitchChatWorker.IrcClientSteps
open TwitchChatWorker.Lib.Runs

/-- A client with the sessions that have been destroyed. -/
structure State where
  client : IRCClient
  destroyed : List SessionPtr

def State.soEvtStart (conConfig : IRCConnectionConfig) (cliConfig : IRCClientConfig)
    (env : Env) : State :=
  ⟨.soEvtStart conConfig cliConfig env, []⟩

inductive Event where
  | client (event : IrcClient.Event)
  /-- the selector drops the last reference to a session at its next sync -/
  | destroy (session : SessionPtr)

/-- The session that a callback or a timer belongs to. -/
def source? : IrcClient.Event → Option SessionPtr
  | .onPong session _ | .pingTick session => some session
  | event => event.callback?

/-- A destroyed session makes no callbacks and its timer no messages, and a call on
it is undefined. -/
def step (s : State) : Event → Option State
  | .client event =>
      if ∀ session ∈ source? event, session ∉ s.destroyed then
        match s.client.step event with
        | none => none
        | some client =>
            if ∀ call ∈ client.calls, call.session ∉ s.destroyed then
              some { s with client := client }
            else none
      else none
  | .destroy session =>
      if session < s.client.allocated ∧ session ∉ s.client.sessions ∧ session ∉ s.destroyed then
        some { s with destroyed := session :: s.destroyed }
      else none

/-- Only the named channel is gone, and one PART went out on the session that
it was attached to, which is still there; a name that is not listed changes
nothing. -/
structure Left (s : State) (env : Env) (name : String) (c' : IRCClient) : Prop where
  removed : ∀ other, c'.channels.find? other =
    if other = name then none else s.client.channels.find? other
  parted : match s.client.channels.find? name with
    | none => c'.calls = []
    | some channel => ∃ session, channel.session = some session ∧
        session < s.client.allocated ∧ session ∉ s.destroyed ∧
        c'.calls = [⟨session, .sendPart name, (s.client.heap session).connected && env.sendOk 0⟩]
  unchanged : c' =
    { opened s.client s.client.queue.tail with channels := c'.channels, calls := c'.calls }

/-- The request at the head of the queue is handled, and the channel is left. -/
def LeavesWell (s : State) (env : Env) (name : String) : Prop :=
  ∃ c', (opened s.client s.client.queue.tail).handle env (.leaveChannel name) = some c' ∧
    Left s env name c'

/-- The channel is not listed, or it is attached to a session that is still there. -/
def LeavesAttached (s : State) (name : String) : Prop :=
  ∀ channel, s.client.channels.find? name = some channel →
    ∃ session, channel.session = some session ∧ session ∉ s.destroyed

/-- Every session that the client knows or that has a channel was allocated. -/
structure Created (view : View) : Prop where
  members : ∀ session ∈ view.sessions, session < view.allocated
  attached : ∀ name session, view.channels.sessionOf name = some session →
    session < view.allocated

theorem created_soEvtStart (conConfig : IRCConnectionConfig) (cliConfig : IRCClientConfig)
    (env : Env) : Created (IRCClient.soEvtStart conConfig cliConfig env).view := by
  obtain ⟨hview, -, -⟩ := soEvtStart_spec conConfig cliConfig env
  rw [hview]
  constructor
  · intro session hsession
    exact List.mem_range.mp hsession
  · intro name session h
    simp [IRCChannelList.sessionOf_load] at h

theorem Created.step {c c' : IRCClient} {e : IrcClient.Event} (hcreated : Created c.view)
    (hstep : c.step e = some c') : Created c'.view := by
  cases step_effect hstep with
  | quiet posted became => exact became.view_eq ▸ hcreated
  | connected session attempt handled became =>
      rw [became.view_eq]
      exact ⟨hcreated.members, hcreated.attached⟩
  | dropped session handled cause became =>
      rw [became.view_eq]
      refine ⟨hcreated.members, fun name p hp => ?_⟩
      rw [dropped, IRCChannelList.sessionOf_detachAndPartFromSession] at hp
      split_ifs at hp
      exact hcreated.attached name p hp
  | loggedIn session env capacity event allocated quota became =>
      rw [became.view_eq]
      refine ⟨hcreated.members, fun name p hp => ?_⟩
      rw [loggedIn, IRCChannelList.sessionOf_reserve] at hp
      split_ifs at hp
      · exact Option.some.inj hp ▸ allocated
      · exact hcreated.attached name p hp
  | echoed session channel event allocated became => exact became.view_eq ▸ hcreated
  | marked session channel handled became =>
      rw [became.view_eq]
      refine ⟨hcreated.members, fun name p hp => ?_⟩
      rw [IRCChannelList.sessionOf_markChannelJoined] at hp
      exact hcreated.attached name p hp
  | checked session names handled became => exact became.view_eq ▸ hcreated
  | joined session channel handled member connected fresh chosen became =>
      rw [became.view_eq]
      refine ⟨hcreated.members, fun name p hp => ?_⟩
      rcases IRCChannelList.sessionOf_addChannel hp with hp | hp
      · exact hcreated.attached name p hp
      · exact Option.some.inj hp ▸ hcreated.members session member
  | left session channel stored env event handled found attached became =>
      rw [became.view_eq]
      refine ⟨hcreated.members, fun name p hp => ?_⟩
      exact hcreated.attached name p (IRCChannelList.sessionOf_removeChannel hp)
  | reloaded env config event handled became =>
      rw [became.view_eq]
      constructor
      · intro session hsession
        simp only [reloaded, List.mem_range'_1] at hsession ⊢
        exact hsession.2
      · intro name session h
        simp [reloaded, IRCChannelList.sessionOf_load] at h

theorem client_step {s s' : State} {event : Event} (hstep : step s event = some s') :
    s'.client = s.client ∨ ∃ e, event = .client e ∧ s.client.step e = some s'.client := by
  cases event with
  | client e =>
      obtain ⟨-, hclient⟩ := Option.ite_none_right_eq_some.mp hstep
      split at hclient
      · cases hclient
      next client hnext =>
        obtain ⟨-, hs'⟩ := Option.ite_none_right_eq_some.mp hclient
        obtain rfl := Option.some.inj hs'
        exact .inr ⟨e, rfl, hnext⟩
  | destroy session =>
      obtain ⟨-, hs'⟩ := Option.ite_none_right_eq_some.mp hstep
      obtain rfl := Option.some.inj hs'
      exact .inl rfl

theorem created_of_run {conConfig : IRCConnectionConfig} {cliConfig : IRCClientConfig}
    {env : Env} {tr : List (Transition State Event)} {s : State}
    (hrun : Run step (.soEvtStart conConfig cliConfig env) tr s) : Created s.client.view := by
  have hstart : Created (State.soEvtStart conConfig cliConfig env).client.view :=
    created_soEvtStart conConfig cliConfig env
  refine @Run.always _ _ _ _ (fun s => Created s.client.view) hstart ?_ _ _ hrun
  intro s event s' hcreated hstep
  rcases client_step hstep with hsame | ⟨e, -, hclient⟩
  · rwa [hsame]
  · exact hcreated.step hclient

theorem step_leaveChannel {s : State} {env : Env} {name : String}
    (hactive : s.client.deregistered = false)
    (hnext : s.client.queue.head? = some (.leaveChannel name)) (hwell : LeavesWell s env name) :
    ∃ c', step s (.client (.handle env)) = some { s with client := c' } ∧ Left s env name c' := by
  obtain ⟨c', hhandle, hleft⟩ := hwell
  have hclient : s.client.step (.handle env) = some c' := by
    obtain ⟨queue, hqueue⟩ := List.head?_eq_some_iff.mp hnext
    simpa [IRCClient.step, hactive, hqueue, opened] using hhandle
  have hthere : ∀ call ∈ c'.calls, call.session ∉ s.destroyed := by
    have hparted := hleft.parted
    cases hfind : s.client.channels.find? name with
    | none =>
        rw [hfind] at hparted
        simp [hparted]
    | some channel =>
        rw [hfind] at hparted
        obtain ⟨session, -, -, hsession, hcalls⟩ := hparted
        simpa [hcalls] using hsession
  refine ⟨c', ?_, hleft⟩
  simpa [step, source?, Event.callback?, hclient] using hthere

/-- In every state that a client reaches, leaving a channel is well defined for
exactly the names that are not listed or attached to a session that is still there. -/
theorem leavesWell_iff {conConfig : IRCConnectionConfig} {cliConfig : IRCClientConfig}
    {start : Env} {tr : List (Transition State Event)} {s : State}
    (hrun : Run step (.soEvtStart conConfig cliConfig start) tr s)
    (env : Env) (name : String) : LeavesWell s env name ↔ LeavesAttached s name := by
  have hcreated := created_of_run hrun
  constructor
  · rintro ⟨c', -, hleft⟩ channel hfind
    have hparted := hleft.parted
    rw [hfind] at hparted
    obtain ⟨session, hsession, -, hthere, -⟩ := hparted
    exact ⟨session, hsession, hthere⟩
  · intro hattached
    cases hfind : s.client.channels.find? name with
    | none =>
        refine ⟨opened s.client s.client.queue.tail, ?_, ?_, ?_, rfl⟩
        · simp [IRCClient.handle, IRCClient.evtLeaveChannel, IRCClient.leaveFromChannel,
            IRCChannelList.extractChannel, opened, hfind]
        · intro other
          split_ifs with heq
          · exact heq ▸ hfind
          · rfl
        · rw [hfind]
          rfl
    | some channel =>
        obtain ⟨session, hsession, hthere⟩ := hattached channel hfind
        have hallocated : session < s.client.allocated :=
          hcreated.attached name session
            (IRCChannelList.sessionOf_eq_some_iff.mpr ⟨channel, hfind, hsession⟩)
        refine ⟨(IRCClient.sendPart { opened s.client s.client.queue.tail with
          channels := s.client.channels.removeChannel name } env session name).2, ?_, ?_, ?_, rfl⟩
        · simp [IRCClient.handle, IRCClient.evtLeaveChannel, IRCClient.leaveFromChannel,
            IRCChannelList.extractChannel, opened, hfind, hsession]
        · exact IRCChannelList.find?_removeChannel s.client.channels name
        · rw [hfind]
          exact ⟨session, hsession, hallocated, hthere, rfl⟩

/-- A session logs in after a reload has discarded it, and has the channel then. -/
def lateLogin : List Event :=
  [.client (.handle {}), .client (.receive (.reload {})),
    .client (.handle { loadedChannels := ["a"] }), .client (.onLoggedIn 0 {})]

theorem lateLogin_isSome :
    (exec step (.soEvtStart {} {} {}) lateLogin).isSome := by
  decide

theorem destroyed_isSome :
    (exec step (.soEvtStart {} {} {}) (lateLogin ++ [.destroy 0])).isSome := by
  decide

/-- The channel can be left until the session is destroyed. -/
theorem leavesWell_iff_lateLogin :
    LeavesWell ((exec step (.soEvtStart {} {} {}) lateLogin).get lateLogin_isSome) {} "a" ∧
    ¬LeavesWell ((exec step (.soEvtStart {} {} {}) (lateLogin ++ [.destroy 0])).get
      destroyed_isSome) {} "a" := by
  constructor
  · refine (leavesWell_iff (run_trace _ lateLogin_isSome) {} "a").mpr ?_
    intro channel hfind
    cases hfind
    exact ⟨0, rfl, by decide⟩
  · intro hwell
    obtain ⟨session, hsession, hthere⟩ :=
      (leavesWell_iff (run_trace _ destroyed_isSome) {} "a").mp hwell _ rfl
    cases hsession
    exact hthere (by decide)

/-- The session has connected and not yet logged in, so no channel is attached. -/
theorem not_leavesWell_unattached :
    ¬∀ (conConfig : IRCConnectionConfig) (cliConfig : IRCClientConfig) (start : Env)
      (tr : List (Transition State Event)) (s : State),
      Run step (.soEvtStart conConfig cliConfig start) tr s →
        ∀ env name, LeavesWell s env name := by
  intro hall
  obtain ⟨c', -, hleft⟩ := hall {} {} { loadedChannels := ["a"] } _ _ (run_trace
    [.client (.receive (.leaveChannel "a")), .client (.handle {})] (by decide)) {} "a"
  obtain ⟨session, hsession, -⟩ := hleft.parted
  cases hsession

end TwitchChatWorker.LeavingChannels
