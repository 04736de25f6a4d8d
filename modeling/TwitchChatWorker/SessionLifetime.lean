import TwitchChatWorker.IrcClientSteps
import TwitchChatWorker.Lib.Runs

/-!
Which sessions the handlers use.  A reload replaces all sessions of a client at
once, while messages on their way still carry the old ones.
-/

namespace TwitchChatWorker.SessionLifetime

open TwitchChatWorker.ChannelList
open TwitchChatWorker.IrcClient
open TwitchChatWorker.IrcClientSteps
open TwitchChatWorker.Lib.Runs

/-- Everything that can bring a session back into a handler is one of the
current sessions: the messages on their way, the channels and the ping timers. -/
structure Current (c : IRCClient) : Prop where
  messages : ∀ m ∈ c.pending, ∀ session, m.session? = some session → session ∈ c.sessions
  attached : ∀ name session, c.channels.sessionOf name = some session → session ∈ c.sessions
  timers : ∀ session, (c.view.flags session).pingTimer = true → session ∈ c.sessions

/-- The step uses current sessions only: in its calls, in the message it
handles and in the channels it leaves attached. -/
structure UsesCurrent (t : Transition IRCClient Event) : Prop where
  calls : ∀ call ∈ t.post.calls, call.session ∈ t.pre.sessions
  handled : ∀ m, t.pre.handled t.event = some m →
    ∀ session, m.session? = some session → session ∈ t.pre.sessions
  attached : ∀ name session, t.post.channels.sessionOf name = some session →
    session ∈ t.post.sessions

/-- A reload is handled only while no message on its way carries a session, and
selector threads call back for current sessions only. -/
def ReloadsQuiet (t : Transition IRCClient Event) : Prop :=
  ((t.pre.handled t.event).any Message.isReload = true →
    ∀ m ∈ t.pre.pending, m.session? = none) ∧
  ∀ session ∈ t.event.callback?, session ∈ t.pre.sessions

instance : DecidablePred ReloadsQuiet := fun _ => inferInstanceAs (Decidable (_ ∧ _))

theorem current_soEvtStart (conConfig : IRCConnectionConfig) (cliConfig : IRCClientConfig)
    (env : Env) : Current (IRCClient.soEvtStart conConfig cliConfig env) := by
  obtain ⟨hview, hpending, -⟩ := soEvtStart_spec conConfig cliConfig env
  have hsessions : (IRCClient.soEvtStart conConfig cliConfig env).sessions =
    List.range (IRCClient.startCount cliConfig) := congrArg View.sessions hview
  have hchannels : (IRCClient.soEvtStart conConfig cliConfig env).channels =
    .load env.loadedChannels := congrArg View.channels hview
  refine ⟨fun m hm session hsession => ?_, fun name session h => ?_, fun session h => ?_⟩
  · rw [hpending] at hm
    obtain ⟨p, hp, rfl⟩ := List.mem_map.mp hm
    obtain rfl := Option.some.inj hsession
    exact hsessions ▸ hp
  · simp [hchannels, IRCChannelList.sessionOf_load] at h
  · simp [hview] at h

theorem Current.became {c c' : IRCClient} {e : Event} {view : View} {posted : List Message}
    (hcurrent : Current c) (hbecame : Became c e c' view posted)
    (hsessions : view.sessions = c.sessions)
    (hposted : ∀ m ∈ posted, ∀ session, m.session? = some session → session ∈ c.sessions)
    (hattached : ∀ name session, view.channels.sessionOf name = some session →
      session ∈ c.sessions)
    (htimers : ∀ session, (view.flags session).pingTimer = true → session ∈ c.sessions) :
    Current c' := by
  have hsessions' : c'.sessions = c.sessions :=
    hbecame.sessions_eq.trans hsessions
  have hchannels' : c'.channels = view.channels := hbecame.channels_eq
  refine ⟨fun m hm session hsession => ?_, fun name session h => ?_, fun session h => ?_⟩
  · rw [hsessions']
    rcases hbecame.mem_pending hm with hm | hm
    · exact hposted m hm session hsession
    · exact hcurrent.messages m hm session hsession
  · rw [hsessions']
    exact hattached name session (hchannels' ▸ h)
  · rw [hsessions']
    exact htimers session (hbecame.view_eq ▸ h)

/-- A step only adds messages and channels for sessions that it reaches. -/
theorem Current.step {c c' : IRCClient} {e : Event} (hcurrent : Current c)
    (hquiet : ReloadsQuiet ⟨c, e, c'⟩) (hstep : c.step e = some c') : Current c' := by
  have hhandled : ∀ m, c.handled e = some m → ∀ session, m.session? = some session →
      session ∈ c.sessions := fun m hm => hcurrent.messages m (handled_mem_pending hm)
  cases step_effect hstep with
  | quiet posted became callback handled untracked origin sent =>
      refine hcurrent.became became rfl (fun m hm session hsession => ?_) hcurrent.attached
        hcurrent.timers
      rcases origin m hm session hsession with ⟨m', hm', hsame⟩ | harmed
      · exact hhandled m' hm' session hsame
      · exact hcurrent.timers session harmed
  | connected session attempt handled became sent =>
      have hmember := hhandled _ handled session rfl
      refine hcurrent.became became rfl (by simpa [Message.session?] using hmember)
        hcurrent.attached fun p hp => ?_
      by_cases heq : p = session
      · exact heq ▸ hmember
      · exact hcurrent.timers p (by simpa [IrcClientSteps.connected, heq] using hp)
  | dropped session handled cause became sent =>
      have hmember : session ∈ c.sessions := by
        rcases cause with ⟨m, hm, hsession⟩ | ⟨reason, rfl, -⟩
        · exact hhandled m hm session hsession
        · exact hquiet.2 session rfl
      refine hcurrent.became became rfl (by simpa [Message.session?] using hmember)
        (fun name p hp => ?_) fun p hp => ?_
      · rw [IrcClientSteps.dropped, IRCChannelList.sessionOf_detachAndPartFromSession] at hp
        split_ifs at hp
        exact hcurrent.attached name p hp
      · by_cases heq : p = session
        · exact heq ▸ hmember
        · exact hcurrent.timers p (by simpa [IrcClientSteps.dropped, heq] using hp)
  | loggedIn session env capacity event allocated quota became sent =>
      have hmember : session ∈ c.sessions := hquiet.2 session (event ▸ rfl)
      refine hcurrent.became became rfl (by simpa [Message.session?] using hmember)
        (fun name p hp => ?_) fun p hp => ?_
      · rw [IrcClientSteps.loggedIn, IRCChannelList.sessionOf_reserve] at hp
        split_ifs at hp with hreserved
        · exact Option.some.inj hp ▸ hmember
        · exact hcurrent.attached name p hp
      · by_cases heq : p = session
        · exact heq ▸ hmember
        · exact hcurrent.timers p (by simpa [IrcClientSteps.loggedIn, heq] using hp)
  | echoed session channel event allocated became sent =>
      have hmember : session ∈ c.sessions := hquiet.2 session (event ▸ rfl)
      exact hcurrent.became became rfl (by simpa [Message.session?] using hmember)
        hcurrent.attached hcurrent.timers
  | marked session channel handled became sent =>
      refine hcurrent.became became rfl (by simp) (fun name p hp => ?_) hcurrent.timers
      rw [IRCChannelList.sessionOf_markChannelJoined] at hp
      exact hcurrent.attached name p hp
  | checked session names handled became sent =>
      have hmember := hhandled _ handled session rfl
      refine hcurrent.became became rfl (fun m hm p hp => ?_) hcurrent.attached hcurrent.timers
      split_ifs at hm
      · simp at hm
      · obtain rfl := List.mem_singleton.mp hm
        exact Option.some.inj hp ▸ hmember
  | joined session channel handled member connected fresh chosen became sent =>
      refine hcurrent.became became rfl (by simp) (fun name p hp => ?_) hcurrent.timers
      rcases IRCChannelList.sessionOf_addChannel hp with hp | hp
      · exact hcurrent.attached name p hp
      · exact Option.some.inj hp ▸ member
  | left session channel stored env event handled found attached became sent =>
      refine hcurrent.became became rfl (by simp) (fun name p hp => ?_) hcurrent.timers
      exact hcurrent.attached name p (IRCChannelList.sessionOf_removeChannel hp)
  | reloaded env config event handled became sent =>
      have hsessions : c'.sessions = List.range' c.allocated (IRCClient.startCount config) :=
        became.sessions_eq
      have hchannels : c'.channels = .load env.loadedChannels :=
        became.channels_eq
      refine ⟨fun m hm session hsession => ?_, fun name session h => ?_, fun session h => ?_⟩
      · rcases became.mem_pending hm with hm | hm
        · obtain ⟨p, hp, rfl⟩ := List.mem_map.mp hm
          obtain rfl := Option.some.inj hsession
          exact hsessions ▸ hp
        · simp [hquiet.1 (by simp [handled, Message.isReload]) m hm] at hsession
      · simp [hchannels, IRCChannelList.sessionOf_load] at h
      · rw [became.view_eq] at h
        simp only [IrcClientSteps.reloaded] at h
        split_ifs at h with hnew hold
        exact absurd (hcurrent.timers session h) hold

theorem Current.usesCurrent {c c' : IRCClient} {e : Event} (hcurrent : Current c)
    (hquiet : ReloadsQuiet ⟨c, e, c'⟩) (hstep : c.step e = some c') :
    UsesCurrent ⟨c, e, c'⟩ where
  calls := by
    intro call hcall
    cases step_calls hstep call hcall with
    | member h => exact h
    | handled h hsession => exact hcurrent.messages _ (handled_mem_pending h) _ hsession
    | callback h => exact hquiet.2 _ h
    | attached h => exact hcurrent.attached _ _ h
  handled := fun m hm => hcurrent.messages m (handled_mem_pending hm)
  attached := (hcurrent.step hquiet hstep).attached

/-- In every run whose reloads are quiet, handlers use current sessions only. -/
theorem usesCurrent_of_reloadsQuiet (conConfig : IRCConnectionConfig)
    (cliConfig : IRCClientConfig) (env : Env) {tr : List (Transition IRCClient Event)}
    {c : IRCClient} (hrun : Run IRCClient.step (.soEvtStart conConfig cliConfig env) tr c)
    (hquiet : ∀ t ∈ tr, ReloadsQuiet t) : ∀ t ∈ tr, UsesCurrent t := by
  intro t ht
  obtain ⟨past, future, rfl⟩ := List.append_of_mem ht
  obtain ⟨hpast, hstep⟩ := hrun.step_of_split past t future rfl
  have hcurrent : Current t.pre :=
    hpast.invariant ReloadsQuiet (current_soEvtStart conConfig cliConfig env)
      (fun _ _ _ h hguard hstep => h.step hguard hstep)
      fun t ht => hquiet t (List.mem_append_left _ ht)
  exact hcurrent.usesCurrent (hquiet t (by simp)) hstep

theorem usesCurrent_of_reloadsQuiet_reload :
    (exec IRCClient.step (.soEvtStart {} {} {})
      [.handle {}, .onLoggedIn 0 {}, .expire 0, .handle {}, .expire 0, .handle {},
        .receive (.reload {}), .handle {}]).isSome ∧
    ∀ t ∈ trace IRCClient.step (.soEvtStart {} {} {})
      [.handle {}, .onLoggedIn 0 {}, .expire 0, .handle {}, .expire 0, .handle {},
        .receive (.reload {}), .handle {}], UsesCurrent t :=
  ⟨by decide, usesCurrent_of_reloadsQuiet {} {} {} (run_trace _ (by decide)) (by decide)⟩

/-- A login check that was armed before a reload is handled after it. -/
theorem not_usesCurrent_loggedInCheck :
    ¬∀ (conConfig : IRCConnectionConfig) (cliConfig : IRCClientConfig) (env : Env)
      (tr : List (Transition IRCClient Event)) (c : IRCClient),
      Run IRCClient.step (.soEvtStart conConfig cliConfig env) tr c → ∀ t ∈ tr, UsesCurrent t := by
  intro hall
  have huses := hall {} {} {} _ _ (run_trace [.handle {}, .receive (.reload {}),
    .handle {}, .expire 0, .handle {}, .handle {}] (by decide)) _
    (List.getElem_mem (n := 5) (by decide))
  exact absurd (huses.handled (.loggedInCheck 0) (by decide) 0 rfl) (by decide)

def NoReload (t : Transition IRCClient Event) : Prop :=
  (t.pre.handled t.event).any Message.isReload = false

instance : DecidablePred NoReload := fun _ => inferInstanceAs (Decidable (_ = _))

/-- A client that was never reloaded: all its sessions are current. -/
structure OneGeneration (c : IRCClient) : Prop where
  current : Current c
  member : ∀ session, session < c.allocated → session ∈ c.sessions

theorem callback_lt_allocated {c c' : IRCClient} {e : Event} (hstep : c.step e = some c')
    {session : SessionPtr} (h : e.callback? = some session) : session < c.allocated := by
  cases e with
  | onLoggedIn p env =>
      obtain rfl := Option.some.inj h
      simp only [IRCClient.step] at hstep
      grind
  | onDisconnected p reason =>
      obtain rfl := Option.some.inj h
      simp only [IRCClient.step] at hstep
      grind
  | onJoined p channel =>
      obtain rfl := Option.some.inj h
      simp only [IRCClient.step] at hstep
      grind
  | _ => simp [Event.callback?] at h

theorem step_sessions {c c' : IRCClient} {e : Event} (hnoReload : NoReload ⟨c, e, c'⟩)
    (hstep : c.step e = some c') :
    c'.cliConfig = c.cliConfig ∧ c'.sessions = c.sessions ∧ c'.allocated = c.allocated := by
  have hsame : ∀ {view : View} {posted : List Message}, Became c e c' view posted →
      view.cliConfig = c.cliConfig → view.sessions = c.sessions →
      view.allocated = c.allocated →
      c'.cliConfig = c.cliConfig ∧ c'.sessions = c.sessions ∧ c'.allocated = c.allocated :=
    fun became hconfig hsessions hallocated =>
      ⟨became.cliConfig_eq.trans hconfig,
        became.sessions_eq.trans hsessions,
        became.allocated_eq.trans hallocated⟩
  cases step_effect hstep with
  | quiet posted became => exact hsame became rfl rfl rfl
  | connected session attempt handled became => exact hsame became rfl rfl rfl
  | dropped session handled cause became => exact hsame became rfl rfl rfl
  | loggedIn session env capacity event allocated quota became => exact hsame became rfl rfl rfl
  | echoed session channel event allocated became => exact hsame became rfl rfl rfl
  | marked session channel handled became => exact hsame became rfl rfl rfl
  | checked session names handled became => exact hsame became rfl rfl rfl
  | joined session channel handled member connected fresh chosen became =>
      exact hsame became rfl rfl rfl
  | left session channel stored env event handled found attached became =>
      exact hsame became rfl rfl rfl
  | reloaded env config event handled became =>
      simp [NoReload, handled, Message.isReload] at hnoReload

theorem oneGeneration_soEvtStart (conConfig : IRCConnectionConfig) (cliConfig : IRCClientConfig)
    (env : Env) : OneGeneration (IRCClient.soEvtStart conConfig cliConfig env) where
  current := current_soEvtStart conConfig cliConfig env
  member := by
    obtain ⟨hview, -⟩ := soEvtStart_spec conConfig cliConfig env
    have hsessions : (IRCClient.soEvtStart conConfig cliConfig env).sessions =
      List.range (IRCClient.startCount cliConfig) := congrArg View.sessions hview
    have hallocated : (IRCClient.soEvtStart conConfig cliConfig env).allocated =
      IRCClient.startCount cliConfig := congrArg View.allocated hview
    intro session hsession
    rw [hsessions, List.mem_range]
    exact hallocated ▸ hsession

theorem OneGeneration.reloadsQuiet {c c' : IRCClient} {e : Event} (hone : OneGeneration c)
    (hnoReload : NoReload ⟨c, e, c'⟩) (hstep : c.step e = some c') : ReloadsQuiet ⟨c, e, c'⟩ :=
  ⟨fun hreload => absurd (hnoReload.symm.trans hreload) Bool.false_ne_true,
    fun session hsession => hone.member session (callback_lt_allocated hstep hsession)⟩

theorem OneGeneration.step {c c' : IRCClient} {e : Event} (hone : OneGeneration c)
    (hnoReload : NoReload ⟨c, e, c'⟩) (hstep : c.step e = some c') : OneGeneration c' where
  current := hone.current.step (hone.reloadsQuiet hnoReload hstep) hstep
  member := by
    obtain ⟨-, hsessions, hallocated⟩ := step_sessions hnoReload hstep
    intro session hsession
    rw [hsessions]
    exact hone.member session (hallocated ▸ hsession)

end TwitchChatWorker.SessionLifetime
