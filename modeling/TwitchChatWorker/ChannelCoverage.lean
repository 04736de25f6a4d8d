import TwitchChatWorker.SessionLifetime

/-!
Whether the sessions of a client cover its channels.  Each login reserves free
channels up to a quota computed from the size of the list at that moment, so
what the last session finds free may be more than it takes.
-/

namespace TwitchChatWorker.ChannelCoverage

open TwitchChatWorker.ChannelList
open TwitchChatWorker.IrcClient
open TwitchChatWorker.IrcClientSteps
open TwitchChatWorker.Lib.Runs
open TwitchChatWorker.SessionLifetime

/-- Every session is connected and logged in. -/
def AllOnline (c : IRCClient) : Prop := ∀ session ∈ c.sessions, c.online session = true

instance : DecidablePred AllOnline := fun _ => inferInstanceAs (Decidable (∀ _ ∈ _, _))

/-- Once every session is logged in, every channel has a session of the client. -/
def Covered (c : IRCClient) : Prop :=
  AllOnline c → ∀ name channel, c.channels.find? name = some channel →
    ∃ session ∈ c.sessions, channel.session = some session

/-- The channels that a login attaches. -/
def reserved (t : Transition IRCClient Event) : List String :=
  match t.event.login? with
  | none => []
  | some session =>
      match t.pre.channels.reserveChannelsForSession t.pre.cliConfig.sessionCount session with
      | none => []
      | some (names, _) => names

/-- Between two reservations of a channel it was detached from its session. -/
def ReservedOnce (tr : List (Transition IRCClient Event)) : Prop :=
  ∀ past t between u future, tr = past ++ t :: between ++ u :: future →
    ∀ name ∈ reserved t, name ∈ reserved u →
      ∃ d ∈ between, d.pre.channels.sessionOf name ≠ none ∧ name ∈ d.post.channels.free

/-- Channels are covered in every state of the run, and reserved once. -/
def CoversChannels (start : IRCClient) (tr : List (Transition IRCClient Event)) : Prop :=
  (Covered start ∧ ∀ t ∈ tr, Covered t.post) ∧ ReservedOnce tr

/-- A session that logs in as the last one finds no more free channels than its
quota. -/
def LoginFindsRoom (t : Transition IRCClient Event) : Prop :=
  ∀ session ∈ t.event.login?, (t.pre.heap session).connected = true →
    (∀ other ∈ t.pre.sessions, other ≠ session → t.pre.online other = true) →
    ∀ quota ∈ t.pre.channels.capacity t.pre.cliConfig.sessionCount,
      t.pre.channels.free.length ≤ quota

instance : DecidablePred LoginFindsRoom := fun _ => inferInstanceAs (Decidable (∀ _ ∈ _, _))

theorem covered_iff {c : IRCClient} (hcurrent : Current c) :
    Covered c ↔ (AllOnline c → c.channels.free = []) := by
  apply imp_congr_right
  intro _
  rw [IRCChannelList.free_eq_nil_iff]
  constructor
  · intro hcovered name channel hfind
    obtain ⟨session, -, hsession⟩ := hcovered name channel hfind
    simp [hsession]
  · intro hattached name channel hfind
    obtain ⟨session, hsession⟩ := Option.ne_none_iff_exists'.mp (hattached name channel hfind)
    exact ⟨session, hcurrent.attached name session
      (IRCChannelList.sessionOf_eq_some_iff.mpr ⟨channel, hfind, hsession⟩), hsession⟩

theorem covered_of_became {c c' : IRCClient} {e : Event} {view : View} {posted : List Message}
    (hbecame : Became c e c' view posted) (hflags : view.flags = c.view.flags)
    (hsessions : view.sessions = c.sessions)
    (hfree : c.channels.free = [] → view.channels.free = [])
    (hcovered : AllOnline c → c.channels.free = []) : AllOnline c' → c'.channels.free = [] := by
  have hsessions' : c'.sessions = c.sessions :=
    hbecame.sessions_eq.trans hsessions
  have hchannels : c'.channels = view.channels := hbecame.channels_eq
  intro hall
  rw [hchannels]
  refine hfree (hcovered fun session hsession => ?_)
  have honline := hall session (hsessions' ▸ hsession)
  rwa [online_of_became hbecame, hflags] at honline

theorem not_allOnline_of_became {c c' : IRCClient} {e : Event} {view : View}
    {posted : List Message} (hbecame : Became c e c' view posted)
    (hsessions : view.sessions = c.sessions) {session : SessionPtr}
    (hmember : session ∈ c.sessions)
    (hoffline : ((view.flags session).connected && (view.flags session).logged) = false) :
    ¬AllOnline c' := by
  have hsessions' : c'.sessions = c.sessions :=
    hbecame.sessions_eq.trans hsessions
  intro hall
  have honline := hall session (hsessions' ▸ hmember)
  rw [online_of_became hbecame, hoffline] at honline
  exact Bool.false_ne_true honline

theorem allOnline_loggedIn_iff {c c' : IRCClient} {e : Event} {session : SessionPtr}
    {capacity : Nat} {posted : List Message}
    (hbecame : Became c e c' (loggedIn c.view session capacity) posted)
    (hmember : session ∈ c.sessions) :
    AllOnline c' ↔ (c.heap session).connected = true ∧
      ∀ other ∈ c.sessions, other ≠ session → c.online other = true := by
  have hsessions : c'.sessions = c.sessions := hbecame.sessions_eq
  have honline : ∀ p, c'.online p =
      if p = session then (c.heap session).connected else c.online p := by
    intro p
    rw [online_of_became hbecame]
    by_cases hp : p = session
    · subst hp
      simp [loggedIn, IRCClient.view, IRCSession.flags]
    · simp [loggedIn, hp]
      rfl
  simp only [AllOnline, hsessions, honline]
  constructor
  · intro hall
    exact ⟨by simpa using hall session hmember,
      fun other hother hne => by simpa [hne] using hall other hother⟩
  · rintro ⟨hconnected, hothers⟩ p hp
    split_ifs with heq
    · exact hconnected
    · exact hothers p hp heq

/-- From a covered state a step leads to a covered state exactly when a login
finds room for all free channels. -/
theorem covered_step_iff {c c' : IRCClient} {e : Event} (hone : OneGeneration c)
    (hnoReload : NoReload ⟨c, e, c'⟩) (hstep : c.step e = some c') (hcovered : Covered c) :
    Covered c' ↔ LoginFindsRoom ⟨c, e, c'⟩ := by
  rw [covered_iff hone.current] at hcovered
  rw [covered_iff (hone.step hnoReload hstep).current]
  have hhandled : ∀ m, c.handled e = some m → ∀ session, m.session? = some session →
      session ∈ c.sessions := fun m hm => hone.current.messages m (handled_mem_pending hm)
  have hlogin : ∀ {m}, c.handled e = some m → e.login? = none := by
    intro m hm
    cases e <;> simp_all [IRCClient.handled, Event.login?]
  have hother : e.login? = none → (AllOnline c' → c'.channels.free = []) →
      ((AllOnline c' → c'.channels.free = []) ↔ LoginFindsRoom ⟨c, e, c'⟩) :=
    fun hnone h => iff_of_true h fun session hsession => by simp [hnone] at hsession
  cases step_effect hstep with
  | quiet posted became callback handled untracked origin sent =>
      have hnone : e.login? = none := by cases e <;> simp_all [Event.callback?, Event.login?]
      exact hother hnone (covered_of_became became rfl rfl id hcovered)
  | connected session attempt handled became sent =>
      refine hother (hlogin handled) fun hall => absurd hall ?_
      exact not_allOnline_of_became became rfl (hhandled _ handled session rfl)
        (by simp [IrcClientSteps.connected])
  | dropped session handled cause became sent =>
      obtain ⟨hmember, hnone⟩ : session ∈ c.sessions ∧ e.login? = none := by
        rcases cause with ⟨m, hm, hsession⟩ | ⟨reason, rfl, hallocated⟩
        · exact ⟨hhandled m hm session hsession, hlogin hm⟩
        · exact ⟨hone.member session hallocated, rfl⟩
      refine hother hnone fun hall => absurd hall ?_
      exact not_allOnline_of_became became rfl hmember (by simp [IrcClientSteps.dropped])
  | loggedIn session env capacity event allocated quota became sent =>
      subst event
      have hchannels : c'.channels = (c.channels.reserve capacity session).2 :=
        became.channels_eq
      rw [allOnline_loggedIn_iff became (hone.member session allocated), hchannels,
        ← List.length_eq_zero_iff, IRCChannelList.length_free_reserve,
        Nat.sub_eq_zero_iff_le, and_imp]
      simp [LoginFindsRoom, Event.login?, quota]
  | echoed session channel event allocated became sent =>
      subst event
      exact hother rfl (covered_of_became became rfl rfl id hcovered)
  | marked session channel handled became sent =>
      exact hother (hlogin handled)
        (covered_of_became became rfl rfl (IRCChannelList.free_markChannelJoined channel) hcovered)
  | checked session names handled became sent =>
      exact hother (hlogin handled) (covered_of_became became rfl rfl id hcovered)
  | joined session channel handled member connected fresh chosen became sent =>
      exact hother (hlogin handled) (covered_of_became became rfl rfl
        (IRCChannelList.free_addChannel (by simp [attachedChannel])) hcovered)
  | left session channel stored env event handled found attached became sent =>
      exact hother (hlogin handled)
        (covered_of_became became rfl rfl (IRCChannelList.free_removeChannel channel) hcovered)
  | reloaded env config event handled became sent =>
      simp [NoReload, handled, Message.isReload] at hnoReload

theorem attached_of_freed {c c' : IRCClient} {e : Event} (hnoReload : NoReload ⟨c, e, c'⟩)
    (hstep : c.step e = some c') {name : String} (hpre : name ∉ c.channels.free)
    (hpost : name ∈ c'.channels.free) : c.channels.sessionOf name ≠ none := by
  obtain ⟨channel, hfind, hfree⟩ := IRCChannelList.mem_free.mp hpost
  suffices hlisted : ∃ stored, c.channels.find? name = some stored by
    obtain ⟨stored, hstored⟩ := hlisted
    have hattached : stored.session ≠ none := fun hnone =>
      hpre (IRCChannelList.mem_free.mpr ⟨stored, hstored, hnone⟩)
    simpa [IRCChannelList.sessionOf, hstored] using hattached
  cases step_effect hstep with
  | quiet posted became => exact ⟨channel, became.find?_eq hfind⟩
  | connected session attempt handled became => exact ⟨channel, became.find?_eq hfind⟩
  | dropped session handled cause became =>
      have h := became.find?_eq hfind
      rw [IrcClientSteps.dropped, IRCChannelList.find?_detachAndPartFromSession] at h
      obtain ⟨stored, hstored, -⟩ := Option.map_eq_some_iff.mp h
      exact ⟨stored, hstored⟩
  | loggedIn session env capacity event allocated quota became =>
      have h := became.find?_eq hfind
      rw [IrcClientSteps.loggedIn, IRCChannelList.find?_reserve] at h
      obtain ⟨stored, hstored, -⟩ := Option.map_eq_some_iff.mp h
      exact ⟨stored, hstored⟩
  | echoed session channel event allocated became => exact ⟨_, became.find?_eq hfind⟩
  | marked session marked handled became =>
      have h := became.find?_eq hfind
      rw [IRCChannelList.find?_markChannelJoined] at h
      split_ifs at h
      · obtain ⟨stored, hstored, -⟩ := Option.map_eq_some_iff.mp h
        exact ⟨stored, hstored⟩
      · exact ⟨channel, h⟩
  | checked session names handled became => exact ⟨channel, became.find?_eq hfind⟩
  | joined session joined handled member connected fresh chosen became =>
      have h := became.find?_eq hfind
      rw [IRCChannelList.find?_addChannel] at h
      split_ifs at h
      · obtain rfl : attachedChannel joined session = channel := by
          simpa [attachedChannel, fresh] using h
        simp [attachedChannel] at hfree
      · exact ⟨channel, h⟩
  | left session removed stored env event handled found attached became =>
      have h := became.find?_eq hfind
      rw [IRCChannelList.find?_removeChannel] at h
      split_ifs at h
      exact ⟨channel, h⟩
  | reloaded env config event handled became =>
      simp [NoReload, handled, Message.isReload] at hnoReload

theorem loggedIn_of_step {c c' : IRCClient} {session : SessionPtr} {env : Env}
    (hstep : c.step (.onLoggedIn session env) = some c') :
    ∃ capacity, c.channels.capacity c.cliConfig.sessionCount = some capacity ∧
      c'.channels = (c.channels.reserve capacity session).2 := by
  cases step_effect hstep with
  | loggedIn session env capacity event allocated quota became =>
      cases event
      exact ⟨capacity, quota, became.channels_eq⟩
  | quiet posted became callback => cases callback
  | dropped session handled cause =>
      rcases cause with ⟨m, hm, -⟩ | ⟨reason, hreason, -⟩
      · cases hm
      · cases hreason
  | echoed session channel event => cases event
  | connected session attempt handled => cases handled
  | marked session channel handled => cases handled
  | checked session names handled => cases handled
  | joined session channel handled => cases handled
  | left session channel stored env event handled => cases handled
  | reloaded env config event => cases event

theorem mem_reserved {t : Transition IRCClient Event} (hstep : t.pre.step t.event = some t.post)
    {name : String} (h : name ∈ reserved t) :
    name ∈ t.pre.channels.free ∧ name ∉ t.post.channels.free := by
  obtain ⟨c, e, c'⟩ := t
  cases e with
  | onLoggedIn session env =>
      obtain ⟨capacity, hquota, hchannels⟩ := loggedIn_of_step hstep
      have hreserved : name ∈ (c.channels.reserve capacity session).1 := by
        simpa [reserved, Event.login?, IRCChannelList.reserveChannelsForSession, hquota] using h
      have hsession := IRCChannelList.sessionOf_reserve c.channels capacity session name
      rw [if_pos hreserved, ← hchannels] at hsession
      refine ⟨?_, fun hfree => ?_⟩
      · rw [IRCChannelList.reserve_fst] at hreserved
        exact List.mem_of_mem_take hreserved
      · obtain ⟨channel, hfind, hnone⟩ := IRCChannelList.mem_free.mp hfree
        simp [IRCChannelList.sessionOf, hfind, hnone] at hsession
  | _ => simp [reserved, Event.login?] at h

theorem reservedOnce {start c : IRCClient} {tr : List (Transition IRCClient Event)}
    (hrun : Run IRCClient.step start tr c) (hnoReload : ∀ t ∈ tr, NoReload t) :
    ReservedOnce tr := by
  rintro past t between u future rfl name ht hu
  obtain ⟨hbetween, hstepU⟩ := hrun.step_of_split (past ++ t :: between) u future (by simp)
  obtain ⟨-, hstepT⟩ := hrun.step_of_split past t (between ++ u :: future) (by simp)
  obtain ⟨d, hd, hpre, hpost⟩ := hbetween.exists_lost (p := fun c => name ∉ c.channels.free)
    (mem_reserved hstepT ht).2 (not_not_intro (mem_reserved hstepU hu).1)
  obtain ⟨-, -, hstepD⟩ := hrun.step_of_mem (t := d) (by simp [hd])
  exact ⟨d, hd, attached_of_freed (hnoReload d (by simp [hd])) hstepD hpre (not_not.mp hpost),
    not_not.mp hpost⟩

theorem covered_soEvtStart (conConfig : IRCConnectionConfig) (cliConfig : IRCClientConfig)
    (env : Env) : Covered (.soEvtStart conConfig cliConfig env) := by
  obtain ⟨hview, -⟩ := soEvtStart_spec conConfig cliConfig env
  have hsessions : (IRCClient.soEvtStart conConfig cliConfig env).sessions =
    List.range (IRCClient.startCount cliConfig) := congrArg View.sessions hview
  have hcount : 0 < IRCClient.startCount cliConfig := by
    simp only [IRCClient.startCount, minSessCount]
    omega
  have hoffline : ((IRCClient.soEvtStart conConfig cliConfig env).heap 0).connected = false :=
    congrArg (fun view : View => (view.flags 0).connected) hview
  intro hall
  have honline := hall 0 (hsessions ▸ List.mem_range.mpr hcount)
  simp [IRCClient.online, hoffline] at honline

/-- Without reloads the sessions cover the channels in exactly the runs in which
every last login finds room for all free channels. -/
theorem coversChannels_iff (conConfig : IRCConnectionConfig) (cliConfig : IRCClientConfig)
    (env : Env) {tr : List (Transition IRCClient Event)} {c : IRCClient}
    (hrun : Run IRCClient.step (.soEvtStart conConfig cliConfig env) tr c)
    (hnoReload : ∀ t ∈ tr, NoReload t) :
    CoversChannels (.soEvtStart conConfig cliConfig env) tr ↔ ∀ t ∈ tr, LoginFindsRoom t := by
  have hstart := covered_soEvtStart conConfig cliConfig env
  have hiff := hrun.forall_good_iff OneGeneration Covered NoReload LoginFindsRoom
    (oneGeneration_soEvtStart conConfig cliConfig env) hstart
    (fun _ _ _ hone hno hstep => hone.step hno hstep)
    (fun _ _ _ hone hno hstep hcovered => covered_step_iff hone hno hstep hcovered) hnoReload
  simp only [CoversChannels, hstart, true_and, reservedOnce hrun hnoReload, and_true, hiff]

theorem coversChannels_iff_two :
    CoversChannels
        (.soEvtStart {} { sessionCount := 2 } { loadedChannels := ["a", "b", "c", "d"] })
        (trace IRCClient.step
          (.soEvtStart {} { sessionCount := 2 } { loadedChannels := ["a", "b", "c", "d"] })
          [.handle {}, .handle {}, .onLoggedIn 0 {}, .onLoggedIn 1 {}]) ↔
      ∀ t ∈ trace IRCClient.step
        (.soEvtStart {} { sessionCount := 2 } { loadedChannels := ["a", "b", "c", "d"] })
        [.handle {}, .handle {}, .onLoggedIn 0 {}, .onLoggedIn 1 {}], LoginFindsRoom t :=
  coversChannels_iff {} { sessionCount := 2 } { loadedChannels := ["a", "b", "c", "d"] }
    (run_trace _ (by decide)) (by decide)

/-- The first session takes three of four channels.  Once the list has shrunk,
its quota after a reconnection is two, and `c` stays without a session. -/
theorem not_coversChannels_shrunk :
    ¬∀ (conConfig : IRCConnectionConfig) (cliConfig : IRCClientConfig) (env : Env)
      (tr : List (Transition IRCClient Event)) (c : IRCClient), 1 ≤ cliConfig.sessionCount →
      Run IRCClient.step (.soEvtStart conConfig cliConfig env) tr c →
      (∀ t ∈ tr, NoReload t) → CoversChannels (.soEvtStart conConfig cliConfig env) tr := by
  intro hall
  have hcovers := hall {} { sessionCount := 2 } { loadedChannels := ["a", "b", "c", "d"] } _ _
    (by decide)
    (run_trace [.handle {}, .handle {}, .onLoggedIn 0 {}, .onLoggedIn 1 {},
      .receive (.leaveChannel "d"), .handle {}, .onDisconnected 0 "", .handle {},
      .onLoggedIn 0 {}] (by decide)) (by decide)
  have hcovered := hcovers.1.2 _ (List.getElem_mem (n := 8) (by decide)) (by decide)
  obtain ⟨session, -, hsession⟩ := hcovered "c" { name := "c" } (by decide)
  simp at hsession

end TwitchChatWorker.ChannelCoverage
