import TwitchChatWorker.IrcClientSteps
import TwitchChatWorker.Lib.Runs

/-!
Whether an ignored JOIN is tried again.  A login schedules a check of the
channels that it reserves; a channel joined on request gets no check.
-/

namespace TwitchChatWorker.JoinRetry

open TwitchChatWorker.ChannelList
open TwitchChatWorker.IrcClient
open TwitchChatWorker.IrcClientSteps
open TwitchChatWorker.Lib.OrderedMaps
open TwitchChatWorker.Lib.Runs

/-- A check of the session's join of `name` is under way. -/
def CheckPending (c : IRCClient) (session : SessionPtr) (name : String) : Prop :=
  ∃ m ∈ c.pending, ∃ check ∈ m.check?, check.1 = session ∧ name ∈ check.2

instance (c : IRCClient) (session : SessionPtr) (name : String) :
    Decidable (CheckPending c session name) :=
  inferInstanceAs (Decidable (∃ m ∈ c.pending, ∃ check ∈ m.check?, _))

/-- Every channel of a logged-in session that is not joined will be checked. -/
def RetryCovered (c : IRCClient) : Prop :=
  ∀ name channel session, c.channels.find? name = some channel →
    channel.session = some session → channel.joined = false → c.online session = true →
    CheckPending c session name

/-- The new channel that the step joins on request, and the session that takes
its JOIN. -/
def requested (t : Transition IRCClient Event) : Option (String × SessionPtr) :=
  match t.event, t.pre.handled t.event with
  | .handle env, some (.joinChannel name) =>
      if t.pre.channels.inList name then none
      else (joinedOn (opened t.pre t.pre.queue.tail) env name).map fun session => (name, session)
  | _, _ => none

/-- A channel joined on a logged-in session is already listed in a check of it. -/
def JoinFindsCheck (t : Transition IRCClient Event) : Prop :=
  ∀ join ∈ requested t, t.pre.online join.2 = true → CheckPending t.pre join.2 join.1

/-- The channels that a session has before it logs in are joined or listed in a
check of it. -/
def LoginFindsChecks (t : Transition IRCClient Event) : Prop :=
  ∀ session ∈ t.event.login?, (t.pre.heap session).connected = true →
    ∀ entry ∈ t.pre.channels.channels.entries, entry.2.session = some session →
      entry.2.joined = false → CheckPending t.pre session entry.1

instance : DecidablePred JoinFindsCheck := fun _ => inferInstanceAs (Decidable (∀ _ ∈ _, _))

instance : DecidablePred LoginFindsChecks := fun _ => inferInstanceAs (Decidable (∀ _ ∈ _, _))

theorem checkPending_iff {c : IRCClient} {session : SessionPtr} {name : String} :
    CheckPending c session name ↔
      ∃ names, .checkJoinedChannels session names ∈ c.pending ∧ name ∈ names := by
  constructor
  · rintro ⟨m, hm, check, hcheck, rfl, hname⟩
    cases m with
    | checkJoinedChannels p names =>
        obtain rfl := Option.some.inj hcheck
        exact ⟨names, hm, hname⟩
    | _ => cases hcheck
  · rintro ⟨names, hm, hname⟩
    exact ⟨_, hm, (session, names), rfl, rfl, hname⟩

theorem CheckPending.keep {c c' : IRCClient} {e : Event} {view : View} {posted : List Message}
    (hbecame : Became c e c' view posted)
    (hhandled : ∀ session names, c.handled e ≠ some (.checkJoinedChannels session names))
    {session : SessionPtr} {name : String} (h : CheckPending c session name) :
    CheckPending c' session name := by
  obtain ⟨names, hcheck, hname⟩ := checkPending_iff.mp h
  exact checkPending_iff.mpr
    ⟨names, hbecame.mem_of_ne hcheck (hhandled session names), hname⟩

section Cases

variable {c c' : IRCClient} {e : Event}

theorem RetryCovered.loggedIn {p : SessionPtr} {env : Env} {capacity : Nat}
    (hcovered : RetryCovered c) (hlogin : LoginFindsChecks ⟨c, .onLoggedIn p env, c'⟩)
    (became : Became c (.onLoggedIn p env) c' (IrcClientSteps.loggedIn c.view p capacity)
      [.checkJoinedChannels p (c.channels.reserve capacity p).1]) : RetryCovered c' := by
  intro name channel session hfind' hattached hunjoined honline'
  have h := (online_of_became became session).symm.trans honline'
  have hstored := became.find?_eq hfind'
  rw [IrcClientSteps.loggedIn, IRCChannelList.find?_reserve] at hstored
  obtain ⟨stored, hfind, rfl⟩ := Option.map_eq_some_iff.mp hstored
  split_ifs at hattached hunjoined with hreserved
  · obtain rfl := Option.some.inj hattached
    exact checkPending_iff.mpr ⟨_, became.mem_of_posted (List.mem_singleton.mpr rfl), hreserved⟩
  · have hkeep : CheckPending c session name := by
      by_cases heq : session = p
      · subst heq
        refine hlogin session rfl ?_ (name, stored)
          (OrderedMap.mem_entries_iff.mpr hfind) hattached hunjoined
        have hflags : (c.view.flags session).connected = true := by
          simpa [IrcClientSteps.loggedIn] using h
        exact hflags
      · apply hcovered name stored session hfind hattached hunjoined
        simpa [online_eq, IrcClientSteps.loggedIn, heq] using h
    exact hkeep.keep became (by simp [IRCClient.handled])

/-- A check that is handled posts the next one for what is still not joined. -/
theorem RetryCovered.checked {p : SessionPtr} {names : List String} (hcovered : RetryCovered c)
    (handled : c.handled e = some (.checkJoinedChannels p names))
    (became : Became c e c' c.view
      (if c.channels.selectNotJoinedChannels names = [] then []
        else [.checkJoinedChannels p (c.channels.selectNotJoinedChannels names)])) :
    RetryCovered c' := by
  intro name channel session hfind' hattached hunjoined honline'
  have honline := (online_of_became became session).symm.trans honline'
  obtain ⟨listed, hcheck, hname⟩ := checkPending_iff.mp
    (hcovered name channel session (became.find?_eq hfind') hattached hunjoined honline)
  by_cases hsame : c.handled e = some (.checkJoinedChannels session listed)
  · -- The handled check lists the channel, so the next one does.
    cases handled.symm.trans hsame
    have hrejoin : name ∈ c.channels.selectNotJoinedChannels names :=
      IRCChannelList.mem_selectNotJoinedChannels.mpr
        ⟨hname, channel, became.find?_eq hfind', hunjoined⟩
    refine checkPending_iff.mpr ⟨_, became.mem_of_posted ?_, hrejoin⟩
    rw [if_neg (List.ne_nil_of_mem hrejoin)]
    exact List.mem_singleton.mpr rfl
  · exact checkPending_iff.mpr ⟨listed, became.mem_of_ne hcheck hsame, hname⟩

theorem RetryCovered.joined {p : SessionPtr} {added : String} {env : Env}
    (hcovered : RetryCovered c) (hjoin : JoinFindsCheck ⟨c, .handle env, c'⟩)
    (handled : c.handled (.handle env) = some (.joinChannel added))
    (fresh : c.channels.find? added = none)
    (chosen : joinedOn (opened c c.queue.tail) env added = some p)
    (became : Became c (.handle env) c'
      { c.view with channels := c.channels.addChannel (attachedChannel added p) } []) :
    RetryCovered c' := by
  intro name channel session hfind' hattached hunjoined honline'
  have honline := (online_of_became became session).symm.trans honline'
  have hstored := became.find?_eq hfind'
  rw [IRCChannelList.find?_addChannel] at hstored
  split_ifs at hstored with heq
  · obtain rfl : attachedChannel added p = channel := by
      simpa [attachedChannel, fresh] using hstored
    obtain rfl : p = session := Option.some.inj hattached
    obtain rfl : name = added := heq
    have hrequested : requested ⟨c, .handle env, c'⟩ = some (name, p) := by
      have hnew : ¬c.channels.inList name = true := by
        simp [IRCChannelList.inList_iff, fresh]
      simp [requested, handled, hnew, chosen]
    exact (hjoin (name, p) hrequested honline).keep became (by simp [handled])
  · exact (hcovered name channel session hstored hattached hunjoined honline).keep became
      (by simp [handled])

end Cases

/-- Logins and joins on request are the only steps that can leave a channel
without a check. -/
theorem RetryCovered.step {c c' : IRCClient} {e : Event} (hcovered : RetryCovered c)
    (hjoin : JoinFindsCheck ⟨c, e, c'⟩) (hlogin : LoginFindsChecks ⟨c, e, c'⟩)
    (hstep : c.step e = some c') : RetryCovered c' := by
  intro name channel session hfind' hattached hunjoined honline'
  have honline : ∀ {view : View} {posted : List Message}, Became c e c' view posted →
      ((view.flags session).connected && (view.flags session).logged) = true := fun became =>
    (online_of_became became session).symm.trans honline'
  have huntracked : (∀ m, c.handled e = some m → aboutJoin m = false) →
      ∀ p names, c.handled e ≠ some (.checkJoinedChannels p names) :=
    fun h p names heq => by simpa [aboutJoin] using h _ heq
  cases step_effect hstep with
  | quiet posted became callback handled =>
      exact (hcovered name channel session (became.find?_eq hfind') hattached hunjoined
        (honline became)).keep became (huntracked handled)
  | connected p attempt handled became =>
      have h := honline became
      by_cases heq : session = p
      · simp [IrcClientSteps.connected, heq] at h
      · refine (hcovered name channel session (became.find?_eq hfind') hattached hunjoined
          ?_).keep became
          (by simp [handled])
        simpa [online_eq, IrcClientSteps.connected, heq] using h
  | dropped p handled cause became =>
      have h := honline became
      by_cases heq : session = p
      · simp [IrcClientSteps.dropped, heq] at h
      · have hstored := became.find?_eq hfind'
        rw [IrcClientSteps.dropped, IRCChannelList.find?_detachAndPartFromSession] at hstored
        obtain ⟨stored, hfind, rfl⟩ := Option.map_eq_some_iff.mp hstored
        split_ifs at hattached hunjoined with hdetached
        · cases hattached
        · refine (hcovered name stored session hfind hattached hunjoined ?_).keep became
            (huntracked handled)
          simpa [online_eq, IrcClientSteps.dropped, heq] using h
  | loggedIn p env capacity event allocated quota became =>
      subst event
      exact hcovered.loggedIn hlogin became name channel session hfind' hattached hunjoined honline'
  | echoed p echoed event allocated became =>
      exact (hcovered name channel session (became.find?_eq hfind') hattached hunjoined
        (honline became)).keep became (by simp [event, IRCClient.handled])
  | marked p marked handled became =>
      have hstored := became.find?_eq hfind'
      rw [IRCChannelList.find?_markChannelJoined] at hstored
      split_ifs at hstored
      · obtain ⟨stored, -, rfl⟩ := Option.map_eq_some_iff.mp hstored
        simp [Channel.setJoined] at hunjoined
      · exact (hcovered name channel session hstored hattached hunjoined
          (honline became)).keep became (by simp [handled])
  | checked p names handled became =>
      exact hcovered.checked handled became name channel session hfind' hattached hunjoined honline'
  | joined p added handled member connected fresh chosen became =>
      obtain ⟨env, rfl, hchosen⟩ := chosen
      exact hcovered.joined hjoin handled fresh hchosen became name channel session hfind' hattached
        hunjoined honline'
  | left p removed stored env event handled found attached became =>
      have hstored := became.find?_eq hfind'
      rw [IRCChannelList.find?_removeChannel] at hstored
      split_ifs at hstored
      exact (hcovered name channel session hstored hattached hunjoined
        (honline became)).keep became (by simp [handled])
  | reloaded env config event handled became =>
      have hstored := became.find?_eq hfind'
      rw [IrcClientSteps.reloaded, IRCChannelList.find?_load] at hstored
      split_ifs at hstored
      obtain rfl := Option.some.inj hstored
      cases hattached

theorem retryCovered_soEvtStart (conConfig : IRCConnectionConfig) (cliConfig : IRCClientConfig)
    (env : Env) : RetryCovered (.soEvtStart conConfig cliConfig env) := by
  obtain ⟨hview, -⟩ := soEvtStart_spec conConfig cliConfig env
  have hchannels : (IRCClient.soEvtStart conConfig cliConfig env).channels =
    .load env.loadedChannels := congrArg View.channels hview
  intro name channel session hfind hattached
  rw [hchannels, IRCChannelList.find?_load] at hfind
  split_ifs at hfind
  obtain rfl := Option.some.inj hfind
  cases hattached

/-- In every run in which joins on request and logins find the checks that they
do not schedule, a JOIN that the server ignored is always tried again. -/
theorem retryCovered_of_findsChecks (conConfig : IRCConnectionConfig)
    (cliConfig : IRCClientConfig) (env : Env) {tr : List (Transition IRCClient Event)}
    {c : IRCClient} (hrun : Run IRCClient.step (.soEvtStart conConfig cliConfig env) tr c)
    (hfinds : ∀ t ∈ tr, JoinFindsCheck t ∧ LoginFindsChecks t) : RetryCovered c :=
  hrun.invariant (fun t => JoinFindsCheck t ∧ LoginFindsChecks t)
    (retryCovered_soEvtStart conConfig cliConfig env)
    (fun _ _ _ h hguard hstep => h.step hguard.1 hguard.2 hstep) hfinds

theorem retryCovered_of_findsChecks_rejoined :
    RetryCovered ((exec IRCClient.step (.soEvtStart {} {} { loadedChannels := ["a"] })
      [.handle {}, .onLoggedIn 0 {}, .receive (.leaveChannel "a"), .handle {},
        .receive (.joinChannel "a"), .handle {}]).get (by decide)) :=
  retryCovered_of_findsChecks {} {} { loadedChannels := ["a"] } (run_trace _ (by decide))
    (by decide)

/-- A channel joined on request gets no check. -/
theorem not_retryCovered_requested :
    ¬∀ (conConfig : IRCConnectionConfig) (cliConfig : IRCClientConfig) (env : Env)
      (tr : List (Transition IRCClient Event)) (c : IRCClient),
      Run IRCClient.step (.soEvtStart conConfig cliConfig env) tr c → RetryCovered c := by
  intro hall
  have hcovered := hall {} {} {} _ _ (run_trace [.handle {}, .onLoggedIn 0 {},
    .receive (.joinChannel "a"), .handle {}] (by decide))
  have hpending := hcovered "a" { name := "a", session := some 0 } 0 (by decide) rfl rfl
    (by decide)
  exact absurd hpending (by decide)

end TwitchChatWorker.JoinRetry
