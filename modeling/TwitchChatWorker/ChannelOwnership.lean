import TwitchChatWorker.SessionLifetime

/-!
On which sessions a client joins and leaves a channel.  A check carries the
session and the channel names of three seconds ago, and finds the channels by
name alone.
-/

namespace TwitchChatWorker.ChannelOwnership

open TwitchChatWorker.ChannelList
open TwitchChatWorker.IrcClient
open TwitchChatWorker.IrcClientSteps
open TwitchChatWorker.Lib.Runs
open TwitchChatWorker.SessionLifetime

/-- A JOIN goes to the session that the channel is attached to, a PART to the
session that it was attached to. -/
structure SendsOwn (t : Transition IRCClient Event) : Prop where
  join : ∀ session channel, (session, .join channel) ∈ t.post.sent →
    t.post.channels.sessionOf channel = some session
  part : ∀ session channel, (session, .part channel) ∈ t.post.sent →
    t.pre.channels.sessionOf channel = some session

/-- Whether a session is in a channel after a command. -/
def afterCommand (session : SessionPtr) (channel : String) (inside : Bool)
    (command : SessionPtr × Command) : Bool :=
  if command = (session, .join channel) then true
  else if command = (session, .part channel) then false
  else inside

/-- The channels that the server has each session in after one more step; a
session without connection is in none. -/
def afterStep (inside : SessionPtr → String → Bool) (t : Transition IRCClient Event)
    (session : SessionPtr) (channel : String) : Bool :=
  (t.post.heap session).connected &&
    t.post.sent.foldl (afterCommand session channel) (inside session channel)

/-- Whether a session is in a channel after a run. -/
def insideAfter (tr : List (Transition IRCClient Event)) : SessionPtr → String → Bool :=
  tr.foldl afterStep fun _ _ => false

/-- Commands go to the session of their channel, and no two sessions are in one. -/
structure OwnChannels (tr : List (Transition IRCClient Event)) : Prop where
  sends : ∀ t ∈ tr, SendsOwn t
  unique : ∀ p q channel, insideAfter tr p channel = true → insideAfter tr q channel = true → p = q

/-- A check of a connected session finds the channels that it joins again still
attached to that session. -/
def ChecksOwn (t : Transition IRCClient Event) : Prop :=
  ∀ m ∈ t.pre.handled t.event, ∀ check ∈ m.check?,
    (t.pre.heap check.1).connected = true →
    ∀ name ∈ t.pre.channels.selectNotJoinedChannels check.2,
      t.pre.channels.sessionOf name = some check.1

/-- The library does not take the PART of a channel that is left. -/
def partRefused (t : Transition IRCClient Event) : Bool :=
  match t.event, t.pre.handled t.event with
  | .handle env, some (.leaveChannel channel) =>
      match t.pre.channels.sessionOf channel with
      | some session => (t.pre.heap session).connected && !env.sendOk 0
      | none => false
  | _, _ => false

instance : DecidablePred ChecksOwn := fun _ => inferInstanceAs (Decidable (∀ _ ∈ _, _))

theorem inside_of_foldl_afterCommand {session : SessionPtr} {channel : String} {inside : Bool}
    {commands : List (SessionPtr × Command)}
    (h : commands.foldl (afterCommand session channel) inside = true) :
    (session, .join channel) ∈ commands ∨
      inside = true ∧ (session, .part channel) ∉ commands := by
  induction commands generalizing inside with
  | nil => exact .inr ⟨h, List.not_mem_nil⟩
  | cons command commands ih =>
      rcases ih h with hjoin | ⟨hinside, hpart⟩
      · exact .inl (List.mem_cons_of_mem _ hjoin)
      · simp only [afterCommand] at hinside
        split_ifs at hinside with hjoin hparted
        · exact .inl (hjoin ▸ List.mem_cons_self)
        · exact .inr ⟨hinside, by simp [hpart, Ne.symm hparted]⟩

theorem insideAfter_snoc {tr : List (Transition IRCClient Event)} {t : Transition IRCClient Event}
    {session : SessionPtr} {channel : String}
    (h : insideAfter (tr ++ [t]) session channel = true) :
    (t.post.view.flags session).connected = true ∧
      ((session, .join channel) ∈ t.post.sent ∨
        insideAfter tr session channel = true ∧ (session, .part channel) ∉ t.post.sent) := by
  simp only [insideAfter, List.foldl_append, List.foldl_cons, List.foldl_nil, afterStep,
    Bool.and_eq_true] at h
  exact ⟨h.1, inside_of_foldl_afterCommand h.2⟩

/-- A session is only in channels that are attached to it. -/
def InsideOwn (tr : List (Transition IRCClient Event)) (c : IRCClient) : Prop :=
  ∀ session channel, insideAfter tr session channel = true →
    c.channels.sessionOf channel = some session

theorem sendsOwn_of_sent_eq_nil {t : Transition IRCClient Event} (h : t.post.sent = []) :
    SendsOwn t :=
  ⟨by simp [h], by simp [h]⟩

/-- Only a check can send a JOIN or a PART on a session without the channel. -/
theorem sendsOwn_step {c c' : IRCClient} {e : Event} (hchecks : ChecksOwn ⟨c, e, c'⟩)
    (hstep : c.step e = some c') : SendsOwn ⟨c, e, c'⟩ := by
  cases step_effect hstep with
  | quiet posted became callback handled untracked origin sent =>
      exact sendsOwn_of_sent_eq_nil sent
  | connected session attempt handled became sent => exact sendsOwn_of_sent_eq_nil sent
  | dropped session handled cause became sent => exact sendsOwn_of_sent_eq_nil sent
  | loggedIn session env capacity event allocated quota became sent =>
      have hchannels : c'.channels = (c.channels.reserve capacity session).2 :=
        became.channels_eq
      refine ⟨fun p channel hx => ?_, fun p channel hx => ?_⟩
      · obtain ⟨name, hname, heq⟩ := sent _ hx
        cases heq
        rw [hchannels, IRCChannelList.sessionOf_reserve, if_pos hname]
      · obtain ⟨name, -, heq⟩ := sent _ hx
        cases heq
  | echoed session channel event allocated became sent => exact sendsOwn_of_sent_eq_nil sent
  | marked session channel handled became sent => exact sendsOwn_of_sent_eq_nil sent
  | checked session names handled became sent =>
      have hchannels : c'.channels = c.channels := became.channels_eq
      refine ⟨fun p channel hx => ?_, fun p channel hx => ?_⟩
      · obtain ⟨hconnected, name, hname, heq | heq⟩ := sent _ hx
        · cases heq
        · cases heq
          exact hchannels ▸ hchecks _ handled (session, names) rfl hconnected channel hname
      · obtain ⟨hconnected, name, hname, heq | heq⟩ := sent _ hx
        · cases heq
          exact hchecks _ handled (session, names) rfl hconnected channel hname
        · cases heq
  | joined session channel handled member connected fresh chosen became sent =>
      have hchannels : c'.channels = c.channels.addChannel (attachedChannel channel session) :=
        became.channels_eq
      refine ⟨fun p name hx => ?_, fun p name hx => ?_⟩
      · rw [show c'.sent = [_] from sent, List.mem_singleton] at hx
        cases hx
        rw [hchannels, IRCChannelList.sessionOf, IRCChannelList.find?_addChannel]
        simp [attachedChannel, fresh]
      · rw [show c'.sent = [_] from sent, List.mem_singleton] at hx
        cases hx
  | left session channel stored env event handled found attached became sent =>
      have hpart : ∀ x ∈ c'.sent, x = (session, .part channel) := by
        intro x hx
        rw [sent] at hx
        split_ifs at hx
        · exact List.mem_singleton.mp hx
        · simp at hx
      refine ⟨fun p name hx => ?_, fun p name hx => ?_⟩
      · cases hpart _ hx
      · cases hpart _ hx
        exact IRCChannelList.sessionOf_eq_some_iff.mpr ⟨stored, found, attached⟩
  | reloaded env config event handled became sent => exact sendsOwn_of_sent_eq_nil sent

/-- A session loses a channel only with its connection or with a PART. -/
theorem InsideOwn.step {tr : List (Transition IRCClient Event)} {c c' : IRCClient} {e : Event}
    (hown : InsideOwn tr c) (hnoReload : NoReload ⟨c, e, c'⟩) (hsends : SendsOwn ⟨c, e, c'⟩)
    (hpart : partRefused ⟨c, e, c'⟩ = false)
    (hstep : c.step e = some c') : InsideOwn (tr ++ [⟨c, e, c'⟩]) c' := by
  intro p name hinside
  obtain ⟨hconnected, hjoin | ⟨hbefore, hparted⟩⟩ := insideAfter_snoc hinside
  · exact hsends.join p name hjoin
  have hattached := hown p name hbefore
  obtain ⟨channel, hfind, hsession⟩ := IRCChannelList.sessionOf_eq_some_iff.mp hattached
  have hkeep : ∀ {view : View} {posted : List Message}, Became c e c' view posted →
      view.channels.sessionOf name = some p → c'.channels.sessionOf name = some p :=
    fun became h => (congrArg (fun view : View => view.channels.sessionOf name)
      became.view_eq).trans h
  cases step_effect hstep with
  | quiet posted became => exact hkeep became hattached
  | connected session attempt handled became => exact hkeep became hattached
  | dropped session handled cause became =>
      apply hkeep became
      rw [IrcClientSteps.dropped, IRCChannelList.sessionOf_detachAndPartFromSession]
      rw [became.view_eq] at hconnected
      rw [if_neg]
      · exact hattached
      · intro hdetached
        obtain rfl : p = session := Option.some.inj (hattached.symm.trans hdetached)
        simp [IrcClientSteps.dropped] at hconnected
  | loggedIn session env capacity event allocated quota became =>
      apply hkeep became
      rw [IrcClientSteps.loggedIn, IRCChannelList.sessionOf_reserve, if_neg]
      · exact hattached
      · intro hreserved
        rw [IRCChannelList.reserve_fst] at hreserved
        obtain ⟨free, hfree, hnone⟩ :=
          IRCChannelList.mem_free.mp (List.mem_of_mem_take hreserved)
        obtain rfl : free = channel := Option.some.inj (hfree.symm.trans hfind)
        simp [hnone] at hsession
  | echoed session channel event allocated became => exact hkeep became hattached
  | marked session marked handled became =>
      apply hkeep became
      rw [IRCChannelList.sessionOf_markChannelJoined]
      exact hattached
  | checked session names handled became => exact hkeep became hattached
  | joined session added handled member connected fresh chosen became =>
      apply hkeep became
      rw [IRCChannelList.sessionOf, IRCChannelList.find?_addChannel, if_neg]
      · exact hattached
      · rintro rfl
        simp [hfind] at fresh
  | left session removed stored env event handled found attached became sent =>
      apply hkeep became
      rw [IRCChannelList.sessionOf, IRCChannelList.find?_removeChannel, if_neg]
      · exact hattached
      · rintro rfl
        obtain rfl : stored = channel := Option.some.inj (found.symm.trans hfind)
        obtain rfl : session = p := Option.some.inj (attached.symm.trans hsession)
        subst event
        have hpre : (c.heap session).connected = true := by
          rw [became.view_eq] at hconnected
          exact hconnected
        have htaken : env.sendOk 0 = true := by
          simpa [partRefused, handled, hattached, hpre] using hpart
        have hflags : (c.view.flags session).connected = true := hpre
        rw [sent, hflags, htaken] at hparted
        simp at hparted
  | reloaded env config event handled became =>
      simp [NoReload, handled, Message.isReload] at hnoReload

/-- In every run without reloads whose checks and PARTs are in order, JOINs and
PARTs go to the session of the channel, and no channel has two sessions. -/
theorem ownChannels_of_checksOwn (conConfig : IRCConnectionConfig) (cliConfig : IRCClientConfig)
    (env : Env) {tr : List (Transition IRCClient Event)} {c : IRCClient}
    (hrun : Run IRCClient.step (.soEvtStart conConfig cliConfig env) tr c)
    (hnoReload : ∀ t ∈ tr, NoReload t)
    (horder : ∀ t ∈ tr, ChecksOwn t ∧ partRefused t = false) : OwnChannels tr where
  sends := by
    intro t ht
    obtain ⟨-, -, hstep⟩ := hrun.step_of_mem ht
    exact sendsOwn_step (horder t ht).1 hstep
  unique := by
    have hown : InsideOwn tr c := by
      refine hrun.historyInvariant
        (fun _ t => NoReload t ∧ ChecksOwn t ∧ partRefused t = false) ?_ ?_ ?_
      · intro p channel h
        cases h
      · rintro past d e d' - h ⟨hno, hchecks, hpart⟩ hstep
        exact h.step hno (sendsOwn_step hchecks hstep) hpart hstep
      · rintro past t future rfl
        exact ⟨hnoReload t (by simp), horder t (by simp)⟩
    intro p q channel hp hq
    exact Option.some.inj ((hown p channel hp).symm.trans (hown q channel hq))

/-- The check of a session joins its channel again, before the channel moves to the
other session and is left. -/
def moved : List Event :=
  [.handle {}, .handle {}, .onLoggedIn 0 {}, .expire 2, .handle {}, .onJoined 0 "a", .handle {},
    .onDisconnected 0 "", .onLoggedIn 1 {}, .receive (.leaveChannel "a"), .handle {}, .handle {}]

theorem ownChannels_of_checksOwn_moved :
    OwnChannels (trace IRCClient.step
      (.soEvtStart {} { sessionCount := 2 } { loadedChannels := ["a"] }) moved) :=
  ownChannels_of_checksOwn {} { sessionCount := 2 } { loadedChannels := ["a"] }
    (run_trace moved (by decide)) (by decide) (by decide)

/-- The check of session 0 for the channel is handled when session 1 has it. -/
theorem not_ownChannels_staleCheck :
    ¬∀ (conConfig : IRCConnectionConfig) (cliConfig : IRCClientConfig) (env : Env)
      (tr : List (Transition IRCClient Event)) (c : IRCClient),
      Run IRCClient.step (.soEvtStart conConfig cliConfig env) tr c →
      (∀ t ∈ tr, NoReload t) → OwnChannels tr := by
  intro hall
  have hown := hall {} { sessionCount := 2 } { loadedChannels := ["a"] } _ _
    (run_trace [.handle {}, .handle {}, .onLoggedIn 0 {}, .onDisconnected 0 "",
      .onLoggedIn 1 {}, .handle {}, .expire 2, .handle {}] (by decide)) (by decide)
  have hjoin := (hown.sends _ (List.getElem_mem (n := 7) (by decide))).join 0 "a" (by decide)
  exact absurd hjoin (by decide)

end TwitchChatWorker.ChannelOwnership
