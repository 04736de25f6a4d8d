import TwitchChatWorker.IrcClientSteps
import TwitchChatWorker.Lib.Runs

/-!
What the joined flag of a channel says.  The echo of a JOIN travels as a queued
message, and its handler looks the channel up by name alone.
-/

namespace TwitchChatWorker.JoinedFlag

open TwitchChatWorker.ChannelList
open TwitchChatWorker.IrcClient
open TwitchChatWorker.IrcClientSteps
open TwitchChatWorker.Lib.Runs

/-- The session has received the echo of the channel, and the channel has been
attached to it ever since. -/
def EchoedSince (past : List (Transition IRCClient Event)) (session : SessionPtr)
    (channel : String) : Prop :=
  ∃ before t after, past = before ++ t :: after ∧ t.event = .onJoined session channel ∧
    ∀ u ∈ t :: after, u.post.channels.sessionOf channel = some session

/-- A joined channel is attached to a session that has received its echo. -/
def Truthful (past : List (Transition IRCClient Event)) (c : IRCClient) : Prop :=
  ∀ name channel, c.channels.find? name = some channel → channel.joined = true →
    ∃ session, channel.session = some session ∧ EchoedSince past session name

def FlagsTruthful (start : IRCClient) (tr : List (Transition IRCClient Event)) : Prop :=
  Truthful [] start ∧
    ∀ past t future, tr = past ++ t :: future → Truthful (past ++ [t]) t.post

/-- A `ChannelJoined` message is handled when its channel has left the list, or
is attached to a session whose echo it has not been detached since. -/
def MarksEchoed (past : List (Transition IRCClient Event)) (t : Transition IRCClient Event) :
    Prop :=
  ∀ origin name, t.pre.handled t.event = some (.channelJoined origin name) →
    t.pre.channels.find? name = none ∨
      ∃ session, t.pre.channels.sessionOf name = some session ∧ EchoedSince past session name

theorem EchoedSince.snoc {past : List (Transition IRCClient Event)} {session : SessionPtr}
    {channel : String} (h : EchoedSince past session channel) {t : Transition IRCClient Event}
    (ht : t.post.channels.sessionOf channel = some session) :
    EchoedSince (past ++ [t]) session channel := by
  obtain ⟨before, echo, after, rfl, hecho, hattached⟩ := h
  refine ⟨before, echo, after ++ [t], by simp, hecho, ?_⟩
  intro u hu
  rcases List.mem_append.mp (List.cons_append ▸ hu) with hu | hu
  · exact hattached u hu
  · exact List.mem_singleton.mp hu ▸ ht

theorem EchoedSince.of_snoc {past : List (Transition IRCClient Event)} {session : SessionPtr}
    {channel : String} {t : Transition IRCClient Event}
    (h : EchoedSince (past ++ [t]) session channel) (ht : t.event ≠ .onJoined session channel) :
    EchoedSince past session channel := by
  obtain ⟨before, echo, after, hpast, hecho, hattached⟩ := h
  rcases List.eq_nil_or_concat after with rfl | ⟨after, last, rfl⟩
  · obtain ⟨-, hlast⟩ := List.append_inj' hpast rfl
    obtain rfl : t = echo := by simpa using hlast
    exact absurd hecho ht
  · rw [List.concat_eq_append, ← List.cons_append, ← List.append_assoc] at hpast
    obtain ⟨rfl, -⟩ := List.append_inj' hpast rfl
    exact ⟨before, echo, after, rfl, hecho, fun u hu => hattached u (by simp at hu ⊢; tauto)⟩

theorem Truthful.keep {past : List (Transition IRCClient Event)} {c c' : IRCClient} {e : Event}
    (htruthful : Truthful past c) {name : String} {channel channel' : Channel}
    (hfind : c.channels.find? name = some channel) (hjoined : channel.joined = true)
    (hfind' : c'.channels.find? name = some channel')
    (hsession : channel'.session = channel.session) :
    ∃ session, channel'.session = some session ∧
      EchoedSince (past ++ [⟨c, e, c'⟩]) session name := by
  obtain ⟨session, hattached, hechoed⟩ := htruthful name channel hfind hjoined
  refine ⟨session, hsession.trans hattached, hechoed.snoc ?_⟩
  exact IRCChannelList.sessionOf_eq_some_iff.mpr ⟨channel', hfind', hsession.trans hattached⟩

/-- Only the handler of `ChannelJoined` can make a flag untruthful. -/
theorem Truthful.step {past : List (Transition IRCClient Event)} {c c' : IRCClient} {e : Event}
    (htruthful : Truthful past c) (hmarks : MarksEchoed past ⟨c, e, c'⟩)
    (hstep : c.step e = some c') : Truthful (past ++ [⟨c, e, c'⟩]) c' := by
  intro name channel hfind' hjoined
  cases step_effect hstep with
  | quiet posted became => exact htruthful.keep (became.find?_eq hfind') hjoined hfind' rfl
  | connected session attempt handled became =>
      exact htruthful.keep (became.find?_eq hfind') hjoined hfind' rfl
  | dropped session handled cause became =>
      have h := became.find?_eq hfind'
      rw [IrcClientSteps.dropped, IRCChannelList.find?_detachAndPartFromSession] at h
      obtain ⟨stored, hstored, rfl⟩ := Option.map_eq_some_iff.mp h
      split_ifs at hjoined hfind' ⊢ with hdetached
      · simp [Channel.setJoined] at hjoined
      · exact htruthful.keep hstored hjoined hfind' rfl
  | loggedIn session env capacity event allocated quota became =>
      have h := became.find?_eq hfind'
      rw [IrcClientSteps.loggedIn, IRCChannelList.find?_reserve] at h
      obtain ⟨stored, hstored, rfl⟩ := Option.map_eq_some_iff.mp h
      split_ifs at hjoined hfind' ⊢ with hreserved
      · -- A free channel is not joined.
        have hfree : name ∈ c.channels.free := by
          rw [IRCChannelList.reserve_fst] at hreserved
          exact List.mem_of_mem_take hreserved
        obtain ⟨free, hfind, hnone⟩ := IRCChannelList.mem_free.mp hfree
        obtain rfl : free = stored := Option.some.inj (hfind.symm.trans hstored)
        obtain ⟨p, hp, -⟩ := htruthful name free hfind hjoined
        simp [hnone] at hp
      · exact htruthful.keep hstored hjoined hfind' rfl
  | echoed session channel event allocated became =>
      exact htruthful.keep (became.find?_eq hfind') hjoined hfind' rfl
  | marked origin marked handled became =>
      have h := became.find?_eq hfind'
      rw [IRCChannelList.find?_markChannelJoined] at h
      split_ifs at h with heq
      · subst heq
        obtain ⟨stored, hstored, rfl⟩ := Option.map_eq_some_iff.mp h
        rcases hmarks origin name handled with hnone | ⟨session, hsession, hechoed⟩
        · rw [show c.channels.find? name = none from hnone] at hstored
          simp at hstored
        · obtain ⟨attached, hfind, hattached⟩ := IRCChannelList.sessionOf_eq_some_iff.mp hsession
          obtain rfl : attached = stored := Option.some.inj (hfind.symm.trans hstored)
          exact ⟨session, hattached,
            hechoed.snoc (IRCChannelList.sessionOf_eq_some_iff.mpr ⟨_, hfind', hattached⟩)⟩
      · exact htruthful.keep h hjoined hfind' rfl
  | checked session names handled became =>
      exact htruthful.keep (became.find?_eq hfind') hjoined hfind' rfl
  | joined session added handled member connected fresh chosen became =>
      have h := became.find?_eq hfind'
      rw [IRCChannelList.find?_addChannel] at h
      split_ifs at h
      · obtain rfl : attachedChannel added session = channel := by
          simpa [attachedChannel, fresh] using h
        simp [attachedChannel] at hjoined
      · exact htruthful.keep h hjoined hfind' rfl
  | left session removed stored env event handled found attached became =>
      have h := became.find?_eq hfind'
      rw [IRCChannelList.find?_removeChannel] at h
      split_ifs at h
      exact htruthful.keep h hjoined hfind' rfl
  | reloaded env config event handled became =>
      have h := became.find?_eq hfind'
      rw [IrcClientSteps.reloaded, IRCChannelList.find?_load] at h
      split_ifs at h
      obtain rfl := Option.some.inj h
      simp at hjoined

theorem truthful_soEvtStart (conConfig : IRCConnectionConfig) (cliConfig : IRCClientConfig)
    (env : Env) : Truthful [] (.soEvtStart conConfig cliConfig env) := by
  obtain ⟨hview, -⟩ := soEvtStart_spec conConfig cliConfig env
  have hchannels : (IRCClient.soEvtStart conConfig cliConfig env).channels =
    .load env.loadedChannels := congrArg View.channels hview
  intro name channel hfind hjoined
  rw [hchannels, IRCChannelList.find?_load] at hfind
  split_ifs at hfind
  obtain rfl := Option.some.inj hfind
  simp at hjoined

theorem channels_of_channelJoined {c c' : IRCClient} {e : Event} {origin : SessionPtr}
    {name : String} (hhandled : c.handled e = some (.channelJoined origin name))
    (hstep : c.step e = some c') : c'.channels = c.channels.markChannelJoined name := by
  cases step_effect hstep with
  | marked session channel handled became =>
      cases hhandled.symm.trans handled
      exact became.channels_eq
  | quiet posted became callback handled => cases handled _ hhandled
  | connected session attempt handled => cases hhandled.symm.trans handled
  | dropped session handled => cases handled _ hhandled
  | loggedIn session env capacity event => cases event ▸ hhandled
  | echoed session channel event => cases event ▸ hhandled
  | checked session names handled => cases hhandled.symm.trans handled
  | joined session channel handled => cases hhandled.symm.trans handled
  | left session channel stored env event handled => cases hhandled.symm.trans handled
  | reloaded env config event handled => cases hhandled.symm.trans handled

/-- The joined flags are truthful in exactly the runs in which every echo is
handled while the channel is still where it came from. -/
theorem flagsTruthful_iff (conConfig : IRCConnectionConfig) (cliConfig : IRCClientConfig)
    (env : Env) {tr : List (Transition IRCClient Event)} {c : IRCClient}
    (hrun : Run IRCClient.step (.soEvtStart conConfig cliConfig env) tr c) :
    FlagsTruthful (.soEvtStart conConfig cliConfig env) tr ↔
      ∀ past t future, tr = past ++ t :: future → MarksEchoed past t := by
  constructor
  · rintro ⟨-, htruthful⟩ past t future hsplit origin name hhandled
    obtain ⟨-, hstep⟩ := hrun.step_of_split past t future hsplit
    cases hfind : t.pre.channels.find? name with
    | none => exact .inl rfl
    | some stored =>
        have hfind' : t.post.channels.find? name = some (stored.setJoined true) := by
          rw [channels_of_channelJoined hhandled hstep, IRCChannelList.find?_markChannelJoined]
          simp [hfind]
        obtain ⟨session, hsession, hechoed⟩ :=
          htruthful past t future hsplit name _ hfind' rfl
        have hevent : t.event ≠ .onJoined session name := fun h => by
          rw [h] at hhandled
          cases hhandled
        exact .inr ⟨session,
          IRCChannelList.sessionOf_eq_some_iff.mpr ⟨stored, hfind, hsession⟩,
          hechoed.of_snoc hevent⟩
  · intro hmarks
    refine ⟨truthful_soEvtStart conConfig cliConfig env, fun past t future hsplit => ?_⟩
    obtain ⟨hpast, hstep⟩ := hrun.step_of_split past t future hsplit
    have htruthful : Truthful past t.pre :=
      hpast.historyInvariant MarksEchoed (truthful_soEvtStart conConfig cliConfig env)
        (fun _ _ _ _ _ h hguard hstep => h.step hguard hstep)
        fun before u after h => hmarks before u (after ++ t :: future) (by simp [hsplit, h])
    exact htruthful.step (hmarks past t future hsplit) hstep

/-- The channel is attached to the session when its echo is handled. -/
def echoed : List Event := [.handle {}, .onLoggedIn 0 {}, .onJoined 0 "a", .handle {}]

theorem flagsTruthful_iff_echoed :
    FlagsTruthful (.soEvtStart {} {} { loadedChannels := ["a"] })
      (trace IRCClient.step (.soEvtStart {} {} { loadedChannels := ["a"] }) echoed) := by
  refine (flagsTruthful_iff {} {} { loadedChannels := ["a"] }
    (run_trace echoed (by decide))).mpr fun past t future hsplit => ?_
  have ht : (past ++ t :: future)[past.length]? = some t := by
    rw [List.getElem?_append_right (Nat.le_refl _), Nat.sub_self, List.getElem?_cons_zero]
  have hpast : (past ++ t :: future).take past.length = past := List.take_left
  rw [← hsplit] at ht
  rw [← hsplit] at hpast
  have hlt : past.length < 4 := (List.getElem?_eq_some_iff.mp ht).1
  intro origin name hhandled
  match hlength : past.length, hlt with
  | 0, _ | 1, _ | 2, _ =>
      rw [hlength] at ht
      obtain rfl := Option.some.inj ht
      cases hhandled
  | 3, _ =>
      rw [hlength] at ht hpast
      obtain rfl := Option.some.inj ht
      cases hhandled
      rw [← hpast]
      exact .inr ⟨0, by decide, _, _, [], (List.take_append_drop 2 _).symm, rfl, by decide⟩

/-- The session drops between the echo and the handling of its message. -/
theorem not_flagsTruthful_dropped :
    ¬∀ (conConfig : IRCConnectionConfig) (cliConfig : IRCClientConfig) (env : Env)
      (tr : List (Transition IRCClient Event)) (c : IRCClient),
      Run IRCClient.step (.soEvtStart conConfig cliConfig env) tr c →
      FlagsTruthful (.soEvtStart conConfig cliConfig env) tr := by
  intro hall
  have hflags := hall {} {} { loadedChannels := ["a"] } _ _ (run_trace
    [.handle {}, .onLoggedIn 0 {}, .onJoined 0 "a", .onDisconnected 0 "", .handle {}]
    (by decide))
  have htruthful := hflags.2 _ _ _ ((List.take_append_drop 4 _).symm.trans
    (congrArg _ (List.drop_eq_getElem_cons (by decide))))
  obtain ⟨session, hsession, -⟩ :=
    htruthful "a" { name := "a", joined := true } (by decide) rfl
  cases hsession

end TwitchChatWorker.JoinedFlag
