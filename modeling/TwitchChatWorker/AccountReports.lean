import TwitchChatWorker.StatisticsBalance

/-!
Where the channels of an account stand in its report.  The channels come with
one message and the counters of the sessions with another, and the report walks
over the counters.
-/

namespace TwitchChatWorker.AccountReports

open TwitchChatWorker.HttpRequests
open TwitchChatWorker.JsonValues
open TwitchChatWorker.Lib.Handlers
open TwitchChatWorker.Lib.OrderedMaps
open TwitchChatWorker.Lib.Runs
open TwitchChatWorker.Lib.Tallies
open TwitchChatWorker.Statistics
open TwitchChatWorker.StatisticsBalance

/-- The channels of one session of a report, with the id of the session. -/
def placedIn (session : Json) : List (String × Int) :=
  (elements (field "channels" session)).map fun channel =>
    (channel.stringOrEmpty, readCount ["id"] session)

/-- Every place of a channel in the report of an account. -/
def placements (account : Json) : List (String × Int) :=
  (elements (field "sessions" account)).flatMap placedIn ++
    (elements (field "unattached_channels" account)).map fun channel =>
      (channel.stringOrEmpty, 2 ^ 32 - 1)

/-- The nick stands in every session of a report. -/
def nickOf (account : Json) : String :=
  (((elements (field "sessions" account)).head?.map (field "nick")).getD .null).stringOrEmpty

/-- The accounts that a response shows. -/
def accountsIn (response : Response) : List Json :=
  match response.body with
  | .dumped j => elements (field "accounts" j)
  | .text _ => []

/-- The reports of the answers that a step has added. -/
def newReports (g g' : Gathering) : List Json :=
  (g'.answers.drop g.answers.length).flatMap fun answer => accountsIn answer.2

/-- The channels that the last `ClientChannelsMetrics` of the nick brought. -/
def lastChannels (tr : List (Transition Gathering Event)) (nick : String) :
    List (String × SessionId) :=
  tr.foldl (fun channels t =>
    match t.event with
    | .clientChannelsMetrics nick' new => if nick' = nick then new else channels
    | _ => channels) []

/-- Each channel stands in the report once, under its own session. -/
def Partitioned (tr : List (Transition Gathering Event)) (account : Json) : Prop :=
  (placements account).Perm
    ((lastChannels tr (nickOf account)).map fun channel => (channel.1, (channel.2.toNat : Int)))

/-- The session of every attached channel is below the number of counters that
the agent holds for the nick. -/
def SessionsCounted (g : Gathering) (tr : List (Transition Gathering Event)) (nick : String) :
    Prop :=
  ∀ channel ∈ lastChannels tr nick, channel.2 ≠ unattachedId →
    channel.2.toNat < ((g.collector.ircStats.find? nick).getD []).length

instance (g : Gathering) (tr : List (Transition Gathering Event)) (nick : String) :
    Decidable (SessionsCounted g tr nick) :=
  inferInstanceAs (Decidable (∀ channel ∈ lastChannels tr nick, _ → _))

/-- The channels that the agent holds for a nick. -/
def channelsOf (s : StatsCollector) (nick : String) : List (String × SessionId) :=
  (s.ircClientChannels.find? nick).getD []

/-- The channels of the agent are the last ones, and its counters are those of
possible session ids. -/
structure Gathered (tr : List (Transition Gathering Event)) (s : StatsCollector) : Prop where
  channels : ∀ nick, channelsOf s nick = lastChannels tr nick
  counters : s.ircStats.Forall fun _ stats => stats ≠ [] ∧ stats.length < 2 ^ 32

theorem length_addAt {α : Type} (zero : α) (add : α → α) (xs : List α) (i : Nat) :
    (StatsCollector.addAt zero add xs i).length = max xs.length (i + 1) := by
  induction xs, i using StatsCollector.addAt.induct with
  | case1 => rfl
  | case2 i ih =>
      simp only [StatsCollector.addAt, List.length_cons, ih, List.length_nil]
      omega
  | case3 x xs =>
      simp only [StatsCollector.addAt, List.length_cons]
      omega
  | case4 x xs i ih =>
      simp only [StatsCollector.addAt, List.length_cons, ih]
      omega

section Placements

variable (s : StatsCollector) (nick : String)

theorem placedIn_sessionToJson (channels : List (String × SessionId)) (i : Nat)
    (stats : IRCStatistic) :
    placedIn (StatsCollector.sessionToJson nick channels i stats) =
      (channels.filter fun channel => channel.2.toNat = i).map fun channel =>
        (channel.1, (channel.2.toNat : Int)) := by
  have hchannels : elements (field "channels"
      (StatsCollector.sessionToJson nick channels i stats)) =
        (channels.filter fun channel => channel.2.toNat = i).map fun channel =>
          Json.string channel.1 := rfl
  have hid : readCount ["id"] (StatsCollector.sessionToJson nick channels i stats) = i := rfl
  rw [placedIn, hchannels, hid, List.map_map]
  apply List.map_congr_left
  intro channel hchannel
  have heq : channel.2.toNat = i := by simpa using (List.mem_filter.mp hchannel).2
  simp [heq, Json.stringOrEmpty]

theorem unattached_dumpAccountWithSessions {stats : List IRCStatistic} (hstats : stats ≠ []) :
    elements (field "unattached_channels" (s.dumpAccountWithSessions stats nick)) =
      ((channelsOf s nick).filter fun channel => channel.2 = unattachedId).map fun channel =>
        Json.string channel.1 := by
  simp only [StatsCollector.dumpAccountWithSessions, channelsOf]
  split
  · rfl
  · next hnone =>
      have hempty : ((s.ircClientChannels.find? nick).getD []).filter
          (fun channel => decide (channel.2 = unattachedId)) = [] := by
        by_contra hsome
        exact hnone ⟨hstats, hsome⟩
      rw [hempty]
      rfl

theorem sessions_placements (stats : List IRCStatistic) :
    (elements (field "sessions" (s.dumpAccountWithSessions stats nick))).flatMap placedIn =
      (classes (fun channel => channel.2.toNat) (channelsOf s nick) stats.length).map
        fun channel => (channel.1, (channel.2.toNat : Int)) := by
  have hsessions : (stats.mapIdx (StatsCollector.sessionToJson nick (channelsOf s nick))).map
      placedIn = (List.range stats.length).map fun i =>
        ((channelsOf s nick).filter fun channel => channel.2.toNat = i).map fun channel =>
          (channel.1, (channel.2.toNat : Int)) := by
    apply List.ext_getElem
    · simp
    · intro i hi hi'
      simp only [List.getElem_map, List.getElem_mapIdx, List.getElem_range]
      exact placedIn_sessionToJson nick _ i _
  rw [sessions_dumpAccountWithSessions, classes, List.map_flatMap, List.flatMap_def,
    List.flatMap_def]
  exact congrArg List.flatten hsessions

theorem placements_perm {stats : List IRCStatistic} (hstats : stats ≠ [])
    (hlength : stats.length < 2 ^ 32) :
    (placements (s.dumpAccountWithSessions stats nick)).Perm
      (((channelsOf s nick).filter fun channel =>
        channel.2.toNat < stats.length ∨ channel.2 = unattachedId).map
          fun channel => (channel.1, (channel.2.toNat : Int))) := by
  have hunattached : unattachedId.toNat = 2 ^ 32 - 1 := rfl
  have hmissing : ((channelsOf s nick).filter fun channel => channel.2 = unattachedId).map
      (fun channel => (channel.1, (2 ^ 32 - 1 : Int))) =
        ((channelsOf s nick).filter fun channel => channel.2 = unattachedId).map
          fun channel => (channel.1, (channel.2.toNat : Int)) := by
    apply List.map_congr_left
    intro channel hchannel
    have heq : channel.2 = unattachedId := by simpa using (List.mem_filter.mp hchannel).2
    rw [heq, hunattached]
    rfl
  have hplaced : placements (s.dumpAccountWithSessions stats nick) =
      (classes (fun channel => channel.2.toNat) (channelsOf s nick) stats.length ++
        (channelsOf s nick).filter fun channel => channel.2 = unattachedId).map
          fun channel => (channel.1, (channel.2.toNat : Int)) := by
    rw [placements, sessions_placements, unattached_dumpAccountWithSessions s nick hstats,
      List.map_append, List.map_map, ← hmissing]
    rfl
  have hboth := filter_append_filter_perm
    (p := fun channel : String × SessionId => decide (channel.2.toNat < stats.length))
    (q := fun channel => decide (channel.2 = unattachedId)) ?_ (channelsOf s nick)
  · simp only [← Bool.decide_or] at hboth
    rw [hplaced]
    exact (((classes_perm _ _ _).append_right _).trans hboth).map _
  · intro channel hcounted
    simp only [decide_eq_true_eq] at hcounted
    refine decide_eq_false fun heq => ?_
    rw [heq, hunattached] at hcounted
    omega

theorem placements_perm_iff {stats : List IRCStatistic} (hstats : stats ≠ [])
    (hlength : stats.length < 2 ^ 32) :
    (placements (s.dumpAccountWithSessions stats nick)).Perm
        ((channelsOf s nick).map fun channel => (channel.1, (channel.2.toNat : Int))) ↔
      ∀ channel ∈ channelsOf s nick, channel.2 ≠ unattachedId →
        channel.2.toNat < stats.length := by
  have hperm := placements_perm s nick hstats hlength
  constructor
  · intro hall
    have hlengths := (hperm.symm.trans hall).length_eq
    rw [List.length_map, List.length_map, List.length_filter_eq_length_iff] at hlengths
    intro channel hchannel hattached
    have hkept := hlengths channel hchannel
    simp only [decide_eq_true_eq] at hkept
    exact hkept.resolve_right hattached
  · intro hcounted
    have hevery : ((channelsOf s nick).filter fun channel =>
        channel.2.toNat < stats.length ∨ channel.2 = unattachedId) = channelsOf s nick := by
      apply List.filter_eq_self.mpr
      intro channel hchannel
      simp only [decide_eq_true_eq]
      exact or_iff_not_imp_right.mpr (hcounted channel hchannel)
    rwa [hevery] at hperm

end Placements

section Requests

/-- What a request leaves of the accounts: no new counters, the same channels. -/
structure Visited (s s' : StatsCollector) : Prop where
  counters : ∀ nick stats, s'.ircStats.find? nick = some stats →
    s.ircStats.find? nick = some stats
  channels : ∀ nick, channelsOf s' nick = channelsOf s nick

theorem Visited.refl (s : StatsCollector) : Visited s s := ⟨fun _ _ h => h, fun _ => rfl⟩

theorem channelsOf_touchChannels (s : StatsCollector) (touched nick : String) :
    channelsOf (s.touchChannels touched) nick = channelsOf s nick := by
  simp only [channelsOf, StatsCollector.touchChannels, OrderedMap.find?_emplace]
  split_ifs with heq
  · rw [heq, Option.getD_some]
  · rfl

theorem Visited.touchChannels {s s' : StatsCollector} (h : Visited s s') (nick : String) :
    Visited s (s'.touchChannels nick) where
  counters := h.counters
  channels other := (channelsOf_touchChannels s' nick other).trans (h.channels other)

theorem Visited.foldl_touchChannels {s s' : StatsCollector} (h : Visited s s')
    (entries : List (String × List IRCStatistic)) :
    Visited s (entries.foldl (fun s entry => s.touchChannels entry.1) s') := by
  induction entries generalizing s' with
  | nil => exact h
  | cons entry entries ih => exact ih (h.touchChannels entry.1)

theorem Visited.erase {s s' : StatsCollector} (h : Visited s s') (nick : String) :
    Visited s { s' with ircStats := s'.ircStats.erase nick } where
  counters other stats hfind := by
    rw [OrderedMap.find?_erase] at hfind
    split_ifs at hfind
    exact h.counters other stats hfind
  channels := h.channels

theorem Visited.clear {s s' : StatsCollector} (h : Visited s s') :
    Visited s { s' with ircStats := .empty } :=
  ⟨fun _ _ hfind => by simp at hfind, h.channels⟩

theorem keeps_dumpAllAccounts (s : StatsCollector) :
    Keeps (Visited s) (do
      let clients ← StatsCollector.dumpAllAccounts
      sendHttpResp 200 (StatsCollector.accountsBody clients)) := by
  refine Ensures.bind ?_ fun clients => keeps_respond _
  refine keeps_readState_bind fun s' => ?_
  refine Ensures.bind (ensures_update fun _ h => h.foldl_touchChannels _) fun _ => ?_
  exact Ensures.bind (ensures_update fun _ h => h.clear) fun _ => keeps_pure _

theorem keeps_dumpAccount (s : StatsCollector) (clients : List Json) (account : Json) :
    Keeps (Visited s) (StatsCollector.dumpAccount clients account) := by
  refine Ensures.bind (keeps_rethrow _) fun nick => ?_
  refine keeps_readState_bind fun s' => ?_
  split
  · exact keeps_pure _
  · exact Ensures.bind (ensures_update fun _ h => (h.touchChannels nick).erase nick)
      fun _ => keeps_pure _

theorem keeps_evtHttp (s : StatsCollector) (env : Surroundings) (body : String)
    (request : StatsRequest) :
    Keeps (Visited s) (StatsCollector.evtHttp env body request) := by
  have hsame : ∀ {α : Type} (f : StatsCollector → StatsCollector) (h : Serve StatsCollector α),
      (∀ s', (f s').ircStats = s'.ircStats ∧ (f s').ircClientChannels = s'.ircClientChannels) →
      Keeps (Visited s) h → Keeps (Visited s) (do update f; h) := by
    intro α f h hf hh
    refine Ensures.bind (ensures_update fun s' hs' => ?_) fun _ => hh
    obtain ⟨hcounters, hchannels⟩ := hf s'
    constructor
    · intro nick stats hfind
      exact hs'.counters nick stats (hcounters ▸ hfind)
    · intro nick
      rw [channelsOf, hchannels]
      exact hs'.channels nick
  cases request with
  | bot => exact keeps_respond _
  | db => exact keeps_respond _
  | so5disp => exact keeps_readState_bind fun _ => keeps_respond _
  | irc => exact keeps_readState_bind fun _ => hsame _ _ (fun _ => ⟨rfl, rfl⟩) (keeps_respond _)
  | storage =>
      exact keeps_readState_bind fun _ => hsame _ _ (fun _ => ⟨rfl, rfl⟩) (keeps_respond _)
  | account =>
      simp only [StatsCollector.evtHttp, StatsCollector.evtHttpAccountsStats]
      split_ifs
      · exact keeps_dumpAllAccounts s
      · refine keeps_withJson fun req => Ensures.bind (keeps_rethrow _) fun accounts => ?_
        split
        · exact keeps_dumpAllAccounts s
        · exact Ensures.bind (keeps_foldlM fun account _ clients =>
            keeps_dumpAccount s clients account) fun _ => keeps_respond _
        · exact keeps_respond _
  | channel =>
      simp only [StatsCollector.evtHttp, StatsCollector.evtHttpChannelsStats]
      split_ifs
      · exact keeps_readState_bind fun _ => hsame _ _ (fun _ => ⟨rfl, rfl⟩) (keeps_respond _)
      · refine keeps_withJson fun req => Ensures.bind (keeps_rethrow _) fun list => ?_
        split
        · refine Ensures.bind (keeps_foldlM fun channel _ channels => ?_) fun _ => keeps_respond _
          refine Ensures.bind (keeps_rethrow _) fun chan => keeps_readState_bind fun _ => ?_
          exact hsame (fun s' => { s' with channelsStats := s'.channelsStats.erase chan }) _
            (fun _ => ⟨rfl, rfl⟩) (keeps_pure _)
        · exact keeps_respond _

/-- The reports are those of accounts of `s`, with the counters they have there. -/
def ReportsOf (s : StatsCollector) (clients : List Json) : Prop :=
  ∀ client ∈ clients, ∃ nick stats, s.ircStats.find? nick = some stats ∧
    client = s.dumpAccountWithSessions stats nick

theorem dumpAccountWithSessions_congr {s s' : StatsCollector} {nick : String}
    (h : channelsOf s' nick = channelsOf s nick) (stats : List IRCStatistic) :
    s'.dumpAccountWithSessions stats nick = s.dumpAccountWithSessions stats nick := by
  simp only [channelsOf] at h
  simp only [StatsCollector.dumpAccountWithSessions, h]

theorem Visited.reportsOf {s s' : StatsCollector} (h : Visited s s') {nick : String}
    {stats : List IRCStatistic} (hfind : s'.ircStats.find? nick = some stats) :
    ReportsOf s [s'.dumpAccountWithSessions stats nick] := by
  intro client hclient
  obtain rfl := List.mem_singleton.mp hclient
  exact ⟨nick, stats, h.counters nick stats hfind,
    dumpAccountWithSessions_congr (h.channels nick) stats⟩

theorem reportsOf_entries (s : StatsCollector) :
    ReportsOf s (s.ircStats.entries.map fun entry =>
      s.dumpAccountWithSessions entry.2 entry.1) := by
  intro client hclient
  obtain ⟨entry, hentry, rfl⟩ := List.mem_map.mp hclient
  exact ⟨entry.1, entry.2, OrderedMap.mem_entries_iff.mp hentry, rfl⟩

theorem wp_reportAccounts (s : StatsCollector) (accounts : List Json) :
    wp True (accounts.foldlM StatsCollector.dumpAccount []) ⟨s, []⟩
      fun clients served => served.responses = [] ∧ Visited s served.state ∧
        ReportsOf s clients := by
  apply wp_foldlM_acc
  · exact ⟨rfl, .refl s, by simp [ReportsOf]⟩
  · rintro account - clients ⟨state, responses⟩ ⟨rfl, hvisited, hreports⟩
    rw [StatsCollector.dumpAccount, wp_bind]
    cases account.getString with
    | error e => trivial
    | ok nick =>
        rw [wp_rethrow_ok, StatsCollector.reportAccount, wp_bind, wp_readState]
        dsimp only at hvisited ⊢
        cases hfind : state.ircStats.find? nick with
        | none => exact ⟨rfl, hvisited, hreports⟩
        | some stats =>
            refine ⟨rfl, (hvisited.touchChannels nick).erase nick, fun client hclient => ?_⟩
            rcases List.mem_append.mp hclient with hclient | hclient
            · exact hreports client hclient
            · exact hvisited.reportsOf hfind client hclient

theorem accountsIn_accountsBody (status : Nat) (clients : List Json) :
    accountsIn ⟨status, StatsCollector.accountsBody clients⟩ = clients :=
  elements_field "accounts" clients

theorem wp_evtHttpAccountsStats (s : StatsCollector) (env : Surroundings) (body : String) :
    wp True (StatsCollector.evtHttpAccountsStats env body) ⟨s, []⟩ fun _ served =>
      ReportsOf s (served.responses.flatMap accountsIn) := by
  have hall : wp True (do
      let clients ← StatsCollector.dumpAllAccounts
      sendHttpResp 200 (StatsCollector.accountsBody clients)) ⟨s, []⟩ fun _ served =>
        ReportsOf s (served.responses.flatMap accountsIn) := by
    simp only [StatsCollector.dumpAllAccounts, wp_bind, wp_readState, wp_update, wp_pure,
      sendHttpResp, wp_respond, List.nil_append, List.flatMap_singleton, accountsIn_accountsBody]
    exact reportsOf_entries s
  have hnone : ∀ result, ReportsOf s (accountsIn ⟨400, resp result⟩) := by
    intro result
    have hempty : accountsIn ⟨400, resp result⟩ = [] := rfl
    simp [hempty, ReportsOf]
  unfold StatsCollector.evtHttpAccountsStats
  split_ifs
  · exact hall
  · unfold withJson
    split
    · simpa [sendHttpResp, wp_respond] using hnone "Failed to parse JSON"
    · next req hreq =>
        rw [wp_bind]
        cases req.member "accounts" with
        | error e => trivial
        | ok accounts =>
            rw [wp_rethrow_ok]
            split
            · exact hall
            · next list _ =>
                rw [wp_bind]
                apply (wp_reportAccounts s list).mono
                rintro clients ⟨state, responses⟩ ⟨rfl, -, hreports⟩
                simpa [sendHttpResp, wp_respond, accountsIn_accountsBody] using hreports
            · simpa [sendHttpResp, wp_respond] using hnone "Invalid accounts type"

end Requests

theorem newReports_of_step {g g' : Gathering} {env : Surroundings} {body : String}
    (hstep : step g (.http env body .account) = some g') :
    ReportsOf g.collector (newReports g g') := by
  have hwp := wp_evtHttpAccountsStats g.collector env body
  unfold wp at hwp
  rw [step, StatsCollector.evtHttp] at hstep
  split at hwp
  · next served hserved =>
      rw [hserved] at hstep
      obtain rfl := Option.some.inj hstep
      simpa [newReports, List.flatMap_map] using hwp
  · next hthrows =>
      rw [hthrows] at hstep
      simp at hstep

theorem gathered_start : Gathered [] ({} : Gathering).collector :=
  ⟨fun _ => rfl, OrderedMap.forall_empty⟩

theorem lastChannels_snoc (tr : List (Transition Gathering Event)) (g : Gathering) (e : Event)
    (g' : Gathering) (nick : String) :
    lastChannels (tr ++ [⟨g, e, g'⟩]) nick =
      match e with
      | .clientChannelsMetrics nick' new => if nick' = nick then new else lastChannels tr nick
      | _ => lastChannels tr nick := by
  simp only [lastChannels, List.foldl_append, List.foldl_cons, List.foldl_nil]

theorem Gathered.step {tr : List (Transition Gathering Event)} {g g' : Gathering} {e : Event}
    (h : Gathered tr g.collector) (hstep : StatisticsBalance.step g e = some g') :
    Gathered (tr ++ [⟨g, e, g'⟩]) g'.collector := by
  have hlast := lastChannels_snoc tr g e g'
  cases e with
  | sessionMetrics id nick stats =>
      rw [StatisticsBalance.step] at hstep
      split_ifs at hstep with hid
      obtain rfl := Option.some.inj hstep
      refine ⟨fun other => (h.channels other).trans (hlast other).symm, ?_⟩
      refine h.counters.upsert ⟨?_, ?_⟩
      · apply List.ne_nil_of_length_pos
        rw [length_addAt]
        omega
      · have hold : ((g.collector.ircStats.find? nick).getD []).length < 2 ^ 32 := by
          cases hfind : g.collector.ircStats.find? nick with
          | none => simp
          | some old => exact (h.counters nick old hfind).2
        have hlt : id.toNat < 2 ^ 32 - 1 := by
          have hne : id.toNat ≠ 2 ^ 32 - 1 := fun heq => hid (UInt32.toNat.inj heq)
          have hbound := id.toNat_lt
          omega
        rw [length_addAt]
        omega
  | clientChannelsMetrics nick new =>
      obtain rfl := Option.some.inj hstep
      refine ⟨fun other => Eq.trans ?_ (hlast other).symm, h.counters⟩
      have hassign := OrderedMap.find?_assign g.collector.ircClientChannels nick other new
      simp only [channelsOf, StatsCollector.evtIRCClientChannelsMetrics, hassign]
      by_cases heq : other = nick
      · simp [heq]
      · simpa [heq, Ne.symm heq, channelsOf] using h.channels other
  | http env body request =>
      have hkeeps := keeps_evtHttp g.collector env body request ⟨g.collector, []⟩ (.refl _)
      unfold wp at hkeeps
      rw [StatisticsBalance.step] at hstep
      split at hkeeps
      · next served hserved =>
          rw [hserved] at hstep
          obtain rfl := Option.some.inj hstep
          refine ⟨fun nick => ?_, fun nick stats hfind => ?_⟩
          · exact ((hkeeps.channels nick).trans (h.channels nick)).trans (hlast nick).symm
          · exact h.counters nick stats (hkeeps.counters nick stats hfind)
      · next hthrows =>
          rw [hthrows] at hstep
          simp at hstep
  | _ =>
      obtain rfl := Option.some.inj hstep
      exact ⟨fun other => (h.channels other).trans (hlast other).symm, h.counters⟩

theorem nickOf_dumpAccountWithSessions (s : StatsCollector) (nick : String)
    {stats : List IRCStatistic} (hstats : stats ≠ []) :
    nickOf (s.dumpAccountWithSessions stats nick) = nick := by
  cases stats with
  | nil => exact absurd rfl hstats
  | cons first rest =>
      rw [nickOf, sessions_dumpAccountWithSessions, List.mapIdx_cons]
      rfl

/-- In every run, each report of an account shows every channel once exactly
when the sessions of the attached channels have counters. -/
theorem partitioned_iff {tr : List (Transition Gathering Event)} {g : Gathering}
    (hrun : Run step {} tr g) {env : Surroundings} {body : String} {g' : Gathering}
    (hstep : step g (.http env body .account) = some g') :
    ∀ account ∈ newReports g g',
      Partitioned tr account ↔ SessionsCounted g tr (nickOf account) := by
  have hgathered : Gathered tr g.collector :=
    @Run.historyInvariant _ _ _ _ (fun tr g => Gathered tr g.collector) (fun _ _ => True)
      gathered_start (fun _ _ _ _ _ h _ hstep => h.step hstep) _ _ hrun
      fun _ _ _ _ => trivial
  intro account haccount
  obtain ⟨nick, stats, hfind, rfl⟩ := newReports_of_step hstep account haccount
  obtain ⟨hstats, hlength⟩ := hgathered.counters nick stats hfind
  rw [Partitioned, SessionsCounted, nickOf_dumpAccountWithSessions _ _ hstats,
    ← hgathered.channels nick, hfind]
  exact placements_perm_iff g.collector nick hstats hlength

def request : Event := .http (listing "" []) "" .account

/-- Both sessions report, the channels follow, and an account request clears the
counters. -/
def clearedEvents : List Event :=
  [.sessionMetrics 0 "helper" {}, .sessionMetrics 1 "helper" {},
    .clientChannelsMetrics "helper" [("alpha", 0), ("beta", 1), ("gamma", unattachedId)], request]

theorem partitioned_iff_cleared :
    (exec step {} (clearedEvents ++ [.sessionMetrics 1 "helper" {}, request])).isSome ∧
    ∀ g ∈ exec step {} (clearedEvents ++ [.sessionMetrics 1 "helper" {}]),
    ∀ g' ∈ step g request, ∀ account ∈ newReports g g',
      Partitioned (trace step {} (clearedEvents ++ [.sessionMetrics 1 "helper" {}])) account := by
  refine ⟨by decide, fun g hg g' hg' account haccount => ?_⟩
  obtain rfl := Option.get_of_mem (by decide) hg
  obtain rfl := Option.get_of_mem (by decide) hg'
  obtain rfl := List.mem_singleton.mp haccount
  exact (partitioned_iff (run_trace _ (by decide)) hg' _ haccount).mpr (by decide)

/-- Only the first session reports after the counters were cleared, and the
channel of the second is in no list. -/
theorem not_partitioned_cleared :
    ¬∀ (tr : List (Transition Gathering Event)) (g : Gathering) (env : Surroundings)
      (body : String) (g' : Gathering), Run step {} tr g →
      step g (.http env body .account) = some g' →
      ∀ account ∈ newReports g g', Partitioned tr account := by
  intro hall
  have hperm := hall _ _ (listing "" []) "" _
    (run_trace (clearedEvents ++ [.sessionMetrics 0 "helper" {}]) (by decide)) rfl _
    (List.mem_singleton_self _)
  exact absurd hperm.length_eq (by decide)

end TwitchChatWorker.AccountReports
