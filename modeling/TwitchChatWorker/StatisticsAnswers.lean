import TwitchChatWorker.AnswerRules

/-!
Which requests the agent `StatsCollector` answers once.  A report shows names
that other agents have sent, and a name that is not UTF-8 cannot be dumped.
-/

namespace TwitchChatWorker.StatisticsAnswers

open TwitchChatWorker.AnswerRules
open TwitchChatWorker.HttpRequests
open TwitchChatWorker.JsonValues
open TwitchChatWorker.Lib.Handlers
open TwitchChatWorker.Lib.OrderedMaps
open TwitchChatWorker.Statistics

/-- What a body with a list under the key must be like. -/
def UsableList (env : Surroundings) (body key : String) : Prop :=
  body ≠ "" → UsableJson env body ∧ ∀ list, requested env body key = some (.array list) →
    ∀ element ∈ list, element.isString = true

/-- The texts that the report of an account shows are UTF-8. -/
def UsableReport (s : StatsCollector) (nick : String) : Prop :=
  ∀ stats, s.ircStats.find? nick = some stats → stats ≠ [] → utf8 nick = true ∧
    ∀ channel ∈ (s.ircClientChannels.find? nick).getD [],
      channel.2.toNat < stats.length ∨ channel.2 = unattachedId → utf8 channel.1 = true

def UsableStats (env : Surroundings) (s : StatsCollector) (body : String) : StatsRequest → Prop
  | .account => UsableList env body "accounts" ∧
      (body = "" → ∀ nick, UsableReport s nick) ∧
      (body ≠ "" → ∀ accounts, requested env body "accounts" = some (.array accounts) →
        ∀ nick, accounts = [] ∨ .string nick ∈ accounts → UsableReport s nick)
  | .channel => UsableList env body "channels" ∧
      (body = "" → ∀ entry ∈ s.channelsStats.entries, utf8 entry.1 = true)
  | .so5disp => ∀ entry ∈ s.dispStats.entries, utf8 entry.1 = true
  | _ => True

theorem encodable_strings {texts : List (String × SessionId)} :
    (Json.array (texts.map fun entry => .string entry.1)).encodable = true ↔
      ∀ entry ∈ texts, utf8 entry.1 = true := by
  rw [Json.encodable_array, List.forall_mem_map]
  exact Iff.rfl

theorem encodable_sessionToJson {nick : String} {channels : List (String × SessionId)} {i : Nat}
    {stats : IRCStatistic} :
    (StatsCollector.sessionToJson nick channels i stats).encodable = true ↔ utf8 nick = true ∧
      ∀ channel ∈ channels, channel.2.toNat = i → utf8 channel.1 = true := by
  have hkeys : utf8 "channels" = true ∧ utf8 "nick" = true ∧ utf8 "id" = true :=
    ⟨by rfl, by rfl, by rfl⟩
  obtain ⟨members, hmembers⟩ : ∃ members, ircStatisticToJson stats = .object members := ⟨_, rfl⟩
  have hencodable : (Json.object members).encodable = true := hmembers ▸ by rfl
  simp only [StatsCollector.sessionToJson, hmembers]
  rw [Json.encodable_object, List.forall_mem_append,
    and_iff_right (Json.encodable_object.mp hencodable)]
  simp only [List.forall_mem_cons, List.not_mem_nil, false_imp_iff, imp_true_iff, and_true, hkeys,
    true_and, encodable_strings, List.mem_filter, decide_eq_true_eq, and_imp,
    Json.encodable_string, Json.encodable_number]
  exact and_comm

theorem encodable_sessions {nick : String} {channels : List (String × SessionId)}
    {stats : List IRCStatistic} :
    (Json.array (stats.mapIdx (StatsCollector.sessionToJson nick channels))).encodable = true ↔
      (stats ≠ [] → utf8 nick = true ∧
        ∀ channel ∈ channels, channel.2.toNat < stats.length → utf8 channel.1 = true) := by
  simp only [Json.encodable_array, List.mem_mapIdx, forall_exists_index]
  constructor
  · intro h hne
    have hall : ∀ i, i < stats.length → utf8 nick = true ∧
        ∀ channel ∈ channels, channel.2.toNat = i → utf8 channel.1 = true :=
      fun i hi => encodable_sessionToJson.mp (h _ i hi rfl)
    exact ⟨(hall 0 (List.length_pos_of_ne_nil hne)).1,
      fun channel hchannel hlt => (hall _ hlt).2 channel hchannel rfl⟩
  · rintro h element i hi rfl
    obtain ⟨hnick, htexts⟩ := h (List.ne_nil_of_length_pos (Nat.zero_lt_of_lt hi))
    exact encodable_sessionToJson.mpr
      ⟨hnick, fun channel hchannel heq => htexts channel hchannel (heq ▸ hi)⟩

theorem encodable_report {s : StatsCollector} {nick : String} {stats : List IRCStatistic} :
    (s.dumpAccountWithSessions stats nick).encodable = true ↔ (stats ≠ [] → utf8 nick = true ∧
      ∀ channel ∈ (s.ircClientChannels.find? nick).getD [],
        channel.2.toNat < stats.length ∨ channel.2 = unattachedId → utf8 channel.1 = true) := by
  have hkeys : utf8 "sessions" = true ∧ utf8 "unattached_channels" = true := ⟨by rfl, by rfl⟩
  generalize hchannels : (s.ircClientChannels.find? nick).getD [] = channels
  have hunattached : (Json.array ((channels.filter fun channel =>
        decide (channel.2 = unattachedId)).map fun channel => .string channel.1)).encodable = true ↔
      ∀ channel ∈ channels, channel.2 = unattachedId → utf8 channel.1 = true := by
    simp only [encodable_strings, List.mem_filter, decide_eq_true_eq, and_imp]
  have hnone : (channels.filter fun channel => decide (channel.2 = unattachedId)) = [] →
      ∀ channel ∈ channels, channel.2 = unattachedId → utf8 channel.1 = true := by
    intro hnil channel hchannel heq
    exact absurd (by simpa using heq) (List.filter_eq_nil_iff.mp hnil channel hchannel)
  have hboth : (∀ channel ∈ channels, channel.2.toNat < stats.length ∨ channel.2 = unattachedId →
        utf8 channel.1 = true) ↔
      (∀ channel ∈ channels, channel.2.toNat < stats.length → utf8 channel.1 = true) ∧
        ∀ channel ∈ channels, channel.2 = unattachedId → utf8 channel.1 = true := by
    simp only [or_imp, forall_and]
  simp only [StatsCollector.dumpAccountWithSessions, hchannels, hboth]
  split_ifs with hshown
  · obtain ⟨hne, -⟩ := hshown
    simp only [Json.encodable_object, List.forall_mem_cons, List.not_mem_nil, false_imp_iff,
      imp_true_iff, and_true, hkeys, true_and, encodable_sessions, hunattached, hne, ne_eq,
      not_false_eq_true, forall_const, and_assoc]
  · simp only [Json.encodable_object, List.forall_mem_cons, List.not_mem_nil, false_imp_iff,
      imp_true_iff, and_true, hkeys, true_and, encodable_sessions, ← and_assoc]
    refine imp_congr_right fun hne => (and_iff_left ?_).symm
    exact hnone (not_not.mp fun hsome => hshown ⟨hne, hsome⟩)

theorem encodable_accountsBody {clients : List Json} :
    (StatsCollector.accountsBody clients).encodable = true ↔
      ∀ client ∈ clients, client.encodable = true := by
  have hkey : utf8 "accounts" = true := by rfl
  simp only [StatsCollector.accountsBody, Body.encodable, Json.encodable_object,
    List.forall_mem_singleton, hkey, true_and, Json.encodable_array]

theorem encodable_channelsBody {channels : List Json} :
    (StatsCollector.channelsBody channels).encodable = true ↔
      ∀ channel ∈ channels, channel.encodable = true := by
  have hkey : utf8 "channels" = true := by rfl
  simp only [StatsCollector.channelsBody, Body.encodable, Json.encodable_object,
    List.forall_mem_singleton, hkey, true_and, Json.encodable_array]

theorem encodable_statsToJson {name : String} {stats : ChannelStats} :
    (StatsCollector.statsToJson name stats).encodable = true ↔ utf8 name = true := by
  have hkeys : utf8 "name" = true ∧ utf8 "in" = true ∧ utf8 "out" = true ∧ utf8 "updated" = true ∧
    utf8 "count" = true := ⟨by rfl, by rfl, by rfl, by rfl, by rfl⟩
  simp only [StatsCollector.statsToJson, Json.encodable_object, List.forall_mem_cons, hkeys,
    List.not_mem_nil, false_imp_iff, imp_true_iff, and_true, true_and, Json.encodable_string,
    Json.encodable_number]

section Statistics

variable {env : Surroundings} {body key : String} {s : StatsCollector}

theorem answersOnce_allAccounts :
    AnswersOnce (do
        let clients ← StatsCollector.dumpAllAccounts
        sendHttpResp 200 (StatsCollector.accountsBody clients)) s ↔
      ∀ nick, UsableReport s nick := by
  rw [AnswersOnce, wp_bind_ok, StatsCollector.dumpAllAccounts, wp_bind, wp_readState, wp_bind,
    wp_update, wp_bind, wp_update, wp_pure, and_iff_right rfl, encodable_accountsBody,
    List.forall_mem_map]
  simp only [encodable_report]
  constructor
  · intro h nick stats hfind
    exact h (nick, stats) (OrderedMap.mem_entries_iff.mpr hfind)
  · rintro h ⟨nick, stats⟩ hentry
    exact h nick stats (OrderedMap.mem_entries_iff.mp hentry)

/-- What a loop over accounts has reported, and forgotten. -/
structure Reported (s : StatsCollector) (done clients : List Json)
    (served : Serving StatsCollector Response) : Prop where
  responses : served.responses = []
  gone : ∀ nick, .string nick ∈ done → served.state.ircStats.find? nick = none
  kept : ∀ nick, .string nick ∉ done →
    served.state.ircStats.find? nick = s.ircStats.find? nick
  channels : ∀ nick, (served.state.ircClientChannels.find? nick).getD [] =
    (s.ircClientChannels.find? nick).getD []
  encodable : (∀ client ∈ clients, client.encodable = true) ↔
    ∀ nick, .string nick ∈ done → UsableReport s nick

theorem mem_concat_string {done : List Json} {other nick : String} :
    .string other ∈ done ++ [.string nick] ↔ .string other ∈ done ∨ other = nick := by
  rw [List.mem_append, List.mem_singleton, Json.string.injEq]

theorem Reported.reportAccount {done clients : List Json} {served : Serving StatsCollector Response}
    (h : Reported s done clients served) (nick : String) :
    wp False (StatsCollector.reportAccount clients nick) served
      (Reported s (done ++ [.string nick])) := by
  rw [StatsCollector.reportAccount, wp_bind, wp_readState]
  cases hfind : served.state.ircStats.find? nick with
  | none =>
      have husable : .string nick ∉ done → UsableReport s nick := by
        intro hnot stats hstats
        rw [← h.kept nick hnot, hfind] at hstats
        cases hstats
      refine ⟨h.responses, fun other hother => ?_, fun other hother => ?_, h.channels, ?_⟩
      · rcases mem_concat_string.mp hother with hother | rfl
        · exact h.gone other hother
        · exact hfind
      · exact h.kept other fun hmem => hother (mem_concat_string.mpr (.inl hmem))
      · refine h.encodable.trans ⟨fun hall other hother => ?_,
          fun hall other hother => hall other (mem_concat_string.mpr (.inl hother))⟩
        by_cases hmem : .string other ∈ done
        · exact hall other hmem
        · rcases mem_concat_string.mp hother with hother | rfl
          · exact hall other hother
          · exact husable hmem
  | some stats =>
      have hnot : .string nick ∉ done := by
        intro hmem
        rw [h.gone nick hmem] at hfind
        cases hfind
      have hstats : s.ircStats.find? nick = some stats := (h.kept nick hnot).symm.trans hfind
      have hreport : (served.state.dumpAccountWithSessions stats nick).encodable = true ↔
          UsableReport s nick := by
        rw [encodable_report, h.channels nick]
        simp [UsableReport, hstats]
      refine ⟨h.responses, fun other hother => ?_, fun other hother => ?_, fun other => ?_, ?_⟩
      · rw [OrderedMap.find?_erase]
        split_ifs with heq
        · rfl
        · exact h.gone other ((mem_concat_string.mp hother).resolve_right heq)
      · rw [OrderedMap.find?_erase, if_neg]
        · exact h.kept other fun hmem => hother (mem_concat_string.mpr (.inl hmem))
        · exact fun heq => hother (mem_concat_string.mpr (.inr heq))
      · rw [← h.channels other]
        refine (congrArg (Option.getD · []) (OrderedMap.find?_emplace _ nick other [])).trans ?_
        split_ifs with heq
        · rw [heq, Option.getD_some]
        · rfl
      · rw [List.forall_mem_append, List.forall_mem_singleton, h.encodable, hreport]
        simp only [mem_concat_string, or_imp, forall_and, forall_eq]

theorem wp_string {σ α : Type} {j : Json} {f : String → Serve σ α} {served : Serving σ Response}
    {post : α → Serving σ Response → Prop} :
    wp False (do f (← rethrow j.getString)) served post ↔
      ∃ text, j = .string text ∧ wp False (f text) served post := by
  rw [wp_bind, wp_rethrow]
  refine exists_congr fun text => and_congr_left fun _ => ?_
  cases j <;> simp [Json.getString]

theorem answersOnce_reportAccounts (accounts : List Json) :
    AnswersOnce (do
        let clients ← accounts.foldlM StatsCollector.dumpAccount []
        sendHttpResp 200 (StatsCollector.accountsBody clients)) s ↔
      (∀ account ∈ accounts, account.isString = true) ∧
        ∀ nick, .string nick ∈ accounts → UsableReport s nick := by
  have hstart : Reported s [] [] ⟨s, []⟩ :=
    ⟨rfl, by simp, fun _ _ => rfl, fun _ => rfl, by simp⟩
  rw [AnswersOnce, wp_bind_ok]
  refine wp_foldlM_iff (Reported s) hstart (fun done account _ hstring clients served h => ?_)
    (fun done account _ clients served h hends => ?_) fun clients served h => ?_
  · cases account with
    | string nick => exact wp_string.mpr ⟨nick, rfl, h.reportAccount nick⟩
    | _ => simp [Json.isString] at hstring
  · obtain ⟨nick, rfl, -⟩ := wp_string.mp hends
    rfl
  · rw [encodable_accountsBody, and_iff_right h.responses]
    exact h.encodable

/-- A handler that reports everything without a body, and what a list asks for
with one. -/
theorem answersOnce_list {all : Serve StatsCollector Unit} {f : Json → Serve StatsCollector Unit}
    {p : Prop} {q : List Json → Prop} (hall : AnswersOnce all s ↔ p)
    (hlist : ∀ list, requested env body key = some (.array list) →
      (AnswersOnce (f (.array list)) s ↔ (∀ element ∈ list, element.isString = true) ∧ q list))
    (hother : ∀ value, (∀ list, value ≠ .array list) → AnswersOnce (f value) s) :
    AnswersOnce (if body = "" then all
      else withJson env body fun req => do f (← rethrow (req.member key))) s ↔
      UsableList env body key ∧ (body = "" → p) ∧
        (body ≠ "" → ∀ list, requested env body key = some (.array list) → q list) := by
  unfold UsableList
  by_cases hbody : body = ""
  · simpa [hbody] using hall
  · have hmembers : AnswersOnce (withJson env body fun req => do
        f (← rethrow (req.member key))) s ↔ UsableJson env body ∧
          ∀ list, requested env body key = some (.array list) →
            (∀ element ∈ list, element.isString = true) ∧ q list := by
      refine answersOnce_members (fun hnone => by simp [not_requested hnone])
        fun req value hreq hnavigable hvalue => ?_
      simp only [hvalue, Option.some.injEq]
      cases value with
      | array list => simpa using hlist list hvalue
      | _ => simpa using hother _ (by simp)
    simp only [hbody, if_false, ne_eq, not_false_eq_true, forall_const, false_imp_iff, true_and]
    rw [hmembers, and_assoc]
    simp only [imp_and, forall_and]

theorem answersOnce_evtHttpAccountsStats (env : Surroundings) (body : String)
    (s : StatsCollector) :
    AnswersOnce (StatsCollector.evtHttpAccountsStats env body) s ↔
      UsableStats env s body .account := by
  refine answersOnce_list answersOnce_allAccounts (fun list _ => ?_) fun value hvalue => ?_
  · cases list with
    | nil => simpa using answersOnce_allAccounts
    | cons account accounts => simpa using answersOnce_reportAccounts (account :: accounts)
  · cases value with
    | array list => exact absurd rfl (hvalue list)
    | _ => exact answersOnce_sendHttpResp.mpr (by rfl)

theorem answersOnce_reportChannels {channels : List Json}
    (htexts : ∀ channel ∈ channels, channel.encodable = true) :
    AnswersOnce (do
        let shown ← channels.foldlM StatsCollector.dumpChannel []
        sendHttpResp 200 (StatsCollector.channelsBody shown)) s ↔
      (∀ channel ∈ channels, channel.isString = true) ∧ True := by
  rw [AnswersOnce, wp_bind_ok]
  refine wp_foldlM_iff (fun _ shown served => served.responses = [] ∧
      ∀ channel ∈ shown, channel.encodable = true) ⟨rfl, by simp⟩
    (fun _ channel hchannel hstring shown served h => ?_)
    (fun _ channel _ shown served h hends => ?_) fun shown served h => ?_
  · cases channel with
    | string chan =>
        refine wp_string.mpr ⟨chan, rfl, h.1, ?_⟩
        rw [List.forall_mem_append, List.forall_mem_singleton]
        exact ⟨h.2, encodable_statsToJson.mpr (htexts _ hchannel)⟩
    | _ => simp [Json.isString] at hstring
  · obtain ⟨chan, rfl, -⟩ := wp_string.mp hends
    rfl
  · exact iff_of_true ⟨h.1, encodable_channelsBody.mpr h.2⟩ trivial

theorem answersOnce_evtHttpChannelsStats (env : Surroundings) (body : String)
    (s : StatsCollector) :
    AnswersOnce (StatsCollector.evtHttpChannelsStats env body) s ↔
      UsableStats env s body .channel := by
  have hall : AnswersOnce (do
      let s ← readState
      update fun s => { s with channelsStats := .empty }
      sendHttpResp 200 (StatsCollector.channelsBody
        (s.channelsStats.entries.map fun entry => StatsCollector.statsToJson entry.1 entry.2))) s ↔
      ∀ entry ∈ s.channelsStats.entries, utf8 entry.1 = true := by
    rw [answersOnce_readState, answersOnce_update, encodable_channelsBody, List.forall_mem_map]
    simp only [encodable_statsToJson]
  refine (answersOnce_list (q := fun _ => True) hall (fun list hlist => ?_)
    fun value hvalue => ?_).trans (by simp [UsableStats])
  · exact answersOnce_reportChannels (Json.encodable_array.mp (encodable_requested hlist))
  · cases value with
    | array list => exact absurd rfl (hvalue list)
    | _ => exact answersOnce_sendHttpResp.mpr (by rfl)

theorem answersOnce_evtHttpSo5Disp (s : StatsCollector) :
    AnswersOnce StatsCollector.evtHttpSo5Disp s ↔
      ∀ entry ∈ s.dispStats.entries, utf8 entry.1 = true := by
  have hkeys : utf8 "dispatchers" = true ∧ utf8 "name" = true ∧ utf8 "size" = true :=
    ⟨by rfl, by rfl, by rfl⟩
  rw [StatsCollector.evtHttpSo5Disp, answersOnce_readState, answersOnce_sendHttpResp]
  simp only [Body.encodable, Json.encodable_object, List.forall_mem_singleton, hkeys, true_and,
    Json.encodable_array, List.forall_mem_map, List.forall_mem_cons, and_true,
    Json.encodable_string, count64, Json.encodable_number]

theorem answersOnce_evtHttpStorageStats (s : StatsCollector) :
    AnswersOnce StatsCollector.evtHttpStorageStats s := by
  have hkey : utf8 "connections" = true := by rfl
  rw [StatsCollector.evtHttpStorageStats, answersOnce_readState, answersOnce_update]
  simp only [Body.encodable, Json.encodable_object, List.forall_mem_singleton, hkey, true_and,
    Json.encodable_array, List.mem_mapIdx, forall_exists_index]
  rintro conn i hi rfl
  rfl

theorem answersOnce_stats (env : Surroundings) (body : String) (request : StatsRequest)
    (s : StatsCollector) :
    AnswersOnce (StatsCollector.evtHttp env body request) s ↔
      UsableStats env s body request := by
  cases request with
  | bot => exact iff_of_true (answersOnce_sendHttpResp.mpr (by rfl)) trivial
  | storage => exact iff_of_true (answersOnce_evtHttpStorageStats s) trivial
  | db => exact iff_of_true (answersOnce_sendHttpResp.mpr (by rfl)) trivial
  | irc => exact iff_of_true (answersOnce_readState.mpr (answersOnce_update.mpr (by rfl))) trivial
  | account => exact answersOnce_evtHttpAccountsStats env body s
  | channel => exact answersOnce_evtHttpChannelsStats env body s
  | so5disp => exact answersOnce_evtHttpSo5Disp s

end Statistics

end TwitchChatWorker.StatisticsAnswers
