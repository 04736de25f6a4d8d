import TwitchChatWorker.AnswerRules

/-!
Which requests the agent `IRCController` answers once.  A handler that goes
through the pointer of a client that is not there any more is undefined, and one
that loads an account ends only if the ping before does.
-/

namespace TwitchChatWorker.AccountAnswers

open TwitchChatWorker.AnswerRules
open TwitchChatWorker.DBController
open TwitchChatWorker.HttpRequests
open TwitchChatWorker.IrcClient
open TwitchChatWorker.IrcController
open TwitchChatWorker.JsonValues
open TwitchChatWorker.Lib.Handlers
open TwitchChatWorker.Lib.OrderedMaps

/-- The object that the pointer leads to is still there. -/
def Alive (c : IRCController) (p : ClientPtr) : Prop := p ∉ c.destroyed

/-- What a request to `IRCController` must be like to be answered once. -/
def UsableIrc (env : Surroundings) (c : IRCController) (body : String) : IrcRequest → Prop
  | .reload => ∀ entry ∈ c.ircClientsById.entries,
      (env.Reaches (accountRequest entry.1) ∧ Alive c entry.2) ∧
        utf8 (loadAccount env.db entry.1).nick = true
  | .custom => UsableJson env body ∧
      ∀ data, requested env body "data" = some (.string data) →
      ∀ accounts, requested env body "accounts" = some (.array accounts) →
      ∀ account ∈ accounts, ∀ p, c.messageClient account = some p → Alive c p
  | .channelJoin => UsableJson env body ∧
      ∀ account, requested env body "account" = some account →
      ∀ p, c.messageClient account = some p →
      ∀ channels, requested env body "channels" = some (.array channels) →
      ∀ channel ∈ channels, channel.isString = true → Alive c p
  | .channelLeave => UsableJson env body ∧
      ∀ channels, requested env body "channels" = some (.array channels) →
      ∀ channel ∈ channels, channel.isString = true →
        ∀ entry ∈ c.ircClientsByName.entries, Alive c entry.2
  | .channelMessage => UsableJson env body ∧
      ∀ text, requested env body "text" = some (.string text) →
      ∀ accounts, requested env body "accounts" = some (.array accounts) →
      ∀ channels, requested env body "channels" = some (.array channels) →
      ∀ account ∈ accounts, ∀ p, c.messageClient account = some p →
        (Alive c p ∧ ∀ channel ∈ channels, channel.isString = true) ∧
          utf8 (c.nickname p) = true
  | .accountAdd => UsableJson env body ∧ ∀ id, requestedId env body = some id →
      c.getIrcClientById id = none → env.Reaches (accountRequest id)
  | .accountRemove => UsableJson env body ∧ ∀ id, requestedId env body = some id →
      ∀ p, c.getIrcClientById id = some p → Alive c p
  | .accountReload => UsableJson env body ∧ ∀ id, requestedId env body = some id →
      ∀ p, c.getIrcClientById id = some p → Alive c p ∧ env.Reaches (accountRequest id)

/-- The maps lead to the same clients under the same names as at the beginning. -/
structure SameClients (c : IRCController) (s : Serving IRCController Response) : Prop where
  responses : s.responses = []
  byName : s.state.ircClientsByName = c.ircClientsByName
  byId : s.state.ircClientsById = c.ircClientsById
  destroyed : s.state.destroyed = c.destroyed
  nickname : ∀ p, s.state.nickname p = c.nickname p

/-- The members that a loop has gathered: those of the elements done that are
nice have UTF-8 keys. -/
structure Gathered {α : Type} (c : IRCController) (nice : α → Prop) (done : List α)
    (body : OrderedMap String Json) (s : Serving IRCController Response) : Prop where
  same : SameClients c s
  valued : Valued body
  keyed : Keyed body ↔ ∀ x ∈ done, nice x

section Accounts

variable {α : Type} {env : Surroundings} {body : String} {c : IRCController}
  {s s' : Serving IRCController Response}

theorem sameClients_start (c : IRCController) : SameClients c ⟨c, []⟩ :=
  ⟨rfl, rfl, rfl, rfl, fun _ => rfl⟩

theorem SameClients.getIrcClient (h : SameClients c s) (name : String) :
    s.state.getIrcClient name = c.getIrcClient name := by
  rw [IRCController.getIrcClient, IRCController.getIrcClient, h.byName]

theorem SameClients.getIrcClientById (h : SameClients c s) (id : Int) :
    s.state.getIrcClientById id = c.getIrcClientById id := by
  rw [IRCController.getIrcClientById, IRCController.getIrcClientById, h.byId]

theorem SameClients.messageClient (h : SameClients c s) (account : Json) :
    s.state.messageClient account = c.messageClient account := by
  cases account with
  | string name => exact h.getIrcClient name
  | number id => exact h.getIrcClientById id.getInt
  | _ => rfl

theorem SameClients.send (h : SameClients c s) (p : ClientPtr) (m : Message) :
    SameClients c ⟨s.state.send p m, s.responses⟩ where
  responses := h.responses
  byName := h.byName
  byId := h.byId
  destroyed := h.destroyed
  nickname q := (s.state.nickname_send p q m).trans (h.nickname q)

theorem SameClients.wp_use (h : SameClients c s) {p : ClientPtr}
    {post : Unit → Serving IRCController Response → Prop} :
    wp False (IRCController.use p) s post ↔ Alive c p ∧ post () s := by
  rw [IRCController.wp_use, h.destroyed, Alive]

theorem SameClients.wp_sendTo (h : SameClients c s) {p : ClientPtr} {m : Message}
    {post : Unit → Serving IRCController Response → Prop} :
    wp False (IRCController.sendTo p m) s post ↔
      Alive c p ∧ post () ⟨s.state.send p m, s.responses⟩ := by
  rw [IRCController.wp_sendTo, h.destroyed, Alive]

variable {nice : α → Prop} {done : List α} {x : α} {gathered : OrderedMap String Json}

theorem Gathered.skip (h : Gathered c nice done gathered s) (hx : nice x)
    (hs : SameClients c s') : Gathered c nice (done ++ [x]) gathered s' where
  same := hs
  valued := h.valued
  keyed := by rw [List.forall_mem_append, List.forall_mem_singleton, h.keyed, and_iff_left hx]

theorem Gathered.assign (h : Gathered c nice done gathered s) {key : String} {value : Json}
    (hkey : utf8 key = true ↔ nice x) (hvalue : value.encodable = true)
    (hs : SameClients c s') :
    Gathered c nice (done ++ [x]) (gathered.assign key value) s' where
  same := hs
  valued := h.valued.assign hvalue
  keyed := by
    rw [keyed_assign, List.forall_mem_append, List.forall_mem_singleton, h.keyed, hkey]

theorem SameClients.noneDone (h : SameClients c s) : Gathered c nice [] .empty s where
  same := h
  valued := OrderedMap.forall_empty
  keyed := iff_of_true OrderedMap.forall_empty (by simp)

theorem Gathered.encodable_iff (h : Gathered c nice done gathered s) :
    (Json.object gathered.entries).encodable = true ↔ ∀ x ∈ done, nice x := by
  rw [encodable_entries, h.keyed, and_iff_left h.valued]

theorem answersOnce_gather_iff
    (f : OrderedMap String Json → α → Serve IRCController (OrderedMap String Json))
    (good nice : α → Prop) {xs : List α}
    (hgood : ∀ done, ∀ x ∈ xs, good x → ∀ gathered s, Gathered c nice done gathered s →
      wp False (f gathered x) s (Gathered c nice (done ++ [x])))
    (hends : ∀ x ∈ xs, ∀ gathered s, SameClients c s →
      wp False (f gathered x) s (fun _ _ => True) → good x) :
    AnswersOnce (do
        let gathered ← xs.foldlM f .empty
        sendHttpResp 200 (.dumped (.object gathered.entries))) c ↔
      ∀ x ∈ xs, good x ∧ nice x := by
  simp only [AnswersOnce, wp_bind_ok, imp_and, forall_and]
  refine wp_foldlM_iff (Gathered c nice) (sameClients_start c).noneDone hgood
    (fun done x hx gathered s h => hends x hx gathered s h.same) fun gathered s' h => ?_
  rw [and_iff_right h.same.responses]
  exact h.encodable_iff

theorem answersOnce_evtHttpReload (env : Surroundings) (c : IRCController) (body : String) :
    AnswersOnce (IRCController.evtHttpReload env) c ↔ UsableIrc env c body .reload := by
  rw [IRCController.evtHttpReload, answersOnce_readState, UsableIrc]
  refine answersOnce_gather_iff (IRCController.reloadEntry env)
    (fun entry => env.Reaches (accountRequest entry.1) ∧ Alive c entry.2)
    (fun entry => utf8 (loadAccount env.db entry.1).nick = true)
    (fun done entry _ hgood gathered s h => ?_) fun entry _ gathered s h hends => ?_
  · rw [IRCController.reloadEntry, wp_bind, wp_ping]
    refine ⟨hgood.1, ?_⟩
    rw [wp_bind, h.same.wp_sendTo]
    exact ⟨hgood.2, h.assign Iff.rfl rfl (h.same.send _ _)⟩
  · rw [IRCController.reloadEntry, wp_bind, wp_ping, wp_bind, h.wp_sendTo] at hends
    exact ⟨hends.1, hends.2.1⟩

theorem wp_customTo {nice : Json → Prop} {done : List Json} {account : Json}
    {client : Option ClientPtr} (hclient : c.messageClient account = client)
    (halive : ∀ p, c.messageClient account = some p → Alive c p) {data key : String}
    (hkey : utf8 key = true ↔ nice account) (h : Gathered c nice done gathered s) :
    wp False (IRCController.customTo data gathered key client) s
      (Gathered c nice (done ++ [account])) := by
  cases client with
  | none => exact h.assign hkey rfl h.same
  | some client =>
      rw [IRCController.customTo, wp_bind, h.same.wp_sendTo]
      exact ⟨halive client hclient, h.assign hkey rfl (h.same.send _ _)⟩

theorem alive_of_customTo {client : Option ClientPtr} {data key : String}
    {post : OrderedMap String Json → Serving IRCController Response → Prop}
    (h : SameClients c s)
    (hends : wp False (IRCController.customTo data gathered key client) s post) :
    ∀ p, client = some p → Alive c p := by
  rintro p rfl
  rw [IRCController.customTo, wp_bind, h.wp_sendTo] at hends
  exact hends.1

theorem answersOnce_evtHttpCustom (env : Surroundings) (body : String) (c : IRCController) :
    AnswersOnce (IRCController.evtHttpCustom env body) c ↔ UsableIrc env c body .custom := by
  refine answersOnce_members (fun hnone => by simp [not_requested hnone])
    fun req data hreq hnavigable hdata => ?_
  simp only [hdata, Option.some.injEq]
  cases data with
  | string data =>
      obtain ⟨accounts, -, haccounts⟩ := exists_requested hreq hnavigable "accounts"
      rw [answersOnce_read hreq hnavigable haccounts]
      simp only [haccounts, Json.string.injEq, forall_eq', Option.some.injEq]
      cases accounts with
      | array accounts =>
          have htexts := Json.encodable_array.mp (encodable_requested haccounts)
          simp only [Json.array.injEq, forall_eq']
          refine (answersOnce_gather_iff (IRCController.customEntry data)
            (fun account => ∀ p, c.messageClient account = some p → Alive c p) (fun _ => True)
            (fun done account haccount halive gathered s h => ?_)
            fun account _ gathered s h hends => ?_).trans (by simp)
          · rw [IRCController.customEntry, wp_bind, wp_readState]
            cases account with
            | string acc =>
                exact wp_customTo (h.same.messageClient (.string acc)).symm halive
                  (iff_of_true (htexts _ haccount) trivial) h
            | number id =>
                exact wp_customTo (h.same.messageClient (.number id)).symm halive
                  (iff_of_true (utf8_toString _) trivial) h
            | _ => exact h.skip trivial h.same
          · rw [IRCController.customEntry, wp_bind, wp_readState] at hends
            rw [← h.messageClient]
            cases account with
            | string acc => exact alive_of_customTo h hends
            | number id => exact alive_of_customTo h hends
            | _ => simp [IRCController.messageClient]
      | _ => simpa using answersOnce_sendHttpResp.mpr rfl
  | _ => simpa using answersOnce_sendHttpResp.mpr rfl

theorem answersOnce_joinChannels {req : Json} (hreq : env.parse body = some req)
    (hnavigable : req.navigable = true) (client : Option ClientPtr) :
    AnswersOnce (IRCController.joinChannels req client) c ↔ ∀ p, client = some p →
      ∀ channels, requested env body "channels" = some (.array channels) →
        ∀ channel ∈ channels, channel.isString = true → Alive c p := by
  cases client with
  | none => simpa [IRCController.joinChannels] using answersOnce_sendHttpResp.mpr rfl
  | some client =>
      obtain ⟨channels, -, hchannels⟩ := exists_requested hreq hnavigable "channels"
      rw [IRCController.joinChannels, answersOnce_read hreq hnavigable hchannels]
      simp only [hchannels, Option.some.injEq, forall_eq']
      cases channels with
      | array channels =>
          have htexts := Json.encodable_array.mp (encodable_requested hchannels)
          simp only [Json.array.injEq, forall_eq']
          refine (answersOnce_gather_iff (IRCController.joinEntry client)
            (fun channel => channel.isString = true → Alive c client) (fun _ => True)
            (fun done channel hchannel halive gathered s h => ?_)
            fun channel _ gathered s h hends => ?_).trans (by simp)
          · cases channel with
            | string chan =>
                rw [IRCController.joinEntry, wp_bind, h.same.wp_sendTo]
                exact ⟨halive rfl, h.assign (iff_of_true (htexts _ hchannel) trivial) rfl
                  (h.same.send _ _)⟩
            | _ => exact h.skip trivial h.same
          · cases channel with
            | string chan =>
                rw [IRCController.joinEntry, wp_bind, h.wp_sendTo] at hends
                exact fun _ => hends.1
            | _ => simp [Json.isString]
      | _ => simpa using answersOnce_sendHttpResp.mpr rfl

theorem answersOnce_evtHttpChannelJoin (env : Surroundings) (body : String)
    (c : IRCController) : AnswersOnce (IRCController.evtHttpChannelJoin env body) c ↔
      UsableIrc env c body .channelJoin := by
  refine answersOnce_members (fun hnone => by simp [not_requested hnone])
    fun req account hreq hnavigable haccount => ?_
  simp only [haccount, Option.some.injEq, forall_eq']
  rw [answersOnce_readState]
  cases account with
  | string name => exact answersOnce_joinChannels hreq hnavigable _
  | number id => exact answersOnce_joinChannels hreq hnavigable _
  | _ => simpa [IRCController.messageClient] using answersOnce_sendHttpResp.mpr rfl

theorem SameClients.leaveAll (h : SameClients c s) (chan : String)
    (halive : ∀ entry ∈ c.ircClientsByName.entries, Alive c entry.2) :
    wp False (IRCController.leaveAll chan) s fun _ => SameClients c := by
  rw [IRCController.leaveAll, wp_bind, wp_readState, h.byName]
  refine wp_foldlM (SameClients c) h fun entry hentry _ s h => ?_
  exact h.wp_sendTo.mpr ⟨halive entry hentry, h.send _ _⟩

theorem alive_of_leaveAll {chan : String} (h : SameClients c s)
    (hends : wp False (IRCController.leaveAll chan) s fun _ _ => True) :
    ∀ entry ∈ c.ircClientsByName.entries, Alive c entry.2 := by
  rw [IRCController.leaveAll, wp_bind, wp_readState, h.byName] at hends
  refine ((wp_foldlM_iff (fun _ _ => SameClients c) h (fun _ entry _ halive _ s h => ?_)
    (fun _ entry _ _ s h hends => ?_) fun _ _ _ => Iff.rfl).mp hends).1
  · exact h.wp_sendTo.mpr ⟨halive, h.send _ _⟩
  · exact (h.wp_sendTo.mp hends).1

theorem answersOnce_evtHttpChannelLeave (env : Surroundings) (body : String)
    (c : IRCController) : AnswersOnce (IRCController.evtHttpChannelLeave env body) c ↔
      UsableIrc env c body .channelLeave := by
  refine answersOnce_members (fun hnone => by simp [not_requested hnone])
    fun req channels hreq hnavigable hchannels => ?_
  simp only [hchannels, Option.some.injEq]
  cases channels with
  | array channels =>
      have htexts := Json.encodable_array.mp (encodable_requested hchannels)
      simp only [Json.array.injEq, forall_eq']
      refine (answersOnce_gather_iff IRCController.leaveEntry
        (fun channel => channel.isString = true →
          ∀ entry ∈ c.ircClientsByName.entries, Alive c entry.2) (fun _ => True)
        (fun done channel hchannel halive gathered s h => ?_)
        fun channel _ gathered s h hends => ?_).trans (by simp)
      · cases channel with
        | string chan =>
            rw [IRCController.leaveEntry, wp_bind]
            apply (h.same.leaveAll chan (halive rfl)).mono
            intro _ s' hs'
            exact h.assign (iff_of_true (htexts _ hchannel) trivial) rfl hs'
        | _ => exact h.skip trivial h.same
      · cases channel with
        | string chan =>
            rw [IRCController.leaveEntry, wp_bind] at hends
            exact fun _ => alive_of_leaveAll h hends
        | _ => simp [Json.isString]
  | _ => simpa using answersOnce_sendHttpResp.mpr rfl

theorem wp_messageEntry {client : ClientPtr} {text : String} {channel : Json}
    {post : OrderedMap String Json → Serving IRCController Response → Prop}
    (h : SameClients c s) :
    wp False (IRCController.messageEntry client text gathered channel) s post ↔
      ∃ chan, channel.getString = .ok chan ∧ Alive c client ∧
        post (gathered.assign chan (.boolean true))
          ⟨s.state.send client (.sendMessage chan text), s.responses⟩ := by
  rw [IRCController.messageEntry, wp_bind, wp_rethrow]
  refine exists_congr fun chan => and_congr_right fun _ => ?_
  rw [wp_bind, h.wp_sendTo]
  rfl

theorem wp_messageEntries {client : ClientPtr} (text : String) {channels : List Json}
    (h : SameClients c s) (halive : Alive c client)
    (htexts : ∀ channel ∈ channels, channel.encodable = true)
    (hstrings : ∀ channel ∈ channels, channel.isString = true) :
    wp False (channels.foldlM (IRCController.messageEntry client text) .empty) s
      fun accountBody s' =>
        SameClients c s' ∧ (Json.object accountBody.entries).encodable = true := by
  refine wp_foldlM_acc (fun (accountBody : OrderedMap String Json) s' =>
    SameClients c s' ∧ (Json.object accountBody.entries).encodable = true)
    ⟨h, encodable_empty⟩ fun channel hchannel accountBody s' hs' => ?_
  obtain ⟨chan, hchan⟩ := Json.isString_iff.mp (hstrings channel hchannel)
  have hutf8 : utf8 chan = true := by
    cases channel with
    | string text => exact Except.ok.inj hchan ▸ htexts _ hchannel
    | _ => cases hchan
  exact (wp_messageEntry hs'.1).mpr
    ⟨chan, hchan, halive, hs'.1.send _ _, encodable_assign hs'.2 hutf8 rfl⟩

theorem strings_of_messageEntries {client : ClientPtr} {text : String} {channels : List Json}
    (h : SameClients c s) (halive : Alive c client)
    (hends : wp False (channels.foldlM (IRCController.messageEntry client text) .empty) s
      fun _ _ => True) : ∀ channel ∈ channels, channel.isString = true := by
  refine ((wp_foldlM_iff (fun _ _ => SameClients c) h
    (fun _ channel _ hstring accountBody s h => ?_)
    (fun _ channel _ accountBody s h hends => ?_) fun _ _ _ => Iff.rfl).mp hends).1
  · obtain ⟨chan, hchan⟩ := Json.isString_iff.mp hstring
    exact (wp_messageEntry h).mpr ⟨chan, hchan, halive, h.send _ _⟩
  · obtain ⟨chan, hchan, -⟩ := (wp_messageEntry h).mp hends
    exact Json.isString_iff.mpr ⟨chan, hchan⟩

/-- The accounts pass that have no client, and all when the channels are strings. -/
theorem answersOnce_messageAccounts (text : String) {accounts channels : List Json}
    (htexts : ∀ channel ∈ channels, channel.encodable = true) :
    AnswersOnce (do
        let body ← accounts.foldlM (IRCController.messageAccount text channels) .empty
        sendHttpResp 200 (.dumped (.object body.entries))) c ↔
      ∀ account ∈ accounts, ∀ p, c.messageClient account = some p →
        (Alive c p ∧ ∀ channel ∈ channels, channel.isString = true) ∧
          utf8 (c.nickname p) = true := by
  refine (answersOnce_gather_iff (IRCController.messageAccount text channels)
    (fun account => ∀ p, c.messageClient account = some p →
      Alive c p ∧ ∀ channel ∈ channels, channel.isString = true)
    (fun account => ∀ p, c.messageClient account = some p → utf8 (c.nickname p) = true)
    (fun done account _ hgood gathered s h => ?_) fun account _ gathered s h hends => ?_).trans
    (by simp only [imp_and, forall_and])
  · rw [IRCController.messageAccount, wp_bind, wp_readState, h.same.messageClient]
    cases hclient : c.messageClient account with
    | none => exact h.skip (by simp [hclient]) h.same
    | some client =>
        obtain ⟨halive, hstrings⟩ := hgood client hclient
        rw [wp_bind, h.same.wp_use]
        refine ⟨halive, ?_⟩
        rw [wp_bind]
        apply (wp_messageEntries text h.same halive htexts hstrings).mono
        rintro accountBody s' ⟨hs', hencodable⟩
        exact h.assign (by simp [hclient, h.same.nickname]) hencodable hs'
  · rw [IRCController.messageAccount, wp_bind, wp_readState, h.messageClient] at hends
    intro p hp
    rw [hp, wp_bind, h.wp_use] at hends
    obtain ⟨halive, hrest⟩ := hends
    rw [wp_bind] at hrest
    exact ⟨halive, strings_of_messageEntries h halive (hrest.mono fun _ _ _ => trivial)⟩

theorem answersOnce_evtHttpChannelMessage (env : Surroundings) (body : String)
    (c : IRCController) : AnswersOnce (IRCController.evtHttpChannelMessage env body) c ↔
      UsableIrc env c body .channelMessage := by
  refine answersOnce_members (fun hnone => by simp [not_requested hnone])
    fun req text hreq hnavigable htext => ?_
  obtain ⟨accounts, -, haccounts⟩ := exists_requested hreq hnavigable "accounts"
  obtain ⟨channels, -, hchannels⟩ := exists_requested hreq hnavigable "channels"
  simp only [htext, haccounts, hchannels, Option.some.injEq]
  cases text with
  | string text =>
      rw [answersOnce_read hreq hnavigable haccounts]
      simp only [Json.string.injEq, forall_eq']
      cases accounts with
      | array accounts =>
          simp only [Json.array.injEq, forall_eq']
          rw [answersOnce_read hreq hnavigable hchannels]
          cases channels with
          | array channels =>
              simp only [Json.array.injEq, forall_eq']
              exact answersOnce_messageAccounts text
                (Json.encodable_array.mp (encodable_requested hchannels))
          | _ => simpa using answersOnce_sendHttpResp.mpr rfl
      | _ => simpa using answersOnce_sendHttpResp.mpr rfl
  | _ => simpa using answersOnce_sendHttpResp.mpr rfl

theorem encodable_accountBody {id : Int} {result : String} (hresult : utf8 result = true) :
    (IRCController.accountBody id result).encodable = true := by
  have hkeys : utf8 "id" = true ∧ utf8 "result" = true := ⟨by rfl, by rfl⟩
  simp [IRCController.accountBody, Body.encodable, Json.encodable, Json.encodableMembers, hkeys,
    hresult]

theorem answersOnce_evtHttpAccountAdd (env : Surroundings) (body : String) (c : IRCController) :
    AnswersOnce (IRCController.evtHttpAccountAdd env body) c ↔
      UsableIrc env c body .accountAdd := by
  rw [IRCController.evtHttpAccountAdd, answersOnce_withId (by rfl), UsableIrc]
  refine and_congr_right fun _ => forall_congr' fun id => imp_congr_right fun _ => ?_
  rw [answersOnce_readState]
  cases c.getIrcClientById id with
  | some client => simpa using answersOnce_sendHttpResp.mpr rfl
  | none =>
      simp only [forall_const]
      rw [answersOnce_ping, and_iff_left_iff_imp]
      intro _
      by_cases hfound : (loadAccount env.db id).id = 0
      · simp only [hfound, if_true]
        exact answersOnce_sendHttpResp.mpr (by rfl)
      · simp only [hfound, if_false]
        exact answersOnce_update.mpr (encodable_accountBody (by rfl))

theorem answersOnce_use {p : ClientPtr} {f : Unit → Serve IRCController Unit} :
    AnswersOnce (IRCController.use p >>= f) c ↔ Alive c p ∧ AnswersOnce (f ()) c := by
  rw [AnswersOnce, wp_bind, (sameClients_start c).wp_use]

theorem answersOnce_evtHttpAccountRemove (env : Surroundings) (body : String)
    (c : IRCController) : AnswersOnce (IRCController.evtHttpAccountRemove env body) c ↔
      UsableIrc env c body .accountRemove := by
  rw [IRCController.evtHttpAccountRemove, answersOnce_withId (by rfl), UsableIrc]
  refine and_congr_right fun _ => forall_congr' fun id => imp_congr_right fun _ => ?_
  rw [answersOnce_readState]
  cases c.getIrcClientById id with
  | none => simpa using answersOnce_sendHttpResp.mpr rfl
  | some client =>
      simp only [Option.some.injEq, forall_eq']
      rw [answersOnce_use, and_iff_left]
      exact answersOnce_update.mpr (encodable_accountBody (by rfl))

theorem answersOnce_evtHttpAccountReload (env : Surroundings) (body : String)
    (c : IRCController) : AnswersOnce (IRCController.evtHttpAccountReload env body) c ↔
      UsableIrc env c body .accountReload := by
  rw [IRCController.evtHttpAccountReload, answersOnce_withId (by rfl), UsableIrc]
  refine and_congr_right fun _ => forall_congr' fun id => imp_congr_right fun _ => ?_
  rw [answersOnce_readState]
  cases c.getIrcClientById id with
  | none => simpa using answersOnce_sendHttpResp.mpr rfl
  | some client =>
      simp only [Option.some.injEq, forall_eq']
      rw [answersOnce_use, answersOnce_ping, and_iff_left (a := env.Reaches (accountRequest id))]
      exact answersOnce_update.mpr (encodable_accountBody (by rfl))

theorem answersOnce_irc (env : Surroundings) (body : String) (request : IrcRequest)
    (c : IRCController) :
    AnswersOnce (IRCController.evtHttp env body request) c ↔ UsableIrc env c body request := by
  cases request with
  | reload => exact answersOnce_evtHttpReload env c body
  | custom => exact answersOnce_evtHttpCustom env body c
  | channelJoin => exact answersOnce_evtHttpChannelJoin env body c
  | channelLeave => exact answersOnce_evtHttpChannelLeave env body c
  | channelMessage => exact answersOnce_evtHttpChannelMessage env body c
  | accountAdd => exact answersOnce_evtHttpAccountAdd env body c
  | accountRemove => exact answersOnce_evtHttpAccountRemove env body c
  | accountReload => exact answersOnce_evtHttpAccountReload env body c

end Accounts

end TwitchChatWorker.AccountAnswers
