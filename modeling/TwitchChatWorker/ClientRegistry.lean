import TwitchChatWorker.IrcClientSteps
import TwitchChatWorker.IrcController
import TwitchChatWorker.Lib.Runs

/-!
The two maps of `IRCController`, by name and by id, against the clients they
point to.  A client changes its own name when it handles a `Reload`.
-/

namespace TwitchChatWorker.ClientRegistry

open TwitchChatWorker.DBController
open TwitchChatWorker.HttpRequests
open TwitchChatWorker.IrcClient
open TwitchChatWorker.IrcClientSteps
open TwitchChatWorker.IrcController
open TwitchChatWorker.JsonValues
open TwitchChatWorker.Lib.Handlers
open TwitchChatWorker.Lib.OrderedMaps
open TwitchChatWorker.Lib.Runs

/-- Both maps point to running clients, under their current ids and names. -/
structure Consistent (c : IRCController) : Prop where
  running_name : ∀ name p, c.getIrcClient name = some p → (p, Message.shutdown) ∉ c.sent
  running_id : ∀ id p, c.getIrcClientById id = some p → (p, Message.shutdown) ∉ c.sent
  id_eq : ∀ id p, c.getIrcClientById id = some p → (c.clients p).cliConfig.id = id
  name_iff : ∀ name p, c.getIrcClient name = some p ↔
    (∃ id, c.getIrcClientById id = some p) ∧ c.nickname p = name

/-- No client has a `Reload` to handle. -/
def NoReloadPending (c : IRCController) : Prop :=
  ∀ p, p < c.allocated → ∀ m ∈ (c.clients p).pending, m.isReload = false

/-- The maps are right whenever no reload is on its way. -/
def ConsistentAtRest (c : IRCController) : Prop := NoReloadPending c → Consistent c

/-- The account that an event adds. -/
def added? (c : IRCController) : IrcController.Event → Option IRCClientConfig
  | .http env .accountAdd body =>
      match requestedId env body with
      | none => none
      | some id =>
          if c.getIrcClientById id = none ∧ (loadAccount env.db id).id ≠ 0 then
            some (loadAccount env.db id)
          else none
  | _ => none

/-- The client that handles a `Reload` in the event, with the new configuration. -/
def reloaded? (c : IRCController) : IrcController.Event → Option (ClientPtr × IRCClientConfig)
  | .client p event =>
      match (c.clients p).handled event with
      | some (.reload config) => some (p, config)
      | _ => none
  | _ => none

/-- No account is added under a name that is in use. -/
def AddsFresh (t : Transition IRCController IrcController.Event) : Prop :=
  ∀ account ∈ added? t.pre t.event, t.pre.getIrcClient account.nick = none

/-- A reload keeps the id and the name of the account. -/
def ReloadsSame (t : Transition IRCController IrcController.Event) : Prop :=
  ∀ reload ∈ reloaded? t.pre t.event, ∀ entry ∈ t.pre.ircClientsById.entries,
    entry.2 = reload.1 → reload.2.id = entry.1 ∧ reload.2.nick = t.pre.nickname reload.1

/-- The active accounts have different ids and names, and so have those that
are loaded by their id. -/
structure UniqueUsernames (db : Database) : Prop where
  accounts : (loadAccounts db).Pairwise fun a b => a.id ≠ b.id ∧ a.nick ≠ b.nick
  account : ∀ id id', loadAccount db id ≠ {} → loadAccount db id' ≠ {} →
    (loadAccount db id).nick = (loadAccount db id').nick → id = id'

/-- The database that a request works with. -/
def database? : IrcController.Event → Option Database
  | .http env _ _ => some env.db
  | _ => none

/-- The invariant behind `Consistent`: pointers are handed out once. -/
structure Registry (c : IRCController) : Prop where
  consistent : Consistent c
  registered_lt : ∀ id p, c.getIrcClientById id = some p → p < c.allocated
  shutdown_lt : ∀ p, (p, Message.shutdown) ∈ c.sent → p < c.allocated

theorem shutdown_mem_send {c : IRCController} {p q : ClientPtr} {m : Message}
    (hm : m ≠ .shutdown) :
    (q, Message.shutdown) ∈ (c.send p m).sent ↔ (q, Message.shutdown) ∈ c.sent := by
  simp [IRCController.send, Ne.symm hm]

/-- Only a `Shutdown` sent to a client matters to the maps. -/
theorem Registry.send {c : IRCController} (h : Registry c) {p : ClientPtr} {m : Message}
    (hm : m ≠ .shutdown) : Registry (c.send p m) where
  consistent :=
    { running_name := fun name q hq => (shutdown_mem_send hm).not.mpr
        (h.consistent.running_name name q hq)
      running_id := fun id q hq => (shutdown_mem_send hm).not.mpr
        (h.consistent.running_id id q hq)
      id_eq := fun id q hq => by
        rw [IRCController.cliConfig_send]
        exact h.consistent.id_eq id q hq
      name_iff := fun name q => by
        rw [IRCController.nickname_send]
        exact h.consistent.name_iff name q }
  registered_lt := h.registered_lt
  shutdown_lt := fun q hq => h.shutdown_lt q ((shutdown_mem_send hm).mp hq)

theorem getIrcClient_addNewIrcClient {c : IRCController} {env : Surroundings}
    {account : IRCClientConfig} (hname : c.getIrcClient account.nick = none) (name : String) :
    (IRCController.addNewIrcClient env c account).getIrcClient name =
      if name = account.nick then some c.allocated else c.getIrcClient name := by
  simp only [IRCController.getIrcClient] at hname ⊢
  simp only [IRCController.addNewIrcClient, OrderedMap.find?_emplace, hname, Option.getD_none]

theorem getIrcClientById_addNewIrcClient {c : IRCController} {env : Surroundings}
    {account : IRCClientConfig} (hid : c.getIrcClientById account.id = none) (id : Int) :
    (IRCController.addNewIrcClient env c account).getIrcClientById id =
      if id = account.id then some c.allocated else c.getIrcClientById id := by
  simp only [IRCController.getIrcClientById] at hid ⊢
  simp only [IRCController.addNewIrcClient, OrderedMap.find?_emplace, hid, Option.getD_none]

theorem cliConfig_addNewIrcClient (c : IRCController) (env : Surroundings)
    (account : IRCClientConfig) (p : ClientPtr) :
    ((IRCController.addNewIrcClient env c account).clients p).cliConfig =
      if p = c.allocated then account else (c.clients p).cliConfig := by
  by_cases hp : p = c.allocated
  · obtain ⟨hview, -⟩ := soEvtStart_spec c.config account
      { now := env.now, loadedChannels := loadChannelsFor env.db account.id }
    rw [if_pos hp, hp]
    simp only [IRCController.addNewIrcClient, Function.update_self]
    exact congrArg View.cliConfig hview
  · simp [IRCController.addNewIrcClient, hp]

theorem Registry.getIrcClient_lt {c : IRCController} (h : Registry c) {name : String}
    {p : ClientPtr} (hp : c.getIrcClient name = some p) : p < c.allocated := by
  obtain ⟨⟨id, hid⟩, -⟩ := (h.consistent.name_iff name p).mp hp
  exact h.registered_lt id p hid

theorem Registry.addNewIrcClient {c : IRCController} (h : Registry c) {env : Surroundings}
    {account : IRCClientConfig} (hid : c.getIrcClientById account.id = none)
    (hname : c.getIrcClient account.nick = none) :
    Registry (IRCController.addNewIrcClient env c account) := by
  have hfresh : (c.allocated, Message.shutdown) ∉ c.sent :=
    fun hsent => lt_irrefl _ (h.shutdown_lt c.allocated hsent)
  refine ⟨⟨fun name p hp => ?_, fun id p hp => ?_, fun id p hp => ?_, fun name p => ?_⟩,
    fun id p hp => ?_, fun p hp => Nat.lt_succ_of_lt (h.shutdown_lt p hp)⟩
  · rw [getIrcClient_addNewIrcClient hname] at hp
    split_ifs at hp
    · obtain rfl := Option.some.inj hp
      exact hfresh
    · exact h.consistent.running_name name p hp
  · rw [getIrcClientById_addNewIrcClient hid] at hp
    split_ifs at hp
    · obtain rfl := Option.some.inj hp
      exact hfresh
    · exact h.consistent.running_id id p hp
  · rw [getIrcClientById_addNewIrcClient hid] at hp
    rw [cliConfig_addNewIrcClient]
    split_ifs at hp with heq
    · obtain rfl := Option.some.inj hp
      rw [if_pos rfl, heq]
    · rw [if_neg (h.registered_lt id p hp).ne]
      exact h.consistent.id_eq id p hp
  · rw [getIrcClient_addNewIrcClient hname]
    simp only [getIrcClientById_addNewIrcClient hid, IRCController.nickname,
      cliConfig_addNewIrcClient]
    by_cases hp : p = c.allocated
    · subst hp
      have hold : ∀ id, c.getIrcClientById id ≠ some c.allocated :=
        fun id hid => lt_irrefl _ (h.registered_lt id _ hid)
      have hold' : c.getIrcClient name ≠ some c.allocated :=
        fun hname => lt_irrefl _ (h.getIrcClient_lt hname)
      rw [if_pos rfl]
      constructor
      · intro hfind
        split_ifs at hfind with heq
        · exact ⟨⟨account.id, if_pos rfl⟩, heq.symm⟩
        · exact absurd hfind hold'
      · rintro ⟨-, rfl⟩
        exact if_pos rfl
    · rw [if_neg hp]
      constructor
      · intro hfind
        split_ifs at hfind with heq
        · exact absurd (Option.some.inj hfind).symm hp
        · obtain ⟨⟨id, hfound⟩, hnick⟩ := (h.consistent.name_iff name p).mp hfind
          refine ⟨⟨id, ?_⟩, hnick⟩
          rw [if_neg]
          · exact hfound
          · rintro rfl
            simp [hid] at hfound
      · rintro ⟨⟨id, hfound⟩, hnick⟩
        split_ifs at hfound with heq
        · exact absurd (Option.some.inj hfound).symm hp
        · have hfind := (h.consistent.name_iff name p).mpr ⟨⟨id, hfound⟩, hnick⟩
          rw [if_neg]
          · exact hfind
          · rintro rfl
            simp [hname] at hfind
  · rw [getIrcClientById_addNewIrcClient hid] at hp
    split_ifs at hp
    · obtain rfl := Option.some.inj hp
      exact Nat.lt_succ_self _
    · exact Nat.lt_succ_of_lt (h.registered_lt id p hp)

theorem getIrcClient_removeClient (c : IRCController) (id : Int) (client : ClientPtr)
    (name : String) : (IRCController.removeClient id client c).getIrcClient name =
      if name = c.nickname client then none else c.getIrcClient name :=
  OrderedMap.find?_erase c.ircClientsByName (c.nickname client) name

theorem getIrcClientById_removeClient (c : IRCController) (id : Int) (client : ClientPtr)
    (key : Int) : (IRCController.removeClient id client c).getIrcClientById key =
      if key = id then none else c.getIrcClientById key :=
  OrderedMap.find?_erase c.ircClientsById id key

theorem cliConfig_removeClient (c : IRCController) (id : Int) (client p : ClientPtr) :
    ((IRCController.removeClient id client c).clients p).cliConfig = (c.clients p).cliConfig :=
  IRCController.cliConfig_send
    { c with ircClientsByName := c.ircClientsByName.erase (c.nickname client) } client p .shutdown

theorem mem_sent_removeClient {c : IRCController} {id : Int} {client p : ClientPtr} :
    (p, Message.shutdown) ∈ (IRCController.removeClient id client c).sent ↔
      (p, Message.shutdown) ∈ c.sent ∨ p = client := by
  simp [IRCController.removeClient, IRCController.send]

theorem Consistent.id_unique {c : IRCController} (h : Consistent c) {id id' : Int}
    {p : ClientPtr} (hid : c.getIrcClientById id = some p)
    (hid' : c.getIrcClientById id' = some p) : id = id' :=
  (h.id_eq id p hid).symm.trans (h.id_eq id' p hid')

theorem Registry.removeClient {c : IRCController} (h : Registry c) {id : Int}
    {client : ClientPtr} (hclient : c.getIrcClientById id = some client) :
    Registry (IRCController.removeClient id client c) := by
  have hothers : ∀ key p, (IRCController.removeClient id client c).getIrcClientById key = some p →
      c.getIrcClientById key = some p ∧ p ≠ client := by
    intro key p hp
    rw [getIrcClientById_removeClient] at hp
    split_ifs at hp with hkey
    refine ⟨hp, ?_⟩
    rintro rfl
    exact hkey (h.consistent.id_unique hp hclient)
  have hname : ∀ name p,
      (IRCController.removeClient id client c).getIrcClient name = some p ↔
        (∃ key, (IRCController.removeClient id client c).getIrcClientById key = some p) ∧
          c.nickname p = name := by
    intro name p
    rw [getIrcClient_removeClient]
    constructor
    · intro hfind
      split_ifs at hfind with heq
      obtain ⟨⟨key, hkey⟩, hnick⟩ := (h.consistent.name_iff name p).mp hfind
      refine ⟨⟨key, ?_⟩, hnick⟩
      rw [getIrcClientById_removeClient, if_neg]
      · exact hkey
      · rintro rfl
        obtain rfl : client = p := Option.some.inj (hclient.symm.trans hkey)
        exact heq hnick.symm
    · rintro ⟨⟨key, hkey⟩, hnick⟩
      obtain ⟨hkey, hne⟩ := hothers key p hkey
      have hfind := (h.consistent.name_iff name p).mpr ⟨⟨key, hkey⟩, hnick⟩
      rw [if_neg]
      · exact hfind
      · rintro rfl
        have hown := (h.consistent.name_iff (c.nickname client) client).mpr
          ⟨⟨id, hclient⟩, rfl⟩
        exact hne (Option.some.inj (hfind.symm.trans hown))
  have hrunning : ∀ key p,
      (IRCController.removeClient id client c).getIrcClientById key = some p →
        (p, Message.shutdown) ∉ (IRCController.removeClient id client c).sent := by
    intro key p hp hsent
    obtain ⟨hkey, hne⟩ := hothers key p hp
    rcases mem_sent_removeClient.mp hsent with hsent | rfl
    · exact h.consistent.running_id key p hkey hsent
    · exact hne rfl
  refine ⟨⟨fun name p hp => ?_, hrunning, fun key p hp => ?_, fun name p => ?_⟩,
    fun key p hp => h.registered_lt key p (hothers key p hp).1, fun p hp => ?_⟩
  · obtain ⟨⟨key, hkey⟩, -⟩ := (hname name p).mp hp
    exact hrunning key p hkey
  · rw [cliConfig_removeClient]
    exact h.consistent.id_eq key p (hothers key p hp).1
  · rw [IRCController.nickname, cliConfig_removeClient]
    exact hname name p
  · rcases mem_sent_removeClient.mp hp with hsent | rfl
    · exact h.shutdown_lt p hsent
    · exact h.registered_lt id p hclient

theorem keeps_sendTo {p : ClientPtr} {m : Message} (hm : m ≠ .shutdown) :
    Keeps Registry (IRCController.sendTo p m) :=
  IRCController.keeps_sendTo fun _ h => h.send hm

theorem keeps_evtHttpReload (env : Surroundings) :
    Keeps Registry (IRCController.evtHttpReload env) := by
  apply keeps_readState_bind
  intro c
  refine (keeps_foldlM fun entry _ body => ?_).bind fun body => keeps_respond _
  exact (keeps_ping env _).bind fun _ =>
    (keeps_sendTo (by simp)).bind fun _ => keeps_pure _

theorem keeps_customTo (data : String) (body : OrderedMap String Json) (key : String)
    (client : Option ClientPtr) :
    Keeps Registry (IRCController.customTo data body key client) := by
  cases client with
  | none => exact keeps_pure _
  | some client => exact (keeps_sendTo (by simp)).bind fun _ => keeps_pure _

theorem keeps_customEntry (data : String) (body : OrderedMap String Json) (account : Json) :
    Keeps Registry (IRCController.customEntry data body account) := by
  apply keeps_readState_bind
  intro c
  cases account with
  | string acc => exact keeps_customTo _ _ _ _
  | number id => exact keeps_customTo _ _ _ _
  | _ => exact keeps_pure _

theorem keeps_evtHttpCustom (env : Surroundings) (body : String) :
    Keeps Registry (IRCController.evtHttpCustom env body) := by
  refine keeps_withJson fun req => (keeps_rethrow _).bind fun data => ?_
  cases data with
  | string data =>
      apply (keeps_rethrow _).bind
      intro accounts
      cases accounts with
      | array accounts =>
          exact (keeps_foldlM fun account _ body => keeps_customEntry data body account).bind
            fun body => keeps_respond _
      | _ => exact keeps_respond _
  | _ => exact keeps_respond _

theorem keeps_joinEntry (client : ClientPtr) (body : OrderedMap String Json) (channel : Json) :
    Keeps Registry (IRCController.joinEntry client body channel) := by
  cases channel with
  | string chan => exact (keeps_sendTo (by simp)).bind fun _ => keeps_pure _
  | _ => exact keeps_pure _

theorem keeps_joinChannels (req : Json) (client : Option ClientPtr) :
    Keeps Registry (IRCController.joinChannels req client) := by
  cases client with
  | none => exact keeps_respond _
  | some client =>
      apply (keeps_rethrow _).bind
      intro channels
      cases channels with
      | array channels =>
          exact (keeps_foldlM fun channel _ body => keeps_joinEntry client body channel).bind
            fun body => keeps_respond _
      | _ => exact keeps_respond _

theorem keeps_evtHttpChannelJoin (env : Surroundings) (body : String) :
    Keeps Registry (IRCController.evtHttpChannelJoin env body) := by
  refine keeps_withJson fun req => (keeps_rethrow _).bind fun account => ?_
  apply keeps_readState_bind
  intro c
  cases account with
  | string name => exact keeps_joinChannels req _
  | number id => exact keeps_joinChannels req _
  | _ => exact keeps_respond _

theorem keeps_leaveEntry (body : OrderedMap String Json) (channel : Json) :
    Keeps Registry (IRCController.leaveEntry body channel) := by
  cases channel with
  | string chan =>
      exact (IRCController.keeps_leaveAll fun _ _ h => h.send (by simp)).bind fun _ => keeps_pure _
  | _ => exact keeps_pure _

theorem keeps_evtHttpChannelLeave (env : Surroundings) (body : String) :
    Keeps Registry (IRCController.evtHttpChannelLeave env body) := by
  refine keeps_withJson fun req => (keeps_rethrow _).bind fun channels => ?_
  cases channels with
  | array channels =>
      exact (keeps_foldlM fun channel _ body => keeps_leaveEntry body channel).bind
        fun body => keeps_respond _
  | _ => exact keeps_respond _

theorem keeps_messageAccount (text : String) (channels : List Json)
    (body : OrderedMap String Json) (account : Json) :
    Keeps Registry (IRCController.messageAccount text channels body account) := by
  apply keeps_readState_bind
  intro c
  cases c.messageClient account with
  | none => exact keeps_pure _
  | some client =>
      refine (IRCController.keeps_use client).bind fun _ =>
        (keeps_foldlM fun channel _ accountBody => ?_).bind fun accountBody => keeps_pure _
      apply (keeps_rethrow _).bind
      intro chan
      exact (keeps_sendTo (by simp)).bind fun _ => keeps_pure _

theorem keeps_evtHttpChannelMessage (env : Surroundings) (body : String) :
    Keeps Registry (IRCController.evtHttpChannelMessage env body) := by
  refine keeps_withJson fun req => (keeps_rethrow _).bind fun text => ?_
  cases text with
  | string text =>
      apply (keeps_rethrow _).bind
      intro accounts
      cases accounts with
      | array accounts =>
          apply (keeps_rethrow _).bind
          intro channels
          cases channels with
          | array channels =>
              exact (keeps_foldlM fun account _ body =>
                keeps_messageAccount text channels body account).bind fun body => keeps_respond _
          | _ => exact keeps_respond _
      | _ => exact keeps_respond _
  | _ => exact keeps_respond _

theorem ensures_evtHttpAccountAdd (env : Surroundings) (body : String) :
    Ensures (fun c => Registry c ∧ ∀ account ∈ added? c (.http env .accountAdd body),
        c.getIrcClient account.nick = none) Registry
      (IRCController.evtHttpAccountAdd env body) := by
  refine ensures_withId (fun _ h => h.1) fun id hid => ensures_readState_bind fun c => ?_
  cases hclient : c.getIrcClientById id with
  | some client => exact ensures_respond (fun _ h => h.2.1) _
  | none =>
      refine (keeps_ping env _).bind fun _ => ?_
      by_cases hfound : (loadAccount env.db id).id = 0
      · simp only [hfound, if_true]
        exact ensures_respond (fun _ h => h.2.1) _
      · simp only [hfound, if_false]
        refine (ensures_update fun c' h => ?_).bind fun _ => keeps_respond _
        obtain ⟨rfl, hregistry, hfresh⟩ := h
        have hsame : (loadAccount env.db id).id = id := by
          rcases loadAccount_id env.db id with h | h
          · exact h
          · simp [h] at hfound
        refine hregistry.addNewIrcClient (hsame.symm ▸ hclient) (hfresh _ ?_)
        simp [added?, hid, hclient, hfound]

theorem keeps_evtHttpAccountRemove (env : Surroundings) (body : String) :
    Keeps Registry (IRCController.evtHttpAccountRemove env body) := by
  refine ensures_withId (fun _ h => h) fun id _ => ensures_readState_bind fun c => ?_
  cases hclient : c.getIrcClientById id with
  | none => exact ensures_respond (fun _ h => h.2) _
  | some client =>
      refine (IRCController.keeps_use client).bind fun _ => ?_
      refine (ensures_update fun c' h => ?_).bind fun _ => keeps_respond _
      obtain ⟨rfl, hregistry⟩ := h
      exact hregistry.removeClient hclient

theorem keeps_evtHttpAccountReload (env : Surroundings) (body : String) :
    Keeps Registry (IRCController.evtHttpAccountReload env body) := by
  refine ensures_withId (fun _ h => h) fun id _ => keeps_readState_bind fun c => ?_
  cases c.getIrcClientById id with
  | none => exact keeps_respond _
  | some client =>
      exact (IRCController.keeps_use client).bind fun _ => (keeps_ping env _).bind fun _ =>
        (ensures_update fun _ h => h.send (by simp)).bind fun _ => keeps_respond _

theorem ensures_evtHttp (env : Surroundings) (body : String) (request : IrcRequest) :
    Ensures (fun c => Registry c ∧ ∀ account ∈ added? c (.http env request body),
        c.getIrcClient account.nick = none) Registry
      (IRCController.evtHttp env body request) := by
  cases request with
  | reload => exact fun s hs => keeps_evtHttpReload env s hs.1
  | custom => exact fun s hs => keeps_evtHttpCustom env body s hs.1
  | channelJoin => exact fun s hs => keeps_evtHttpChannelJoin env body s hs.1
  | channelLeave => exact fun s hs => keeps_evtHttpChannelLeave env body s hs.1
  | channelMessage => exact fun s hs => keeps_evtHttpChannelMessage env body s hs.1
  | accountAdd => exact ensures_evtHttpAccountAdd env body
  | accountRemove => exact fun s hs => keeps_evtHttpAccountRemove env body s hs.1
  | accountReload => exact fun s hs => keeps_evtHttpAccountReload env body s hs.1

theorem step_cliConfig {client client' : IRCClient} {e : IrcClient.Event}
    (hstep : client.step e = some client') :
    client'.cliConfig = client.cliConfig ∨
      client.handled e = some (.reload client'.cliConfig) := by
  have hsame : ∀ {view : View} {posted : List Message}, Became client e client' view posted →
      view.cliConfig = client.cliConfig → client'.cliConfig = client.cliConfig :=
    fun became hconfig => became.cliConfig_eq.trans hconfig
  cases step_effect hstep with
  | quiet posted became => exact .inl (hsame became rfl)
  | connected session attempt handled became => exact .inl (hsame became rfl)
  | dropped session handled cause became => exact .inl (hsame became rfl)
  | loggedIn session env capacity event allocated quota became => exact .inl (hsame became rfl)
  | echoed session channel event allocated became => exact .inl (hsame became rfl)
  | marked session channel handled became => exact .inl (hsame became rfl)
  | checked session names handled became => exact .inl (hsame became rfl)
  | joined session channel handled member connected fresh chosen became =>
      exact .inl (hsame became rfl)
  | left session channel stored env event handled found attached became =>
      exact .inl (hsame became rfl)
  | reloaded env config event handled became =>
      have hconfig : client'.cliConfig = config := became.cliConfig_eq
      exact .inr (hconfig ▸ handled)

theorem Registry.client {c : IRCController} (h : Registry c) {p : ClientPtr}
    {client : IRCClient}
    (hsame : ∀ id, c.getIrcClientById id = some p → client.cliConfig.id = id ∧
      client.cliConfig.nick = c.nickname p) :
    Registry { c with clients := Function.update c.clients p client } := by
  have hnick : ∀ q, (∃ id, c.getIrcClientById id = some q) →
      (Function.update c.clients p client q).cliConfig.nick = c.nickname q := by
    rintro q ⟨id, hid⟩
    by_cases hq : q = p
    · subst hq
      rw [Function.update_self]
      exact (hsame id hid).2
    · rw [Function.update_of_ne hq]
      rfl
  refine ⟨⟨h.consistent.running_name, h.consistent.running_id, fun id q hid => ?_,
    fun name q => (h.consistent.name_iff name q).trans ?_⟩, h.registered_lt, h.shutdown_lt⟩
  · show (Function.update c.clients p client q).cliConfig.id = id
    by_cases hq : q = p
    · subst hq
      rw [Function.update_self]
      exact (hsame id hid).1
    · rw [Function.update_of_ne hq]
      exact h.consistent.id_eq id q hid
  · apply and_congr_right
    intro hregistered
    rw [← hnick q hregistered]
    rfl

theorem Registry.step {c c' : IRCController} {e : IrcController.Event} (h : Registry c)
    (hadds : AddsFresh ⟨c, e, c'⟩) (hreloads : ReloadsSame ⟨c, e, c'⟩)
    (hstep : c.step e = some c') : Registry c' := by
  cases e with
  | http env request body =>
      have hensures := ensures_evtHttp env body request ⟨c, []⟩ ⟨h, hadds⟩
      simp only [IRCController.step] at hstep
      simp only [wp] at hensures
      split at hstep
      · next served heq =>
          obtain rfl := Option.some.inj hstep
          rw [heq] at hensures
          exact hensures
      · cases hstep
  | sendMessage user channel text =>
      simp only [IRCController.step, IRCController.evtSendMessage] at hstep
      split at hstep
      · exact Option.some.inj hstep ▸ h
      · next client _ =>
          split_ifs at hstep
          obtain rfl := Option.some.inj hstep
          have hsent := h.send (p := client) (m := .sendMessage channel text) (by simp)
          exact ⟨⟨hsent.consistent.running_name, hsent.consistent.running_id,
            hsent.consistent.id_eq, hsent.consistent.name_iff⟩, hsent.registered_lt,
            hsent.shutdown_lt⟩
  | client p event =>
      simp only [IRCController.step] at hstep
      split_ifs at hstep
      obtain ⟨client, hclient, rfl⟩ := Option.map_eq_some_iff.mp hstep
      apply h.client
      intro id hid
      rcases step_cliConfig hclient with hconfig | hreload
      · rw [hconfig]
        exact ⟨h.consistent.id_eq id p hid, rfl⟩
      · refine hreloads (p, client.cliConfig) ?_ (id, p) (OrderedMap.mem_entries_iff.mpr hid) rfl
        simp [reloaded?, hreload]
  | destroy p =>
      simp only [IRCController.step, Option.ite_none_right_eq_some, Option.some.injEq] at hstep
      obtain ⟨-, rfl⟩ := hstep
      exact ⟨⟨h.consistent.running_name, h.consistent.running_id, h.consistent.id_eq,
        h.consistent.name_iff⟩, h.registered_lt, h.shutdown_lt⟩

theorem Registry.foldl_addNewIrcClient {env : Surroundings} {accounts : List IRCClientConfig}
    {c : IRCController} (h : Registry c)
    (hdistinct : accounts.Pairwise fun a b => a.id ≠ b.id ∧ a.nick ≠ b.nick)
    (hfresh : ∀ account ∈ accounts, c.getIrcClientById account.id = none ∧
      c.getIrcClient account.nick = none) :
    Registry (accounts.foldl (IRCController.addNewIrcClient env) c) := by
  induction accounts generalizing c with
  | nil => exact h
  | cons account accounts ih =>
      rw [List.pairwise_cons] at hdistinct
      obtain ⟨hid, hname⟩ := hfresh account List.mem_cons_self
      apply ih (h.addNewIrcClient hid hname) hdistinct.2
      intro other hother
      obtain ⟨hid', hname'⟩ := hfresh other (List.mem_cons_of_mem _ hother)
      obtain ⟨hneId, hneName⟩ := hdistinct.1 other hother
      rw [getIrcClientById_addNewIrcClient hid, getIrcClient_addNewIrcClient hname,
        if_neg hneId.symm, if_neg hneName.symm]
      exact ⟨hid', hname'⟩

theorem registry_soEvtStart (config : IRCConnectionConfig) {env : Surroundings}
    (hdistinct : (loadAccounts env.db).Pairwise fun a b => a.id ≠ b.id ∧ a.nick ≠ b.nick) :
    Registry (IRCController.soEvtStart config env) := by
  refine Registry.foldl_addNewIrcClient ⟨⟨?_, ?_, ?_, ?_⟩, ?_, ?_⟩ hdistinct ?_ <;>
    simp [IRCController.getIrcClient, IRCController.getIrcClientById]

/-- In every run that keeps names, the maps and the clients agree. -/
theorem consistentAtRest_of_reloadsSame (config : IRCConnectionConfig) (env : Surroundings)
    {tr : List (Transition IRCController IrcController.Event)} {c : IRCController}
    (hrun : Run IRCController.step (.soEvtStart config env) tr c)
    (haccounts : (loadAccounts env.db).Pairwise fun a b => a.id ≠ b.id ∧ a.nick ≠ b.nick)
    (hnames : ∀ t ∈ tr, AddsFresh t ∧ ReloadsSame t) : ConsistentAtRest c := by
  intro _
  have hregistry : Registry c :=
    hrun.invariant (fun t => AddsFresh t ∧ ReloadsSame t)
      (registry_soEvtStart config haccounts)
      (fun _ _ _ h hguard hstep => h.step hguard.1 hguard.2 hstep) hnames
  exact hregistry.consistent

instance : DecidablePred AddsFresh := fun _ => inferInstanceAs (Decidable (∀ _ ∈ _, _))

instance : DecidablePred ReloadsSame := fun _ => inferInstanceAs (Decidable (∀ _ ∈ _, _))

theorem consistentAtRest_of_reloadsSame_removed :
    ConsistentAtRest ((exec IRCController.step
      (.soEvtStart {} (asking 0 fun _ => .rows [["1", "alice"]]))
      [.http (asking 2 fun _ => .rows [["bob"]]) .accountAdd "",
        .http (asking 1 fun _ => .rows [["alice"]]) .accountReload "",
        .client 0 (.handle {}), .client 0 (.handle {}),
        .http (asking 2 fun _ => .failed) .accountRemove ""]).get (by decide +kernel)) :=
  consistentAtRest_of_reloadsSame {} _ (run_trace _ (by decide +kernel)) (by decide)
    (by decide +kernel)

theorem natRepr_injective : Function.Injective Nat.repr := fun m n h => by
  have hdigits : Nat.toDigits 10 m = Nat.toDigits 10 n := by
    rw [← Nat.toList_repr, ← Nat.toList_repr, h]
  rw [← Nat.ofDigitChars_ten_toDigits (n := m), hdigits, Nat.ofDigitChars_ten_toDigits]

theorem repr_ne_minus (m n : Nat) : m.repr ≠ "-" ++ n.repr := by
  intro h
  have hminus : '-' ∈ Nat.toDigits 10 m := by
    rw [← Nat.toList_repr, h, String.toList_append]
    exact List.mem_append_left _ List.mem_cons_self
  exact absurd (Nat.isDigit_of_mem_toDigits (by decide) (by decide) hminus) (by decide)

/-- The library has this only in a part that Mathlib's smaller modules do not reach. -/
theorem intRepr_injective : Function.Injective Int.repr
  | .ofNat m, .ofNat n, h => congrArg Int.ofNat (natRepr_injective h)
  | .ofNat m, .negSucc n, h => absurd h (repr_ne_minus m (n + 1))
  | .negSucc m, .ofNat n, h => absurd h.symm (repr_ne_minus n (m + 1))
  | .negSucc m, .negSucc n, h => by
      have hrepr := natRepr_injective ((String.append_right_inj "-").mp h)
      exact congrArg Int.negSucc (Nat.succ.inj hrepr)

theorem accountRequest_injective {id id' : Int} (h : accountRequest id = accountRequest id') :
    id = id' := by
  unfold accountRequest at h
  rw [String.append_left_inj, String.append_right_inj] at h
  exact intRepr_injective h

/-- A database that answers one request only. -/
def answeringOnly (request : String) (rows : List (List String)) : Database := fun sql =>
  if sql = request then .rows rows else .failed

theorem eq_of_loadAccount_answeringOnly {request : String} {rows : List (List String)} {id : Int}
    (h : loadAccount (answeringOnly request rows) id ≠ {}) : accountRequest id = request := by
  by_contra hne
  simp [loadAccount, answeringOnly, hne] at h

theorem uniqueUsernames_answeringOnly {request : String} {rows : List (List String)}
    (haccounts : (loadAccounts (answeringOnly request rows)).Pairwise
      fun a b => a.id ≠ b.id ∧ a.nick ≠ b.nick) :
    UniqueUsernames (answeringOnly request rows) where
  accounts := haccounts
  account _ _ h h' _ := accountRequest_injective
    ((eq_of_loadAccount_answeringOnly h).trans (eq_of_loadAccount_answeringOnly h').symm)

instance : DecidablePred NoReloadPending := fun c =>
  inferInstanceAs (Decidable (∀ p, p < c.allocated → ∀ m ∈ (c.clients p).pending, _))

/-- The account is renamed in the database and reloaded. -/
theorem not_consistentAtRest_renamed :
    ¬∀ (config : IRCConnectionConfig) (env : Surroundings)
      (tr : List (Transition IRCController IrcController.Event)) (c : IRCController),
      Run IRCController.step (.soEvtStart config env) tr c → UniqueUsernames env.db →
      (∀ t ∈ tr, ∀ db ∈ database? t.event, UniqueUsernames db) → ConsistentAtRest c := by
  intro hall
  have hconsistent := hall {} (asking 0 (answeringOnly accountsRequest [["1", "alice"]])) _ _
    (run_trace [.http (asking 1 (answeringOnly (accountRequest 1) [["bob"]]))
      .accountReload "", .client 0 (.handle {}), .client 0 (.handle {})] (by decide +kernel))
    (uniqueUsernames_answeringOnly (by decide +kernel)) ?_ (by decide +kernel)
  · have hname := (hconsistent.name_iff "alice" 0).mp (by decide +kernel)
    exact absurd hname.2 (by decide +kernel)
  · intro t ht db hdb
    have hevent := event_mem_of_mem_trace ht
    simp only [List.mem_cons, List.not_mem_nil, or_false] at hevent
    rcases hevent with hevent | hevent | hevent <;> rw [hevent] at hdb
    · obtain rfl := Option.some.inj hdb
      exact uniqueUsernames_answeringOnly (by decide +kernel)
    · cases hdb
    · cases hdb

end TwitchChatWorker.ClientRegistry
