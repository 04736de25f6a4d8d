import TwitchChatWorker.IrcClientSteps
import TwitchChatWorker.Lib.Batching
import TwitchChatWorker.RequestAnswers

/-!
What a client says in the chat because another agent asked for it.  It hands the
commands to sessions of its choice in the order in which it was asked, each of
them once; the library takes a command only on a session that is connected, and
one that it refuses is lost.
-/

namespace TwitchChatWorker.ClientSpeech

open TwitchChatWorker.ChannelList
open TwitchChatWorker.DBController
open TwitchChatWorker.HttpRequests
open TwitchChatWorker.IrcClient
open TwitchChatWorker.IrcClientSteps
open TwitchChatWorker.IrcController
open TwitchChatWorker.JsonValues
open TwitchChatWorker.Lib.Batching
open TwitchChatWorker.Lib.Handlers
open TwitchChatWorker.Lib.OrderedMaps
open TwitchChatWorker.RequestAnswers

/-- What a message asks the client to say. -/
def speech? : Message → Option Method
  | .sendMessage channel text => some (.sendMessage channel text)
  | .sendIRC message => some (.sendRaw message)
  | _ => none

/-- The command that a call hands to a session. -/
def handed? (call : Call) : Option Method :=
  match call.method with
  | .sendMessage _ _ | .sendRaw _ => some call.method
  | _ => none

/-- What the client has handed over in its last step. -/
def handed (c : IRCClient) : List Method := c.calls.filterMap handed?

/-- What the library has taken in the last step, and what it has refused. -/
def took (c : IRCClient) : List Method :=
  (c.calls.filter fun call => call.result).filterMap handed?

/-- What the library has not taken of it. -/
def refused (c : IRCClient) : List Method :=
  (c.calls.filter fun call => !call.result).filterMap handed?

/-- What the client is asked to say and has not handled yet. -/
def waiting (c : IRCClient) : List Method := c.queue.filterMap speech?

/-- What the client has handed to a session in its last step, is asked to say, and
is going to be asked when a delay is over. -/
structure Speech where
  handed : List Method
  waiting : List Method
  delayed : List Method

def speech (c : IRCClient) : Speech := ⟨handed c, waiting c, c.delayed.filterMap speech?⟩

theorem took_sublist (c : IRCClient) : (took c).Sublist (handed c) :=
  List.filter_sublist.filterMap _

theorem took_eq_handed {c : IRCClient} (h : refused c = []) : took c = handed c := by
  unfold took refused handed at *
  generalize c.calls = calls at h ⊢
  induction calls with
  | nil => rfl
  | cons call calls ih =>
      cases hresult : call.result with
      | true =>
          rw [List.filter_cons_of_neg (by simp [hresult])] at h
          rw [List.filter_cons_of_pos (by simpa using hresult), List.filterMap_cons,
            List.filterMap_cons, ih h]
      | false =>
          rw [List.filter_cons_of_pos (by simp [hresult]), List.filterMap_cons] at h
          cases hcall : handed? call with
          | some command => simp [hcall] at h
          | none =>
              rw [hcall] at h
              rw [List.filter_cons_of_neg (by simp [hresult]), List.filterMap_cons, hcall]
              exact ih h

section Operations

variable {c c' : IRCClient} {session : SessionPtr}

@[simp] theorem speech_updateSession (f : IRCSession → IRCSession) :
    speech (c.updateSession session f) = speech c := rfl

@[simp] theorem speech_publish (message : Outgoing) : speech (c.publish message) = speech c := rfl

theorem speech_called {method : Method} {result : Bool}
    (hquiet : handed? ⟨session, method, result⟩ = none) :
    speech (c.called session method result) = speech c := by
  simp [speech, handed, waiting, IRCClient.called, hquiet]

theorem speech_send {m : Message} (hquiet : speech? m = none) :
    speech (c.send m) = speech c := by
  simp [speech, handed, waiting, IRCClient.send, hquiet]

theorem speech_sendDelayed {m : Message} (hquiet : speech? m = none) :
    speech (c.sendDelayed m) = speech c := by
  simp [speech, handed, waiting, IRCClient.sendDelayed, hquiet]

theorem speech_internalIrcSend {env : Env} {command : Method}
    (hquiet : ∀ result, handed? ⟨session, command, result⟩ = none) :
    speech (c.internalIrcSend env session command).2 = speech c :=
  speech_called (hquiet _)

theorem speech_foldl {α : Type} {f : IRCClient → α → IRCClient}
    (hf : ∀ c a, speech (f c a) = speech c) (l : List α) (c : IRCClient) :
    speech (l.foldl f c) = speech c := by
  induction l generalizing c with
  | nil => rfl
  | cons a l ih => exact (ih (f c a)).trans (hf c a)

@[simp] theorem speech_sessionOnDisconnected (reason : String) :
    speech (c.sessionOnDisconnected session reason) = speech c :=
  speech_send rfl

theorem speech_addNewSessions (c : IRCClient) (env : Env) (n : Nat) :
    speech (c.addNewSessions env n) = speech c := by
  induction n generalizing c with
  | zero => rfl
  | succ n ih =>
      have hone : speech (c.addNewSession env) = speech c := speech_send rfl
      exact (ih (c.addNewSession env)).trans hone

theorem speech_searchConnected {fuel : Nat} {last found : Option SessionPtr}
    (h : IRCClient.searchConnected fuel c last = some (found, c')) : speech c' = speech c := by
  induction fuel generalizing c last with
  | zero =>
      obtain ⟨-, rfl⟩ : last = found ∧ c = c' := by simpa [IRCClient.searchConnected] using h
      rfl
  | succ fuel ih =>
      simp only [IRCClient.searchConnected, IRCClient.getNextSessionRoundRobin] at h
      split at h
      · cases h
      next looked c₁ hnext =>
        split at hnext
        · cases hnext
        next i cursor _ =>
          split at hnext
          · cases hnext
          next stored _ =>
            obtain ⟨rfl, rfl⟩ : stored = looked ∧
                { c with curSessionRoundRobin := cursor } = c₁ := by
              simpa using hnext
            have hcalled (result : Bool) : speech (IRCClient.called
                { c with curSessionRoundRobin := cursor } stored .connected result) = speech c :=
              speech_called rfl
            split_ifs at h
            · obtain ⟨-, rfl⟩ : some stored = found ∧ _ = c' := by simpa using h
              exact hcalled _
            · exact (ih h).trans (hcalled _)

end Operations

section Handlers

variable {c c' : IRCClient} {env : Env}

theorem speech_evtConnect (session : SessionPtr) (attempt : Int) :
    speech (c.evtConnect env session attempt) = speech c := by
  simp only [IRCClient.evtConnect, IRCClient.connectSession]
  split_ifs
  · exact speech_called rfl
  · rw [speech_sendDelayed rfl, speech_updateSession, speech_called rfl, speech_called rfl]
  · contradiction
  · contradiction
  · rw [speech_sendDelayed rfl, speech_called rfl, speech_called rfl]

theorem speech_evtLoggedInCheck (session : SessionPtr) :
    speech (c.evtLoggedInCheck session) = speech c := by
  simp only [IRCClient.evtLoggedInCheck]
  split_ifs
  · exact speech_called rfl
  · rw [speech_sessionOnDisconnected, speech_called rfl, speech_called rfl]

theorem speech_evtReload (config : IRCClientConfig) :
    speech (c.evtReload env config) = speech c := by
  have hdiscard (c : IRCClient) (session : SessionPtr) :
      speech (c.discardSession session) = speech c := by
    rw [IRCClient.discardSession, speech_updateSession, speech_called rfl, speech_called rfl]
  have hall := speech_foldl hdiscard c.sessions { c with cliConfig := config }
  exact (speech_addNewSessions _ env _).trans hall

theorem speech_evtSendPING (session : SessionPtr) (host : String) :
    speech (c.evtSendPING env session host) = speech c := by
  simp only [IRCClient.evtSendPING, IRCClient.sendPing]
  split_ifs
  · rw [speech_sessionOnDisconnected, speech_called rfl]
  · rw [speech_updateSession, speech_internalIrcSend fun _ => rfl]
  · rw [speech_internalIrcSend fun _ => rfl]

theorem speech_evtJoinChannel {channel : String}
    (h : c.evtJoinChannel env channel = some c') : speech c' = speech c := by
  simp only [IRCClient.evtJoinChannel] at h
  split at h
  · cases h
  next found c₁ hsearch =>
    have hfound : speech c₁ = speech c := speech_searchConnected hsearch
    simp only [IRCClient.joinToChannel] at h
    split_ifs at h
    · exact Option.some.inj h ▸ hfound
    · split at h
      · cases h
      next session =>
        have hsent : speech (c₁.sendJoin env session channel).2 = speech c₁ :=
          speech_internalIrcSend fun _ => rfl
        split_ifs at h <;> exact Option.some.inj h ▸ hsent.trans hfound

theorem speech_evtLeaveChannel {channel : String}
    (h : c.evtLeaveChannel env channel = some c') : speech c' = speech c := by
  simp only [IRCClient.evtLeaveChannel, IRCClient.leaveFromChannel] at h
  split at h
  · exact Option.some.inj h ▸ rfl
  next left channels _ =>
    split at h
    · cases h
    next session _ =>
      obtain rfl := Option.some.inj h
      exact speech_internalIrcSend (c := { c with channels := channels }) fun _ => rfl

theorem speech_evtCheckJoinedChannels (session : SessionPtr) (channels : List String) :
    speech (c.evtCheckJoinedChannels env session channels) = speech c := by
  simp only [IRCClient.evtCheckJoinedChannels]
  split_ifs
  · rfl
  · have hrejoin (c : IRCClient) (channel : String) :
        speech (IRCClient.rejoin env session c channel) = speech c :=
      (speech_internalIrcSend fun _ => rfl).trans (speech_internalIrcSend fun _ => rfl)
    exact (speech_sendDelayed rfl).trans (speech_foldl hrejoin _ c)

theorem speech_evtGatherStats : speech c.evtGatherStats = speech c := by
  have hgets : (((c.channels.channels.entries.filterMap fun entry => entry.2.session).map
      fun session => ({ session := session, method := .getId, result := true } : Call)).filterMap
        handed?) = [] := by
    rw [List.filterMap_map, List.filterMap_eq_nil_iff]
    exact fun _ _ => rfl
  have hspoken : handed c.evtGatherStats = handed c := by
    rw [handed, handed, IRCClient.evtGatherStats, IRCClient.publish, List.filterMap_append, hgets,
      List.append_nil]
  exact congrArg (fun said => { speech c with handed := said : Speech }) hspoken

/-- A command goes to a session of the client, which takes it only if connected. -/
def OnSession (c : IRCClient) (call : Call) : Prop :=
  call.session ∈ c.sessions ∧ (call.result = true → (c.heap call.session).connected = true)

theorem sendOnNext_spec {command : Method}
    (hspoken : ∀ session result, handed? ⟨session, command, result⟩ = some command)
    (h : c.sendOnNext env command = some c') :
    speech c' = ⟨handed c ++ [command], waiting c, (speech c).delayed⟩ ∧
      ∀ call ∈ c'.calls, handed? call ≠ none → call ∈ c.calls ∨ OnSession c call := by
  simp only [IRCClient.sendOnNext] at h
  split at h
  · cases h
  · cases h
  next session c₁ hsearch =>
    obtain rfl := Option.some.inj h
    obtain ⟨hcalls, hmember⟩ := getNextConnectedSessionRoundRobin_spec hsearch
    have hsame : speech c₁ = speech c := speech_searchConnected hsearch
    constructor
    · have hsaid : handed (c₁.internalIrcSend env session command).2 = handed c₁ ++ [command] := by
        simp only [handed, IRCClient.internalIrcSend, IRCClient.calls_called, List.filterMap_append,
          filterMap_singleton_toList, hspoken, Option.toList_some]
      obtain ⟨hspoken', hwaiting, hdelayed⟩ := (Speech.mk.injEq ..).mp hsame
      exact (Speech.mk.injEq ..).mpr ⟨hspoken' ▸ hsaid, hwaiting, hdelayed⟩
    · intro call hcall hhanded
      rw [IRCClient.internalIrcSend, IRCClient.calls_called, List.mem_append,
        List.mem_singleton] at hcall
      rcases hcall with hcall | rfl
      · refine (hcalls.calls call hcall).imp_right fun hkind => absurd ?_ hhanded
        simp [handed?, hkind.2]
      · refine .inr ⟨hmember session rfl, fun hresult => ?_⟩
        have hconnected : (c₁.view.flags session).connected = true :=
          (Bool.and_eq_true_iff.mp hresult).1
        rwa [hcalls.view_eq] at hconnected

theorem speech_handle {m : Message} (hquiet : speech? m = none)
    (h : c.handle env m = some c') : speech c' = speech c := by
  cases m with
  | connect session attempt => exact Option.some.inj h ▸ speech_evtConnect session attempt
  | loggedInCheck session => exact Option.some.inj h ▸ speech_evtLoggedInCheck session
  | reload config => exact Option.some.inj h ▸ speech_evtReload config
  | shutdown => exact Option.some.inj h ▸ rfl
  | joinChannel channel => exact speech_evtJoinChannel h
  | leaveChannel channel => exact speech_evtLeaveChannel h
  | sendPING session host => exact Option.some.inj h ▸ speech_evtSendPING session host
  | sendMessage channel text => cases hquiet
  | sendIRC message => cases hquiet
  | gatherStats => exact Option.some.inj h ▸ speech_evtGatherStats
  | channelJoined session channel => exact Option.some.inj h ▸ rfl
  | checkJoinedChannels session channels =>
      exact Option.some.inj h ▸ speech_evtCheckJoinedChannels session channels

theorem handle_of_speech {m : Message} {command : Method} (hspeech : speech? m = some command)
    (h : c.handle env m = some c') :
    speech c' = ⟨handed c ++ [command], waiting c, (speech c).delayed⟩ ∧
      ∀ call ∈ c'.calls, handed? call ≠ none → call ∈ c.calls ∨ OnSession c call := by
  cases m with
  | sendMessage channel text =>
      obtain rfl := Option.some.inj hspeech
      exact sendOnNext_spec (fun _ _ => rfl) h
  | sendIRC message =>
      obtain rfl := Option.some.inj hspeech
      exact sendOnNext_spec (fun _ _ => rfl) h
  | _ => cases hspeech

theorem speech_onLoggedIn {session : SessionPtr} (h : c.onLoggedIn env session = some c') :
    speech c' = speech c := by
  simp only [IRCClient.onLoggedIn] at h
  split at h
  · cases h
  next reserved channels _ =>
    obtain rfl := Option.some.inj h
    have hjoin (c : IRCClient) (channel : String) :
        speech (c.sendJoin env session channel).2 = speech c :=
      speech_internalIrcSend fun _ => rfl
    rw [speech_sendDelayed rfl, speech_updateSession, speech_called rfl, speech_foldl hjoin]
    rfl

end Handlers

/-- One step of a client by itself: it says what it was asked first, if that is
its turn, and is asked for nothing new. -/
structure Speaks (c c' : IRCClient) : Prop where
  order : waiting c = handed c' ++ waiting c'
  undelayed : (speech c').delayed = []
  member : ∀ call ∈ c'.calls, handed? call ≠ none → OnSession c call

theorem speaks_of_quiet {c c' : IRCClient} (hdelayed : (speech c).delayed = [])
    (hsame : speech c' = ⟨[], waiting c, (speech c).delayed⟩) : Speaks c c' := by
  obtain ⟨hspoken, hwaiting, hlate⟩ := (Speech.mk.injEq ..).mp hsame
  refine ⟨?_, hlate.trans hdelayed, fun call hcall hsaid => ?_⟩
  · rw [hspoken, hwaiting, List.nil_append]
  · exact absurd (List.filterMap_eq_nil_iff.mp hspoken call hcall) hsaid

theorem Speaks.step {c c' : IRCClient} {e : IrcClient.Event}
    (hdelayed : (speech c).delayed = []) (hown : IRCController.ownStep e = true)
    (hstep : c.step e = some c') : Speaks c c' := by
  simp only [IRCClient.step] at hstep
  split at hstep
  · cases hstep
  cases e with
  | handle env =>
      dsimp only at hstep
      split at hstep
      · cases hstep
      next m queue hqueue =>
        have hwaiting : waiting c = (speech? m).toList ++ queue.filterMap speech? := by
          rw [waiting, hqueue, List.filterMap_cons]
          cases speech? m <;> rfl
        cases hm : speech? m with
        | none =>
            refine speaks_of_quiet hdelayed ((speech_handle hm hstep).trans ?_)
            rw [hwaiting, hm]
            rfl
        | some command =>
            obtain ⟨hspeech, hcalls⟩ := handle_of_speech hm hstep
            obtain ⟨hspoken, hleft, hlate⟩ := (Speech.mk.injEq ..).mp hspeech
            refine ⟨?_, hlate.trans hdelayed, fun call hcall hsaid => ?_⟩
            · rw [hwaiting, hm, hspoken, hleft]
              rfl
            · exact (hcalls call hcall hsaid).resolve_left List.not_mem_nil
  | expire i =>
      dsimp only at hstep
      split at hstep
      · cases hstep
      next m hm =>
        have hmem : m ∈ c.delayed := List.mem_of_getElem? hm
        have hquiet : speech? m = none := List.filterMap_eq_nil_iff.mp hdelayed m hmem
        obtain rfl := Option.some.inj hstep
        refine speaks_of_quiet hdelayed ((speech_send hquiet).trans ?_)
        have hlate : ((c.delayed.eraseIdx i).filterMap speech?) = [] := by
          rw [List.filterMap_eq_nil_iff]
          intro m' hm'
          exact List.filterMap_eq_nil_iff.mp hdelayed m' (List.mem_of_mem_eraseIdx hm')
        simp only [speech, handed, waiting, hlate, List.filterMap_nil]
        exact congrArg (Speech.mk [] _) hdelayed.symm
  | pingTick session =>
      dsimp only at hstep
      split_ifs at hstep
      exact speaks_of_quiet hdelayed (Option.some.inj hstep ▸ speech_send rfl)
  | statsTick => exact speaks_of_quiet hdelayed (Option.some.inj hstep ▸ speech_send rfl)
  | receive m => cases hown
  | onLoggedIn session env =>
      dsimp only at hstep
      split_ifs at hstep
      exact speaks_of_quiet hdelayed (speech_onLoggedIn hstep)
  | onDisconnected session reason =>
      dsimp only at hstep
      split_ifs at hstep
      exact speaks_of_quiet hdelayed (Option.some.inj hstep ▸ speech_sessionOnDisconnected reason)
  | onJoined session channel =>
      dsimp only at hstep
      split_ifs at hstep
      exact speaks_of_quiet hdelayed (Option.some.inj hstep ▸ speech_send rfl)
  | onPong session now =>
      dsimp only at hstep
      split_ifs at hstep
      exact speaks_of_quiet hdelayed (Option.some.inj hstep ▸ rfl)

/-- A property of the controller that only a message which makes a client say
something can end. -/
structure Kept (inv : IRCController → Prop) : Prop where
  send : ∀ {c : IRCController} (p : ClientPtr) {m : Message}, speech? m = none → inv c →
    inv (c.send p m)
  add : ∀ {c : IRCController} (env : Surroundings) (account : IRCClientConfig), inv c →
    inv (IRCController.addNewIrcClient env c account)
  remove : ∀ {c : IRCController} (id : Int) (client : ClientPtr), inv c →
    inv (IRCController.removeClient id client c)

section QuietRequests

variable {inv : IRCController → Prop}

theorem Kept.keeps_sendTo (h : Kept inv) (p : ClientPtr) {m : Message} (hm : speech? m = none) :
    Keeps inv (IRCController.sendTo p m) :=
  IRCController.keeps_sendTo fun _ hc => h.send p hm hc

theorem Kept.evtHttpReload (h : Kept inv) (env : Surroundings) :
    Keeps inv (IRCController.evtHttpReload env) := by
  apply keeps_readState_bind
  intro c
  refine (keeps_foldlM fun entry _ body => ?_).bind fun body => keeps_respond _
  exact (keeps_ping env _).bind fun _ => (h.keeps_sendTo entry.2 rfl).bind fun _ => keeps_pure _

theorem Kept.joinChannels (h : Kept inv) (req : Json) (client : Option ClientPtr) :
    Keeps inv (IRCController.joinChannels req client) := by
  cases client with
  | none => exact keeps_respond _
  | some client =>
      refine (keeps_rethrow _).bind fun channels => ?_
      cases channels with
      | array channels =>
          refine (keeps_foldlM fun channel _ body => ?_).bind fun body => keeps_respond _
          cases channel with
          | string chan => exact (h.keeps_sendTo client rfl).bind fun _ => keeps_pure _
          | _ => exact keeps_pure _
      | _ => exact keeps_respond _

theorem Kept.evtHttpChannelJoin (h : Kept inv) (env : Surroundings) (body : String) :
    Keeps inv (IRCController.evtHttpChannelJoin env body) := by
  refine keeps_withJson fun req => (keeps_rethrow _).bind fun account => ?_
  apply keeps_readState_bind
  intro c
  cases account with
  | string name => exact h.joinChannels req _
  | number id => exact h.joinChannels req _
  | _ => exact keeps_respond _

theorem Kept.evtHttpChannelLeave (h : Kept inv) (env : Surroundings) (body : String) :
    Keeps inv (IRCController.evtHttpChannelLeave env body) := by
  refine keeps_withJson fun req => (keeps_rethrow _).bind fun channels => ?_
  cases channels with
  | array channels =>
      refine (keeps_foldlM fun channel _ body => ?_).bind fun body => keeps_respond _
      cases channel with
      | string chan =>
          exact (IRCController.keeps_leaveAll fun _ p hc => h.send p rfl hc).bind
            fun _ => keeps_pure _
      | _ => exact keeps_pure _
  | _ => exact keeps_respond _

theorem Kept.evtHttpAccountAdd (h : Kept inv) (env : Surroundings) (body : String) :
    Keeps inv (IRCController.evtHttpAccountAdd env body) := by
  refine ensures_withId (fun _ hc => hc) fun id _ => keeps_readState_bind fun c => ?_
  cases c.getIrcClientById id with
  | some client => exact keeps_respond _
  | none =>
      refine (keeps_ping env _).bind fun _ => ?_
      by_cases hfound : (loadAccount env.db id).id = 0
      · simp only [hfound, if_true]
        exact keeps_respond _
      · simp only [hfound, if_false]
        exact (ensures_update fun _ hc => h.add env _ hc).bind fun _ => keeps_respond _

theorem Kept.evtHttpAccountRemove (h : Kept inv) (env : Surroundings) (body : String) :
    Keeps inv (IRCController.evtHttpAccountRemove env body) := by
  refine ensures_withId (fun _ hc => hc) fun id _ => keeps_readState_bind fun c => ?_
  cases c.getIrcClientById id with
  | none => exact keeps_respond _
  | some client =>
      exact (IRCController.keeps_use client).bind fun _ =>
        (ensures_update fun _ hc => h.remove id client hc).bind fun _ => keeps_respond _

theorem Kept.evtHttpAccountReload (h : Kept inv) (env : Surroundings) (body : String) :
    Keeps inv (IRCController.evtHttpAccountReload env body) := by
  refine ensures_withId (fun _ hc => hc) fun id _ => keeps_readState_bind fun c => ?_
  cases c.getIrcClientById id with
  | none => exact keeps_respond _
  | some client =>
      exact (IRCController.keeps_use client).bind fun _ => (keeps_ping env _).bind fun _ =>
        (ensures_update fun _ hc => h.send client rfl hc).bind fun _ => keeps_respond _

end QuietRequests

/-- What the accounts of a request are told to say, of which only those with a
client are told. -/
def told (c : IRCController) (commands : List Method) (accounts : List Json) (p : ClientPtr) :
    List Method :=
  accounts.flatMap fun account => if c.messageClient account = some p then commands else []

/-- What a request to send a text makes of a channel in its list. -/
def messageTo (text : String) : Json → Option Method
  | .string channel => some (.sendMessage channel text)
  | _ => none

/-- What a request makes a client say. -/
def requested (c : IRCController) (env : Surroundings) (body : String) (p : ClientPtr) :
    IrcRequest → List Method
  | .custom =>
      match env.parse body with
      | none => []
      | some req =>
          match req.member "data", req.member "accounts" with
          | .ok (.string data), .ok (.array accounts) => told c [.sendRaw data] accounts p
          | _, _ => []
  | .channelMessage =>
      match env.parse body with
      | none => []
      | some req =>
          match req.member "text", req.member "accounts", req.member "channels" with
          | .ok (.string text), .ok (.array accounts), .ok (.array channels) =>
              told c (channels.filterMap (messageTo text)) accounts p
          | _, _, _ => []
  | _ => []

/-- Nothing to say is delayed, and the names and the ids are those of clients
that have been started. -/
structure Ready (c : IRCController) : Prop where
  undelayed : ∀ p, (speech (c.clients p)).delayed = []
  fresh : ∀ p, c.allocated ≤ p → waiting (c.clients p) = []
  names : c.ircClientsByName.Forall fun _ p => p < c.allocated
  ids : c.ircClientsById.Forall fun _ p => p < c.allocated

/-- Compared with the controller before, the clients are asked to say what
`asked` lists, after all that they had been asked to say. -/
structure Asked (before : IRCController) (asked : ClientPtr → List Method) (c : IRCController) :
    Prop where
  ready : Ready c
  waiting_eq : ∀ p, waiting (c.clients p) = waiting (before.clients p) ++ asked p

theorem Ready.asked {c : IRCController} (h : Ready c) : Asked c (fun _ => []) c :=
  ⟨h, fun _ => (List.append_nil _).symm⟩

theorem speech_clients_send (c : IRCController) (p q : ClientPtr) (m : Message) :
    speech ((c.send p m).clients q) =
      { speech (c.clients q) with
        waiting := waiting (c.clients q) ++ if q = p then (speech? m).toList else [] } := by
  simp only [IRCController.send, Function.update_apply]
  split_ifs with heq
  · subst heq
    simp only [speech, handed, waiting, IRCClient.send, List.filterMap_append,
      filterMap_singleton_toList]
  · rw [List.append_nil]
    rfl

theorem waiting_send (c : IRCController) (p q : ClientPtr) (m : Message) :
    waiting ((c.send p m).clients q) =
      waiting (c.clients q) ++ if q = p then (speech? m).toList else [] :=
  congrArg Speech.waiting (speech_clients_send c p q m)

theorem Ready.send {c : IRCController} (h : Ready c) {p : ClientPtr} {m : Message}
    (hp : speech? m = none ∨ p < c.allocated) : Ready (c.send p m) := by
  refine ⟨fun q => ?_, fun q hq => ?_, h.names, h.ids⟩
  · rw [speech_clients_send]
    exact h.undelayed q
  · rw [waiting_send, h.fresh q hq, List.nil_append]
    split_ifs with heq
    · rcases hp with hquiet | hlt
      · rw [hquiet, Option.toList_none]
      · have hle : c.allocated ≤ p := heq ▸ hq
        exact absurd hlt hle.not_gt
    · rfl

theorem Asked.send {before c : IRCController} {asked : ClientPtr → List Method}
    (h : Asked before asked c) {p : ClientPtr} {m : Message}
    (hp : speech? m = none ∨ p < c.allocated) :
    Asked before (fun q => asked q ++ if q = p then (speech? m).toList else []) (c.send p m) := by
  refine ⟨h.ready.send hp, fun q => ?_⟩
  rw [waiting_send, h.waiting_eq, List.append_assoc]

theorem speech_soEvtStart (conConfig : IRCConnectionConfig) (cliConfig : IRCClientConfig)
    (env : Env) : speech (IRCClient.soEvtStart conConfig cliConfig env) = ⟨[], [], []⟩ :=
  speech_addNewSessions _ env _

theorem Asked.add {before c : IRCController} {asked : ClientPtr → List Method}
    (h : Asked before asked c) (env : Surroundings) (account : IRCClientConfig) :
    Asked before asked (IRCController.addNewIrcClient env c account) := by
  have hclients (p : ClientPtr) :
      waiting ((IRCController.addNewIrcClient env c account).clients p) = waiting (c.clients p) ∧
        (speech ((IRCController.addNewIrcClient env c account).clients p)).delayed = [] := by
    simp only [IRCController.addNewIrcClient, Function.update_apply]
    split_ifs with heq
    · have hnew := speech_soEvtStart c.config account
        { now := env.now, loadedChannels := loadChannelsFor env.db account.id }
      exact ⟨(congrArg Speech.waiting hnew).trans (h.ready.fresh p heq.ge).symm,
        congrArg Speech.delayed hnew⟩
    · exact ⟨rfl, h.ready.undelayed p⟩
  have hnames : c.ircClientsByName.Forall fun _ p => p < c.allocated + 1 :=
    fun name p hp => Nat.lt_succ_of_lt (h.ready.names name p hp)
  have hids : c.ircClientsById.Forall fun _ p => p < c.allocated + 1 :=
    fun id p hp => Nat.lt_succ_of_lt (h.ready.ids id p hp)
  refine ⟨⟨fun p => (hclients p).2, fun p hp => ?_, ?_, ?_⟩, fun p => ?_⟩
  · exact (hclients p).1.trans (h.ready.fresh p (Nat.le_of_succ_le hp))
  · exact hnames.emplace (Nat.lt_succ_self _)
  · exact hids.emplace (Nat.lt_succ_self _)
  · exact (hclients p).1.trans (h.waiting_eq p)

theorem Asked.sendQuiet {before c : IRCController} {asked : ClientPtr → List Method}
    (h : Asked before asked c) (p : ClientPtr) {m : Message} (hm : speech? m = none) :
    Asked before asked (c.send p m) := by
  have hsent := h.send (p := p) (.inl hm)
  simp only [hm, Option.toList_none, ite_self, List.append_nil] at hsent
  exact hsent

theorem Asked.remove {before c : IRCController} {asked : ClientPtr → List Method}
    (h : Asked before asked c) (id : Int) (client : ClientPtr) :
    Asked before asked (IRCController.removeClient id client c) := by
  have hforgot : Asked before asked
      { c with ircClientsByName := c.ircClientsByName.erase (c.nickname client) } :=
    ⟨⟨h.ready.undelayed, h.ready.fresh, h.ready.names.erase _, h.ready.ids⟩, h.waiting_eq⟩
  obtain ⟨⟨hundelayed, hfresh, hnames, hids⟩, hwaiting⟩ :=
    hforgot.sendQuiet client (m := .shutdown) rfl
  exact ⟨⟨hundelayed, hfresh, hnames, hids.erase id⟩, hwaiting⟩

theorem kept_asked (before : IRCController) (asked : ClientPtr → List Method) :
    Kept (Asked before asked) where
  send p _ hm h := h.sendQuiet p hm
  add env account h := h.add env account
  remove id client h := h.remove id client

/-- While a request goes through its accounts the names and the ids stay. -/
structure Telling (before : IRCController) (asked : ClientPtr → List Method) (c : IRCController) :
    Prop where
  asked : Asked before asked c
  names : c.ircClientsByName = before.ircClientsByName
  ids : c.ircClientsById = before.ircClientsById

section Telling

variable {before : IRCController} {asked : ClientPtr → List Method}
  {s : Serving IRCController Response}

theorem Telling.messageClient {c : IRCController} (h : Telling before asked c) (account : Json) :
    c.messageClient account = before.messageClient account := by
  cases account <;> simp [IRCController.messageClient, IRCController.getIrcClient,
    IRCController.getIrcClientById, h.names, h.ids]

theorem Telling.client_lt {c : IRCController} (h : Telling before asked c) {account : Json}
    {client : ClientPtr} (hclient : before.messageClient account = some client) :
    client < c.allocated := by
  rw [← h.messageClient] at hclient
  cases account with
  | string name => exact h.asked.ready.names name client hclient
  | number id => exact h.asked.ready.ids id.getInt client hclient
  | _ => cases hclient

theorem Telling.send {c : IRCController} (h : Telling before asked c) {client : ClientPtr}
    {m : Message} {command : Method} (hm : speech? m = some command)
    (hlt : client < c.allocated) :
    Telling before (fun q => asked q ++ if q = client then [command] else [])
      (c.send client m) := by
  have hsent := h.asked.send (m := m) (.inr hlt)
  rw [hm] at hsent
  exact ⟨hsent, h.names, h.ids⟩

theorem told_append (c : IRCController) (commands : List Method) (done : List Json)
    (account : Json) (p : ClientPtr) :
    told c commands (done ++ [account]) p =
      told c commands done p ++ if c.messageClient account = some p then commands else [] := by
  rw [told, List.flatMap_append, List.flatMap_singleton]
  rfl

theorem wp_customEntry (data : String) (body : OrderedMap String Json) (account : Json)
    (h : Telling before asked s.state) :
    wp True (IRCController.customEntry data body account) s fun _ s' =>
      Telling before (fun p => asked p ++
        if before.messageClient account = some p then [.sendRaw data] else []) s'.state := by
  have hcustom (key : String) : wp True
      (IRCController.customTo data body key (before.messageClient account)) s fun _ s' =>
        Telling before (fun p => asked p ++
          if before.messageClient account = some p then [.sendRaw data] else []) s'.state := by
    cases hclient : before.messageClient account with
    | none =>
        simp only [reduceCtorEq, if_false, List.append_nil]
        exact h
    | some client =>
        have hsent := h.send (m := .sendIRC data) rfl (h.client_lt hclient)
        simp only [Option.some.injEq, eq_comm (a := client)]
        rw [IRCController.customTo, wp_bind]
        exact IRCController.wp_sendTo_of hsent
  rw [← h.messageClient account] at hcustom
  cases account with
  | string acc => exact h.messageClient (.string acc) ▸ hcustom acc
  | number id => exact h.messageClient (.number id) ▸ hcustom (toString id.getInt)
  | _ =>
      simp only [IRCController.messageClient, reduceCtorEq, if_false, List.append_nil]
      exact h

theorem wp_messageEntries (client : ClientPtr) (text : String) (channels : List Json)
    (h : Telling before asked s.state) (hlt : client < s.state.allocated) :
    wp True (channels.foldlM (IRCController.messageEntry client text) .empty) s fun _ s' =>
      Telling before (fun p => asked p ++
        if p = client then channels.filterMap (messageTo text) else []) s'.state := by
  refine (wp_foldlM_done (fun done _ s' => client < s'.state.allocated ∧ Telling before (fun p =>
    asked p ++ if p = client then done.filterMap (messageTo text) else []) s'.state)
    ⟨hlt, by simpa using h⟩ ?_).mono fun _ _ hs' => hs'.2
  intro done channel _ body s' hs'
  rw [IRCController.messageEntry, wp_bind]
  cases channel with
  | string chan =>
      rw [Json.getString, wp_rethrow_ok, wp_bind]
      refine IRCController.wp_sendTo_of ⟨hs'.1, ?_⟩
      have hsent := hs'.2.send (m := .sendMessage chan text) rfl hs'.1
      have hsame (p : ClientPtr) : ((asked p ++ if p = client then done.filterMap (messageTo text)
          else []) ++ if p = client then [Method.sendMessage chan text] else []) =
          asked p ++ if p = client then (done ++ [Json.string chan]).filterMap (messageTo text)
            else [] := by
        split_ifs
        · rw [List.filterMap_append, List.append_assoc]
          rfl
        · rw [List.append_nil]
      simp only [hsame] at hsent
      exact hsent
  | _ => exact (wp_rethrow_error _ _).mpr trivial

theorem wp_messageAccount (text : String) (channels : List Json) (body : OrderedMap String Json)
    (account : Json) (h : Telling before asked s.state) :
    wp True (IRCController.messageAccount text channels body account) s fun _ s' =>
      Telling before (fun p => asked p ++
        if before.messageClient account = some p then channels.filterMap (messageTo text)
        else []) s'.state := by
  rw [IRCController.messageAccount, wp_bind, wp_readState, h.messageClient]
  cases hclient : before.messageClient account with
  | none =>
      simp only [reduceCtorEq, if_false, List.append_nil]
      exact h
  | some client =>
      rw [wp_bind]
      refine IRCController.wp_use_of ?_
      rw [wp_bind]
      have hentries := wp_messageEntries client text channels h (h.client_lt hclient)
      simp only [Option.some.injEq, eq_comm (a := client)]
      exact hentries

theorem wp_accounts
    {f : OrderedMap String Json → Json → Serve IRCController (OrderedMap String Json)}
    {commands : List Method}
    (hf : ∀ asked body account, ∀ s : Serving IRCController Response,
      Telling before asked s.state → wp True (f body account) s fun _ s' =>
        Telling before (fun p => asked p ++
          if before.messageClient account = some p then commands else []) s'.state)
    (hready : Ready before) (accounts : List Json) :
    wp True (accounts.foldlM f .empty) ⟨before, []⟩ fun _ s' =>
      Telling before (told before commands accounts) s'.state := by
  refine wp_foldlM_done (fun done _ s' => Telling before (told before commands done) s'.state)
    ⟨hready.asked, rfl, rfl⟩ fun done account _ body s hs => ?_
  have hround := hf (told before commands done) body account s hs
  simp only [← told_append] at hround
  exact hround

end Telling

theorem asked_evtHttpCustom {c : IRCController} (h : Ready c) (env : Surroundings)
    (body : String) :
    wp True (IRCController.evtHttpCustom env body) ⟨c, []⟩ fun _ s' =>
      Asked c (fun p => requested c env body p .custom) s'.state := by
  simp only [IRCController.evtHttpCustom, withJson, requested]
  cases env.parse body with
  | none => exact h.asked
  | some req =>
      dsimp only
      rw [wp_bind]
      cases req.member "data" with
      | error e => trivial
      | ok data =>
          cases data with
          | string data =>
              rw [wp_rethrow_ok, wp_bind]
              cases req.member "accounts" with
              | error e => trivial
              | ok accounts =>
                  cases accounts with
                  | array accounts =>
                      rw [wp_rethrow_ok, wp_bind]
                      have hall := wp_accounts
                        (fun asked body account s hs => wp_customEntry data body account hs) h
                        accounts
                      exact hall.mono fun _ _ hs' => hs'.asked
                  | _ => exact h.asked
          | _ => exact h.asked

theorem asked_evtHttpChannelMessage {c : IRCController} (h : Ready c) (env : Surroundings)
    (body : String) :
    wp True (IRCController.evtHttpChannelMessage env body) ⟨c, []⟩ fun _ s' =>
      Asked c (fun p => requested c env body p .channelMessage) s'.state := by
  simp only [IRCController.evtHttpChannelMessage, withJson, requested]
  cases env.parse body with
  | none => exact h.asked
  | some req =>
      dsimp only
      rw [wp_bind]
      cases req.member "text" with
      | error e => trivial
      | ok text =>
          cases text with
          | string text =>
              rw [wp_rethrow_ok, wp_bind]
              cases req.member "accounts" with
              | error e => trivial
              | ok accounts =>
                  cases accounts with
                  | array accounts =>
                      rw [wp_rethrow_ok, wp_bind]
                      cases req.member "channels" with
                      | error e => trivial
                      | ok channels =>
                          cases channels with
                          | array channels =>
                              rw [wp_rethrow_ok, wp_bind]
                              have hall := wp_accounts
                                (fun asked body account s hs =>
                                  wp_messageAccount text channels body account hs) h accounts
                              exact hall.mono fun _ _ hs' => hs'.asked
                          | _ => exact h.asked
                  | _ => exact h.asked
          | _ => exact h.asked

/-- A request makes the clients say what it requests and nothing else. -/
theorem asked_evtHttp {c : IRCController} (h : Ready c) (env : Surroundings) (body : String)
    (request : IrcRequest) :
    wp True (IRCController.evtHttp env body request) ⟨c, []⟩ fun _ s' =>
      Asked c (fun p => requested c env body p request) s'.state := by
  have hkept := kept_asked c fun _ => []
  cases request with
  | reload => exact hkept.evtHttpReload env ⟨c, []⟩ h.asked
  | custom => exact asked_evtHttpCustom h env body
  | channelJoin => exact hkept.evtHttpChannelJoin env body ⟨c, []⟩ h.asked
  | channelLeave => exact hkept.evtHttpChannelLeave env body ⟨c, []⟩ h.asked
  | channelMessage => exact asked_evtHttpChannelMessage h env body
  | accountAdd => exact hkept.evtHttpAccountAdd env body ⟨c, []⟩ h.asked
  | accountRemove => exact hkept.evtHttpAccountRemove env body ⟨c, []⟩ h.asked
  | accountReload => exact hkept.evtHttpAccountReload env body ⟨c, []⟩ h.asked

end TwitchChatWorker.ClientSpeech
