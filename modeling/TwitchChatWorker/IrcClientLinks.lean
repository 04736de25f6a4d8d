import TwitchChatWorker.SessionLifetime

/-!
What one step of a client that is not reloaded does to the connections of its
sessions: the Connect and LoggedInCheck messages it takes and posts, the place
where it posts them, and the flags of the sessions.
-/

namespace TwitchChatWorker.IrcClientLinks

open TwitchChatWorker.ChannelList
open TwitchChatWorker.IrcClient
open TwitchChatWorker.IrcClientSteps
open TwitchChatWorker.SessionLifetime

/-- The queue once the message that the step handles is taken. -/
def rest (c : IRCClient) : Event → List Message
  | .handle _ => c.queue.tail
  | _ => c.queue

/-- The session whose connection a message is about. -/
def link? : Message → Option SessionPtr
  | .connect session _ | .loggedInCheck session => some session
  | _ => none

/-- The session that the step reports as disconnected: the library does, a
login check finds it not logged in, or its last PING is unanswered too long. -/
def reportsDrop (c : IRCClient) : Event → Option SessionPtr
  | .onDisconnected session _ => some session
  | .handle _ =>
      match c.queue.head? with
      | some (.loggedInCheck session) =>
          if (c.heap session).logged then none else some session
      | some (.sendPING session _) =>
          if (c.heap session).lastPingTime - (c.heap session).lastPongTime ≥ pingPongTimeoutMs then
            some session
          else none
      | _ => none
  | _ => none

theorem flags_connected_of_ne (view : View) {session p : SessionPtr} (h : p ≠ session) :
    (connected view session).flags p = view.flags p :=
  Function.update_of_ne h _ _

theorem flags_dropped_of_ne (view : View) {session p : SessionPtr} (h : p ≠ session) :
    (dropped view session).flags p = view.flags p :=
  Function.update_of_ne h _ _

theorem flags_loggedIn_of_ne (view : View) {session p : SessionPtr} (capacity : Nat)
    (h : p ≠ session) : (loggedIn view session capacity).flags p = view.flags p :=
  Function.update_of_ne h _ _

theorem connected_loggedIn (view : View) (session p : SessionPtr) (capacity : Nat) :
    ((loggedIn view session capacity).flags p).connected = (view.flags p).connected := by
  by_cases h : p = session
  · simp [loggedIn, h]
  · rw [flags_loggedIn_of_ne view capacity h]

/-- The messages that the step posts at once and with a delay, and the flags
that it leaves. -/
structure Posts (c : IRCClient) (e : Event) (c' : IRCClient) (sent late : List Message)
    (flags : SessionPtr → Flags) : Prop where
  queue_eq : c'.queue = rest c e ++ sent
  delayed_eq : c'.delayed = c.delayed ++ late
  flags_eq : c'.view.flags = flags

theorem queue_eq_handled_append (c : IRCClient) (e : Event) :
    c.queue = (c.handled e).toList ++ rest c e := by
  cases e with
  | handle env =>
      simp only [IRCClient.handled, rest]
      cases c.queue <;> rfl
  | _ => rfl

theorem Posts.countP {c c' : IRCClient} {e : Event} {sent late : List Message}
    {flags : SessionPtr → Flags} (h : Posts c e c' sent late flags) (p : Message → Bool) :
    c'.pending.countP p + (c.handled e).toList.countP p =
      c.pending.countP p + (sent ++ late).countP p := by
  simp only [IRCClient.pending, h.queue_eq, h.delayed_eq, List.countP_append]
  rw [queue_eq_handled_append c e, List.countP_append]
  omega

theorem countP_expired {c c' : IRCClient} {i : Nat} {m : Message}
    (hstored : c.delayed[i]? = some m) (hqueue : c'.queue = c.queue ++ [m])
    (hdelayed : c'.delayed = c.delayed.eraseIdx i) (p : Message → Bool) :
    c'.pending.countP p = c.pending.countP p := by
  obtain ⟨hi, rfl⟩ := List.getElem?_eq_some_iff.mp hstored
  have hperm := (List.getElem_cons_eraseIdx_perm hi).countP_eq p
  simp only [List.countP_cons] at hperm
  simp only [IRCClient.pending, hqueue, hdelayed, List.countP_append, List.countP_cons,
    List.countP_nil]
  omega

/-- What the step of `e` did to the connections. -/
inductive LinkStep (c : IRCClient) (e : Event) (c' : IRCClient) : Prop where
  | expired (i : Nat) (m : Message) (event : e = .expire i) (stored : c.delayed[i]? = some m)
      (queue_eq : c'.queue = c.queue ++ [m]) (delayed_eq : c'.delayed = c.delayed.eraseIdx i)
      (flags_eq : c'.view.flags = c.view.flags)
  | redundant (session : SessionPtr) (attempt : Int)
      (handled : c.handled e = some (.connect session attempt))
      (linked : (c.view.flags session).connected = true)
      (posts : Posts c e c' [] [] c.view.flags)
  | connected (session : SessionPtr) (attempt : Int)
      (handled : c.handled e = some (.connect session attempt))
      (down : (c.view.flags session).connected = false)
      (posts : Posts c e c' [] [.loggedInCheck session] (connected c.view session).flags)
  | failed (session : SessionPtr) (attempt : Int)
      (handled : c.handled e = some (.connect session attempt))
      (down : (c.view.flags session).connected = false)
      (posts : Posts c e c' [] [.connect session (IRCClient.nextAttempt c.conConfig attempt)]
        c.view.flags)
  | dropped (session : SessionPtr) (cause : reportsDrop c e = some session)
      (handled : ∀ p attempt, c.handled e ≠ some (.connect p attempt))
      (posts : Posts c e c' [.connect session 0] [] (dropped c.view session).flags)
  | loggedIn (session : SessionPtr) (env : Env) (names : List String)
      (event : e = .onLoggedIn session env)
      (posts : Posts c e c' [] [.checkJoinedChannels session names]
        (loggedIn c.view session 0).flags)
  | unlinked (sent late : List Message) (event : ∀ i, e ≠ .expire i)
      (handled : ∀ p attempt, c.handled e ≠ some (.connect p attempt))
      (checked : ∀ p, c.handled e = some (.loggedInCheck p) → (c.view.flags p).logged = true)
      (quiet : reportsDrop c e = none) (login : e.login? = none)
      (fresh : ∀ m ∈ sent ++ late, link? m = none)
      (posts : Posts c e c' sent late c.view.flags)

theorem posts_of_onlyCalls {c c' : IRCClient} (env : Env) {message : Message}
    {queue : List Message} {kind : Call → Prop} (hqueue : c.queue = message :: queue)
    (h : OnlyCalls (opened c queue) c' kind) : Posts c (.handle env) c' [] [] c.view.flags where
  queue_eq := by simpa [rest, hqueue] using h.queue_eq
  delayed_eq := by simpa using h.delayed_eq
  flags_eq := congrArg View.flags h.view_eq

theorem called_onlyCalls (c : IRCClient) (session : SessionPtr) (method : Method)
    (result : Bool) : OnlyCalls c (c.called session method result) (fun _ => True) :=
  onlyCalls_called trivial

theorem unlinked_handle {c c' : IRCClient} {env : Env} {message : Message}
    {queue : List Message} (late : List Message) (hqueue : c.queue = message :: queue)
    (hlink : link? message = none) (hping : ∀ session host, message ≠ .sendPING session host)
    (hlate : ∀ m ∈ late, link? m = none)
    (h : Posts c (.handle env) c' [] late c.view.flags) : LinkStep c (.handle env) c' := by
  have hhandled := handled_handle hqueue env
  refine .unlinked [] late (by simp) (fun p attempt heq => ?_) (fun p heq => ?_) ?_ rfl hlate h
  · obtain rfl := Option.some.inj (hhandled.symm.trans heq)
    cases hlink
  · obtain rfl := Option.some.inj (hhandled.symm.trans heq)
    cases hlink
  · cases message with
    | loggedInCheck session => cases hlink
    | sendPING session host => exact absurd rfl (hping session host)
    | _ => simp [reportsDrop, hqueue]

section Handlers

variable {c c' : IRCClient} {env : Env} {queue : List Message}

theorem link_evtConnect {session : SessionPtr} {attempt : Int}
    (hqueue : c.queue = .connect session attempt :: queue) :
    LinkStep c (.handle env) ((opened c queue).evtConnect env session attempt) := by
  have hhandled := handled_handle hqueue env
  cases hconnected : (c.heap session).connected with
  | true =>
      have heq : (opened c queue).evtConnect env session attempt =
          (opened c queue).called session .connected true := by
        simp [IRCClient.evtConnect, hconnected]
      refine .redundant session attempt hhandled hconnected ?_
      rw [heq]
      exact posts_of_onlyCalls env hqueue (called_onlyCalls _ session .connected true)
  | false =>
      cases hok : env.connectOk with
      | true =>
          refine .connected session attempt hhandled hconnected ⟨?_, ?_, ?_⟩
          all_goals simp only [IRCClient.evtConnect, IRCClient.connectSession, hconnected, hok,
            IRCClient.heap_called, heap_opened, Bool.false_eq_true, if_false, if_true]
          · simp [rest, hqueue]
          · simp
          · rw [IRCClient.view_sendDelayed, IRCClient.view_updateSession]
            rfl
      | false =>
          refine .failed session attempt hhandled hconnected ⟨?_, ?_, ?_⟩
          all_goals simp only [IRCClient.evtConnect, IRCClient.connectSession, hconnected, hok,
            IRCClient.heap_called, heap_opened, Bool.false_eq_true, if_false]
          · simp [rest, hqueue]
          · rfl
          · rfl

theorem dropped_handle {message : Message} {session : SessionPtr} {reason : String}
    {c₁ : IRCClient} (hqueue : c.queue = message :: queue)
    (hcause : reportsDrop c (.handle env) = some session)
    (hconnect : ∀ p attempt, message ≠ .connect p attempt)
    (hview : c₁.view = c.view) (hqueue₁ : c₁.queue = queue) (hdelayed : c₁.delayed = c.delayed) :
    LinkStep c (.handle env) (c₁.sessionOnDisconnected session reason) := by
  refine .dropped session hcause (fun p attempt heq => ?_) ⟨?_, ?_, ?_⟩
  · exact hconnect p attempt (Option.some.inj ((handled_handle hqueue env).symm.trans heq))
  · simp [rest, hqueue, hqueue₁]
  · simp [hdelayed]
  · rw [view_sessionOnDisconnected, hview]

theorem link_evtLoggedInCheck {session : SessionPtr}
    (hqueue : c.queue = .loggedInCheck session :: queue) :
    LinkStep c (.handle env) ((opened c queue).evtLoggedInCheck session) := by
  have hhandled := handled_handle hqueue env
  simp only [IRCClient.evtLoggedInCheck]
  split
  next hlogged =>
    refine .unlinked [] [] (by simp) (by simp [hhandled]) (fun p hp => ?_) ?_ rfl (by simp)
      (posts_of_onlyCalls env hqueue (called_onlyCalls _ session .loggedIn _))
    · obtain rfl : session = p := by simpa [hhandled] using hp
      exact hlogged
    · have hlogged' : (c.heap session).logged = true := hlogged
      simp [reportsDrop, hqueue, hlogged']
  next hlogged =>
    have hlogged' : (c.heap session).logged = false := by simpa using hlogged
    exact dropped_handle hqueue (by simp [reportsDrop, hqueue, hlogged']) (by simp) rfl rfl rfl

theorem link_evtSendPING {session : SessionPtr} {host : String}
    (hqueue : c.queue = .sendPING session host :: queue) :
    LinkStep c (.handle env) ((opened c queue).evtSendPING env session host) := by
  have hhandled := handled_handle hqueue env
  have hcalls : OnlyCalls (opened c queue)
      ((opened c queue).internalIrcSend env session (.sendPing host)).2 (fun _ => True) :=
    onlyCalls_internalIrcSend fun _ _ => trivial
  simp only [IRCClient.evtSendPING, IRCClient.sendPing]
  split
  next htimeout =>
    have htimeout' :
        (c.heap session).lastPingTime - (c.heap session).lastPongTime ≥ pingPongTimeoutMs :=
      htimeout
    refine dropped_handle hqueue ?_ (by simp) rfl rfl rfl
    simp only [reportsDrop, hqueue, List.head?_cons, if_pos htimeout']
  next htimeout =>
    have hquiet : reportsDrop c (.handle env) = none := by
      simp only [reportsDrop, hqueue, List.head?_cons]
      exact if_neg htimeout
    split
    · refine .unlinked [] [] (by simp) (by simp [hhandled]) (by simp [hhandled]) hquiet rfl
        (by simp) (posts_of_onlyCalls env hqueue
          ⟨?_, hcalls.queue_eq, hcalls.delayed_eq, hcalls.calls⟩)
      rw [IRCClient.view_updateSession, hcalls.view_eq]
      simp [IRCSession.flags, IRCClient.view, IRCClient.internalIrcSend]
    · exact .unlinked [] [] (by simp) (by simp [hhandled]) (by simp [hhandled]) hquiet rfl (by simp)
        (posts_of_onlyCalls env hqueue hcalls)

theorem link_evtJoinChannel {channel : String} (hqueue : c.queue = .joinChannel channel :: queue)
    (h : (opened c queue).evtJoinChannel env channel = some c') :
    LinkStep c (.handle env) c' := by
  simp only [IRCClient.evtJoinChannel] at h
  split at h
  · simp at h
  rename_i session c₁ hsearch
  obtain ⟨hcalls, -⟩ := getNextConnectedSessionRoundRobin_spec hsearch
  have hposts : ∀ {c₂ : IRCClient}, c₂.queue = c₁.queue → c₂.delayed = c₁.delayed →
      c₂.view.flags = c₁.view.flags → Posts c (.handle env) c₂ [] [] c.view.flags := by
    intro c₂ hqueue₂ hdelayed₂ hflags₂
    have hfirst := posts_of_onlyCalls env hqueue hcalls
    exact ⟨hqueue₂.trans hfirst.queue_eq, hdelayed₂.trans hfirst.delayed_eq,
      hflags₂.trans hfirst.flags_eq⟩
  refine unlinked_handle [] hqueue rfl (by simp) (by simp) ?_
  simp only [IRCClient.joinToChannel] at h
  split at h
  · obtain rfl := Option.some.inj h
    exact hposts rfl rfl rfl
  split at h
  · simp at h
  split at h <;> obtain rfl := Option.some.inj h <;> exact hposts rfl rfl rfl

theorem link_evtLeaveChannel {channel : String}
    (hqueue : c.queue = .leaveChannel channel :: queue)
    (h : (opened c queue).evtLeaveChannel env channel = some c') :
    LinkStep c (.handle env) c' := by
  refine unlinked_handle [] hqueue rfl (by simp) (by simp) ?_
  simp only [IRCClient.evtLeaveChannel, IRCClient.leaveFromChannel] at h
  split at h
  · obtain rfl := Option.some.inj h
    exact posts_of_onlyCalls env hqueue (.refl _ fun _ => True)
  split at h
  · simp at h
  obtain rfl := Option.some.inj h
  exact ⟨by simp [rest, hqueue, IRCClient.sendPart, IRCClient.internalIrcSend],
    by simp [IRCClient.sendPart, IRCClient.internalIrcSend], rfl⟩

theorem link_sendOnNext {message : Message} {command : Method}
    (hqueue : c.queue = message :: queue) (hlink : link? message = none)
    (hping : ∀ session host, message ≠ .sendPING session host)
    (h : (opened c queue).sendOnNext env command = some c') : LinkStep c (.handle env) c' := by
  simp only [IRCClient.sendOnNext] at h
  split at h
  · simp at h
  · simp at h
  rename_i session c₁ hsearch
  obtain rfl := Option.some.inj h
  obtain ⟨hcalls, -⟩ := getNextConnectedSessionRoundRobin_spec hsearch
  have hsend : OnlyCalls c₁ (c₁.internalIrcSend env session command).2 (fun _ => True) :=
    onlyCalls_internalIrcSend fun _ _ => trivial
  exact unlinked_handle [] hqueue hlink hping (by simp)
    (posts_of_onlyCalls env hqueue ((hcalls.mono fun _ _ => trivial).trans hsend))

theorem link_evtCheckJoinedChannels {session : SessionPtr} {names : List String}
    (hqueue : c.queue = .checkJoinedChannels session names :: queue) :
    LinkStep c (.handle env) ((opened c queue).evtCheckJoinedChannels env session names) := by
  simp only [IRCClient.evtCheckJoinedChannels]
  split
  · exact unlinked_handle [] hqueue rfl (by simp) (by simp)
      (posts_of_onlyCalls env hqueue (.refl _ fun _ => True))
  · have hcalls : OnlyCalls (opened c queue)
        (((opened c queue).channels.selectNotJoinedChannels names).foldl
          (IRCClient.rejoin env session) (opened c queue)) (fun _ => True) := by
      apply onlyCalls_foldl
      intro c₁ _ name _
      have hpart : OnlyCalls c₁ (c₁.sendPart env session name).2 (fun _ => True) :=
        onlyCalls_internalIrcSend fun _ _ => trivial
      exact hpart.trans (onlyCalls_internalIrcSend fun _ _ => trivial)
    have hposts := posts_of_onlyCalls env hqueue hcalls
    refine unlinked_handle [.checkJoinedChannels session
      ((opened c queue).channels.selectNotJoinedChannels names)] hqueue rfl (by simp)
      (by simp [link?]) ⟨hposts.queue_eq, ?_, hposts.flags_eq⟩
    simp [hcalls.delayed_eq]

theorem link_handle {message : Message} (hqueue : c.queue = message :: queue)
    (hreload : message.isReload = false)
    (h : (opened c queue).handle env message = some c') : LinkStep c (.handle env) c' := by
  cases message with
  | connect session attempt => exact Option.some.inj h ▸ link_evtConnect hqueue
  | loggedInCheck session => exact Option.some.inj h ▸ link_evtLoggedInCheck hqueue
  | reload config => simp [Message.isReload] at hreload
  | joinChannel channel => exact link_evtJoinChannel hqueue h
  | leaveChannel channel => exact link_evtLeaveChannel hqueue h
  | sendPING session host => exact Option.some.inj h ▸ link_evtSendPING hqueue
  | sendMessage channel text => exact link_sendOnNext hqueue rfl (by simp) h
  | sendIRC message => exact link_sendOnNext hqueue rfl (by simp) h
  | checkJoinedChannels session names =>
      exact Option.some.inj h ▸ link_evtCheckJoinedChannels hqueue
  | shutdown | gatherStats | channelJoined session channel =>
      obtain rfl := Option.some.inj h
      refine unlinked_handle [] hqueue rfl (by simp) (by simp) ⟨?_, ?_, rfl⟩
      · simp [rest, hqueue, IRCClient.evtShutdown, IRCClient.evtGatherStats,
          IRCClient.evtChannelJoined, IRCClient.publish]
      · simp [IRCClient.evtShutdown, IRCClient.evtGatherStats,
          IRCClient.evtChannelJoined, IRCClient.publish]

end Handlers

theorem link_onLoggedIn {c c' : IRCClient} {env : Env} {session : SessionPtr}
    (h : (opened c c.queue).onLoggedIn env session = some c') :
    LinkStep c (.onLoggedIn session env) c' := by
  simp only [IRCClient.onLoggedIn] at h
  split at h
  · simp at h
  rename_i reserved channels hreserve
  obtain ⟨logged, hlogged⟩ : ∃ logged, logged = (opened c c.queue).updateSession session
      fun s => { s with logged := true } := ⟨_, rfl⟩
  rw [← hlogged] at h
  have hcalls : OnlyCalls { logged with channels := channels }
      (reserved.foldl (fun c channel => (c.sendJoin env session channel).2)
        { logged with channels := channels }) (fun _ => True) :=
    onlyCalls_foldl fun _ _ _ _ => onlyCalls_internalIrcSend fun _ _ => trivial
  obtain ⟨joining, hjoining⟩ : ∃ joining, joining =
      reserved.foldl (fun c channel => (c.sendJoin env session channel).2)
        { logged with channels := channels } := ⟨_, rfl⟩
  rw [← hjoining] at h hcalls
  have hflags : joining.view.flags = Function.update c.view.flags session
      { c.view.flags session with logged := true } := by
    refine (congrArg View.flags hcalls.view_eq).trans ?_
    change logged.view.flags = _
    rw [hlogged, IRCClient.view_updateSession]
    rfl
  obtain rfl := Option.some.inj h
  refine .loggedIn session env reserved rfl ⟨?_, ?_, ?_⟩
  · simp [rest, hcalls.queue_eq, hlogged]
  · simp [hcalls.delayed_eq, hlogged]
  · have harmed : ({ joining.heap session with pingTimer := true } : IRCSession).flags =
        { joining.view.flags session with pingTimer := true } := rfl
    simp only [IRCClient.view_sendDelayed, IRCClient.view_updateSession, IRCClient.view_called,
      IRCClient.heap_called, harmed, hflags, Function.update_self, Function.update_idem,
      loggedIn]

theorem unlinked_post {c : IRCClient} {e : Event} {message : Message} {c' : IRCClient}
    (hexpire : ∀ i, e ≠ .expire i) (hhandled : c.handled e = none)
    (hquiet : reportsDrop c e = none) (hlogin : e.login? = none) (hlink : link? message = none)
    (hposts : Posts c e c' [message] [] c.view.flags) : LinkStep c e c' :=
  .unlinked [message] [] hexpire (by simp [hhandled]) (by simp [hhandled]) hquiet hlogin
    (by simpa using hlink) hposts

theorem step_link {c c' : IRCClient} {e : Event} (hreload : NoReload ⟨c, e, c'⟩)
    (h : c.step e = some c') : LinkStep c e c' := by
  simp only [IRCClient.step] at h
  split at h
  · simp at h
  cases e with
  | handle env =>
      dsimp only at h
      split at h
      · simp at h
      · rename_i message queue hqueue
        refine link_handle hqueue ?_ h
        simpa [NoReload, handled_handle hqueue env] using hreload
  | expire i =>
      dsimp only at h
      split at h
      · simp at h
      · rename_i message hmessage
        obtain rfl := Option.some.inj h
        exact .expired i message rfl hmessage rfl rfl rfl
  | pingTick session =>
      dsimp only at h
      split at h
      · obtain rfl := Option.some.inj h
        exact unlinked_post (by simp) rfl rfl rfl rfl ⟨rfl, (List.append_nil _).symm, rfl⟩
      · simp at h
  | statsTick =>
      obtain rfl := Option.some.inj h
      exact unlinked_post (by simp) rfl rfl rfl rfl ⟨rfl, (List.append_nil _).symm, rfl⟩
  | receive message =>
      dsimp only at h
      split at h
      · rename_i hexternal
        obtain rfl := Option.some.inj h
        refine unlinked_post (by simp) rfl rfl rfl ?_ ⟨rfl, (List.append_nil _).symm, rfl⟩
        cases message <;> simp_all [Message.external, link?]
      · simp at h
  | onLoggedIn session env =>
      dsimp only at h
      split at h
      · exact link_onLoggedIn h
      · simp at h
  | onDisconnected session reason =>
      dsimp only at h
      split at h
      · obtain rfl := Option.some.inj h
        refine .dropped session rfl (by simp [IRCClient.handled])
          ⟨rfl, (List.append_nil _).symm, ?_⟩
        exact congrArg View.flags (view_sessionOnDisconnected (opened c c.queue) session reason)
      · simp at h
  | onJoined session channel =>
      dsimp only at h
      split at h
      · obtain rfl := Option.some.inj h
        exact unlinked_post (by simp) rfl rfl rfl rfl ⟨rfl, (List.append_nil _).symm, rfl⟩
      · simp at h
  | onPong session now =>
      dsimp only at h
      split at h
      · obtain rfl := Option.some.inj h
        refine .unlinked [] [] (by simp) (by simp [IRCClient.handled])
          (by simp [IRCClient.handled]) rfl rfl (by simp)
          ⟨(List.append_nil _).symm, (List.append_nil _).symm, ?_⟩
        rw [IRCClient.onPong, IRCClient.view_updateSession]
        exact Function.update_eq_self _ _
      · simp at h

end TwitchChatWorker.IrcClientLinks
