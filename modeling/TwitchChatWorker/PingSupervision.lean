import TwitchChatWorker.IrcClientSteps
import TwitchChatWorker.Lib.Heartbeats
import TwitchChatWorker.Lib.Runs

/-!
The supervision of one connection by PING and PONG, in runs of a client that
does anything else between the calls of `sendPing`.
-/

namespace TwitchChatWorker.PingSupervision

open TwitchChatWorker.ChannelList
open TwitchChatWorker.IrcClient
open TwitchChatWorker.IrcClientSteps
open TwitchChatWorker.Lib.Heartbeats
open TwitchChatWorker.Lib.Runs

/-- What the supervision reads of a session. -/
def link (session : SessionPtr) (c : IRCClient) : Watch Int :=
  ⟨(c.heap session).lastPingTime, (c.heap session).lastPongTime, (c.heap session).connected⟩

/-- A message that makes the session send PING. -/
def ping? (session : SessionPtr) (env : Env) : Message → Option (Beat Int)
  | .sendPING p _ => if p = session then some (.ping env.now) else none
  | _ => none

/-- The call of `sendPing` or `onPong` that a step makes on the session. -/
def beat? (session : SessionPtr) (t : Transition IRCClient Event) : Option (Beat Int) :=
  match t.event with
  | .handle env => t.pre.queue.head?.bind (ping? session env)
  | .onPong p now => if p = session then some (.pong now) else none
  | _ => none

/-- The beats of the session along the run. -/
def beats (session : SessionPtr) (tr : List (Transition IRCClient Event)) : List (Beat Int) :=
  tr.filterMap (beat? session)

/-- The message leaves the connection of the session as it is. -/
def MessageOnConnection (session : SessionPtr) (s : IRCSession) (env : Env) : Message → Prop
  | .reload _ => False
  | .connect p _ => p = session → s.connected = true
  | .loggedInCheck p => p = session → s.logged = true
  | .sendPING p _ => p = session → ∀ n, env.sendOk n = true
  | _ => True

/-- The step begins no other connection of the session and does not end this
one for a reason but PING and PONG, and a PING to send is sent. -/
def OnConnection (session : SessionPtr) (t : Transition IRCClient Event) : Prop :=
  match t.event with
  | .handle env =>
      ∀ message ∈ t.pre.queue.head?, MessageOnConnection session (t.pre.heap session) env message
  | .onDisconnected p _ => p ≠ session
  | _ => True

/-- The session is connected since `t0`. -/
def Established (session : SessionPtr) (t0 : Int) (c : IRCClient) : Prop :=
  link session c = ⟨t0, t0, true⟩

/-- A call of `sendPing` that ends the connection. -/
def TearsDown (session : SessionPtr) (t : Transition IRCClient Event) : Prop :=
  (∃ x, beat? session t = some (.ping x)) ∧ (t.pre.heap session).connected = true ∧
    (t.post.heap session).connected = false

theorem established_connectSession (c : IRCClient) (env : Env) (session : SessionPtr)
    (h : (c.connectSession env session).1 = true) :
    Established session env.now (c.connectSession env session).2 := by
  simp only [IRCClient.connectSession] at h ⊢
  split_ifs at h ⊢ with hok
  simp [Established, link, IRCClient.updateSession]

section Frames

variable {c c' : IRCClient} {env : Env} {session p : SessionPtr}

theorem link_congr (h : c'.heap = c.heap) : link session c' = link session c := by
  rw [link, link, h]

theorem link_called (method : Method) (result : Bool) :
    link session (c.called p method result) = link session c := rfl

theorem link_sendDelayed (message : Message) :
    link session (c.sendDelayed message) = link session c := rfl

theorem link_updateSession {f : IRCSession → IRCSession}
    (h : p ≠ session ∨ ∀ s, (f s).lastPingTime = s.lastPingTime ∧
      (f s).lastPongTime = s.lastPongTime ∧ (f s).connected = s.connected) :
    link session (c.updateSession p f) = link session c := by
  simp only [link, IRCClient.updateSession]
  rcases h with h | h
  · rw [if_neg (Ne.symm h)]
  · by_cases hp : session = p
    · simp [hp, h]
    · rw [if_neg hp]

theorem link_sessionOnDisconnected (h : p ≠ session) (reason : String) :
    link session (c.sessionOnDisconnected p reason) = link session c := by
  change link session
    (c.updateSession p fun s => { s with pingTimer := false, connected := false }) = _
  exact link_updateSession (Or.inl h)

theorem link_connectSession (h : p ≠ session) :
    link session (c.connectSession env p).2 = link session c := by
  rw [IRCClient.connectSession]
  split_ifs
  · dsimp only
    exact (link_updateSession (Or.inl h)).trans (link_congr rfl)
  · rfl

theorem link_evtConnect {attempt : Int}
    (h : p = session → (c.heap session).connected = true) :
    link session (c.evtConnect env p attempt) = link session c := by
  rw [IRCClient.evtConnect]
  dsimp only
  by_cases hp : p = session
  · subst hp
    have hconnected : ((c.called p .connected (c.heap p).connected).heap p).connected = true :=
      h rfl
    rw [if_pos hconnected]
    rfl
  · split_ifs
    · rfl
    · exact (link_congr rfl).trans ((link_connectSession hp).trans (link_congr rfl))
    · exact (link_congr rfl).trans ((link_connectSession hp).trans (link_congr rfl))

theorem link_evtLoggedInCheck (h : p = session → (c.heap session).logged = true) :
    link session (c.evtLoggedInCheck p) = link session c := by
  simp only [IRCClient.evtLoggedInCheck]
  by_cases hp : p = session
  · subst hp
    rw [if_pos (h rfl)]
    rfl
  · split_ifs
    · rfl
    · exact (link_sessionOnDisconnected hp _).trans (link_congr rfl)

theorem heap_getNextSessionRoundRobin {found : SessionPtr}
    (h : c.getNextSessionRoundRobin = some (found, c')) : c'.heap = c.heap := by
  unfold IRCClient.getNextSessionRoundRobin at h
  split at h
  · simp at h
  · split at h
    · simp at h
    · obtain ⟨-, rfl⟩ := by simpa using h
      rfl

theorem heap_searchConnected {fuel : Nat} {last found : Option SessionPtr}
    (h : IRCClient.searchConnected fuel c last = some (found, c')) : c'.heap = c.heap := by
  induction fuel generalizing c last with
  | zero =>
      simp only [IRCClient.searchConnected, Option.some.injEq, Prod.mk.injEq] at h
      rw [h.2]
  | succ fuel ih =>
      simp only [IRCClient.searchConnected] at h
      split at h
      · simp at h
      next next c₁ hnext =>
        have hheap := heap_getNextSessionRoundRobin hnext
        split at h
        · obtain ⟨-, rfl⟩ := by simpa using h
          exact hheap
        · exact (ih h).trans hheap

theorem heap_getNextConnectedSessionRoundRobin {found : Option SessionPtr}
    (h : c.getNextConnectedSessionRoundRobin = some (found, c')) : c'.heap = c.heap :=
  heap_searchConnected h

theorem heap_sendOnNext {command : Method} (h : c.sendOnNext env command = some c') :
    c'.heap = c.heap := by
  unfold IRCClient.sendOnNext at h
  split at h
  · simp at h
  · simp at h
  next found c₁ hfound =>
    obtain rfl := Option.some.inj h
    have hheap : c₁.heap = c.heap := heap_getNextConnectedSessionRoundRobin hfound
    exact hheap

theorem heap_evtJoinChannel {channel : String} (h : c.evtJoinChannel env channel = some c') :
    c'.heap = c.heap := by
  unfold IRCClient.evtJoinChannel at h
  split at h
  · simp at h
  next found c₁ hfound =>
    refine Eq.trans ?_ (heap_getNextConnectedSessionRoundRobin hfound)
    unfold IRCClient.joinToChannel at h
    split_ifs at h
    · rw [Option.some.inj h]
    · split at h
      · simp at h
      · dsimp only at h
        split_ifs at h
        · obtain rfl := Option.some.inj h
          rfl
        · obtain rfl := Option.some.inj h
          rfl

theorem heap_evtLeaveChannel {channel : String} (h : c.evtLeaveChannel env channel = some c') :
    c'.heap = c.heap := by
  unfold IRCClient.evtLeaveChannel IRCClient.leaveFromChannel at h
  split at h
  · rw [Option.some.inj h]
  · split at h
    · simp at h
    · obtain rfl := Option.some.inj h
      rfl

theorem heap_foldl {f : IRCClient → String → IRCClient} (hf : ∀ c name, (f c name).heap = c.heap)
    (names : List String) : (names.foldl f c).heap = c.heap := by
  induction names generalizing c with
  | nil => rfl
  | cons name names ih => exact ih.trans (hf c name)

theorem heap_evtCheckJoinedChannels (channels : List String) :
    (c.evtCheckJoinedChannels env p channels).heap = c.heap := by
  rw [IRCClient.evtCheckJoinedChannels]
  split_ifs
  · rfl
  · have hheap := heap_foldl (c := c) (f := IRCClient.rejoin env p) (fun _ _ => rfl)
      (c.channels.selectNotJoinedChannels channels)
    exact hheap

theorem link_onLoggedIn (h : c.onLoggedIn env p = some c') :
    link session c' = link session c := by
  unfold IRCClient.onLoggedIn at h
  dsimp only at h
  split at h
  · simp at h
  · obtain rfl := Option.some.inj h
    have hjoins (c₁ : IRCClient) (names : List String) :
        (names.foldl (fun c channel => (c.sendJoin env p channel).2) c₁).heap = c₁.heap :=
      heap_foldl (f := fun c channel => (c.sendJoin env p channel).2) (fun _ _ => rfl) names
    have hlogged : link session (c.updateSession p fun s => { s with logged := true }) =
        link session c := link_updateSession (Or.inr fun s => ⟨rfl, rfl, rfl⟩)
    rw [link_sendDelayed, link_updateSession, link_called, link_congr (hjoins _ _)]
    · exact hlogged
    · exact Or.inr fun s => ⟨rfl, rfl, rfl⟩

theorem link_onPong (now : Int) :
    link session (c.onPong session now) = (link session c).next pingPongTimeoutMs (.pong now) := by
  simp [link, IRCClient.onPong, IRCClient.updateSession, Watch.next]

theorem link_onPong_of_ne (h : p ≠ session) (now : Int) :
    link session (c.onPong p now) = link session c :=
  link_updateSession (Or.inl h)

theorem link_sendPing_of_ne (h : p ≠ session) (host : String) :
    link session (c.sendPing env p host) = link session c := by
  rw [IRCClient.sendPing]
  dsimp only
  split_ifs
  · exact (link_sessionOnDisconnected h _).trans (link_called _ _)
  · exact (link_updateSession (Or.inl h)).trans (link_congr rfl)
  · rfl

theorem link_sendPing (hsend : ∀ n, env.sendOk n = true) (host : String) :
    link session (c.sendPing env session host) =
      (link session c).next pingPongTimeoutMs (.ping env.now) := by
  rw [IRCClient.sendPing]
  by_cases hconnected : (c.heap session).connected = true
  · by_cases hlate : (c.heap session).lastPingTime - (c.heap session).lastPongTime ≥
        pingPongTimeoutMs
    · rw [if_pos hlate, Watch.next_ping_late hconnected hlate]
      simp [link, IRCClient.sessionOnDisconnected, IRCClient.onDisconnected,
        IRCClient.updateSession, IRCClient.send, IRCClient.publish, IRCClient.called]
    · rw [if_neg hlate, Watch.next_ping hconnected (not_le.mp hlate)]
      simp [link, IRCClient.internalIrcSend, hconnected, hsend, IRCClient.updateSession]
  · rw [Watch.next_ping_down (w := link session c) hconnected]
    have hdown : (c.heap session).connected = false := by simpa using hconnected
    split_ifs
    · simp [link, IRCClient.sessionOnDisconnected, IRCClient.onDisconnected,
        IRCClient.updateSession, IRCClient.send, IRCClient.publish, IRCClient.called, hdown]
    · simp [link, IRCClient.internalIrcSend, IRCClient.called, hdown]

/-- The watcher that a beat of the session leaves. -/
def beaten (w : Watch Int) (beat : Option (Beat Int)) : Watch Int :=
  beat.elim w (w.next pingPongTimeoutMs)

theorem link_handle {message : Message} (h : c.handle env message = some c')
    (hone : MessageOnConnection session (c.heap session) env message) :
    link session c' = beaten (link session c) (ping? session env message) := by
  cases message with
  | connect p attempt =>
      obtain rfl := Option.some.inj h
      exact link_evtConnect hone
  | loggedInCheck p =>
      obtain rfl := Option.some.inj h
      exact link_evtLoggedInCheck hone
  | reload config => exact hone.elim
  | shutdown =>
      obtain rfl := Option.some.inj h
      rfl
  | joinChannel channel => exact link_congr (heap_evtJoinChannel h)
  | leaveChannel channel => exact link_congr (heap_evtLeaveChannel h)
  | sendPING p host =>
      obtain rfl := Option.some.inj h
      by_cases hp : p = session
      · subst hp
        rw [ping?, if_pos rfl]
        exact link_sendPing (hone rfl) host
      · rw [ping?, if_neg hp]
        exact link_sendPing_of_ne hp host
  | sendMessage channel text => exact link_congr (heap_sendOnNext h)
  | sendIRC message => exact link_congr (heap_sendOnNext h)
  | gatherStats =>
      obtain rfl := Option.some.inj h
      rfl
  | channelJoined p channel =>
      obtain rfl := Option.some.inj h
      rfl
  | checkJoinedChannels p channels =>
      obtain rfl := Option.some.inj h
      exact link_congr (heap_evtCheckJoinedChannels channels)

theorem link_step {event : Event} (h : c.step event = some c')
    (hone : OnConnection session ⟨c, event, c'⟩) :
    link session c' = beaten (link session c) (beat? session ⟨c, event, c'⟩) := by
  unfold IRCClient.step at h
  dsimp only at h
  split_ifs at h
  cases event with
  | handle env =>
      simp only [beat?, OnConnection] at hone ⊢
      cases hqueue : c.queue with
      | nil => simp [hqueue] at h
      | cons message queue =>
          rw [hqueue] at hone h
          dsimp only at h
          have hlink : link session c' = beaten _ (ping? session env message) :=
            link_handle h (hone message rfl)
          exact hlink
  | expire i =>
      dsimp only at h
      split at h
      · simp at h
      · obtain rfl := Option.some.inj h
        rfl
  | pingTick p =>
      dsimp only at h
      split_ifs at h
      obtain rfl := Option.some.inj h
      rfl
  | statsTick =>
      obtain rfl := Option.some.inj h
      rfl
  | receive message =>
      dsimp only at h
      split_ifs at h
      obtain rfl := Option.some.inj h
      rfl
  | onLoggedIn p env =>
      dsimp only at h
      split_ifs at h
      have hlink : link session c' = link session _ := link_onLoggedIn h
      exact hlink
  | onDisconnected p reason =>
      dsimp only at h
      split_ifs at h
      obtain rfl := Option.some.inj h
      exact link_sessionOnDisconnected hone reason
  | onJoined p channel =>
      dsimp only at h
      split_ifs at h
      obtain rfl := Option.some.inj h
      rfl
  | onPong p now =>
      dsimp only at h
      split_ifs at h
      obtain rfl := Option.some.inj h
      by_cases hp : p = session
      · subst hp
        simp only [beat?, if_true]
        exact link_onPong now
      · simp only [beat?, if_neg hp]
        exact link_onPong_of_ne hp now

end Frames

section Runs

variable {session : SessionPtr} {t0 : Int} {start c : IRCClient}
  {tr past future : List (Transition IRCClient Event)} {t : Transition IRCClient Event}

theorem beats_append_singleton :
    beats session (tr ++ [t]) = beats session tr ++ (beat? session t).toList := by
  rw [beats, beats, List.filterMap_append]
  cases h : beat? session t with
  | none => simp [h]
  | some beat => simp [h]

/-- The times of a session and its connection are those of a watcher that
takes the beats of the run. -/
theorem link_of_run (hstart : Established session t0 start) (hrun : Run IRCClient.step start tr c)
    (hone : ∀ t ∈ tr, OnConnection session t) :
    link session c = watch pingPongTimeoutMs t0 (beats session tr) := by
  induction hrun with
  | nil => exact hstart
  | @snoc tr c e c' _ hstep ih =>
      have hpre := ih fun t ht => hone t (List.mem_append_left _ ht)
      have hlink := link_step hstep (hone ⟨c, e, c'⟩ (by simp))
      rw [hlink, hpre, beats_append_singleton]
      cases beat? session ⟨c, e, c'⟩ with
      | none => simp [beaten]
      | some beat => simp [beaten]

theorem beats_split (x : Int) (ht : beat? session t = some (.ping x)) :
    beats session (past ++ t :: future) =
      (beats session past ++ [.ping x]) ++ beats session future := by
  simp [beats, ht]

theorem links_of_split (hstart : Established session t0 start)
    (hrun : Run IRCClient.step start (past ++ t :: future) c)
    (hone : ∀ u ∈ past ++ t :: future, OnConnection session u) {x : Int}
    (ht : beat? session t = some (.ping x)) :
    link session t.pre = watch pingPongTimeoutMs t0 (beats session past) ∧
      link session t.post = watch pingPongTimeoutMs t0 (beats session past ++ [.ping x]) := by
  obtain ⟨hpast, hstep⟩ := hrun.step_of_split past t future rfl
  have hpre := link_of_run hstart hpast fun u hu => hone u (List.mem_append_left _ hu)
  refine ⟨hpre, ?_⟩
  have hlink := link_step hstep (hone t (by simp))
  rw [hlink, hpre, watch_append_singleton, ht]
  rfl

/-- A PING that is answered soon enough never ends the connection, and once the
answers have stopped a call of `sendPing` does, in bounded time. -/
theorem supervised {F P D : Nat} (hstart : Established session t0 start)
    (hrun : Run IRCClient.step start tr c) (hone : ∀ t ∈ tr, OnConnection session t)
    (hpaced : Paced t0 (F : Int) P (beats session tr)) (hfirst : F < pingPongTimeoutMs) :
    ((AnsweredWithin pingPongTimeoutMs t0 D (beats session tr) ∧
          D + max (F : Int) P < pingPongTimeoutMs ∨
        AnsweredBefore pingPongTimeoutMs t0 D (beats session tr) ∧
          D + max (F : Int) P ≤ pingPongTimeoutMs) →
      ∀ t ∈ tr, ¬TearsDown session t) ∧
    ∀ L : Int, t0 ≤ L → (∀ z, .pong z ∈ beats session tr → z ≤ L) →
      (∃ y, .ping y ∈ beats session tr ∧ L + pingPongTimeoutMs + P ≤ y) →
      ∃ t ∈ tr, ∃ x, beat? session t = some (.ping x) ∧ TearsDown session t ∧
        x ≤ L + pingPongTimeoutMs + 2 * P := by
  constructor
  · intro hanswered t ht hdown
    obtain ⟨⟨x, hx⟩, -, hpost⟩ := hdown
    obtain ⟨past, future, rfl⟩ := List.append_of_mem ht
    have hup := up_of_answered hpaced (by decide) hanswered
    rw [beats_split x hx] at hup
    have hsent := up_of_append hup
    rw [← (links_of_split hstart hrun hone hx).2] at hsent
    exact Bool.false_ne_true (hpost.symm.trans hsent)
  · rintro L hL hpongs ⟨y, hy, hlate⟩
    obtain ⟨past, x, later, hbeats, hup, hsent, hx⟩ :=
      exists_alarm hpaced hfirst (by decide) (Int.natCast_nonneg P) hL hpongs hy hlate
    obtain ⟨past', rest, rfl, rfl, hrest⟩ := List.filterMap_eq_append_iff.mp hbeats
    obtain ⟨between, t, future, rfl, hbetween, ht, rfl⟩ := List.filterMap_eq_cons_iff.mp hrest
    have hnone : beats session between = [] := List.filterMap_eq_nil_iff.mpr hbetween
    rw [← List.append_assoc] at hrun hone
    obtain ⟨hpre, hpost⟩ := links_of_split hstart hrun hone ht
    have hpast : beats session (past' ++ between) = List.filterMap (beat? session) past' := by
      rw [beats, List.filterMap_append]
      exact (congrArg _ hnone).trans (List.append_nil _)
    rw [hpast] at hpre hpost
    refine ⟨t, by simp, x, ht, ⟨⟨x, ht⟩, ?_, ?_⟩, hx⟩
    · exact (congrArg Watch.up hpre).trans hup
    · have hdown := (congrArg Watch.up hpost).trans (by simpa [Sent] using hsent)
      exact hdown

end Runs

/-- A client whose only session has just been connected. -/
def connected : IRCClient :=
  { (IRCClient.soEvtStart {} {} {}).evtConnect {} 0 0 with queue := [] }

/-- Two PINGs, the first is answered. -/
def answered : List Event :=
  [.onLoggedIn 0 {}, .pingTick 0, .handle { now := 2000 }, .onPong 0 2050, .pingTick 0,
    .handle { now := 4000 }]

/-- Three PINGs, only the first is answered. -/
def silent : List Event :=
  [.onLoggedIn 0 {}, .pingTick 0, .handle {}, .onPong 0 5, .pingTick 0, .handle { now := 11000 },
    .pingTick 0, .handle { now := 22000 }]

theorem supervised_connected :
    (∀ t ∈ trace IRCClient.step connected answered, ¬TearsDown 0 t) ∧
      ∃ t ∈ trace IRCClient.step connected silent, ∃ x, beat? 0 t = some (.ping x) ∧
        TearsDown 0 t ∧ x ≤ 5 + pingPongTimeoutMs + 2 * (11000 : Nat) := by
  constructor
  · have hbeats : beats 0 (trace IRCClient.step connected answered) =
        [.ping 2000, .pong 2050, .ping 4000] := rfl
    refine (supervised (F := 2000) (P := 2000) (D := 100) (show Established 0 0 connected from rfl)
      (run_trace answered (by decide)) ?_ ?_ (by decide)).1 (Or.inl ⟨?_, by decide⟩)
    · rw [show trace IRCClient.step connected answered = [_, _, _, _, _, _] from rfl]
      simp only [List.forall_mem_cons]
      refine ⟨trivial, trivial, ?_, trivial, trivial, ?_, by simp⟩
      all_goals
        rintro message ⟨⟩
        exact fun _ _ => rfl
    · rw [hbeats]
      refine ⟨by decide, by simp [pings, Beat.ping?], ?_⟩
      change List.IsChain (fun x y : Int => y ≤ x + 2000) [2000, 4000]
      simp
    · rw [hbeats]
      intro past x later h _
      rcases past with _ | ⟨_, _ | ⟨_, _ | ⟨_, past⟩⟩⟩
      all_goals
        simp only [List.nil_append, List.cons_append, List.cons.injEq, Beat.ping.injEq,
          reduceCtorEq, false_and, and_false] at h
      · obtain ⟨rfl, rfl⟩ := h
        exact Or.inl ⟨2050, by simp, by decide⟩
      · obtain ⟨-, -, -, rfl⟩ := h
        exact Or.inr (by simp)
      · simp at h
  · have hbeats : beats 0 (trace IRCClient.step connected silent) =
        [.ping 0, .pong 5, .ping 11000, .ping 22000] := rfl
    refine (supervised (F := 0) (P := 11000) (D := 0) (show Established 0 0 connected from rfl)
      (run_trace silent (by decide)) ?_ ?_ (by decide)).2 5 (by decide) ?_ ⟨22000, ?_, by decide⟩
    · rw [show trace IRCClient.step connected silent = [_, _, _, _, _, _, _, _] from rfl]
      simp only [List.forall_mem_cons]
      refine ⟨trivial, trivial, ?_, trivial, trivial, ?_, trivial, ?_, by simp⟩
      all_goals
        rintro message ⟨⟩
        exact fun _ _ => rfl
    · rw [hbeats]
      refine ⟨by decide, by simp [pings, Beat.ping?], ?_⟩
      change List.IsChain (fun x y : Int => y ≤ x + 11000) [0, 11000, 22000]
      simp
    · rw [hbeats]
      simp
    · rw [hbeats]
      simp

/-- A PING that is answered at once, and two in the same millisecond before
the answer to the first of them. -/
def tied : List Event :=
  [.onLoggedIn 0 {}, .pingTick 0, .handle {}, .onPong 0 0, .pingTick 0, .pingTick 0,
    .handle { now := 10500 }, .handle { now := 10500 }, .onPong 0 10500]

theorem not_supervised_tied :
    ¬∀ (F P D : Nat) (session : SessionPtr) (t0 : Int) (start c : IRCClient)
        (tr : List (Transition IRCClient Event)), Established session t0 start →
      Run IRCClient.step start tr c → (∀ t ∈ tr, OnConnection session t) →
      Paced t0 (F : Int) P (beats session tr) → F < pingPongTimeoutMs →
      AnsweredWithin pingPongTimeoutMs t0 D (beats session tr) →
      D + max (F : Int) P ≤ pingPongTimeoutMs → ∀ t ∈ tr, ¬TearsDown session t := by
  intro hall
  have hrun : Run IRCClient.step connected _ _ := run_trace tied (by decide)
  have hbeats : beats 0 (trace IRCClient.step connected tied) =
      [.ping 0, .pong 0, .ping 10500, .ping 10500, .pong 10500] := rfl
  have hone : ∀ t ∈ trace IRCClient.step connected tied, OnConnection 0 t := by
    rw [show trace IRCClient.step connected tied = [_, _, _, _, _, _, _, _, _] from rfl]
    simp only [List.forall_mem_cons]
    refine ⟨trivial, trivial, ?_, trivial, trivial, trivial, ?_, ?_, trivial, by simp⟩
    all_goals
      rintro message ⟨⟩
      exact fun _ _ => rfl
  have hpaced : Paced 0 ((0 : Nat) : Int) (10500 : Nat)
      (beats 0 (trace IRCClient.step connected tied)) := by
    rw [hbeats]
    refine ⟨by decide, by simp [pings, Beat.ping?], ?_⟩
    change List.IsChain (fun x y : Int => y ≤ x + 10500) [0, 10500, 10500]
    simp
  have hanswered : AnsweredWithin pingPongTimeoutMs 0 ((0 : Nat) : Int)
      (beats 0 (trace IRCClient.step connected tied)) := by
    rw [hbeats]
    intro past x later h _
    left
    rcases past with _ | ⟨_, _ | ⟨_, _ | ⟨_, _ | ⟨_, _ | ⟨_, past⟩⟩⟩⟩⟩
    all_goals
      simp only [List.nil_append, List.cons_append, List.cons.injEq, Beat.ping.injEq,
        reduceCtorEq, false_and, and_false] at h
    · obtain ⟨rfl, rfl⟩ := h
      exact ⟨0, by simp, by decide⟩
    · obtain ⟨-, -, rfl, rfl⟩ := h
      exact ⟨10500, by simp, by decide⟩
    · obtain ⟨-, -, -, rfl, rfl⟩ := h
      exact ⟨10500, by simp, by decide⟩
    · simp at h
  have hnot := hall 0 10500 0 0 0 connected _ _ rfl hrun hone hpaced (by decide) hanswered
    (by decide)
  rw [show trace IRCClient.step connected tied = [_, _, _, _, _, _, _, _, _] from rfl] at hnot
  simp only [List.forall_mem_cons] at hnot
  exact hnot.2.2.2.2.2.2.2.1 ⟨⟨10500, rfl⟩, rfl, rfl⟩

end TwitchChatWorker.PingSupervision
