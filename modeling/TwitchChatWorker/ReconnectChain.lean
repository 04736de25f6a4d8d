import TwitchChatWorker.IrcClientLinks

/-!
How many reconnect chains a session can have.  Every report of a disconnection
posts a new Connect, a failed Connect posts itself again, and nothing takes a
Connect back.
-/

namespace TwitchChatWorker.ReconnectChain

open TwitchChatWorker.ChannelList
open TwitchChatWorker.IrcClient
open TwitchChatWorker.IrcClientSteps
open TwitchChatWorker.IrcClientLinks
open TwitchChatWorker.SessionLifetime
open TwitchChatWorker.Lib.Runs

def isConnectOf (session : SessionPtr) : Message → Bool
  | .connect p _ => p == session
  | _ => false

/-- The Connect messages of a session on their way. -/
def connects (c : IRCClient) (session : SessionPtr) : Nat :=
  c.pending.countP (isConnectOf session)

/-- At most one Connect of a session is pending, and none while it is connected. -/
def SingleChain (c : IRCClient) : Prop :=
  ∀ session, connects c session ≤ 1 ∧
    ((c.heap session).connected = true → connects c session = 0)

/-- A step that reports a session as disconnected finds it connected. -/
def DropsConnected (t : Transition IRCClient Event) : Prop :=
  ∀ session ∈ reportsDrop t.pre t.event, (t.pre.heap session).connected = true

instance : DecidablePred DropsConnected := fun _ => inferInstanceAs (Decidable (∀ _ ∈ _, _))

/-- The session that the library reports as disconnected. -/
def libraryDrop? : Event → Option SessionPtr
  | .onDisconnected session _ => some session
  | _ => none

/-- The library reports the end of a connection once, while the session still
has it. -/
def LibraryDropsOnce (t : Transition IRCClient Event) : Prop :=
  ∀ session ∈ libraryDrop? t.event, (t.pre.heap session).connected = true

instance : DecidablePred LibraryDropsOnce := fun _ => inferInstanceAs (Decidable (∀ _ ∈ _, _))

theorem posts_connects {c c' : IRCClient} {e : Event} {sent late : List Message}
    {flags : SessionPtr → Flags} (h : Posts c e c' sent late flags) (session : SessionPtr) :
    connects c' session + (c.handled e).toList.countP (isConnectOf session) =
      connects c session + (sent ++ late).countP (isConnectOf session) :=
  h.countP (isConnectOf session)

theorem connected_of_flags {c' : IRCClient} {flags : SessionPtr → Flags}
    (h : c'.view.flags = flags) (session : SessionPtr) :
    (c'.heap session).connected = (flags session).connected :=
  congrArg (fun flags : SessionPtr → Flags => (flags session).connected) h

theorem countP_unlinked {messages : List Message} (h : ∀ m ∈ messages, link? m = none)
    (session : SessionPtr) : messages.countP (isConnectOf session) = 0 := by
  apply List.countP_eq_zero.mpr
  intro m hm
  cases m with
  | connect p attempt => cases h _ hm
  | _ => simp [isConnectOf]

theorem countP_handled {c : IRCClient} {e : Event}
    (h : ∀ p attempt, c.handled e ≠ some (.connect p attempt)) (session : SessionPtr) :
    (c.handled e).toList.countP (isConnectOf session) = 0 := by
  apply List.countP_eq_zero.mpr
  intro m hm
  cases m with
  | connect p attempt => exact absurd (Option.mem_toList.mp hm) (h p attempt)
  | _ => simp [isConnectOf]

theorem reportsDrop_of_connect {c : IRCClient} {e : Event} {session : SessionPtr} {attempt : Int}
    (h : c.handled e = some (.connect session attempt)) : reportsDrop c e = none := by
  cases e with
  | handle env =>
      have hhead : c.queue.head? = some (.connect session attempt) := h
      simp [reportsDrop, hhead]
  | _ => cases h

/-- What a step does to the reconnect chains of one session. -/
inductive ChainStep (c : IRCClient) (e : Event) (c' : IRCClient) (session : SessionPtr) :
    Prop where
  | same (quiet : reportsDrop c e ≠ some session)
      (connects_eq : connects c' session = connects c session)
      (connected_eq : (c'.heap session).connected = (c.heap session).connected)
  | reported (drop : reportsDrop c e = some session)
      (connects_eq : connects c' session = connects c session + 1)
      (connected_eq : (c'.heap session).connected = false)
  | ended (quiet : reportsDrop c e ≠ some session)
      (connects_eq : connects c' session + 1 = connects c session)
      (connected_eq : (c'.heap session).connected = true)

theorem chainStep_of_step {c c' : IRCClient} {e : Event} (hreload : NoReload ⟨c, e, c'⟩)
    (h : c.step e = some c') (session : SessionPtr) : ChainStep c e c' session := by
  cases step_link hreload h with
  | expired i m event stored queue_eq delayed_eq flags_eq =>
      exact .same (by simp [event, reportsDrop])
        (countP_expired stored queue_eq delayed_eq (isConnectOf session))
        (connected_of_flags flags_eq session)
  | redundant p attempt handled linked posts =>
      have hcount := posts_connects posts session
      have hflag := connected_of_flags posts.flags_eq session
      have hquiet : reportsDrop c e ≠ some session := by simp [reportsDrop_of_connect handled]
      simp only [handled, Option.toList_some, List.countP_singleton, isConnectOf,
        beq_iff_eq] at hcount
      split at hcount
      next heq =>
        subst heq
        exact .ended hquiet (by simpa using hcount) (hflag.trans linked)
      next heq => exact .same hquiet (by simpa using hcount) hflag
  | connected p attempt handled down posts =>
      have hcount := posts_connects posts session
      have hflag := connected_of_flags posts.flags_eq session
      have hquiet : reportsDrop c e ≠ some session := by simp [reportsDrop_of_connect handled]
      simp only [handled, Option.toList_some, List.countP_singleton, isConnectOf,
        beq_iff_eq] at hcount
      split at hcount
      next heq =>
        subst heq
        exact .ended hquiet (by simpa [isConnectOf] using hcount)
          (hflag.trans (by simp [IrcClientSteps.connected]))
      next heq =>
        refine .same hquiet (by simpa [isConnectOf] using hcount) (hflag.trans ?_)
        rw [flags_connected_of_ne _ (Ne.symm heq)]
        rfl
  | failed p attempt handled down posts =>
      have hcount := posts_connects posts session
      have hquiet : reportsDrop c e ≠ some session := by simp [reportsDrop_of_connect handled]
      refine .same hquiet ?_ (connected_of_flags posts.flags_eq session)
      simpa [handled, isConnectOf] using hcount
  | dropped p cause handled posts =>
      have hcount := posts_connects posts session
      have hflag := connected_of_flags posts.flags_eq session
      rw [countP_handled handled] at hcount
      simp only [List.append_nil, List.countP_singleton, isConnectOf, beq_iff_eq] at hcount
      split at hcount
      next heq =>
        subst heq
        exact .reported cause hcount (hflag.trans (by simp [IrcClientSteps.dropped]))
      next heq =>
        refine .same (by simpa [cause] using heq) hcount (hflag.trans ?_)
        rw [flags_dropped_of_ne _ (Ne.symm heq)]
        rfl
  | loggedIn p env names event posts =>
      have hcount := posts_connects posts session
      refine .same (by simp [event, reportsDrop]) ?_
        ((connected_of_flags posts.flags_eq session).trans (connected_loggedIn _ _ _ _))
      simpa [event, IRCClient.handled, isConnectOf] using hcount
  | unlinked sent late event handled checked quiet login fresh posts =>
      have hcount := posts_connects posts session
      rw [countP_handled handled, countP_unlinked fresh] at hcount
      exact .same (by simp [quiet]) hcount (connected_of_flags posts.flags_eq session)

/-- A client that was never reloaded: a session that is not connected has a
Connect on its way. -/
structure Supplied (c : IRCClient) : Prop where
  one : OneGeneration c
  allocated : ∀ session ∈ c.sessions, session < c.allocated
  supplied : ∀ session, session < c.allocated → (c.heap session).connected = false →
    1 ≤ connects c session

theorem connects_soEvtStart (conConfig : IRCConnectionConfig) (cliConfig : IRCClientConfig)
    (env : Env) (session : SessionPtr) :
    connects (.soEvtStart conConfig cliConfig env) session =
      if session < IRCClient.startCount cliConfig then 1 else 0 := by
  obtain ⟨-, hpending, -⟩ := soEvtStart_spec conConfig cliConfig env
  have hcount : (List.range (IRCClient.startCount cliConfig)).countP
      (isConnectOf session ∘ fun p => .connect p 0) =
        (List.range (IRCClient.startCount cliConfig)).count session := rfl
  rw [connects, hpending, List.countP_map, hcount, List.nodup_range.count]
  simp only [List.mem_range]

theorem supplied_soEvtStart (conConfig : IRCConnectionConfig) (cliConfig : IRCClientConfig)
    (env : Env) : Supplied (.soEvtStart conConfig cliConfig env) := by
  obtain ⟨hview, -⟩ := soEvtStart_spec conConfig cliConfig env
  have hsessions : (IRCClient.soEvtStart conConfig cliConfig env).sessions =
    List.range (IRCClient.startCount cliConfig) := congrArg View.sessions hview
  have hallocated : (IRCClient.soEvtStart conConfig cliConfig env).allocated =
    IRCClient.startCount cliConfig := congrArg View.allocated hview
  refine ⟨oneGeneration_soEvtStart conConfig cliConfig env, fun session hsession => ?_,
    fun session hsession _ => ?_⟩
  · rw [hsessions] at hsession
    rw [hallocated]
    exact List.mem_range.mp hsession
  · rw [hallocated] at hsession
    rw [connects_soEvtStart, if_pos hsession]

theorem singleChain_soEvtStart (conConfig : IRCConnectionConfig) (cliConfig : IRCClientConfig)
    (env : Env) : SingleChain (.soEvtStart conConfig cliConfig env) := by
  obtain ⟨hview, -⟩ := soEvtStart_spec conConfig cliConfig env
  intro session
  refine ⟨?_, fun hconnected => ?_⟩
  · rw [connects_soEvtStart]
    split <;> omega
  · have hflags := congrArg (fun view : View => (view.flags session).connected) hview
    exact absurd (hflags.symm.trans hconnected) Bool.false_ne_true

theorem Supplied.step {c c' : IRCClient} {e : Event} (hsupplied : Supplied c)
    (hreload : NoReload ⟨c, e, c'⟩) (hstep : c.step e = some c') : Supplied c' := by
  obtain ⟨-, hsessions, hallocated⟩ := step_sessions hreload hstep
  refine ⟨hsupplied.one.step hreload hstep, ?_, fun session hsession hdown => ?_⟩
  · rw [hsessions, hallocated]
    exact hsupplied.allocated
  · cases chainStep_of_step hreload hstep session with
    | same quiet connects_eq connected_eq =>
        rw [connects_eq]
        exact hsupplied.supplied session (hallocated ▸ hsession) (connected_eq.symm.trans hdown)
    | reported drop connects_eq connected_eq => omega
    | ended quiet connects_eq connected_eq => simp [connected_eq] at hdown

theorem reportsDrop_lt_allocated {c c' : IRCClient} {e : Event} (hsupplied : Supplied c)
    (hstep : c.step e = some c') {session : SessionPtr} (h : reportsDrop c e = some session) :
    session < c.allocated := by
  have hmessage : ∀ m, c.handled e = some m → m.session? = some session →
      session < c.allocated := fun m hm hsession => by
    refine hsupplied.allocated session ?_
    exact hsupplied.one.current.messages m (handled_mem_pending hm) session hsession
  cases e with
  | handle env =>
      simp only [reportsDrop] at h
      split at h
      next p hhead =>
        split at h
        · cases h
        · exact hmessage _ hhead h
      next p host hhead =>
        split at h
        · exact hmessage _ hhead h
        · cases h
      · cases h
  | onDisconnected p reason => exact callback_lt_allocated hstep h
  | _ => cases h

/-- A report that finds its session not connected starts a second chain, and
nothing else does. -/
theorem singleChain_step_iff {c c' : IRCClient} {e : Event} (hsupplied : Supplied c)
    (hreload : NoReload ⟨c, e, c'⟩) (hstep : c.step e = some c') (hsingle : SingleChain c) :
    SingleChain c' ↔ DropsConnected ⟨c, e, c'⟩ := by
  constructor
  · intro hsingle' session hdrop
    by_contra hdown
    have hpending := hsupplied.supplied session (reportsDrop_lt_allocated hsupplied hstep hdrop)
      (by simpa using hdown)
    cases chainStep_of_step hreload hstep session with
    | same quiet connects_eq connected_eq => exact quiet hdrop
    | reported drop connects_eq connected_eq =>
        have hle := (hsingle' session).1
        omega
    | ended quiet connects_eq connected_eq => exact quiet hdrop
  · intro hdrops session
    obtain ⟨hle, hnone⟩ := hsingle session
    cases chainStep_of_step hreload hstep session with
    | same quiet connects_eq connected_eq =>
        rw [connects_eq, connected_eq]
        exact ⟨hle, hnone⟩
    | reported drop connects_eq connected_eq =>
        have hzero := hnone (hdrops session drop)
        exact ⟨by omega, fun h => by simp [connected_eq] at h⟩
    | ended quiet connects_eq connected_eq => exact ⟨by omega, fun _ => by omega⟩

/-- A client that is never reloaded keeps one reconnect chain for each session
in exactly the runs in which every reported session is connected. -/
theorem singleChain_iff (conConfig : IRCConnectionConfig) (cliConfig : IRCClientConfig)
    (env : Env) {tr : List (Transition IRCClient Event)} {c : IRCClient}
    (hrun : Run IRCClient.step (.soEvtStart conConfig cliConfig env) tr c)
    (hreload : ∀ t ∈ tr, NoReload t) :
    (∀ t ∈ tr, SingleChain t.post) ↔ ∀ t ∈ tr, DropsConnected t :=
  hrun.forall_good_iff Supplied SingleChain NoReload DropsConnected
    (supplied_soEvtStart conConfig cliConfig env) (singleChain_soEvtStart conConfig cliConfig env)
    (fun _ _ _ hsupplied hreload hstep => hsupplied.step hreload hstep)
    (fun _ _ _ hsupplied hreload hstep hsingle =>
      singleChain_step_iff hsupplied hreload hstep hsingle) hreload

/-- A drop after the login and two failed reconnects. -/
theorem singleChain_iff_dropped :
    (exec IRCClient.step (.soEvtStart {} {} {})
      [.handle {}, .onLoggedIn 0 {}, .onDisconnected 0 "reset", .handle { connectOk := false },
        .expire 2, .handle { connectOk := false }, .expire 0, .handle {}]).isSome ∧
    ∀ t ∈ trace IRCClient.step (.soEvtStart {} {} {})
      [.handle {}, .onLoggedIn 0 {}, .onDisconnected 0 "reset", .handle { connectOk := false },
        .expire 2, .handle { connectOk := false }, .expire 0, .handle {}], SingleChain t.post :=
  ⟨by decide, (singleChain_iff {} {} {} (run_trace _ (by decide)) (by decide)).mpr (by decide)⟩

/-- The library drops a session before its login, and the login check finds it
while its Connect is still on the way. -/
theorem not_singleChain_loggedInCheck :
    ¬∀ (conConfig : IRCConnectionConfig) (cliConfig : IRCClientConfig) (env : Env)
      (tr : List (Transition IRCClient Event)) (c : IRCClient),
      Run IRCClient.step (.soEvtStart conConfig cliConfig env) tr c →
      (∀ t ∈ tr, NoReload t) → (∀ t ∈ tr, LibraryDropsOnce t) → ∀ t ∈ tr, SingleChain t.post := by
  intro hall
  have hsingle := hall {} {} {} _ _ (run_trace [.handle {}, .onDisconnected 0 "reset",
    .handle { connectOk := false }, .expire 0, .handle {}] (by decide)) (by decide) (by decide) _
    (List.getElem_mem (n := 4) (by decide))
  exact absurd (hsingle 0).1 (by decide)

end TwitchChatWorker.ReconnectChain
