import TwitchChatWorker.SessionLifetime

/-!
Which session a client sends on next.  The cursor of the selection survives a
reload, the vector that it points into does not.
-/

namespace TwitchChatWorker.SessionSelection

open TwitchChatWorker.IrcClient
open TwitchChatWorker.IrcClientSteps
open TwitchChatWorker.Lib
open TwitchChatWorker.Lib.Runs
open TwitchChatWorker.SessionLifetime

/-- A selection on its own, or any step of the client. -/
inductive Action where
  | getNextSession
  | getNextConnectedSession
  | event (e : Event)

/-- One action on the client. -/
def act (c : IRCClient) : Action → Option IRCClient
  | .getNextSession => c.getNextSessionRoundRobin.map Prod.snd
  | .getNextConnectedSession => c.getNextConnectedSessionRoundRobin.map Prod.snd
  | .event e => c.step e

/-- The index that the next selection uses. -/
def nextIndex (c : IRCClient) : Nat :=
  if c.sessions.length = 1 then 0 else c.curSessionRoundRobin

/-- Whatever sessions are connected, the search stays in the vector and finds a
session, a connected one if there is any. -/
structure Selects (c : IRCClient) : Prop where
  index : nextIndex c < c.sessions.length
  search : ∀ heap : Nat → IRCSession, ∃ session c',
    IRCClient.getNextConnectedSessionRoundRobin { c with heap := heap } = some (some session, c') ∧
      session ∈ c.sessions ∧
      ((∃ p ∈ c.sessions, (heap p).connected = true) → (heap session).connected = true)

/-- The cursor is a place in the list, or the list is empty. -/
def InRange (c : IRCClient) : Prop :=
  RoundRobin.InRange c.sessions.length c.curSessionRoundRobin

/-- A reload starts a single session, or more sessions than the cursor. -/
def ReloadsInRange (t : Transition IRCClient Action) : Prop :=
  match t.event with
  | .event e =>
      ∀ m ∈ t.pre.handled e, match m with
        | .reload config =>
            RoundRobin.InRange (IRCClient.startCount config) t.pre.curSessionRoundRobin
        | _ => True
  | _ => True

instance : DecidablePred ReloadsInRange
  | ⟨c, .event e, _⟩ =>
      match h : c.handled e with
      | some (.reload config) =>
          decidable_of_iff
            (RoundRobin.InRange (IRCClient.startCount config) c.curSessionRoundRobin)
            (by simp [ReloadsInRange, h])
      | none => isTrue (by simp [ReloadsInRange, h])
      | some (.connect _ _) | some (.loggedInCheck _) | some .shutdown | some (.joinChannel _)
      | some (.leaveChannel _) | some (.sendPING _ _) | some (.sendMessage _ _) | some (.sendIRC _)
      | some .gatherStats | some (.channelJoined _ _) | some (.checkJoinedChannels _ _) =>
          isTrue (by simp [ReloadsInRange, h])
  | ⟨_, .getNextSession, _⟩ | ⟨_, .getNextConnectedSession, _⟩ => isTrue trivial

theorem inRange_iff {c : IRCClient} : InRange c ↔ nextIndex c < c.sessions.length := by
  simp only [InRange, RoundRobin.InRange, nextIndex]
  split_ifs with hone <;> omega

section Search

variable {c : IRCClient}

theorem getNextSessionRoundRobin_spec (h : InRange c) :
    ∃ i cursor session,
      RoundRobin.next c.sessions.length c.curSessionRoundRobin = some (i, cursor) ∧
      c.sessions[i]? = some session ∧
      c.getNextSessionRoundRobin = some (session, { c with curSessionRoundRobin := cursor }) ∧
      RoundRobin.InRange c.sessions.length cursor := by
  obtain ⟨i, cursor, hnext, hi, hcursor⟩ := RoundRobin.InRange.next h
  have hget : c.sessions[i]? = some c.sessions[i] := List.getElem?_eq_getElem hi
  refine ⟨i, cursor, c.sessions[i], hnext, hget, ?_, hcursor⟩
  simp [IRCClient.getNextSessionRoundRobin, hnext, hget]

/-- The search is defined, keeps the cursor in range and returns a session as
soon as it looks at one. -/
theorem searchConnected_isSome (h : InRange c) (fuel : Nat) (last : Option Nat) :
    ∃ session c', IRCClient.searchConnected fuel c last = some (session, c') ∧
      c'.sessions = c.sessions ∧ InRange c' ∧ (fuel = 0 ∧ last = none ∨ session ≠ none) := by
  induction fuel generalizing c last with
  | zero =>
      refine ⟨last, c, rfl, rfl, h, ?_⟩
      cases last <;> simp
  | succ fuel ih =>
      obtain ⟨i, cursor, session, -, -, hget, hcursor⟩ := getNextSessionRoundRobin_spec h
      simp only [IRCClient.searchConnected, hget]
      split_ifs with hconnected
      · exact ⟨some session, _, rfl, rfl, hcursor, .inr (by simp)⟩
      · obtain ⟨found, c', hsearch, hsessions, hrange, hfound⟩ :=
          ih (c := IRCClient.called { c with curSessionRoundRobin := cursor } session .connected
            (c.heap session).connected) hcursor (some session)
        exact ⟨found, c', hsearch, hsessions, hrange, .inr (hfound.resolve_left (by simp))⟩

theorem connected_of_searchConnected (h : InRange c) {fuel : Nat} {last found : Option Nat}
    {c' : IRCClient} (hsearch : IRCClient.searchConnected fuel c last = some (found, c'))
    {i p : Nat} (hi : i ∈ RoundRobin.served c.sessions.length fuel c.curSessionRoundRobin)
    (hp : c.sessions[i]? = some p) (hconnected : (c.heap p).connected = true) :
    ∃ session, found = some session ∧ (c.heap session).connected = true := by
  induction fuel generalizing c last with
  | zero => simp [RoundRobin.served] at hi
  | succ fuel ih =>
      obtain ⟨first, cursor, session, hnext, hfirst, hget, hcursor⟩ :=
        getNextSessionRoundRobin_spec h
      simp only [IRCClient.searchConnected, hget] at hsearch
      simp only [RoundRobin.served, hnext, List.mem_cons] at hi
      split_ifs at hsearch with hnow
      · obtain ⟨rfl, -⟩ : some session = found ∧ _ = c' := by simpa using hsearch
        exact ⟨session, rfl, hnow⟩
      · rcases hi with rfl | hi
        · obtain rfl : session = p := Option.some.inj (hfirst.symm.trans hp)
          exact absurd hconnected hnow
        · exact ih (c := IRCClient.called { c with curSessionRoundRobin := cursor } session
            .connected (c.heap session).connected) hcursor hsearch hi hp hconnected

theorem selects_iff_inRange : Selects c ↔ InRange c := by
  constructor
  · intro h
    exact inRange_iff.mpr h.index
  · intro h
    refine ⟨inRange_iff.mp h, fun heap => ?_⟩
    have hrange : InRange { c with heap := heap } := h
    obtain ⟨found, c', hsearch, -, -, hfound⟩ :=
      searchConnected_isSome hrange c.sessions.length none
    have hlength : c.sessions.length ≠ 0 := by
      have hlt := inRange_iff.mp h
      omega
    obtain ⟨session, rfl⟩ := Option.ne_none_iff_exists'.mp
      (hfound.resolve_left fun hzero => hlength hzero.1)
    have hmember :=
      (getNextConnectedSessionRoundRobin_spec (c := { c with heap := heap }) hsearch).2
    refine ⟨session, c', hsearch, hmember session rfl, ?_⟩
    rintro ⟨p, hp, hconnected⟩
    obtain ⟨i, hi, rfl⟩ := List.mem_iff_getElem.mp hp
    obtain ⟨other, heq, hother⟩ := connected_of_searchConnected hrange hsearch
      (RoundRobin.InRange.mem_served h hi) (List.getElem?_eq_getElem hi) hconnected
    exact Option.some.inj heq ▸ hother

theorem InRange.of_search (h : InRange c) {session : Option Nat} {c' : IRCClient}
    (hsearch : c.getNextConnectedSessionRoundRobin = some (session, c')) : InRange c' := by
  obtain ⟨found, last, hfound, -, hrange, -⟩ :=
    searchConnected_isSome h c.sessions.length none
  cases hfound.symm.trans hsearch
  exact hrange

end Search

section Cursor

variable {c c' : IRCClient}

theorem cursor_foldl {α : Type} {f : IRCClient → α → IRCClient}
    (hf : ∀ c a, (f c a).curSessionRoundRobin = c.curSessionRoundRobin) (l : List α)
    (c : IRCClient) : (l.foldl f c).curSessionRoundRobin = c.curSessionRoundRobin := by
  induction l generalizing c with
  | nil => rfl
  | cons a l ih => exact (ih (f c a)).trans (hf c a)

theorem cursor_addNewSessions (c : IRCClient) (env : Env) (n : Nat) :
    (c.addNewSessions env n).curSessionRoundRobin = c.curSessionRoundRobin := by
  induction n generalizing c with
  | zero => rfl
  | succ n ih => exact ih (c.addNewSession env)

theorem cursor_evtReload (c : IRCClient) (env : Env) (config : IRCClientConfig) :
    (c.evtReload env config).curSessionRoundRobin = c.curSessionRoundRobin := by
  have hdiscarded := cursor_foldl (f := IRCClient.discardSession) (fun _ _ => rfl) c.sessions
    { c with cliConfig := config }
  exact (cursor_addNewSessions _ env _).trans hdiscarded

/-- The handlers that select a session. -/
def selecting : Message → Bool
  | .joinChannel _ | .sendMessage _ _ | .sendIRC _ => true
  | _ => false

theorem cursor_handle {env : Env} {m : Message} (hm : selecting m = false)
    (h : c.handle env m = some c') : c'.curSessionRoundRobin = c.curSessionRoundRobin := by
  cases m with
  | connect session attempt =>
      obtain rfl := Option.some.inj h
      simp only [IRCClient.evtConnect, IRCClient.connectSession]
      split_ifs <;> rfl
  | loggedInCheck session =>
      obtain rfl := Option.some.inj h
      simp only [IRCClient.evtLoggedInCheck]
      split_ifs <;> rfl
  | reload config => exact Option.some.inj h ▸ cursor_evtReload c env config
  | shutdown => exact Option.some.inj h ▸ rfl
  | joinChannel channel => simp [selecting] at hm
  | leaveChannel channel =>
      simp only [IRCClient.handle, IRCClient.evtLeaveChannel, IRCClient.leaveFromChannel] at h
      split at h
      · exact Option.some.inj h ▸ rfl
      · split at h
        · simp at h
        · exact Option.some.inj h ▸ rfl
  | sendPING session host =>
      obtain rfl := Option.some.inj h
      simp only [IRCClient.evtSendPING, IRCClient.sendPing]
      split_ifs <;> rfl
  | sendMessage channel text => simp [selecting] at hm
  | sendIRC message => simp [selecting] at hm
  | gatherStats => exact Option.some.inj h ▸ rfl
  | channelJoined session channel => exact Option.some.inj h ▸ rfl
  | checkJoinedChannels session channels =>
      obtain rfl := Option.some.inj h
      simp only [IRCClient.evtCheckJoinedChannels]
      split_ifs
      · rfl
      · exact cursor_foldl (f := IRCClient.rejoin env session) (fun _ _ => rfl) _ c

theorem InRange.handle {env : Env} {m : Message} (h : InRange c) (hm : selecting m = true)
    (hhandle : c.handle env m = some c') : InRange c' := by
  have hsend : ∀ command, c.sendOnNext env command = some c' → InRange c' := by
    intro command hsend
    simp only [IRCClient.sendOnNext] at hsend
    split at hsend
    · simp at hsend
    · simp at hsend
    · rename_i session c₁ hsearch
      have hrange : InRange c₁ := h.of_search hsearch
      exact Option.some.inj hsend ▸ hrange
  cases m with
  | joinChannel channel =>
      simp only [IRCClient.handle, IRCClient.evtJoinChannel] at hhandle
      split at hhandle
      · simp at hhandle
      rename_i session c₁ hsearch
      have hrange : InRange c₁ := h.of_search hsearch
      simp only [IRCClient.joinToChannel] at hhandle
      split_ifs at hhandle
      · exact Option.some.inj hhandle ▸ hrange
      split at hhandle
      · simp at hhandle
      · split_ifs at hhandle <;> exact Option.some.inj hhandle ▸ hrange
  | sendMessage channel text => exact hsend _ hhandle
  | sendIRC message => exact hsend _ hhandle
  | _ => simp [selecting] at hm

theorem cursor_onLoggedIn {env : Env} {session : Nat} (h : c.onLoggedIn env session = some c') :
    c'.curSessionRoundRobin = c.curSessionRoundRobin := by
  simp only [IRCClient.onLoggedIn] at h
  split at h
  · simp at h
  · obtain rfl := Option.some.inj h
    exact cursor_foldl (f := fun c channel => (c.sendJoin env session channel).2)
      (fun _ _ => rfl) _ _

theorem cursor_step {e : Event} (hhandled : ∀ m ∈ c.handled e, selecting m = false)
    (hstep : c.step e = some c') : c'.curSessionRoundRobin = c.curSessionRoundRobin := by
  simp only [IRCClient.step] at hstep
  split at hstep
  · simp at hstep
  cases e with
  | handle env =>
      dsimp only at hstep
      split at hstep
      · simp at hstep
      · rename_i message queue hqueue
        exact cursor_handle (c := opened c queue)
          (hhandled message (handled_handle hqueue env)) hstep
  | expire i =>
      dsimp only at hstep
      split at hstep
      · simp at hstep
      · exact Option.some.inj hstep ▸ rfl
  | statsTick => exact Option.some.inj hstep ▸ rfl
  | onLoggedIn session env =>
      dsimp only at hstep
      split_ifs at hstep
      exact cursor_onLoggedIn (c := opened c c.queue) hstep
  | _ =>
      dsimp only at hstep
      split_ifs at hstep
      exact Option.some.inj hstep ▸ rfl

end Cursor

theorem inRange_soEvtStart (conConfig : IRCConnectionConfig) (cliConfig : IRCClientConfig)
    (env : Env) : InRange (IRCClient.soEvtStart conConfig cliConfig env) := by
  obtain ⟨hview, -, -⟩ := soEvtStart_spec conConfig cliConfig env
  have hsessions : (IRCClient.soEvtStart conConfig cliConfig env).sessions =
    List.range (IRCClient.startCount cliConfig) := congrArg View.sessions hview
  have hcursor : (IRCClient.soEvtStart conConfig cliConfig env).curSessionRoundRobin = 0 :=
    cursor_addNewSessions _ env _
  have hcount : 1 ≤ IRCClient.startCount cliConfig := by
    simp only [IRCClient.startCount, minSessCount]
    omega
  rw [InRange, hsessions, hcursor, List.length_range]
  exact .inr hcount

theorem length_addNewSessions (c : IRCClient) (env : Env) (n : Nat) :
    (c.addNewSessions env n).sessions.length = c.sessions.length + n := by
  induction n generalizing c with
  | zero => rfl
  | succ n ih =>
      rw [IRCClient.addNewSessions, ih]
      simp [IRCClient.addNewSession, IRCClient.send]
      omega

theorem handle_of_handled {c c' : IRCClient} {e : Event} {m : Message}
    (hm : c.handled e = some m) (hstep : c.step e = some c') :
    ∃ env queue, e = .handle env ∧ c.queue = m :: queue ∧
      (opened c queue).handle env m = some c' := by
  cases e with
  | handle env =>
      obtain ⟨queue, hqueue⟩ := List.head?_eq_some_iff.mp hm
      simp only [IRCClient.step, hqueue] at hstep
      split_ifs at hstep
      exact ⟨env, queue, rfl, hqueue, hstep⟩
  | _ => cases hm

theorem length_sessions_of_reload {c c' : IRCClient} {e : Event} {config : IRCClientConfig}
    (hhandled : c.handled e = some (.reload config)) (hstep : c.step e = some c') :
    c'.sessions.length = IRCClient.startCount config := by
  obtain ⟨env, queue, -, -, hhandle⟩ := handle_of_handled hhandled hstep
  obtain rfl := Option.some.inj hhandle
  rw [IRCClient.evtReload, length_addNewSessions]
  simp

/-- A reload replaces the vector and leaves the cursor where it is. -/
theorem inRange_reload_iff {c c' : IRCClient} {e : Event} {config : IRCClientConfig}
    (hhandled : c.handled e = some (.reload config)) (hstep : c.step e = some c') :
    InRange c' ↔
      RoundRobin.InRange (IRCClient.startCount config) c.curSessionRoundRobin := by
  have hcursor : c'.curSessionRoundRobin = c.curSessionRoundRobin :=
    cursor_step (by simp [hhandled, selecting]) hstep
  have hlength : c'.sessions.length = IRCClient.startCount config :=
    length_sessions_of_reload hhandled hstep
  rw [InRange, hlength, hcursor]

theorem InRange.step {c c' : IRCClient} {e : Event} (h : InRange c)
    (hnoReload : NoReload ⟨c, e, c'⟩) (hstep : c.step e = some c') : InRange c' := by
  by_cases hselecting : ∀ m ∈ c.handled e, selecting m = false
  · obtain ⟨-, hsessions, -⟩ := step_sessions hnoReload hstep
    rw [InRange, hsessions, cursor_step hselecting hstep]
    exact h
  · push Not at hselecting
    obtain ⟨m, hm, hm'⟩ := hselecting
    obtain ⟨env, queue, rfl, -, hhandle⟩ := handle_of_handled hm hstep
    have hopened : InRange (opened c queue) := h
    exact hopened.handle (Bool.eq_true_of_not_eq_false hm') hhandle

theorem inRange_act {c c' : IRCClient} {a : Action} (hact : act c a = some c') (h : InRange c) :
    InRange c' ↔ ReloadsInRange ⟨c, a, c'⟩ := by
  cases a with
  | getNextSession =>
      obtain ⟨i, cursor, session, -, -, hget, hcursor⟩ := getNextSessionRoundRobin_spec h
      simp only [act, hget, Option.map_some, Option.some.injEq] at hact
      exact iff_of_true (hact ▸ hcursor) trivial
  | getNextConnectedSession =>
      obtain ⟨⟨session, c₁⟩, hsearch, rfl⟩ := Option.map_eq_some_iff.mp hact
      exact iff_of_true (h.of_search hsearch) trivial
  | event e =>
      cases hreload : (c.handled e).any Message.isReload with
      | true =>
          obtain ⟨m, hm, hisReload⟩ := (Option.any_eq_true _ _).mp hreload
          cases m with
          | reload config =>
              rw [inRange_reload_iff hm hact]
              simp [ReloadsInRange, show c.handled e = some (.reload config) from hm]
          | _ => simp [Message.isReload] at hisReload
      | false =>
          refine iff_of_true (h.step hreload hact) ?_
          intro m hm
          cases m with
          | reload config =>
              rw [show c.handled e = some (.reload config) from hm] at hreload
              simp [Message.isReload] at hreload
          | _ => trivial

/-- The selection works in all states of a run exactly when every reload leaves
the cursor in range. -/
theorem selects_iff {conConfig : IRCConnectionConfig} {cliConfig : IRCClientConfig}
    {start : Env} {tr : List (Transition IRCClient Action)} {c : IRCClient}
    (hrun : Run act (.soEvtStart conConfig cliConfig start) tr c) :
    (Selects (.soEvtStart conConfig cliConfig start) ∧ ∀ t ∈ tr, Selects t.post) ↔
      ∀ t ∈ tr, ReloadsInRange t := by
  have hstart := inRange_soEvtStart conConfig cliConfig start
  simp only [selects_iff_inRange, hstart, true_and]
  exact hrun.forall_good_iff (fun _ => True) InRange (fun _ => True) ReloadsInRange trivial hstart
    (fun _ _ _ _ _ _ => trivial) (fun _ _ _ _ _ hact h => inRange_act hact h) fun _ _ => trivial

/-- The cursor is on the second session when a reload starts three. -/
def grown : List Action :=
  [.getNextSession, .event (.receive (.reload { sessionCount := 3 })), .event (.handle {}),
    .event (.handle {}), .event (.handle {}), .getNextConnectedSession]

theorem selects_iff_grown :
    Selects (.soEvtStart {} { sessionCount := 2 } {}) ∧
      ∀ t ∈ trace act (.soEvtStart {} { sessionCount := 2 } {}) grown, Selects t.post :=
  (selects_iff (run_trace grown (by decide))).mpr (by decide)

/-- Two selections among three sessions leave the cursor on the third, and the
reload keeps two of them. -/
theorem not_selects_shrunk :
    ¬∀ (conConfig : IRCConnectionConfig) (cliConfig : IRCClientConfig) (start : Env)
      (tr : List (Transition IRCClient Action)) (c : IRCClient),
      Run act (.soEvtStart conConfig cliConfig start) tr c → Selects c := by
  intro hall
  have hselects := hall {} { sessionCount := 3 } {} _ _ (run_trace
    [.getNextSession, .getNextSession, .event (.handle {}), .event (.handle {}),
      .event (.handle {}), .event (.receive (.reload { sessionCount := 2 })),
      .event (.handle {})] (by decide))
  exact absurd hselects.index (by decide)

end TwitchChatWorker.SessionSelection
