import TwitchChatWorker.Lib.Runs
import TwitchChatWorker.Sockets

/-!
Who holds a descriptor.  `close` does nothing to an object that holds one, so
everything turns on what the handles are when it is called.
-/

namespace TwitchChatWorker.SocketHandles

open TwitchChatWorker.Lib.Descriptors
open TwitchChatWorker.Lib.Runs
open TwitchChatWorker.Sockets

/-- The descriptor that the object holds. -/
def held (p : Process) (o : ObjectId) : Option Int :=
  if p.getHandle o = INVALID_SOCKET then none else some (p.getHandle o)

/-- The object that the call is to leave without a descriptor. -/
def releases : Call → Option ObjectId
  | .disconnect n => some (.tcpSocket n)
  | .unbind n => some (.udpSocket n)
  | .close o => some o
  | _ => none

/-- The object that the call is to give a new descriptor. -/
def renews : Call → Option ObjectId
  | .connect n _ _ => some (.tcpSocket n)
  | .bind n _ _ => some (.udpSocket n)
  | .listen n _ _ => some (.tcpListener n)
  | _ => none

/-- What the object holds after the call, if anything, was created by it. -/
def WorksOnNew (p q : Process) (o : ObjectId) : Prop :=
  q.getHandle o ≠ INVALID_SOCKET →
    ∃ older : Ledger Int, older.length = p.descriptors.length ∧
      q.descriptors = older.obtain (q.getHandle o)

/-- Every descriptor is accounted for, and the call does to it what it is for. -/
structure Sound (t : Transition Process Call) : Prop where
  accounted : t.post.descriptors.Accounted (held t.post)
  released : ∀ o ∈ releases t.event, t.post.getHandle o = INVALID_SOCKET
  renewed : ∀ o ∈ renews t.event, WorksOnNew t.pre t.post o
  accepted : ∀ n socket answers, t.event = .accept n socket answers →
    (t.pre.accept n socket answers).1 = .done →
      t.post.getHandle (.tcpSocket socket) = answers.remote

/-- The object that the call closes holds nothing. -/
def FindsInvalid (p : Process) : Call → Prop
  | .connect n _ _ => p.getHandle (.tcpSocket n) = INVALID_SOCKET
  | .disconnect n => p.getHandle (.tcpSocket n) = INVALID_SOCKET
  | .bind n _ _ => p.getHandle (.udpSocket n) = INVALID_SOCKET
  | .unbind n => p.getHandle (.udpSocket n) = INVALID_SOCKET
  | .send _ _ _ => True
  | .listen n _ _ => p.getHandle (.tcpListener n) = INVALID_SOCKET
  | .accept n socket answers =>
      p.getHandle (.tcpListener n) ≠ INVALID_SOCKET → answers.remote ≠ INVALID_SOCKET →
        p.getHandle (.tcpSocket socket) = INVALID_SOCKET
  | .close o => p.getHandle o = INVALID_SOCKET
  | .setBlocking _ _ => True

instance (p : Process) : DecidablePred (FindsInvalid p)
  | .connect _ _ _ | .disconnect _ | .bind _ _ _ | .unbind _ | .listen _ _ _ | .close _ =>
      inferInstanceAs (Decidable (_ = _))
  | .accept _ _ _ => inferInstanceAs (Decidable (_ → _))
  | .send _ _ _ | .setBlocking _ _ => inferInstanceAs (Decidable True)

/-- The handles and the descriptors are the same. -/
structure Kept (p q : Process) : Prop where
  handles : q.getHandle = p.getHandle
  descriptors : q.descriptors = p.descriptors

/-- The object has obtained a descriptor, and nothing else changed. -/
structure Opened (p q : Process) (o : ObjectId) (fd : Int) : Prop where
  free : p.getHandle o = INVALID_SOCKET
  valid : fd ≠ INVALID_SOCKET
  handles : q.getHandle = Function.update p.getHandle o fd
  descriptors : q.descriptors = p.descriptors.obtain fd

/-- What every run from the first use of the objects keeps while its calls are
sound. -/
structure Tracked (p : Process) : Prop where
  valid : ∀ descriptor ∈ p.descriptors, descriptor.number ≠ INVALID_SOCKET
  accounted : p.descriptors.Accounted (held p)

section Members

variable {p q : Process} {o : ObjectId} {fd : Int}

theorem Kept.refl (p : Process) : Kept p p := ⟨rfl, rfl⟩

theorem Kept.of_eq (h : q = p) : Kept p q := ⟨by rw [h], by rw [h]⟩

theorem Kept.trans {r : Process} (h : Kept p q) (h' : Kept q r) : Kept p r :=
  ⟨h'.handles.trans h.handles, h'.descriptors.trans h.descriptors⟩

theorem Kept.held_eq (h : Kept p q) : held q = held p := by
  funext o
  rw [held, held, h.handles]

theorem Opened.held_eq (h : Opened p q o fd) :
    held q = Function.update (held p) o (some fd) := by
  funext other
  rw [held, h.handles]
  by_cases hother : other = o
  · rw [hother, Function.update_self, Function.update_self, if_neg h.valid]
  · rw [Function.update_of_ne hother, Function.update_of_ne hother, held]

theorem Opened.keep {r : Process} (h : Opened p q o fd) (h' : Kept q r) : Opened p r o fd :=
  ⟨h.free, h.valid, h'.handles.trans h.handles, h'.descriptors.trans h.descriptors⟩

theorem Opened.after {r : Process} (h : Kept p q) (h' : Opened q r o fd) : Opened p r o fd :=
  ⟨h.handles ▸ h'.free, h'.valid, h.handles ▸ h'.handles, h.descriptors ▸ h'.descriptors⟩

theorem getHandle_update (p : Process) (o : ObjectId) (socket : Socket) :
    (p.update o socket).getHandle = Function.update p.getHandle o socket.sock := by
  funext other
  simp only [Process.getHandle, Process.update]
  by_cases hother : other = o
  · rw [hother, Function.update_self, Function.update_self]
  · rw [Function.update_of_ne hother, Function.update_of_ne hother]
    rfl

theorem setBlocking_kept (p : Process) (o : ObjectId) (block : Bool) :
    Kept p (p.setBlocking o block) := by
  refine ⟨?_, rfl⟩
  rw [Process.setBlocking, getHandle_update]
  exact Function.update_eq_self o p.getHandle

theorem createFrom_handles (h : p.getHandle o = INVALID_SOCKET) :
    (p.createFrom o fd).getHandle = Function.update p.getHandle o fd := by
  rw [Process.createFrom, if_pos h, (setBlocking_kept _ _ _).handles, getHandle_update]

theorem createFrom_of_held (h : p.getHandle o ≠ INVALID_SOCKET) : p.createFrom o fd = p :=
  if_neg h

theorem createFrom_descriptors (p : Process) (o : ObjectId) (fd : Int) :
    (p.createFrom o fd).descriptors = p.descriptors := by
  rw [Process.createFrom]
  split
  · rfl
  · rfl

theorem getErrorStatus_ne_done (errno : Errno) : getErrorStatus errno ≠ .done := by
  cases errno <;> decide

theorem close_kept (h : ∀ descriptor ∈ p.descriptors, descriptor.number ≠ INVALID_SOCKET)
    (o : ObjectId) : Kept p (p.close o) := by
  rw [Process.close]
  split
  next hinvalid =>
    constructor
    · rw [getHandle_update, ← hinvalid]
      exact Function.update_eq_self o p.getHandle
    · rw [hinvalid]
      exact Ledger.close_eq_self h
  next => exact Kept.refl p

theorem create_cases (p : Process) (o : ObjectId) (fd : Int) :
    Opened p (p.create o fd) o fd ∨
      (Kept p (p.create o fd) ∧ (p.getHandle o = INVALID_SOCKET → fd = INVALID_SOCKET)) := by
  rw [Process.create]
  split
  next hfree =>
    split
    next hfailed => exact .inr ⟨Kept.refl p, fun _ => hfailed⟩
    next hvalid =>
      exact .inl ⟨hfree, hvalid, createFrom_handles hfree, createFrom_descriptors _ o fd⟩
  next hheld => exact .inr ⟨Kept.refl p, fun hfree => absurd hfree hheld⟩

theorem connect_kept (p : Process) (n : Nat) (ms : Int) (answers : Process.Connecting) :
    Kept ((p.disconnect n).create (.tcpSocket n) answers.socket) (p.connect n ms answers).2 := by
  rw [Process.connect]
  generalize (p.disconnect n).create (.tcpSocket n) answers.socket = r
  have hoff : Kept r (if r.isBlocking (.tcpSocket n) then r.setBlocking (.tcpSocket n) false
      else r) := by
    split
    · exact setBlocking_kept _ _ _
    · exact Kept.refl r
  split
  · cases answers.connect with
    | none => exact Kept.refl r
    | some errno => exact Kept.refl r
  · cases answers.connect with
    | none => exact hoff.trans (setBlocking_kept _ _ _)
    | some errno =>
        simp only
        split
        · exact hoff
        · exact hoff.trans (setBlocking_kept _ _ _)

theorem bind_eq (p : Process) (n : Nat) (address : String) (answers : Process.Binding) :
    (p.bind n address answers).2 =
      (p.close (.udpSocket n)).create (.udpSocket n) answers.socket := by
  rw [Process.bind]
  split
  · rfl
  · split
    · rfl
    · rfl

theorem send_eq (p : Process) (n size : Nat) (answers : Process.Sending) :
    (p.send n size answers).2 = p.create (.udpSocket n) answers.socket := by
  rw [Process.send]
  split
  · rfl
  · cases answers.sent with
    | none => rfl
    | some errno => rfl

theorem listen_eq (p : Process) (n : Nat) (address : String) (answers : Process.Listening) :
    (p.listen n address answers).2 =
      (p.close (.tcpListener n)).create (.tcpListener n) answers.socket := by
  rw [Process.listen]
  repeat' split
  all_goals rfl

/-- An accept that gets a descriptor gives it to the socket, or to no one when the
socket has one. -/
theorem accept_cases (h : ∀ descriptor ∈ p.descriptors, descriptor.number ≠ INVALID_SOCKET)
    (n socket : Nat) (answers : Process.Accepting) :
    ((p.accept n socket answers).1 ≠ .done ∧ (p.accept n socket answers).2 = p ∧
      (p.getHandle (.tcpListener n) = INVALID_SOCKET ∨ answers.remote = INVALID_SOCKET)) ∨
    ((p.getHandle (.tcpListener n) ≠ INVALID_SOCKET ∧ answers.remote ≠ INVALID_SOCKET) ∧
      (p.accept n socket answers).1 = .done ∧
      (Opened p (p.accept n socket answers).2 (.tcpSocket socket) answers.remote ∨
        (p.getHandle (.tcpSocket socket) ≠ INVALID_SOCKET ∧
          Kept (p.obtained answers.remote) (p.accept n socket answers).2))) := by
  rw [Process.accept]
  split
  next hdeaf => exact .inl ⟨by simp, rfl, .inl hdeaf⟩
  next hlistens =>
    split
    next hnone =>
      refine .inl ⟨?_, rfl, .inr hnone⟩
      exact getErrorStatus_ne_done answers.errno
    next hremote =>
      refine .inr ⟨⟨hlistens, hremote⟩, rfl, ?_⟩
      have hvalid : ∀ descriptor ∈ (p.obtained answers.remote).descriptors,
          descriptor.number ≠ INVALID_SOCKET := by
        intro descriptor hmem
        rcases List.mem_cons.mp hmem with rfl | hmem
        · exact hremote
        · exact h descriptor hmem
      have hclose := close_kept hvalid (.tcpSocket socket)
      by_cases hfree : p.getHandle (.tcpSocket socket) = INVALID_SOCKET
      · refine .inl ⟨hfree, hremote, ?_, ?_⟩
        · rw [createFrom_handles (by rw [hclose.handles]; exact hfree), hclose.handles]
          rfl
        · rw [createFrom_descriptors, hclose.descriptors]
          rfl
      · refine .inr ⟨hfree, ?_⟩
        have hheld : ((p.obtained answers.remote).close (.tcpSocket socket)).getHandle
            (.tcpSocket socket) ≠ INVALID_SOCKET := by
          rw [hclose.handles]
          exact hfree
        exact hclose.trans (Kept.of_eq (createFrom_of_held hheld))

end Members

section Steps

variable {p q : Process} {o : ObjectId} {fd : Int}

theorem Tracked.kept (h : Tracked p) (hkept : Kept p q) : Tracked q := by
  refine ⟨?_, ?_⟩
  · rw [hkept.descriptors]
    exact h.valid
  · rw [hkept.descriptors, hkept.held_eq]
    exact h.accounted

theorem not_isOpen (hvalid : fd ≠ INVALID_SOCKET) (hanswer : p.MayAnswer fd) :
    ¬p.descriptors.IsOpen fd := (hanswer.resolve_left hvalid).2

theorem Opened.accounted (h : Opened p q o fd) (hp : Tracked p) (hanswer : p.MayAnswer fd) :
    q.descriptors.Accounted (held q) := by
  rw [h.descriptors, h.held_eq]
  exact hp.accounted.obtain (if_pos h.free) (not_isOpen h.valid hanswer)

theorem MayAnswer.kept (hkept : Kept p q) (h : q.MayAnswer fd) : p.MayAnswer fd := by
  rwa [Process.MayAnswer, hkept.descriptors] at h

/-- A handle in use is an open descriptor, which the system does not give out. -/
theorem Tracked.handle_ne (h : Tracked p) (hheld : p.getHandle o ≠ INVALID_SOCKET)
    (hvalid : fd ≠ INVALID_SOCKET) (hanswer : p.MayAnswer fd) : p.getHandle o ≠ fd := by
  intro heq
  have hopen := h.accounted.isOpen o (p.getHandle o) (if_neg hheld)
  exact not_isOpen hvalid hanswer (heq ▸ hopen)

/-- Closing and creating: an object that holds nothing ends with what it creates,
any other one keeps what it holds. -/
theorem worksOnNew_iff (hp : Tracked p) (hanswer : p.MayAnswer fd)
    (hq : Kept ((p.close o).create o fd) q) :
    (q.descriptors.Accounted (held q) ∧ WorksOnNew p q o) ↔
      p.getHandle o = INVALID_SOCKET := by
  have hclose := close_kept hp.valid o
  constructor
  · rintro ⟨-, hnew⟩
    by_contra hheld
    have hkept : Kept p q := by
      rcases create_cases (p.close o) o fd with hopened | ⟨hkept, -⟩
      · exact absurd (hclose.handles ▸ hopened.free) hheld
      · exact (hclose.trans hkept).trans hq
    obtain ⟨older, hlength, hdescriptors⟩ := hnew (by rw [hkept.handles]; exact hheld)
    have hmore := congrArg List.length hdescriptors
    rw [hkept.descriptors, Ledger.obtain, List.length_cons, hlength] at hmore
    omega
  · intro hfree
    rcases create_cases (p.close o) o fd with hopened | ⟨hkept, hfailed⟩
    · have hopened := (Opened.after hclose hopened).keep hq
      refine ⟨hopened.accounted hp hanswer, fun _ => ⟨p.descriptors, rfl, ?_⟩⟩
      rw [hopened.descriptors, hopened.handles, Function.update_self]
    · have hkept := (hclose.trans hkept).trans hq
      refine ⟨(hp.kept hkept).accounted, fun hheld => ?_⟩
      rw [hkept.handles] at hheld
      exact absurd hfree hheld

theorem released_iff (hp : Tracked p) (o : ObjectId) :
    ((p.close o).descriptors.Accounted (held (p.close o)) ∧
      (p.close o).getHandle o = INVALID_SOCKET) ↔ p.getHandle o = INVALID_SOCKET := by
  have hclose := close_kept hp.valid o
  rw [hclose.handles]
  exact ⟨fun h => h.2, fun h => ⟨(hp.kept hclose).accounted, h⟩⟩

theorem accepted_iff (hp : Tracked p) {n socket : Nat} {answers : Process.Accepting}
    (hanswer : p.MayAnswer answers.remote) :
    ((p.accept n socket answers).2.descriptors.Accounted (held (p.accept n socket answers).2) ∧
      ((p.accept n socket answers).1 = .done →
        (p.accept n socket answers).2.getHandle (.tcpSocket socket) = answers.remote)) ↔
      FindsInvalid p (.accept n socket answers) := by
  rcases accept_cases hp.valid n socket answers with
    ⟨hstatus, heq, hnone⟩ | ⟨⟨hlistens, hremote⟩, hstatus, hresult⟩
  · rw [heq]
    refine ⟨fun _ hlistens hremote => ?_, fun _ => ⟨hp.accounted, fun h => absurd h hstatus⟩⟩
    exact absurd hnone (not_or.mpr ⟨hlistens, hremote⟩)
  · constructor
    · rintro ⟨-, hholds⟩ - -
      by_contra hheld
      rcases hresult with hopened | ⟨-, hkept⟩
      · exact hheld hopened.free
      · apply hp.handle_ne hheld hremote hanswer
        rw [← hholds hstatus, hkept.handles]
        rfl
    · intro hfinds
      rcases hresult with hopened | ⟨hheld, -⟩
      · refine ⟨hopened.accounted hp hanswer, fun _ => ?_⟩
        rw [hopened.handles, Function.update_self]
      · exact absurd (hfinds hlistens hremote) hheld

theorem step_eq_some {call : Call} (h : step p call = some q) :
    call.Possible p ∧ q = call.run p := by
  rw [step] at h
  split at h
  next hpossible => exact ⟨hpossible, (Option.some.inj h).symm⟩
  next => simp at h

theorem sound_releases {call : Call} (hreleases : releases call = some o)
    (hrenews : renews call = none) (hcall : ∀ n socket answers, call ≠ .accept n socket answers) :
    Sound ⟨p, call, q⟩ ↔
      q.descriptors.Accounted (held q) ∧ q.getHandle o = INVALID_SOCKET := by
  constructor
  · intro h
    exact ⟨h.accounted, h.released o hreleases⟩
  · rintro ⟨haccounted, hreleased⟩
    refine ⟨haccounted, ?_, ?_, fun n socket answers heq => absurd heq (hcall n socket answers)⟩
    · intro other hother
      obtain rfl := Option.some.inj (hreleases.symm.trans hother)
      exact hreleased
    · intro other hother
      rw [hrenews] at hother
      exact absurd hother (by simp)

theorem sound_renews {call : Call} (hrenews : renews call = some o)
    (hreleases : releases call = none)
    (hcall : ∀ n socket answers, call ≠ .accept n socket answers) :
    Sound ⟨p, call, q⟩ ↔ q.descriptors.Accounted (held q) ∧ WorksOnNew p q o := by
  constructor
  · intro h
    exact ⟨h.accounted, h.renewed o hrenews⟩
  · rintro ⟨haccounted, hrenewed⟩
    refine ⟨haccounted, ?_, ?_, fun n socket answers heq => absurd heq (hcall n socket answers)⟩
    · intro other hother
      rw [hreleases] at hother
      exact absurd hother (by simp)
    · intro other hother
      obtain rfl := Option.some.inj (hrenews.symm.trans hother)
      exact hrenewed

theorem send_accounted (hp : Tracked p) {n size : Nat} {answers : Process.Sending}
    (hanswer : p.MayAnswer answers.socket) :
    (p.send n size answers).2.descriptors.Accounted (held (p.send n size answers).2) := by
  rw [send_eq]
  rcases create_cases p (.udpSocket n) answers.socket with hopened | ⟨hkept, -⟩
  · exact hopened.accounted hp hanswer
  · exact (hp.kept hkept).accounted

theorem sound_step_iff (hp : Tracked p) {call : Call} (hpossible : call.Possible p) :
    Sound ⟨p, call, call.run p⟩ ↔ FindsInvalid p call := by
  have hcloses := fun o => close_kept hp.valid o
  cases call with
  | connect n ms answers =>
      refine Iff.trans ?_ (worksOnNew_iff hp (MayAnswer.kept (hcloses _) hpossible)
        (connect_kept p n ms answers))
      exact sound_renews rfl rfl (by simp)
  | disconnect n =>
      exact Iff.trans (sound_releases rfl rfl (by simp)) (released_iff hp (.tcpSocket n))
  | bind n address answers =>
      refine Iff.trans ?_ (worksOnNew_iff hp (MayAnswer.kept (hcloses _) hpossible)
        (Kept.of_eq (bind_eq p n address answers)))
      exact sound_renews rfl rfl (by simp)
  | unbind n =>
      exact Iff.trans (sound_releases rfl rfl (by simp)) (released_iff hp (.udpSocket n))
  | send n size answers =>
      refine ⟨fun _ => trivial, fun _ => ⟨send_accounted hp hpossible, ?_, ?_, ?_⟩⟩
      all_goals simp [releases, renews]
  | listen n address answers =>
      refine Iff.trans ?_ (worksOnNew_iff hp (MayAnswer.kept (hcloses _) hpossible)
        (Kept.of_eq (listen_eq p n address answers)))
      exact sound_renews rfl rfl (by simp)
  | accept n socket answers =>
      refine Iff.trans ?_ (accepted_iff hp hpossible)
      constructor
      · intro h
        exact ⟨h.accounted, h.accepted n socket answers rfl⟩
      · rintro ⟨haccounted, haccepted⟩
        refine ⟨haccounted, by simp [releases], by simp [renews], ?_⟩
        rintro n socket answers ⟨⟩
        exact haccepted
  | close o => exact Iff.trans (sound_releases rfl rfl (by simp)) (released_iff hp o)
  | setBlocking o block =>
      have hkept := setBlocking_kept p o block
      refine ⟨fun _ => trivial, fun _ => ⟨(hp.kept hkept).accounted, ?_, ?_, ?_⟩⟩
      all_goals simp [releases, renews]

theorem descriptors_create (p : Process) (o : ObjectId) (fd : Int) :
    (p.create o fd).descriptors = p.descriptors ∨
      (fd ≠ INVALID_SOCKET ∧ (p.create o fd).descriptors = p.descriptors.obtain fd) := by
  rcases create_cases p o fd with hopened | ⟨hkept, -⟩
  · exact .inr ⟨hopened.valid, hopened.descriptors⟩
  · exact .inl hkept.descriptors

theorem descriptors_run (hp : Tracked p) (call : Call) :
    (call.run p).descriptors = p.descriptors ∨
      ∃ fd, fd ≠ INVALID_SOCKET ∧ (call.run p).descriptors = p.descriptors.obtain fd := by
  have hcreate : ∀ o fd q, Kept ((p.close o).create o fd) q →
      q.descriptors = p.descriptors ∨
        ∃ fd, fd ≠ INVALID_SOCKET ∧ q.descriptors = p.descriptors.obtain fd := by
    intro o fd q hq
    rw [hq.descriptors, ← (close_kept hp.valid o).descriptors]
    rcases descriptors_create (p.close o) o fd with heq | ⟨hvalid, heq⟩
    · exact .inl heq
    · exact .inr ⟨fd, hvalid, heq⟩
  cases call with
  | connect n ms answers => exact hcreate _ _ _ (connect_kept p n ms answers)
  | disconnect n => exact .inl (close_kept hp.valid _).descriptors
  | bind n address answers => exact hcreate _ _ _ (Kept.of_eq (bind_eq p n address answers))
  | unbind n => exact .inl (close_kept hp.valid _).descriptors
  | send n size answers =>
      simp only [Call.run, send_eq]
      rcases descriptors_create p (.udpSocket n) answers.socket with heq | ⟨hvalid, heq⟩
      · exact .inl heq
      · exact .inr ⟨_, hvalid, heq⟩
  | listen n address answers => exact hcreate _ _ _ (Kept.of_eq (listen_eq p n address answers))
  | accept n socket answers =>
      rcases accept_cases hp.valid n socket answers with
        ⟨-, heq, -⟩ | ⟨⟨-, hremote⟩, -, hopened | ⟨-, hkept⟩⟩
      · exact .inl (congrArg Process.descriptors heq)
      · exact .inr ⟨_, hremote, hopened.descriptors⟩
      · exact .inr ⟨_, hremote, hkept.descriptors⟩
  | close o => exact .inl (close_kept hp.valid o).descriptors
  | setBlocking o block => exact .inl rfl

theorem valid_run (hp : Tracked p) (call : Call) :
    ∀ descriptor ∈ (call.run p).descriptors, descriptor.number ≠ INVALID_SOCKET := by
  rcases descriptors_run hp call with heq | ⟨fd, hvalid, heq⟩
  · rw [heq]
    exact hp.valid
  · rw [heq]
    intro descriptor hmem
    rcases List.mem_cons.mp hmem with rfl | hmem
    · exact hvalid
    · exact hp.valid descriptor hmem

end Steps

theorem tracked_start : Tracked {} :=
  ⟨fun _ h => absurd h List.not_mem_nil, Ledger.accounted_nil ObjectId⟩

/-- In every run each call is sound exactly when each object that a call closes
holds nothing at the time. -/
theorem handles_sound_iff {tr : List (Transition Process Call)} {p : Process}
    (hrun : Run step {} tr p) :
    (∀ t ∈ tr, Sound t) ↔ ∀ t ∈ tr, FindsInvalid t.pre t.event := by
  refine hrun.forall_step_iff Tracked (fun _ => True) Sound
    (fun t => FindsInvalid t.pre t.event) tracked_start ?_ ?_ fun _ _ => trivial
  · intro p call q hp _ hstep
    obtain ⟨hpossible, rfl⟩ := step_eq_some hstep
    exact sound_step_iff hp hpossible
  · intro p call q hp _ hstep hsound
    obtain ⟨hpossible, rfl⟩ := step_eq_some hstep
    exact ⟨valid_run hp call, hsound.accounted⟩

/-- A listener hands descriptor 4 to a socket that holds nothing, and another socket
connects on descriptor 5. -/
def served : List Call :=
  [.listen 0 "localhost" ⟨3, true, true⟩, .accept 0 0 ⟨4, .other⟩,
    .connect 1 500 ⟨5, some .inProgress, 1, some "127.0.0.1", .other⟩, .unbind 0]

theorem handles_sound_iff_served : (trace step {} served).Forall Sound :=
  List.forall_iff_forall_mem.mpr
    ((handles_sound_iff (run_trace served (by decide))).mpr (by decide))

/-- A connect and a disconnect: the object keeps descriptor 3. -/
def leaked : List Call :=
  [.connect 0 0 ⟨3, none, 0, none, .other⟩, .disconnect 0]

theorem not_handles_sound_leaked :
    ¬∀ (tr : List (Transition Process Call)) (p : Process), Run step {} tr p →
      ∀ t ∈ tr, Sound t := by
  intro hall
  have hsound := hall _ _ (run_trace leaked (by decide)) _ (List.getLast_mem (by decide))
  exact absurd (hsound.released (.tcpSocket 0) rfl) (by decide)

end TwitchChatWorker.SocketHandles
