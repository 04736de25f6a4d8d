import TwitchChatWorker.Lib.Batching
import TwitchChatWorker.Lib.Runs

/-!
The batches of chat messages and bot log records (`Storage.cpp`).  One step is
one critical section under a batch mutex or one call of `process`; the handlers
that are between two steps are kept in `running`, so every interleaving of
their steps is a run.
-/

namespace TwitchChatWorker.StorageBatches

open TwitchChatWorker.Lib.Batching
open TwitchChatWorker.Lib.Runs

variable {Msg Log : Type*}

/-- What a handler that has left a critical section does next. -/
inductive Running (Msg Log : Type*) where
  /-- `process(temp)`, the last action of the handler. -/
  | processMessages (temp : List Msg)
  | processLogs (temp : List Log)
  /-- `process(tempMsg)` inside `flush`. -/
  | flushProcessMessages (temp : List Msg)
  /-- `flush` before it takes `logBatchMutex`. -/
  | flushSwapLogs

/-- The two batches and the calls that run over batches swapped out. -/
structure Storage (Msg Log : Type*) where
  batchSize : Nat
  msgBatch : List Msg := []
  logBatch : List Log := []
  running : List (Running Msg Log) := []
  /-- The arguments of the calls of `process`, in order. -/
  processedMessages : List (List Msg) := []
  processedLogs : List (List Log) := []

/-- The critical section of both `store` overloads: the batch afterwards and,
when the batch was full, the batch swapped out of it.  The full branch leaves
`record` behind. -/
def storeBatch {α : Type*} (batchSize : Nat) (batch : List α) (record : α) :
    List α × Option (List α) :=
  if batch.length < batchSize then (batch ++ [record], none) else ([], some batch)

/-- `store` for chat messages. -/
def storeMessage (st : Storage Msg Log) (msg : Msg) : Storage Msg Log :=
  match storeBatch st.batchSize st.msgBatch msg with
  | (batch, none) => { st with msgBatch := batch }
  | (batch, some temp) =>
      { st with msgBatch := batch, running := st.running ++ [.processMessages temp] }

def storeLog (st : Storage Msg Log) (record : Log) : Storage Msg Log :=
  match storeBatch st.batchSize st.logBatch record with
  | (batch, none) => { st with logBatch := batch }
  | (batch, some temp) =>
      { st with logBatch := batch, running := st.running ++ [.processLogs temp] }

def evtFlushChatMessages (st : Storage Msg Log) : Storage Msg Log :=
  { st with msgBatch := [], running := st.running ++ [.processMessages st.msgBatch] }

def evtFlushBotLogMessages (st : Storage Msg Log) : Storage Msg Log :=
  { st with logBatch := [], running := st.running ++ [.processLogs st.logBatch] }

/-- The first critical section of `flush`, called by `evtFlushAll` and by
`so_evt_finish`. -/
def flush (st : Storage Msg Log) : Storage Msg Log :=
  { st with msgBatch := [], running := st.running ++ [.flushProcessMessages st.msgBatch] }

/-- The call goes on by one swap or one batch. -/
def resume (st : Storage Msg Log) (i : Nat) : Option (Storage Msg Log) :=
  match st.running[i]? with
  | some (.processMessages temp) =>
      some { st with
        running := st.running.eraseIdx i
        processedMessages := st.processedMessages ++ [temp] }
  | some (.processLogs temp) =>
      some { st with
        running := st.running.eraseIdx i
        processedLogs := st.processedLogs ++ [temp] }
  | some (.flushProcessMessages temp) =>
      some { st with
        running := st.running.set i .flushSwapLogs
        processedMessages := st.processedMessages ++ [temp] }
  | some .flushSwapLogs =>
      some { st with
        logBatch := []
        running := st.running.set i (.processLogs st.logBatch) }
  | none => none

/-- What the agents and the timers make the storage do. -/
inductive Event (Msg Log : Type*) where
  | storeMessage (msg : Msg)
  | storeLog (record : Log)
  | evtFlushChatMessages
  | evtFlushBotLogMessages
  | flush
  | resume (i : Nat)

def step (st : Storage Msg Log) : Event Msg Log → Option (Storage Msg Log)
  | .storeMessage msg => some (storeMessage st msg)
  | .storeLog record => some (storeLog st record)
  | .evtFlushChatMessages => some (evtFlushChatMessages st)
  | .evtFlushBotLogMessages => some (evtFlushBotLogMessages st)
  | .flush => some (flush st)
  | .resume i => resume st i

/-- `so_evt_finish` runs `flush` to its end; no other handler runs then. -/
def soEvtFinish : List (Event Msg Log) := [.flush, .resume 0, .resume 0, .resume 0]

def storedMessage (t : Transition (Storage Msg Log) (Event Msg Log)) : Option Msg :=
  match t.event with
  | .storeMessage msg => some msg
  | _ => none

def storedLog (t : Transition (Storage Msg Log) (Event Msg Log)) : Option Log :=
  match t.event with
  | .storeLog record => some record
  | _ => none

/-- The chat messages given to `store`. -/
def storedMessages (tr : List (Transition (Storage Msg Log) (Event Msg Log))) : List Msg :=
  tr.filterMap storedMessage

def storedLogs (tr : List (Transition (Storage Msg Log) (Event Msg Log))) : List Log :=
  tr.filterMap storedLog

def Running.messages : Running Msg Log → Option (List Msg)
  | .processMessages temp => some temp
  | .flushProcessMessages temp => some temp
  | _ => none

def Running.logs : Running Msg Log → Option (List Log)
  | .processLogs temp => some temp
  | _ => none

/-- Where the chat messages stand. -/
def messagePlaces (st : Storage Msg Log) : Places Msg :=
  ⟨st.msgBatch, st.running.filterMap Running.messages, st.processedMessages⟩

def logPlaces (st : Storage Msg Log) : Places Log :=
  ⟨st.logBatch, st.running.filterMap Running.logs, st.processedLogs⟩

/-- Every record given to `store` is in exactly one place, batches keep the
order of the calls, and if no handler is running the final flush leaves every
record in exactly one processed batch. -/
structure KeepsEveryRecord (tr : List (Transition (Storage Msg Log) (Event Msg Log)))
    (st : Storage Msg Log) : Prop where
  messages : Conserves (messagePlaces st) (storedMessages tr)
  logs : Conserves (logPlaces st) (storedLogs tr)
  finish : st.running = [] → ∃ done, exec step st soEvtFinish = some done ∧
    done.processedMessages.flatten.Perm (storedMessages tr) ∧
    done.processedLogs.flatten.Perm (storedLogs tr)

/-- A call of `store` finds fewer than `batchSize` records in its batch. -/
def FindsRoom (t : Transition (Storage Msg Log) (Event Msg Log)) : Prop :=
  match t.event with
  | .storeMessage _ => t.pre.msgBatch.length < t.pre.batchSize
  | .storeLog _ => t.pre.logBatch.length < t.pre.batchSize
  | _ => True

/-- The chat message that `store` found room for. -/
def acceptedMessage (t : Transition (Storage Msg Log) (Event Msg Log)) : Option Msg :=
  match t.event with
  | .storeMessage msg => if t.pre.msgBatch.length < t.pre.batchSize then some msg else none
  | _ => none

def acceptedLog (t : Transition (Storage Msg Log) (Event Msg Log)) : Option Log :=
  match t.event with
  | .storeLog record => if t.pre.logBatch.length < t.pre.batchSize then some record else none
  | _ => none

def acceptedMessages (tr : List (Transition (Storage Msg Log) (Event Msg Log))) : List Msg :=
  tr.filterMap acceptedMessage

def acceptedLogs (tr : List (Transition (Storage Msg Log) (Event Msg Log))) : List Log :=
  tr.filterMap acceptedLog

theorem findsRoom_iff (t : Transition (Storage Msg Log) (Event Msg Log)) :
    FindsRoom t ↔ acceptedMessage t = storedMessage t ∧ acceptedLog t = storedLog t := by
  simp only [FindsRoom, acceptedMessage, storedMessage, acceptedLog, storedLog]
  cases t.event <;> simp

theorem resume_cases {st st' : Storage Msg Log} {i : Nat} (h : resume st i = some st') :
    ∃ rest,
      (∃ temp, st.running.Perm (.processMessages temp :: rest) ∧ st'.running.Perm rest ∧
        st' = { st with
          running := st'.running, processedMessages := st.processedMessages ++ [temp] }) ∨
      (∃ temp, st.running.Perm (.processLogs temp :: rest) ∧ st'.running.Perm rest ∧
        st' = { st with
          running := st'.running, processedLogs := st.processedLogs ++ [temp] }) ∨
      (∃ temp, st.running.Perm (.flushProcessMessages temp :: rest) ∧
        st'.running.Perm (.flushSwapLogs :: rest) ∧
        st' = { st with
          running := st'.running, processedMessages := st.processedMessages ++ [temp] }) ∨
      (st.running.Perm (.flushSwapLogs :: rest) ∧
        st'.running.Perm (.processLogs st.logBatch :: rest) ∧
        st' = { st with running := st'.running, logBatch := [] }) := by
  refine ⟨st.running.eraseIdx i, ?_⟩
  simp only [resume] at h
  cases hrunning : st.running[i]? with
  | none => simp [hrunning] at h
  | some p =>
      obtain ⟨hperm, hset⟩ := perm_of_getElem? hrunning
      cases p with
      | processMessages temp =>
          simp only [hrunning, Option.some.injEq] at h
          subst h
          exact .inl ⟨temp, hperm, .refl _, rfl⟩
      | processLogs temp =>
          simp only [hrunning, Option.some.injEq] at h
          subst h
          exact .inr (.inl ⟨temp, hperm, .refl _, rfl⟩)
      | flushProcessMessages temp =>
          simp only [hrunning, Option.some.injEq] at h
          subst h
          exact .inr (.inr (.inl ⟨temp, hperm, hset _, rfl⟩))
      | flushSwapLogs =>
          simp only [hrunning, Option.some.injEq] at h
          subst h
          exact .inr (.inr (.inr ⟨hperm, hset _, rfl⟩))

theorem resume_conserves_messages {st st' : Storage Msg Log} {i : Nat}
    {accepted : List Msg} (hstep : resume st i = some st')
    (h : Conserves (messagePlaces st) accepted) :
    Conserves (messagePlaces st') accepted := by
  obtain ⟨rest, ⟨temp, hpre, hpost, hst⟩ | ⟨temp, hpre, hpost, hst⟩ |
    ⟨temp, hpre, hpost, hst⟩ | ⟨hpre, hpost, hst⟩⟩ := resume_cases hstep
  all_goals
    have hpre' := hpre.filterMap Running.messages
    have hpost' := (hpost.filterMap Running.messages).symm
    simp only [List.filterMap_cons, Running.messages] at hpre' hpost'
    rw [hst]
  · exact (h.consume hpre').reorder hpost'
  · exact (h.reorder hpre').reorder hpost'
  · exact (h.consume hpre').reorder hpost'
  · exact (h.reorder hpre').reorder hpost'

theorem resume_conserves_logs {st st' : Storage Msg Log} {i : Nat}
    {accepted : List Log} (hstep : resume st i = some st')
    (h : Conserves (logPlaces st) accepted) :
    Conserves (logPlaces st') accepted := by
  obtain ⟨rest, ⟨temp, hpre, hpost, hst⟩ | ⟨temp, hpre, hpost, hst⟩ |
    ⟨temp, hpre, hpost, hst⟩ | ⟨hpre, hpost, hst⟩⟩ := resume_cases hstep
  all_goals
    have hpre' := hpre.filterMap Running.logs
    have hpost' := (hpost.filterMap Running.logs).symm
    simp only [List.filterMap_cons, Running.logs] at hpre' hpost'
    rw [hst]
  · exact (h.reorder hpre').reorder hpost'
  · exact (h.consume hpre').reorder hpost'
  · exact (h.reorder hpre').reorder hpost'
  · have hlast := (List.perm_append_singleton st.logBatch
      (rest.filterMap Running.logs)).trans hpost'
    exact ((h.reorder hpre').swap).reorder hlast

theorem step_conserves_messages {s s' : Storage Msg Log} {e : Event Msg Log}
    {accepted : List Msg} (hstep : step s e = some s')
    (h : Conserves (messagePlaces s) accepted) :
    Conserves (messagePlaces s') (accepted ++ (acceptedMessage ⟨s, e, s'⟩).toList) := by
  cases e with
  | storeMessage msg =>
      obtain rfl := Option.some.inj hstep
      by_cases hroom : s.msgBatch.length < s.batchSize
      · simpa [storeMessage, storeBatch, hroom, messagePlaces, acceptedMessage]
          using h.accept msg
      · simpa [storeMessage, storeBatch, hroom, messagePlaces, acceptedMessage,
          Running.messages, List.filterMap_cons] using h.swap
  | storeLog record =>
      obtain rfl := Option.some.inj hstep
      by_cases hroom : s.logBatch.length < s.batchSize <;>
        simpa [storeLog, storeBatch, hroom, messagePlaces, acceptedMessage,
          Running.messages, List.filterMap_cons] using h
  | evtFlushChatMessages =>
      obtain rfl := Option.some.inj hstep
      simpa [evtFlushChatMessages, messagePlaces, acceptedMessage, Running.messages,
        List.filterMap_cons] using h.swap
  | evtFlushBotLogMessages =>
      obtain rfl := Option.some.inj hstep
      simpa [evtFlushBotLogMessages, messagePlaces, acceptedMessage, Running.messages,
        List.filterMap_cons] using h
  | flush =>
      obtain rfl := Option.some.inj hstep
      simpa [flush, messagePlaces, acceptedMessage, Running.messages,
        List.filterMap_cons] using h.swap
  | resume i => simpa [acceptedMessage] using resume_conserves_messages hstep h

theorem step_conserves_logs {s s' : Storage Msg Log} {e : Event Msg Log}
    {accepted : List Log} (hstep : step s e = some s')
    (h : Conserves (logPlaces s) accepted) :
    Conserves (logPlaces s') (accepted ++ (acceptedLog ⟨s, e, s'⟩).toList) := by
  cases e with
  | storeMessage msg =>
      obtain rfl := Option.some.inj hstep
      by_cases hroom : s.msgBatch.length < s.batchSize <;>
        simpa [storeMessage, storeBatch, hroom, logPlaces, acceptedLog, Running.logs,
          List.filterMap_cons] using h
  | storeLog record =>
      obtain rfl := Option.some.inj hstep
      by_cases hroom : s.logBatch.length < s.batchSize
      · simpa [storeLog, storeBatch, hroom, logPlaces, acceptedLog] using h.accept record
      · simpa [storeLog, storeBatch, hroom, logPlaces, acceptedLog, Running.logs,
          List.filterMap_cons] using h.swap
  | evtFlushChatMessages =>
      obtain rfl := Option.some.inj hstep
      simpa [evtFlushChatMessages, logPlaces, acceptedLog, Running.logs,
        List.filterMap_cons] using h
  | evtFlushBotLogMessages =>
      obtain rfl := Option.some.inj hstep
      simpa [evtFlushBotLogMessages, logPlaces, acceptedLog, Running.logs,
        List.filterMap_cons] using h.swap
  | flush =>
      obtain rfl := Option.some.inj hstep
      simpa [flush, logPlaces, acceptedLog, Running.logs, List.filterMap_cons] using h
  | resume i => simpa [acceptedLog] using resume_conserves_logs hstep h

/-- Records that entered a batch are never lost or duplicated. -/
theorem conserves_accepted {batchSize : Nat}
    {tr : List (Transition (Storage Msg Log) (Event Msg Log))} {st : Storage Msg Log}
    (hrun : Run step { batchSize := batchSize } tr st) :
    Conserves (messagePlaces st) (acceptedMessages tr) ∧
      Conserves (logPlaces st) (acceptedLogs tr) := by
  induction hrun with
  | nil => exact ⟨conserves_empty, conserves_empty⟩
  | snoc _ hstep ih =>
      simp only [acceptedMessages, acceptedLogs, List.filterMap_append,
        filterMap_singleton_toList]
      exact ⟨step_conserves_messages hstep ih.1, step_conserves_logs hstep ih.2⟩

theorem acceptedMessage_cases (t : Transition (Storage Msg Log) (Event Msg Log)) :
    acceptedMessage t = none ∨ acceptedMessage t = storedMessage t := by
  simp only [acceptedMessage, storedMessage]
  cases t.event with
  | storeMessage msg => by_cases h : t.pre.msgBatch.length < t.pre.batchSize <;> simp [h]
  | _ => simp

theorem acceptedLog_cases (t : Transition (Storage Msg Log) (Event Msg Log)) :
    acceptedLog t = none ∨ acceptedLog t = storedLog t := by
  simp only [acceptedLog, storedLog]
  cases t.event with
  | storeLog record => by_cases h : t.pre.logBatch.length < t.pre.batchSize <;> simp [h]
  | _ => simp

theorem exec_soEvtFinish {st : Storage Msg Log} (hidle : st.running = []) :
    exec step st soEvtFinish = some { st with
      msgBatch := [], logBatch := []
      processedMessages := st.processedMessages ++ [st.msgBatch]
      processedLogs := st.processedLogs ++ [st.logBatch] } := by
  simp [soEvtFinish, exec, step, flush, resume, hidle]

/-- `Storage` keeps every record on exactly the runs in which no `store` meets
a full batch: the full branch hands the batch on but drops its own record. -/
theorem keepsEveryRecord_iff_findsRoom {batchSize : Nat}
    {tr : List (Transition (Storage Msg Log) (Event Msg Log))} {st : Storage Msg Log}
    (hrun : Run step { batchSize := batchSize } tr st) :
    KeepsEveryRecord tr st ↔ ∀ t ∈ tr, FindsRoom t := by
  obtain ⟨hmessages, hlogs⟩ := conserves_accepted hrun
  constructor
  · intro hkeeps t ht
    have hmsgLength := (hkeeps.messages.perm.symm.trans hmessages.perm).length_eq
    have hlogLength := (hkeeps.logs.perm.symm.trans hlogs.perm).length_eq
    rw [findsRoom_iff]
    exact ⟨filterMap_agree acceptedMessage_cases (Nat.le_of_eq hmsgLength) t ht,
      filterMap_agree acceptedLog_cases (Nat.le_of_eq hlogLength) t ht⟩
  · intro hroom
    have hagree := fun t ht => (findsRoom_iff t).mp (hroom t ht)
    have hstoredMessages : acceptedMessages tr = storedMessages tr :=
      List.filterMap_congr fun t ht => (hagree t ht).1
    have hstoredLogs : acceptedLogs tr = storedLogs tr :=
      List.filterMap_congr fun t ht => (hagree t ht).2
    rw [hstoredMessages] at hmessages
    rw [hstoredLogs] at hlogs
    refine ⟨hmessages, hlogs, fun hidle => ⟨_, exec_soEvtFinish hidle, ?_, ?_⟩⟩
    · have hdone : Conserves ⟨[], [], st.processedMessages ++ [st.msgBatch]⟩
          (storedMessages tr) := by
        have h := hmessages
        simp only [messagePlaces, hidle, List.filterMap_nil] at h
        exact h.swap.consume (.refl _)
      exact hdone.consumed_perm
    · have hdone : Conserves ⟨[], [], st.processedLogs ++ [st.logBatch]⟩
          (storedLogs tr) := by
        have h := hlogs
        simp only [logPlaces, hidle, List.filterMap_nil] at h
        exact h.swap.consume (.refl _)
      exact hdone.consumed_perm

theorem keepsEveryRecord_iff_findsRoom_two :
    let events : List (Event Nat Nat) :=
      [.storeMessage 1, .storeLog 5, .storeMessage 2, .flush, .storeMessage 3, .resume 0]
    KeepsEveryRecord (trace step { batchSize := 2 } events)
        ((exec step { batchSize := 2 } events).get rfl) ↔
      ∀ t ∈ trace step { batchSize := 2 } events, FindsRoom t :=
  keepsEveryRecord_iff_findsRoom (run_trace _ rfl)

/-- With `batchSize = 1` the second of two messages is in no place. -/
theorem not_keepsEveryRecord_second :
    ∃ (tr : List (Transition (Storage Nat Nat) (Event Nat Nat))) (st : Storage Nat Nat),
      Run step { batchSize := 1 } tr st ∧ ¬KeepsEveryRecord tr st := by
  refine ⟨_, _, run_trace [.storeMessage 7, .storeMessage 8] rfl, fun hkeeps => ?_⟩
  exact absurd hkeeps.messages.perm.length_eq (by decide)

end TwitchChatWorker.StorageBatches
