import Mathlib.Data.List.Flatten
import TwitchChatWorker.OutgoingMessages
import TwitchChatWorker.StorageBatches

/-!
The way of a log record from a bot into the storage (`Bot::LogMessage`).  What a
`Command` handler says is logged by it, and a script logs what it wants to.
-/

namespace TwitchChatWorker.BotLogs

open TwitchChatWorker.BotHandlers
open TwitchChatWorker.BotReplies
open TwitchChatWorker.Bots
open TwitchChatWorker.DBController
open TwitchChatWorker.Lib.Batching
open TwitchChatWorker.Lib.Runs
open TwitchChatWorker.OutgoingMessages (answered)
open TwitchChatWorker.StorageBatches

/-- `mailbox` holds the log records that `Storage` has not handled. -/
structure State (Msg : Type*) where
  outgoing : OutgoingMessages.State
  mailbox : List LogMessage := []
  storage : Storage Msg LogMessage

inductive Event (Msg : Type*) where
  | outgoing (event : OutgoingMessages.Event)
  /-- `Storage` handles the next record of a bot -/
  | evtBotLogMessage
  | storage (event : StorageBatches.Event Msg LogMessage)

variable {Msg : Type*}

/-- What bots send to the logger in a step. -/
def logged (outgoing : OutgoingMessages.State) : OutgoingMessages.Event → List LogMessage
  | .bots libraries event => logs (answered libraries outgoing.environment event)
  | _ => []

/-- Log records reach the storage from its queue only. -/
def step (s : State Msg) : Event Msg → Option (State Msg)
  | .outgoing event =>
      (OutgoingMessages.step s.outgoing event).map fun outgoing =>
        { s with outgoing := outgoing, mailbox := s.mailbox ++ logged s.outgoing event }
  | .evtBotLogMessage =>
      match s.mailbox with
      | [] => none
      | record :: mailbox =>
          some { s with mailbox := mailbox, storage := storeLog s.storage record }
  | .storage (.storeLog _) => none
  | .storage event =>
      (StorageBatches.step s.storage event).map fun storage => { s with storage := storage }

/-- The records that a step sends to the logger. -/
def given (t : Transition (State Msg) (Event Msg)) : List LogMessage :=
  match t.event with
  | .outgoing event => logged t.pre.outgoing event
  | _ => []

/-- The record that the storage handles in a step. -/
def taken (t : Transition (State Msg) (Event Msg)) : Option LogMessage :=
  match t.event with
  | .evtBotLogMessage => t.pre.mailbox.head?
  | _ => none

/-- Who says or logs what. -/
structure Entry where
  userId : Int
  botId : Int
  text : String
deriving DecidableEq

/-- What the storage keeps of a record. -/
def entryOf (record : LogMessage) : Entry := ⟨record.userId, record.botId, record.text⟩

/-- What the `Command` handlers of bots say in a step. -/
def commanded (t : Transition (State Msg) (Event Msg)) : List Entry :=
  match t.event with
  | .outgoing (.bots _ (.bot _ p)) =>
      let bot := t.pre.outgoing.environment.bots p
      match bot.inbox with
      | .message msg :: _ =>
          (sent bot msg).map fun m => ⟨bot.config.userId, bot.config.botId, m.text⟩
      | _ => []
  | _ => []

/-- A record that the storage handles finds room in the batch. -/
def FindsRoom (t : Transition (State Msg) (Event Msg)) : Prop :=
  match t.event with
  | .evtBotLogMessage => t.pre.storage.logBatch.length < t.pre.storage.batchSize
  | _ => True

/-- What command handlers say is among the records, in order, whatever scripts log in
between; the storage handles the records in order; and each of them is on the way
to it, in the batch or given to `process`, once, exactly while all find room. -/
structure OnRecord (tr : List (Transition (State Msg) (Event Msg))) (s : State Msg) : Prop where
  said : (tr.flatMap commanded).Sublist ((tr.flatMap given).map entryOf)
  handled : tr.flatMap given = tr.filterMap taken ++ s.mailbox
  kept : (s.mailbox ++ (logPlaces s.storage).all).Perm (tr.flatMap given) ↔
    ∀ t ∈ tr, FindsRoom t

theorem entries_of_handler (libraries : Libraries) (config : BotConfiguration)
    (msg : ChatMessage) (entry : BotMessageEventHandler × Nat) :
    ((commandReply config msg entry.1).toList.map fun m =>
        (⟨config.userId, config.botId, m.text⟩ : Entry)).Sublist
      ((logs (handleBotMessage libraries config msg entry)).map entryOf) := by
  rcases entry with ⟨handler | handler, index⟩
  · simp only [commandReply, handleBotMessage, handleBotMessageCommand]
    cases handleCommand handler config msg with
    | none => exact List.Sublist.refl _
    | some m => exact List.Sublist.refl _
  · exact List.nil_sublist _

theorem entries_of_bot (libraries : Libraries) (bot : BotEngine) (msg : ChatMessage) :
    ((sent bot msg).map fun m => (⟨bot.config.userId, bot.config.botId, m.text⟩ : Entry)).Sublist
      ((logs (outputs libraries bot msg)).map entryOf) := by
  unfold sent outputs
  split_ifs
  · exact List.nil_sublist _
  · have hall (handlers : List BotMessageEventHandler) (index : Nat) :
        ((handlers.filterMap (commandReply bot.config msg)).map fun m =>
            (⟨bot.config.userId, bot.config.botId, m.text⟩ : Entry)).Sublist
          ((logs ((handlers.zipIdx index).flatMap
            (handleBotMessage libraries bot.config msg))).map entryOf) := by
      induction handlers generalizing index with
      | nil => exact List.Sublist.refl _
      | cons handler handlers ih =>
          rw [List.zipIdx_cons, List.flatMap_cons, logs, List.filterMap_append, List.map_append,
            ← List.singleton_append, List.filterMap_append, filterMap_singleton_toList,
            List.map_append]
          exact (entries_of_handler libraries bot.config msg (handler, index)).append (ih _)
    exact hall bot.massageHandlers 0

theorem commanded_sublist (t : Transition (State Msg) (Event Msg)) :
    (commanded t).Sublist ((given t).map entryOf) := by
  unfold commanded
  split
  next libraries env p hevent =>
    dsimp only
    split
    next msg inbox hinbox =>
      rw [given, hevent]
      simp only [logged, answered, hinbox]
      exact entries_of_bot libraries _ msg
    · exact List.nil_sublist _
  · exact List.nil_sublist _

section Steps

variable {s s' : State Msg} {event : Event Msg}

theorem storage_eq_some {event : StorageBatches.Event Msg LogMessage}
    (hstep : step s (.storage event) = some s') :
    (∀ record, event ≠ .storeLog record) ∧
      ∃ storage, StorageBatches.step s.storage event = some storage ∧
        s' = { s with storage := storage } := by
  cases event with
  | storeLog record => cases hstep
  | _ =>
      simp only [step, Option.map_eq_some_iff] at hstep
      obtain ⟨storage, hstorage, rfl⟩ := hstep
      exact ⟨by simp, storage, hstorage, rfl⟩

theorem mailbox_step (hstep : step s event = some s') :
    s.mailbox ++ given ⟨s, event, s'⟩ = (taken ⟨s, event, s'⟩).toList ++ s'.mailbox := by
  cases event with
  | outgoing event =>
      obtain ⟨outgoing, -, rfl⟩ := Option.map_eq_some_iff.mp hstep
      rfl
  | evtBotLogMessage =>
      simp only [step] at hstep
      split at hstep
      · cases hstep
      next record mailbox hmailbox =>
        obtain rfl := Option.some.inj hstep
        simp only [given, taken, hmailbox, List.append_nil]
        rfl
  | storage event =>
      obtain ⟨-, storage, -, rfl⟩ := storage_eq_some hstep
      exact List.append_nil _

/-- A step of the program as an event of the storage. -/
def storageEvent (t : Transition (State Msg) (Event Msg)) :
    Option (StorageBatches.Event Msg LogMessage) :=
  match t.event with
  | .storage event => some event
  | _ => (taken t).map .storeLog

theorem storage_step (hstep : step s event = some s') :
    (storageEvent ⟨s, event, s'⟩ = none ∧ s'.storage = s.storage) ∨
      ∃ e, storageEvent ⟨s, event, s'⟩ = some e ∧
        StorageBatches.step s.storage e = some s'.storage := by
  cases event with
  | outgoing event =>
      obtain ⟨outgoing, -, rfl⟩ := Option.map_eq_some_iff.mp hstep
      exact .inl ⟨rfl, rfl⟩
  | evtBotLogMessage =>
      simp only [step] at hstep
      split at hstep
      · cases hstep
      next record mailbox hmailbox =>
        obtain rfl := Option.some.inj hstep
        exact .inr ⟨.storeLog record, by simp [storageEvent, taken, hmailbox], rfl⟩
  | storage event =>
      obtain ⟨-, storage, hstorage, rfl⟩ := storage_eq_some hstep
      exact .inr ⟨event, rfl, hstorage⟩

/-- A step of the program as a step of the storage. -/
def storagePart (t : Transition (State Msg) (Event Msg)) :
    Option (Transition (Storage Msg LogMessage) (StorageBatches.Event Msg LogMessage)) :=
  (storageEvent t).map fun e => ⟨t.pre.storage, e, t.post.storage⟩

theorem stored_storagePart (hstep : step s event = some s') :
    (storagePart ⟨s, event, s'⟩).bind storedLog = taken ⟨s, event, s'⟩ := by
  cases event with
  | outgoing event => rfl
  | evtBotLogMessage =>
      simp only [storagePart, storageEvent, Option.map_map]
      cases taken ⟨s, .evtBotLogMessage, s'⟩ <;> rfl
  | storage event =>
      obtain ⟨hother, -⟩ := storage_eq_some hstep
      cases event with
      | storeLog record => exact absurd rfl (hother record)
      | _ => rfl

theorem findsRoom_iff_accepted (hstep : step s event = some s') :
    FindsRoom ⟨s, event, s'⟩ ↔
      (storagePart ⟨s, event, s'⟩).bind acceptedLog = taken ⟨s, event, s'⟩ := by
  cases event with
  | outgoing event => exact iff_of_true trivial rfl
  | evtBotLogMessage =>
      simp only [step] at hstep
      split at hstep
      · cases hstep
      next record mailbox hmailbox =>
        simp [FindsRoom, storagePart, storageEvent, taken, hmailbox, acceptedLog]
  | storage event =>
      obtain ⟨hother, -⟩ := storage_eq_some hstep
      cases event with
      | storeLog record => exact absurd rfl (hother record)
      | _ => exact iff_of_true trivial rfl

end Steps

theorem onRecord_of_run (batchSize : Nat) (outgoing : OutgoingMessages.State)
    (tr : List (Transition (State Msg) (Event Msg))) (s : State Msg)
    (hrun : Run step ⟨outgoing, [], { batchSize := batchSize }⟩ tr s) : OnRecord tr s := by
  have hhandled : tr.flatMap given = tr.filterMap taken ++ s.mailbox := by
    have hfifo := hrun.fifo (fun _ => True) State.mailbox given (fun t => (taken t).toList) trivial
      (fun _ _ _ _ _ => trivial) fun _ _ _ _ hstep => mailbox_step hstep
    rw [List.nil_append, ← List.filterMap_eq_flatMap_toList] at hfifo
    exact hfifo
  have hstored : storedLogs (tr.filterMap storagePart) = tr.filterMap taken := by
    rw [storedLogs, List.filterMap_filterMap]
    refine List.filterMap_congr fun t ht => ?_
    obtain ⟨-, -, hstep⟩ := hrun.step_of_mem ht
    exact stored_storagePart hstep
  have hkept := (conserves_accepted
    (hrun.project State.storage storageEvent fun _ _ _ hstep => storage_step hstep)).2.perm
  refine ⟨?_, hhandled, ?_, ?_⟩
  · rw [List.map_flatMap]
    exact List.Sublist.flatMap_right tr fun t _ => commanded_sublist t
  · intro hperm t ht
    obtain ⟨-, -, hstep⟩ := hrun.step_of_mem ht
    have hlength : (storedLogs (tr.filterMap storagePart)).length =
        (acceptedLogs (tr.filterMap storagePart)).length := by
      have h := hperm.length_eq
      rw [hhandled, List.length_append, List.length_append] at h
      rw [hstored]
      exact (Nat.add_left_cancel ((Nat.add_comm _ _).trans h.symm)).trans hkept.length_eq
    have hagree := filterMap_agree acceptedLog_cases (Nat.le_of_eq hlength)
    rw [findsRoom_iff_accepted hstep, ← stored_storagePart hstep]
    cases hpart : storagePart t with
    | none => rfl
    | some u => exact hagree u (List.mem_filterMap.mpr ⟨t, ht, hpart⟩)
  · intro hroom
    have haccepted : acceptedLogs (tr.filterMap storagePart) = tr.filterMap taken := by
      rw [acceptedLogs, List.filterMap_filterMap]
      refine List.filterMap_congr fun t ht => ?_
      obtain ⟨-, -, hstep⟩ := hrun.step_of_mem ht
      exact (findsRoom_iff_accepted hstep).mp (hroom t ht)
    rw [hhandled, ← haccepted]
    exact (hkept.append_left _).trans List.perm_append_comm

/-- Two bots greet with the same command, and the storage takes a record at a time. -/
def greetings : List (Event Unit) :=
  [.outgoing (.bots {} (.chatMessage ⟨"carol", "den", "!hi", true⟩)),
    .outgoing (.bots {} (.bot OutgoingMessages.botRows 0)),
    .outgoing (.bots {} (.bot OutgoingMessages.botRows 1)), .evtBotLogMessage,
    .storage .evtFlushBotLogMessages, .storage (.resume 0), .evtBotLogMessage]

def greeters : OutgoingMessages.State where
  environment := twoGreeters.env
  controller := .soEvtStart {} OutgoingMessages.accountRows

theorem greetings_isSome : (exec step ⟨greeters, [], { batchSize := 1 }⟩ greetings).isSome := by
  decide +kernel

theorem onRecord_of_run_greetings :
    OnRecord (trace step ⟨greeters, [], { batchSize := 1 }⟩ greetings)
      ((exec step ⟨greeters, [], { batchSize := 1 }⟩ greetings).get greetings_isSome) :=
  onRecord_of_run 1 greeters _ _ (run_trace greetings greetings_isSome)

end TwitchChatWorker.BotLogs
