import Mathlib.Data.List.Nodup
import TwitchChatWorker.DBController

/-!
The two loaders of accounts on the same table.  Columns come to the fields by
their positions in the requests.
-/

namespace TwitchChatWorker.AccountLoaders

open TwitchChatWorker.DBController
open TwitchChatWorker.IrcClient

/-- A row of the table `account`. -/
structure AccountRow where
  id : Int32
  username : String
  display : String
  oauth : String
  channelsLimit : Int32
  whisperPerSecLimit : Int32
  authPerSecLimit : Int32
  commandPerSecLimit : Int32
  sessionsCount : Int32
  active : Bool
deriving DecidableEq

/-- The columns that the requests of the loaders ask for. -/
inductive Column where
  | id
  | username
  | display
  | oauth
  | channelsLimit
  | whisperPerSecLimit
  | authPerSecLimit
  | commandPerSecLimit
  | sessionsCount

def Column.name : Column → String
  | .id => "id"
  | .username => "username"
  | .display => "display"
  | .oauth => "oauth"
  | .channelsLimit => "channels_limit"
  | .whisperPerSecLimit => "whisper_per_sec_limit"
  | .authPerSecLimit => "auth_per_sec_limit"
  | .commandPerSecLimit => "command_per_sec_limit"
  | .sessionsCount => "sessions_count"

/-- A value as the database answers it. -/
def AccountRow.text (row : AccountRow) : Column → String
  | .id => toString row.id.toInt
  | .username => row.username
  | .display => row.display
  | .oauth => row.oauth
  | .channelsLimit => toString row.channelsLimit.toInt
  | .whisperPerSecLimit => toString row.whisperPerSecLimit.toInt
  | .authPerSecLimit => toString row.authPerSecLimit.toInt
  | .commandPerSecLimit => toString row.commandPerSecLimit.toInt
  | .sessionsCount => toString row.sessionsCount.toInt

/-- The columns that `loadAccount` selects; `loadAccounts` has the id before them. -/
def accountColumns : List Column :=
  [.username, .display, .oauth, .channelsLimit, .whisperPerSecLimit, .authPerSecLimit,
    .commandPerSecLimit, .sessionsCount]

/-- The text of a request for the columns. -/
def select (columns : List Column) (condition : String) : String :=
  "SELECT " ++ String.intercalate ", " (columns.map Column.name) ++ " FROM account WHERE " ++
    condition ++ ";"

theorem accountsRequest_eq : accountsRequest = select (.id :: accountColumns) "active = true" := by
  decide +kernel

theorem accountRequest_eq (id : Int) :
    accountRequest id = select accountColumns ("id = " ++ toString id) := by
  have hbefore : "SELECT " ++ String.intercalate ", " (accountColumns.map Column.name) ++
      " FROM account WHERE " ++ "id = " =
      "SELECT username, display, oauth, channels_limit, " ++
        "whisper_per_sec_limit, auth_per_sec_limit, " ++
        "command_per_sec_limit, sessions_count " ++
        "FROM account WHERE id = " := by decide +kernel
  rw [select, ← String.append_assoc, hbefore]
  rfl

structure AccountTable where
  rows : List AccountRow
  ids : (rows.map AccountRow.id).Nodup

/-- The database answers both requests from the table, in its order. -/
structure Serves (t : AccountTable) (db : Database) : Prop where
  all : db (select (.id :: accountColumns) "active = true") =
    .rows ((t.rows.filter AccountRow.active).map fun row =>
      (Column.id :: accountColumns).map row.text)
  one : ∀ row ∈ t.rows, db (select accountColumns ("id = " ++ toString row.id.toInt)) =
    .rows ((t.rows.filter fun other => other.id = row.id).map fun other =>
      accountColumns.map other.text)

/-- Every field has the value of the column that it is named after. -/
def named (row : AccountRow) : IRCClientConfig where
  id := row.id.toInt
  nick := row.username
  user := row.display
  password := row.oauth
  channelsLimit := row.channelsLimit.toInt
  whisperPerSecLimit := row.whisperPerSecLimit.toInt
  authPerSecLimit := row.authPerSecLimit.toInt
  commandPerSecLimit := row.commandPerSecLimit.toInt
  sessionCount := row.sessionsCount.toInt

structure LoadsAsNamed (t : AccountTable) (db : Database) : Prop where
  all : loadAccounts db = (t.rows.filter AccountRow.active).map named
  one : ∀ row ∈ t.rows, loadAccount db row.id.toInt = named row

/-- The limits that the loaders mix up are the same number. -/
def EqualLimits (row : AccountRow) : Prop :=
  row.whisperPerSecLimit = row.authPerSecLimit ∧ row.authPerSecLimit = row.commandPerSecLimit

instance : DecidablePred EqualLimits := fun _ => inferInstanceAs (Decidable (_ ∧ _))

/-- What both loaders make of a row: each limit per second is read from the column
after the one it should be. -/
def loaded (row : AccountRow) : IRCClientConfig :=
  { named row with
    commandPerSecLimit := row.whisperPerSecLimit.toInt
    whisperPerSecLimit := row.authPerSecLimit.toInt
    authPerSecLimit := row.commandPerSecLimit.toInt }

theorem loaded_eq_named_iff (row : AccountRow) : loaded row = named row ↔ EqualLimits row := by
  simp only [loaded, named, EqualLimits, IRCClientConfig.mk.injEq, true_and, and_true,
    Int32.toInt_inj]
  constructor
  · rintro ⟨hcommand, hwhisper, hauth⟩
    exact ⟨hwhisper.symm, hauth.symm⟩
  · rintro ⟨hwhisper, hauth⟩
    exact ⟨hwhisper.trans hauth, hwhisper.symm, hauth.symm⟩

section

variable {t : AccountTable} {db : Database}

theorem Serves.loadAccounts_eq (h : Serves t db) :
    loadAccounts db = (t.rows.filter AccountRow.active).map loaded := by
  have hanswer := h.all
  rw [← accountsRequest_eq] at hanswer
  rw [loadAccounts, hanswer]
  simp only [List.map_map]
  apply List.map_congr_left
  intro row _
  simp only [Function.comp_apply, accountColumns, List.map_cons, column, List.getD_cons_succ,
    List.getD_cons_zero, AccountRow.text, toNumber_text]
  rfl

theorem filter_id {row : AccountRow} (hrow : row ∈ t.rows) :
    (t.rows.filter fun other => other.id = row.id) = [row] := by
  obtain ⟨before, after, hsplit⟩ := List.append_of_mem hrow
  have hids := t.ids
  rw [hsplit, List.map_append, List.map_cons, List.nodup_middle, List.nodup_cons,
    List.mem_append, not_or] at hids
  obtain ⟨⟨hbefore, hafter⟩, -⟩ := hids
  have hother : ∀ rows : List AccountRow, row.id ∉ rows.map AccountRow.id →
      (rows.filter fun other => other.id = row.id) = [] := by
    intro rows hnot
    rw [List.filter_eq_nil_iff]
    intro other hmem heq
    exact hnot (List.mem_map.mpr ⟨other, hmem, of_decide_eq_true heq⟩)
  rw [hsplit, List.filter_append, List.filter_cons, if_pos (decide_eq_true rfl),
    hother before hbefore, hother after hafter, List.nil_append]

theorem Serves.loadAccount_eq (h : Serves t db) {row : AccountRow} (hrow : row ∈ t.rows) :
    loadAccount db row.id.toInt = loaded row := by
  have hanswer := h.one row hrow
  rw [← accountRequest_eq, filter_id hrow] at hanswer
  rw [loadAccount, hanswer]
  simp only [accountColumns, List.map_cons, column, List.getD_cons_succ, List.getD_cons_zero,
    AccountRow.text, toNumber_text]
  rfl

theorem Serves.loaders_agree (h : Serves t db) :
    loadAccounts db =
      (t.rows.filter AccountRow.active).map fun row => loadAccount db row.id.toInt := by
  rw [h.loadAccounts_eq]
  apply List.map_congr_left
  intro row hrow
  exact (h.loadAccount_eq (List.mem_filter.mp hrow).1).symm

/-- The fields hold the columns they are named after exactly when no row tells the
three limits per second apart. -/
theorem loadsAsNamed_iff (t : AccountTable) (db : Database) (h : Serves t db) :
    LoadsAsNamed t db ↔ ∀ row ∈ t.rows, EqualLimits row := by
  constructor
  · rintro ⟨-, hone⟩ row hrow
    rw [← loaded_eq_named_iff, ← hone row hrow, h.loadAccount_eq hrow]
  · intro hlimits
    have hnamed : ∀ row ∈ t.rows, loaded row = named row := fun row hrow =>
      (loaded_eq_named_iff row).mpr (hlimits row hrow)
    refine ⟨?_, fun row hrow => (h.loadAccount_eq hrow).trans (hnamed row hrow)⟩
    rw [h.loadAccounts_eq]
    apply List.map_congr_left
    intro row hrow
    exact hnamed row (List.mem_filter.mp hrow).1

end

/-- An account with one limit for everything, and one that is switched off. -/
def accounts : AccountTable where
  rows :=
    [⟨4, "bot", "Bot", "oauth:1", 20, 3, 3, 3, 2, true⟩,
      ⟨9, "idle", "Idle", "oauth:2", 20, 1, 1, 1, 1, false⟩]
  ids := by decide

def serveAccounts : Database := fun request =>
  if request = select (.id :: accountColumns) "active = true" then
    .rows [["4", "bot", "Bot", "oauth:1", "20", "3", "3", "3", "2"]]
  else if request = select accountColumns "id = 4" then
    .rows [["bot", "Bot", "oauth:1", "20", "3", "3", "3", "2"]]
  else if request = select accountColumns "id = 9" then
    .rows [["idle", "Idle", "oauth:2", "20", "1", "1", "1", "1"]]
  else .failed

theorem loadsAsNamed_iff_accounts : LoadsAsNamed accounts serveAccounts :=
  (loadsAsNamed_iff accounts serveAccounts ⟨by decide +kernel, by decide +kernel⟩).mpr
    (by decide +kernel)

/-- An account that may whisper three times, log in twice and send one command a
second: it is loaded with three commands, two whispers and one login. -/
def quickAccount : AccountTable where
  rows := [⟨4, "bot", "Bot", "oauth:1", 20, 3, 2, 1, 2, true⟩]
  ids := by decide

def serveQuick : Database := fun request =>
  if request = select (.id :: accountColumns) "active = true" then
    .rows [["4", "bot", "Bot", "oauth:1", "20", "3", "2", "1", "2"]]
  else if request = select accountColumns "id = 4" then
    .rows [["bot", "Bot", "oauth:1", "20", "3", "2", "1", "2"]]
  else .failed

theorem not_loadsAsNamed_quick :
    Serves quickAccount serveQuick ∧ ¬LoadsAsNamed quickAccount serveQuick :=
  ⟨⟨by decide +kernel, by decide +kernel⟩,
    fun h => absurd (h.one _ List.mem_cons_self) (by decide +kernel)⟩

end TwitchChatWorker.AccountLoaders
