import Mathlib.Algebra.Group.Int.Defs
import Mathlib.Data.List.TakeWhile
import TwitchChatWorker.IrcClient
import TwitchChatWorker.RetryGuard

/-!
What `DBController` loads.  Every load takes a connection of the pool and pings
it.  The connection answers each request with its rows, which are texts; a
request may also fail, or not be made because the ping before it fails.
-/

namespace TwitchChatWorker.DBController

open TwitchChatWorker.IrcClient
open TwitchChatWorker.Lib.Attempts
open TwitchChatWorker.Lib.OrderedMaps
open TwitchChatWorker.RetryGuard

/-- A connection of the pool: what the attempts of the ping on it find. -/
structure Connection where
  config : PGConnectionConfig := {}
  results : Nat → List ExecStatus := fun _ => [.tuplesOk]
  logins : Nat → Login := fun _ => ⟨true, 0⟩

namespace Connection

/-- The outcomes as `retryGuard` sees them. -/
def outcomes (conn : Connection) : Outcomes :=
  ⟨fun n => request (conn.results n), fun n => resetConnect (conn.logins n)⟩

/-- The result of the ping, if so many attempts are enough for one. -/
def ping (conn : Connection) (attempts : Nat) : Option Bool :=
  (RetryGuard.ping conn.config conn.results conn.logins attempts).map Ended.result

/-- The first attempt that ends the loop of the ping gives the result. -/
def Pinged (conn : Connection) (result : Bool) : Prop :=
  ∃ n, verdict conn.config conn.outcomes n = some result ∧
    ∀ k < n, verdict conn.config conn.outcomes k = none

theorem ping_eq_some_iff {conn : Connection} {attempts : Nat} {result : Bool} :
    conn.ping attempts = some result ↔
      ∃ n < attempts, verdict conn.config conn.outcomes n = some result ∧
        ∀ k < n, verdict conn.config conn.outcomes k = none := by
  have hping : conn.ping attempts =
      (firstOutcome (verdict conn.config conn.outcomes) attempts 0).map Prod.fst := by
    rw [ping, RetryGuard.ping, retryGuard_eq, Option.map_map]
    rfl
  simp only [hping, Option.map_eq_some_iff, Prod.exists, exists_and_right, exists_eq_right,
    firstOutcome_eq_some_iff, Nat.zero_le, true_and, true_imp_iff, Nat.zero_add]

theorem exists_ping_iff {conn : Connection} {result : Bool} :
    (∃ attempts, conn.ping attempts = some result) ↔ conn.Pinged result := by
  simp only [ping_eq_some_iff]
  constructor
  · rintro ⟨attempts, n, -, hn⟩
    exact ⟨n, hn⟩
  · rintro ⟨n, hn⟩
    exact ⟨n + 1, n, Nat.lt_succ_self n, hn⟩

theorem pinged_default : Pinged {} true := ⟨0, by decide, fun k hk => absurd hk k.not_lt_zero⟩

end Connection

/-- What a request comes back with. -/
inductive Answer where
  | unreachable
  | failed
  | rows (rows : List (List String))
deriving DecidableEq

/-- The answer of the database to the text of a request. -/
abbrev Database := String → Answer

structure EventHandlerConfiguration where
  id : Int
  typeId : Int
  text : String
  additional : String
deriving DecidableEq

structure BotConfiguration where
  botId : Int := 0
  userId : Int := 0
  account : String := ""
  channel : String := ""
  handlers : List EventHandlerConfiguration := []
deriving DecidableEq

/-- The value of decimal digits. -/
def digitsValue (digits : List Char) : Nat :=
  (digits.takeWhile Char.isDigit).foldl (fun n digit => 10 * n + (digit.toNat - '0'.toNat)) 0

/-- `Utils::String::toNumber`: zero when there is no number or it does not fit. -/
def toNumber (text : String) : Int :=
  let value : Int :=
    match text.toList with
    | '-' :: digits => -digitsValue digits
    | digits => digitsValue digits
  if -2 ^ 31 ≤ value ∧ value < 2 ^ 31 then value else 0

theorem digitsValue_toDigits (n : Nat) : digitsValue (Nat.toDigits 10 n) = n := by
  have hdigits : (Nat.toDigits 10 n).takeWhile Char.isDigit = Nat.toDigits 10 n := by
    apply List.takeWhile_eq_self_iff.mpr
    intro c hc
    exact Nat.isDigit_of_mem_toDigits (by decide) (Nat.le_refl 10) hc
  rw [digitsValue, hdigits]
  exact Nat.ofDigitChars_ten_toDigits

theorem toDigits_head_ne_minus (n : Nat) (rest : List Char) : Nat.toDigits 10 n ≠ '-' :: rest := by
  intro h
  have hdigit := Nat.isDigit_of_mem_toDigits (b := 10) (n := n) (c := '-') (by decide)
    (Nat.le_refl 10) (h ▸ List.mem_cons_self)
  exact absurd hdigit (by decide)

theorem toNumber_toString {n : Int} (h : -2 ^ 31 ≤ n ∧ n < 2 ^ 31) : toNumber (toString n) = n := by
  have hvalue : (match (toString n).toList with
      | '-' :: digits => (-digitsValue digits : Int)
      | digits => digitsValue digits) = n := by
    rw [Int.toString_eq_repr, Int.repr_eq_if]
    by_cases hn : 0 ≤ n
    · rw [if_pos hn, Nat.toList_repr]
      split
      next digits heq => exact absurd heq (toDigits_head_ne_minus _ _)
      next =>
        rw [digitsValue_toDigits]
        exact Int.toNat_of_nonneg hn
    · rw [if_neg hn, String.toList_append, Nat.toList_repr]
      change (-(digitsValue (Nat.toDigits 10 (-n).toNat) : Int)) = n
      rw [digitsValue_toDigits]
      omega
  rw [toNumber]
  simp only [hvalue]
  exact if_pos h

theorem toNumber_text (n : Int32) : toNumber (toString n.toInt) = n.toInt :=
  toNumber_toString ⟨n.le_toInt, n.toInt_lt⟩

/-- A row has as many columns as the request selects. -/
def column (row : List String) (i : Nat) : String := row.getD i ""

/-- The request of `loadServiceAccountsNicknames`. -/
def usersRequest : String :=
  "SELECT account.username FROM account " ++
    "JOIN account_type ON account_type.id = account.account_type_id " ++
    "WHERE account.active = true AND " ++
    "(account_type.name = 'service' OR account_type.name = 'main');"

def loadServiceAccountsNicknames (db : Database) : List String :=
  match db usersRequest with
  | .rows rows => rows.map fun row => column row 0
  | _ => []

/-- The request of `loadAccounts`. -/
def accountsRequest : String :=
  "SELECT id, username, display, oauth, channels_limit, " ++
    "whisper_per_sec_limit, auth_per_sec_limit, " ++
    "command_per_sec_limit, sessions_count " ++
    "FROM account WHERE active = true;"

def loadAccounts (db : Database) : List IRCClientConfig :=
  match db accountsRequest with
  | .rows rows => rows.map fun row =>
      { id := toNumber (column row 0)
        nick := column row 1
        user := column row 2
        password := column row 3
        channelsLimit := toNumber (column row 4)
        commandPerSecLimit := toNumber (column row 5)
        whisperPerSecLimit := toNumber (column row 6)
        authPerSecLimit := toNumber (column row 7)
        sessionCount := toNumber (column row 8) }
  | _ => []

/-- The request of `loadAccount`. -/
def accountRequest (id : Int) : String :=
  "SELECT username, display, oauth, channels_limit, " ++
    "whisper_per_sec_limit, auth_per_sec_limit, " ++
    "command_per_sec_limit, sessions_count " ++
    "FROM account WHERE id = " ++ toString id ++ ";"

def loadAccount (db : Database) (id : Int) : IRCClientConfig :=
  match db (accountRequest id) with
  | .rows (row :: _) =>
      { id := id
        nick := column row 0
        user := column row 1
        password := column row 2
        channelsLimit := toNumber (column row 3)
        commandPerSecLimit := toNumber (column row 4)
        whisperPerSecLimit := toNumber (column row 5)
        authPerSecLimit := toNumber (column row 6)
        sessionCount := toNumber (column row 7) }
  | _ => {}

def loadChannelsFor (db : Database) (accountId : Int) : List String :=
  match db ("SELECT channel.name FROM channel WHERE account_id = '" ++ toString accountId ++
      "' AND watch = true;") with
  | .rows rows => rows.map fun row => column row 0
  | _ => []

def botConfigurationsRequest : String :=
  "SELECT bot.id, bot.user_id, account.username, " ++
    "       channel.name, eh.id, eh.event_type_id, " ++
    "       eh.script, eh.additional " ++
    "FROM bot " ++
    "JOIN bot_account ON bot.id = bot_account.bot_id " ++
    "JOIN account ON bot_account.account_id = account.id " ++
    "JOIN bot_channel ON bot.id = bot_channel.bot_id " ++
    "JOIN channel ON bot_channel.channel_id = channel.id " ++
    "JOIN event_handler as eh on bot.id = eh.bot_id"

/-- The handler in a row of the join. -/
def rowHandler (row : List String) : EventHandlerConfiguration :=
  ⟨toNumber (column row 4), toNumber (column row 5), column row 6, column row 7⟩

/-- What a row of the join does to the configurations. -/
def addBotRow (configurations : OrderedMap Int BotConfiguration) (row : List String) :
    OrderedMap Int BotConfiguration :=
  let id := toNumber (column row 0)
  configurations.upsert id fun old =>
    { botId := id
      userId := toNumber (column row 1)
      account := column row 2
      channel := column row 3
      handlers := (old.getD {}).handlers ++ [rowHandler row] }

def loadBotConfigurations (db : Database) : OrderedMap Int BotConfiguration :=
  match db (botConfigurationsRequest ++ ";") with
  | .rows rows => rows.foldl addBotRow .empty
  | _ => .empty

def botConfigurationRequest (id : Int) : String :=
  botConfigurationsRequest ++ " WHERE bot.id = " ++ toString id ++ ";"

def loadBotConfiguration (db : Database) (id : Int) : BotConfiguration :=
  match db (botConfigurationRequest id) with
  | .rows (row :: rows) =>
      { botId := toNumber (column row 0)
        userId := toNumber (column row 1)
        account := column row 2
        channel := column row 3
        handlers := (row :: rows).map rowHandler }
  | _ => {}

theorem loadAccount_id (db : Database) (id : Int) :
    (loadAccount db id).id = id ∨ loadAccount db id = {} := by
  unfold loadAccount
  split
  · exact .inl rfl
  · exact .inr rfl

theorem forall_foldl_addBotRow {rows : List (List String)}
    {configurations : OrderedMap Int BotConfiguration}
    (h : configurations.Forall fun id config => config.botId = id) :
    (rows.foldl addBotRow configurations).Forall fun id config => config.botId = id := by
  induction rows generalizing configurations with
  | nil => exact h
  | cons row rows ih => exact ih (h.upsert rfl)

theorem forall_loadBotConfigurations (db : Database) :
    (loadBotConfigurations db).Forall fun id config => config.botId = id := by
  unfold loadBotConfigurations
  split
  · exact forall_foldl_addBotRow OrderedMap.forall_empty
  · exact OrderedMap.forall_empty

theorem botId_of_mem_loadBotConfigurations {db : Database} {entry : Int × BotConfiguration}
    (h : entry ∈ (loadBotConfigurations db).entries) : entry.2.botId = entry.1 :=
  forall_loadBotConfigurations db entry.1 entry.2 (OrderedMap.mem_entries_iff.mp h)

end TwitchChatWorker.DBController
