import Mathlib.Data.List.Induction
import Mathlib.Data.List.Perm.Basic
import TwitchChatWorker.DBController

/-!
The two loaders of bot configurations on the same tables.  Both requests join
every account and every channel of a bot with all its handlers; the rows come
back in any order.
-/

namespace TwitchChatWorker.BotLoaders

open TwitchChatWorker.DBController
open TwitchChatWorker.Lib.OrderedMaps

/-- A row of the table `bot`. -/
structure BotRow where
  id : Int32
  userId : Int32
deriving DecidableEq

/-- A row of the table `account`, as far as it is joined. -/
structure AccountRow where
  id : Int32
  username : String
deriving DecidableEq

/-- A row of the table `channel`. -/
structure ChannelRow where
  id : Int32
  name : String
deriving DecidableEq

/-- A row of the table of handlers. -/
structure EventHandlerRow where
  id : Int32
  botId : Int32
  eventTypeId : Int32
  script : String
  additional : String
deriving DecidableEq

/-- The columns that the requests read; `botAccount` and `botChannel` hold the
pairs of ids. -/
structure Tables where
  bot : List BotRow
  botAccount : List (Int32 × Int32)
  account : List AccountRow
  botChannel : List (Int32 × Int32)
  channel : List ChannelRow
  eventHandler : List EventHandlerRow

/-- A bot with an account and a channel that its rows join. -/
structure Combination where
  bot : BotRow
  account : AccountRow
  channel : ChannelRow
deriving DecidableEq

namespace Tables

/-- The bots with each account and each channel joined to them. -/
def combinations (t : Tables) : List Combination :=
  t.bot.flatMap fun bot =>
    (t.botAccount.filter fun link => link.1 = bot.id).flatMap fun botAccount =>
      (t.account.filter fun account => account.id = botAccount.2).flatMap fun account =>
        (t.botChannel.filter fun link => link.1 = bot.id).flatMap fun botChannel =>
          (t.channel.filter fun channel => channel.id = botChannel.2).map fun channel =>
            ⟨bot, account, channel⟩

/-- The handlers of a bot, in the order of the table. -/
def handlersOf (t : Tables) (id : Int) : List EventHandlerRow :=
  t.eventHandler.filter fun handler => handler.botId.toInt = id

/-- All combinations that the join makes of a bot. -/
def combinationsOf (t : Tables) (id : Int) : List Combination :=
  t.combinations.filter fun combination => combination.bot.id.toInt = id

end Tables

def handlerOf (handler : EventHandlerRow) : EventHandlerConfiguration :=
  ⟨handler.id.toInt, handler.eventTypeId.toInt, handler.script, handler.additional⟩

/-- The texts of a row of the join. -/
def joinedRow (combination : Combination) (handler : EventHandlerRow) : List String :=
  [toString combination.bot.id.toInt, toString combination.bot.userId.toInt,
    combination.account.username, combination.channel.name, toString handler.id.toInt,
    toString handler.eventTypeId.toInt, handler.script, handler.additional]

/-- The rows that the join returns. -/
def Tables.join (t : Tables) : List (List String) :=
  t.combinations.flatMap fun combination =>
    (t.handlersOf combination.bot.id.toInt).map (joinedRow combination)

/-- The database answers both requests from the tables, with the rows of a bot
in the same order. -/
structure Serves (t : Tables) (db : Database) (rows : List (List String)) (id : Int) : Prop where
  all : db (botConfigurationsRequest ++ ";") = .rows rows
  one : db (botConfigurationRequest id) =
    .rows (rows.filter fun row => column row 0 = toString id)
  join : rows.Perm t.join

/-- Both loaders give the same configuration, and it has every handler of the
bot exactly once. -/
structure LoadersAgree (t : Tables) (db : Database) (id : Int) (config : BotConfiguration) :
    Prop where
  same : config = loadBotConfiguration db id
  handlers : config.handlers.Perm ((t.handlersOf id).map handlerOf)

theorem rowHandler_joinedRow (combination : Combination) (handler : EventHandlerRow) :
    rowHandler (joinedRow combination handler) = handlerOf handler := by
  simp only [rowHandler, handlerOf, joinedRow, column, List.getD_cons_succ, List.getD_cons_zero,
    toNumber_text]

/-- The rows that a loader adds to the configuration of a bot. -/
def rowsOf (rows : List (List String)) (id : Int) : List (List String) :=
  rows.filter fun row => toNumber (column row 0) = id

theorem filter_join (t : Tables) (id : Int) :
    rowsOf t.join id =
      (t.combinationsOf id).flatMap fun combination =>
        (t.handlersOf id).map (joinedRow combination) := by
  simp only [rowsOf, Tables.join, Tables.combinationsOf]
  induction t.combinations with
  | nil => rfl
  | cons combination combinations ih =>
      have hid : ∀ handler, toNumber (column (joinedRow combination handler) 0) =
          combination.bot.id.toInt := fun handler => toNumber_text combination.bot.id
      rw [List.flatMap_cons, List.filter_append, ih, List.filter_map, List.filter_cons]
      simp only [Function.comp_def, hid]
      by_cases heq : combination.bot.id.toInt = id
      · simp [heq]
      · simp [heq]

theorem length_filter_join (t : Tables) (id : Int) :
    (rowsOf t.join id).length = (t.combinationsOf id).length * (t.handlersOf id).length := by
  rw [filter_join, List.length_flatMap]
  simp

/-- The configuration of a bot after its rows have been added one by one: the
last row decides all but the handlers. -/
theorem find?_foldl_addBotRow (rows : List (List String)) (id : Int) :
    (rows.foldl addBotRow .empty).find? id =
      (rowsOf rows id).getLast?.map fun row =>
        { botId := id
          userId := toNumber (column row 1)
          account := column row 2
          channel := column row 3
          handlers := (rowsOf rows id).map rowHandler } := by
  induction rows using List.reverseRecOn with
  | nil => rfl
  | append_singleton rows row ih =>
      rw [List.foldl_append, List.foldl_cons, List.foldl_nil, addBotRow, OrderedMap.find?_upsert]
      have hrows : rowsOf (rows ++ [row]) id =
          rowsOf rows id ++ if toNumber (column row 0) = id then [row] else [] := by
        simp [rowsOf, List.filter_append, List.filter_singleton]
      rw [hrows]
      by_cases heq : id = toNumber (column row 0)
      · rw [if_pos heq, if_pos heq.symm, ← heq, ih]
        simp only [List.getLast?_append, List.getLast?_singleton, Option.some_or, Option.map_some,
          List.map_append, List.map_cons, List.map_nil]
        congr 2
        cases hlast : (rowsOf rows id).getLast? with
        | none => simp [List.getLast?_eq_none_iff.mp hlast]
        | some last => rfl
      · rw [if_neg heq, if_neg (Ne.symm heq), List.append_nil, ih]

section

variable {t : Tables} {db : Database} {rows : List (List String)} {id : Int}

theorem Serves.perm_rowsOf (h : Serves t db rows id) :
    (rowsOf rows id).Perm ((t.combinationsOf id).flatMap fun combination =>
      (t.handlersOf id).map (joinedRow combination)) := by
  rw [← filter_join]
  exact h.join.filter _

theorem Serves.mem_join (h : Serves t db rows id) {row : List String} (hrow : row ∈ rows) :
    ∃ bot : BotRow, column row 0 = toString bot.id.toInt := by
  obtain ⟨combination, -, hmem⟩ := List.mem_flatMap.mp (h.join.mem_iff.mp hrow)
  obtain ⟨handler, -, rfl⟩ := List.mem_map.mp hmem
  exact ⟨combination.bot, rfl⟩

/-- The second request returns the rows that the first loader adds for the bot. -/
theorem Serves.filter_eq (h : Serves t db rows id) (hsome : rowsOf rows id ≠ []) :
    (rows.filter fun row => column row 0 = toString id) = rowsOf rows id := by
  obtain ⟨known, hknown⟩ := List.exists_mem_of_ne_nil _ hsome
  obtain ⟨hknownMem, hknownId⟩ := List.mem_filter.mp hknown
  obtain ⟨bot, hbot⟩ := h.mem_join hknownMem
  have hid : toNumber (toString id) = id := by
    have hbotId : bot.id.toInt = id := by
      rw [hbot, toNumber_text] at hknownId
      exact of_decide_eq_true hknownId
    rw [← hbotId, toNumber_text]
  apply List.filter_congr
  intro row hrow
  obtain ⟨other, hother⟩ := h.mem_join hrow
  rw [hother, toNumber_text]
  apply decide_eq_decide.mpr
  constructor
  · intro heq
    rw [← toNumber_text, heq, hid]
  · intro heq
    rw [heq]

theorem Serves.load_all (h : Serves t db rows id) :
    (loadBotConfigurations db).find? id =
      (rowsOf rows id).getLast?.map fun row =>
        { botId := id
          userId := toNumber (column row 1)
          account := column row 2
          channel := column row 3
          handlers := (rowsOf rows id).map rowHandler } := by
  rw [loadBotConfigurations, h.all]
  exact find?_foldl_addBotRow rows id

theorem Serves.load_one (h : Serves t db rows id) {row : List String}
    {rest : List (List String)} (hrows : rowsOf rows id = row :: rest) :
    loadBotConfiguration db id =
      { botId := id
        userId := toNumber (column row 1)
        account := column row 2
        channel := column row 3
        handlers := (rowsOf rows id).map rowHandler } := by
  have hsome : rowsOf rows id ≠ [] := by simp [hrows]
  have hfirst : row ∈ rowsOf rows id := hrows ▸ List.mem_cons_self
  have hid : toNumber (column row 0) = id := by simpa using (List.mem_filter.mp hfirst).2
  rw [loadBotConfiguration, h.one, h.filter_eq hsome, hrows]
  simp [hid]

/-- The loaders agree on a bot that they find exactly when one account and one
channel are joined to it. -/
theorem loadersAgree_iff (t : Tables) (db : Database) (rows : List (List String)) (id : Int)
    (config : BotConfiguration) (h : Serves t db rows id)
    (hfind : (loadBotConfigurations db).find? id = some config) :
    LoadersAgree t db id config ↔ (t.combinationsOf id).length = 1 := by
  rw [h.load_all] at hfind
  obtain ⟨last, hlast, rfl⟩ := Option.map_eq_some_iff.mp hfind
  have hmem : last ∈ rowsOf rows id := List.mem_of_getLast? hlast
  have hcount := h.perm_rowsOf.length_eq
  rw [← filter_join, length_filter_join] at hcount
  constructor
  · rintro ⟨-, hhandlers⟩
    have hlength := hhandlers.length_eq
    simp only [List.length_map] at hlength
    have hpos := List.length_pos_of_mem hmem
    rw [hlength] at hcount hpos
    exact Nat.eq_of_mul_eq_mul_right hpos (hcount.symm.trans (Nat.one_mul _).symm)
  · intro hone
    obtain ⟨combination, hcombination⟩ := List.length_eq_one_iff.mp hone
    have hrows := h.perm_rowsOf
    rw [hcombination, List.flatMap_singleton] at hrows
    have hcolumns : ∀ row ∈ rowsOf rows id, ∃ handler, row = joinedRow combination handler := by
      intro row hrow
      obtain ⟨handler, -, rfl⟩ := List.mem_map.mp (hrows.mem_iff.mp hrow)
      exact ⟨handler, rfl⟩
    refine ⟨?_, ?_⟩
    · cases hfirst : rowsOf rows id with
      | nil => simp [hfirst] at hmem
      | cons first rest =>
          obtain ⟨handler, hhandler⟩ := hcolumns last hmem
          obtain ⟨other, hother⟩ := hcolumns first (hfirst ▸ List.mem_cons_self)
          rw [h.load_one hfirst, hfirst, hhandler, hother]
          simp only [joinedRow, column, List.getD_cons_succ, List.getD_cons_zero]
    · refine (hrows.map rowHandler).trans (List.Perm.of_eq ?_)
      rw [List.map_map]
      exact List.map_congr_left fun handler _ => rowHandler_joinedRow combination handler

end

/-- A database that answers the two requests from the tables, in the order of
the join. -/
def tableDatabase (t : Tables) (id : Int) : Database := fun request =>
  if request = botConfigurationsRequest ++ ";" then
    .rows t.join
  else if request = botConfigurationRequest id then
    .rows (t.join.filter fun row => column row 0 = toString id)
  else
    .failed

theorem requests_ne (id : Int) :
    botConfigurationRequest id ≠ botConfigurationsRequest ++ ";" := by
  intro heq
  have hlength := congrArg String.length heq
  have hwhere : " WHERE bot.id = ".length = 16 := rfl
  simp only [botConfigurationRequest, String.length_append, hwhere] at hlength
  omega

theorem serves_tableDatabase (t : Tables) (id : Int) :
    Serves t (tableDatabase t id) t.join id where
  all := by rw [tableDatabase, if_pos rfl]
  one := by rw [tableDatabase, if_neg (requests_ne id), if_pos rfl]
  join := .refl _

def sampleTables (channels : List (Int32 × String)) : Tables where
  bot := [⟨1, 7⟩]
  botAccount := [(1, 3)]
  account := [⟨3, "helper"⟩]
  botChannel := channels.map fun channel => (1, channel.1)
  channel := channels.map fun channel => ⟨channel.1, channel.2⟩
  eventHandler := [⟨5, 1, 1, "hi", "there"⟩]

def sampleConfiguration : BotConfiguration :=
  ⟨1, 7, "helper", "alpha", [⟨5, 1, "hi", "there"⟩]⟩

theorem loadersAgree_iff_sample :
    LoadersAgree (sampleTables [(1, "alpha")]) (tableDatabase (sampleTables [(1, "alpha")]) 1) 1
      sampleConfiguration :=
  (loadersAgree_iff _ _ _ 1 sampleConfiguration (serves_tableDatabase _ 1)
    (by decide +kernel)).mpr (by decide +kernel)

def twoChannels : Tables :=
  sampleTables [(1, "alpha"), (2, "beta")]

/-- A bot joined to two channels is on one of them for one loader and on the
other one for the other loader. -/
theorem not_loadersAgree_twoChannels :
    ∃ config, Serves twoChannels (tableDatabase twoChannels 1) twoChannels.join 1 ∧
      (loadBotConfigurations (tableDatabase twoChannels 1)).find? 1 = some config ∧
      ¬ LoadersAgree twoChannels (tableDatabase twoChannels 1) 1 config := by
  refine ⟨⟨1, 7, "helper", "beta", [⟨5, 1, "hi", "there"⟩, ⟨5, 1, "hi", "there"⟩]⟩,
    serves_tableDatabase twoChannels 1, by decide +kernel, ?_⟩
  rintro ⟨hsame, -⟩
  have hchannel := congrArg BotConfiguration.channel hsame
  have hone : (loadBotConfiguration (tableDatabase twoChannels 1) 1).channel = "alpha" := by
    decide +kernel
  rw [hone] at hchannel
  exact absurd hchannel (by decide)

end TwitchChatWorker.BotLoaders
