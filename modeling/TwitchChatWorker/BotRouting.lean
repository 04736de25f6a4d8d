import TwitchChatWorker.Bots
import TwitchChatWorker.Lib.Runs

/-!
Which bots a chat message reaches.  A bot subscribes to the mailbox of the
channel that its first configuration names, and to no other one afterwards.
-/

namespace TwitchChatWorker.BotRouting

open TwitchChatWorker.Bots
open TwitchChatWorker.DBController
open TwitchChatWorker.HttpRequests
open TwitchChatWorker.JsonValues
open TwitchChatWorker.Lib.Handlers
open TwitchChatWorker.Lib.OrderedMaps
open TwitchChatWorker.Lib.Runs

/-- No bot has a control message to handle. -/
def AtRest (e : BotsEnvironment) : Prop :=
  ∀ p, p < e.allocated → ∀ m ∈ (e.bots p).inbox, m.control = false

/-- A chat message goes to the registered bots of its channel, once, and to no
other bot. -/
def Routed (e : BotsEnvironment) : Prop :=
  ∀ msg : ChatMessage, msg.valid = true → msg.user ∉ e.ignoreUsers → ∀ p,
    ((e.evtChatMessage msg).bots p).inbox = (e.bots p).inbox ++
      if e.registered p = true ∧ (e.bots p).config.channel = msg.channel then [.message msg]
      else []

/-- Messages are routed as they should be whenever the bots are at rest. -/
def RoutedAtRest (e : BotsEnvironment) : Prop := AtRest e → Routed e

/-- The configuration of the bot that the event adds under its requested id. -/
def added? (e : BotsEnvironment) : Event → Option BotConfiguration
  | .http env .add body =>
      match requestedId env body with
      | none => none
      | some id =>
          if e.botsById.find? id = none ∧ (loadBotConfiguration env.db id).botId ≠ 0 then
            some (loadBotConfiguration env.db id)
          else none
  | _ => none

/-- The bot that an event reloads, with its new configuration. -/
def reloaded? (e : BotsEnvironment) : Event → Option (BotPtr × BotConfiguration)
  | .bot _ p =>
      match (e.bots p).inbox with
      | .reload config :: _ => some (p, config)
      | _ => none
  | _ => none

/-- No bot is added under an id that is in use. -/
def AddsFresh (t : Transition BotsEnvironment Event) : Prop :=
  ∀ config ∈ added? t.pre t.event, t.pre.botsById.find? config.botId = none

/-- A reload of a registered bot keeps its channel. -/
def ReloadsSame (t : Transition BotsEnvironment Event) : Prop :=
  ∀ reload ∈ reloaded? t.pre t.event, t.pre.registered reload.1 = true →
    reload.2.channel = (t.pre.bots reload.1).config.channel

theorem registered_iff {e : BotsEnvironment} {p : BotPtr} :
    e.registered p = true ↔ ∃ id, e.botsById.find? id = some p := by
  simp only [BotsEnvironment.registered, List.any_eq_true, decide_eq_true_eq, Prod.exists]
  constructor
  · rintro ⟨id, q, hmem, rfl⟩
    exact ⟨id, OrderedMap.mem_entries_iff.mp hmem⟩
  · rintro ⟨id, hid⟩
    exact ⟨id, p, OrderedMap.mem_entries_iff.mpr hid, rfl⟩

/-- A bot that is subscribed to the channel of its configuration and goes on. -/
structure Serves (bot : BotEngine) : Prop where
  running : bot.deregistered = false
  staying : BotMessage.shutdown ∉ bot.inbox
  subscribed : bot.self = bot.config.channel

/-- The bot has ended or has a `Shutdown` to handle. -/
def Ending (bot : BotEngine) : Prop :=
  bot.deregistered = true ∨ BotMessage.shutdown ∈ bot.inbox

/-- The invariant behind `Routed`. -/
structure Routing (e : BotsEnvironment) : Prop where
  boxes : e.botBoxes.Forall fun channel box => box = channel
  boxed : ∀ p, p < e.allocated → e.botBoxes.find? (e.bots p).self ≠ none
  registered_lt : ∀ id p, e.botsById.find? id = some p → p < e.allocated
  id_unique : ∀ id id' p, e.botsById.find? id = some p → e.botsById.find? id' = some p → id = id'
  serves : ∀ id p, e.botsById.find? id = some p → Serves (e.bots p)
  ending : ∀ p, p < e.allocated → e.registered p = false → Ending (e.bots p)

theorem inbox_publish (e : BotsEnvironment) (box : Mbox) (m : BotMessage) (p : BotPtr) :
    ((e.publish box m).bots p).inbox = (e.bots p).inbox ++
      if p < e.allocated ∧ (e.bots p).deregistered = false ∧ (e.bots p).self = box then [m]
      else [] := by
  simp only [BotsEnvironment.publish]
  split_ifs <;> simp

theorem Routing.routedAtRest {e : BotsEnvironment} (h : Routing e) : RoutedAtRest e := by
  intro hrest msg hvalid huser p
  have hserves : ∀ p, e.registered p = true ↔
      p < e.allocated ∧ (e.bots p).deregistered = false := by
    intro p
    constructor
    · intro hp
      obtain ⟨id, hid⟩ := registered_iff.mp hp
      exact ⟨h.registered_lt id p hid, (h.serves id p hid).running⟩
    · rintro ⟨hlt, hrunning⟩
      by_contra hp
      rcases h.ending p hlt (Bool.not_eq_true _ ▸ hp) with hended | hshutdown
      · simp [hrunning] at hended
      · exact absurd (hrest p hlt _ hshutdown) (by simp [BotMessage.control])
  have hself : ∀ p, e.registered p = true → (e.bots p).self = (e.bots p).config.channel := by
    intro p hp
    obtain ⟨id, hid⟩ := registered_iff.mp hp
    exact (h.serves id p hid).subscribed
  simp only [BotsEnvironment.evtChatMessage, hvalid, huser, if_false, Bool.true_eq_false]
  cases hbox : e.botBoxes.find? msg.channel with
  | none =>
      rw [if_neg]
      · simp
      · rintro ⟨hp, hchannel⟩
        apply h.boxed p ((hserves p).mp hp).1
        rw [hself p hp, hchannel]
        exact hbox
  | some box =>
      obtain rfl := h.boxes _ _ hbox
      rw [inbox_publish]
      congr 1
      refine if_congr ?_ rfl rfl
      rw [← and_assoc, ← hserves p]
      exact and_congr_right fun hp => by rw [hself p hp]

theorem Routing.change {e : BotsEnvironment} (h : Routing e) {bots : BotPtr → BotEngine}
    (hself : ∀ p, (bots p).self = (e.bots p).self)
    (hserves : ∀ p, e.registered p = true → Serves (e.bots p) → Serves (bots p))
    (hending : ∀ p, e.registered p = false → Ending (e.bots p) → Ending (bots p)) :
    Routing { e with bots := bots } where
  boxes := h.boxes
  boxed p hp := by
    rw [hself]
    exact h.boxed p hp
  registered_lt := h.registered_lt
  id_unique := h.id_unique
  serves id p hid := hserves p (registered_iff.mpr ⟨id, hid⟩) (h.serves id p hid)
  ending p hp hnot := hending p hnot (h.ending p hp hnot)

theorem Serves.receive {bot : BotEngine} (h : Serves bot) {m : BotMessage} (hm : m ≠ .shutdown) :
    Serves { bot with inbox := bot.inbox ++ [m] } :=
  ⟨h.running, by simp [h.staying, Ne.symm hm], h.subscribed⟩

theorem Ending.receive {bot : BotEngine} (h : Ending bot) (m : BotMessage) :
    Ending { bot with inbox := bot.inbox ++ [m] } :=
  h.imp_right fun h => List.mem_append_left _ h

theorem Routing.send {e : BotsEnvironment} (h : Routing e) (p : BotPtr) {m : BotMessage}
    (hm : m ≠ .shutdown) : Routing (e.send p m) := by
  refine h.change (fun q => ?_) (fun q _ hq => ?_) fun q _ hq => ?_ <;>
    rw [Function.update_apply] <;> split_ifs with heq
  · rw [heq]
  · rfl
  · exact (heq ▸ hq).receive hm
  · exact hq
  · exact (heq ▸ hq).receive m
  · exact hq

theorem Routing.publish {e : BotsEnvironment} (h : Routing e) (box : Mbox) {m : BotMessage}
    (hm : m ≠ .shutdown) : Routing (e.publish box m) := by
  refine h.change (fun q => ?_) (fun q _ hq => ?_) fun q _ hq => ?_ <;> dsimp only <;> split_ifs
  · rfl
  · rfl
  · exact hq.receive hm
  · exact hq
  · exact hq.receive m
  · exact hq

theorem Routing.evtChatMessage {e : BotsEnvironment} (h : Routing e) (msg : ChatMessage) :
    Routing (e.evtChatMessage msg) := by
  unfold BotsEnvironment.evtChatMessage
  split_ifs
  · exact h
  · exact h
  · split
    · exact h
    · exact h.publish _ (by simp)

theorem find?_addBox (e : BotsEnvironment) (channel key : String) :
    (e.addBox channel).botBoxes.find? key =
      if key = channel then some ((e.botBoxes.find? channel).getD channel)
      else e.botBoxes.find? key := by
  unfold BotsEnvironment.addBox
  cases hbox : e.botBoxes.find? channel with
  | some box =>
      split_ifs with hkey
      · rw [hkey, hbox]
        rfl
      · rfl
  | none => rw [OrderedMap.find?_emplace, hbox]

theorem addBox_eq (e : BotsEnvironment) (channel : String) :
    e.addBox channel = { e with botBoxes := (e.addBox channel).botBoxes } := by
  unfold BotsEnvironment.addBox
  split <;> rfl

theorem Routing.addBox {e : BotsEnvironment} (h : Routing e) (channel : String) :
    Routing (e.addBox channel) ∧
      (e.addBox channel).botBoxes.find? channel = some channel := by
  have hname : (e.botBoxes.find? channel).getD channel = channel := by
    cases hbox : e.botBoxes.find? channel with
    | some box => exact h.boxes _ _ hbox
    | none => rfl
  have hfind := find?_addBox e channel
  rw [hname] at hfind
  refine ⟨?_, by rw [hfind, if_pos rfl]⟩
  rw [addBox_eq]
  refine ⟨fun key box hbox => ?_, fun p hp => ?_, h.registered_lt, h.id_unique, h.serves, h.ending⟩
  · rw [hfind] at hbox
    split_ifs at hbox with hkey
    · exact (Option.some.inj hbox).symm.trans hkey.symm
    · exact h.boxes _ _ hbox
  · rw [hfind]
    split_ifs
    · simp
    · exact h.boxed p hp

theorem find?_introduceBot {e : BotsEnvironment} {config : BotConfiguration}
    (hfresh : e.botsById.find? config.botId = none) (handlers : List BotMessageEventHandler)
    (key : Int) : (e.introduceBot config handlers).botsById.find? key =
      if key = config.botId then some e.allocated else e.botsById.find? key := by
  simp only [BotsEnvironment.introduceBot, OrderedMap.find?_emplace, hfresh, Option.getD_none]

theorem Routing.introduceBot {e : BotsEnvironment} (h : Routing e) {config : BotConfiguration}
    {handlers : List BotMessageEventHandler}
    (hfresh : e.botsById.find? config.botId = none)
    (hbox : e.botBoxes.find? config.channel = some config.channel) :
    Routing (e.introduceBot config handlers) := by
  have hfind := find?_introduceBot hfresh handlers
  have hold : ∀ id p, e.botsById.find? id = some p → p ≠ e.allocated :=
    fun id p hid => (h.registered_lt id p hid).ne
  have hbots : ∀ p, (e.introduceBot config handlers).bots p =
      if p = e.allocated then
        { self := config.channel, config := config, massageHandlers := handlers }
      else e.bots p := by
    intro p
    simp only [BotsEnvironment.introduceBot, hbox, Option.getD_some, Function.update_apply]
  have hallocated : (e.introduceBot config handlers).allocated = e.allocated + 1 := rfl
  refine ⟨h.boxes, fun p hp => ?_, fun id p hid => ?_, fun id id' p hid hid' => ?_,
    fun id p hid => ?_, fun p hp hnot => ?_⟩
  · rw [hallocated] at hp
    rw [hbots]
    split_ifs with hnew
    · exact ne_of_eq_of_ne hbox (Option.some_ne_none _)
    · exact h.boxed p (lt_of_le_of_ne (Nat.lt_succ_iff.mp hp) hnew)
  · rw [hfind] at hid
    rw [hallocated]
    split_ifs at hid
    · obtain rfl := Option.some.inj hid
      exact Nat.lt_succ_self _
    · exact Nat.lt_succ_of_lt (h.registered_lt id p hid)
  · rw [hfind] at hid hid'
    split_ifs at hid hid' with heq heq' heq'
    · rw [heq, heq']
    · exact absurd (Option.some.inj hid).symm (hold id' p hid')
    · exact absurd (Option.some.inj hid').symm (hold id p hid)
    · exact h.id_unique id id' p hid hid'
  · rw [hfind] at hid
    rw [hbots]
    split_ifs at hid
    · rw [if_pos (Option.some.inj hid).symm]
      exact ⟨rfl, List.not_mem_nil, rfl⟩
    · rw [if_neg (hold id p hid)]
      exact h.serves id p hid
  · have hunregistered : ∀ id, (e.introduceBot config handlers).botsById.find? id ≠ some p := by
      intro id hid
      simp [registered_iff.mpr ⟨id, hid⟩] at hnot
    have hne : p ≠ e.allocated := by
      rintro rfl
      exact hunregistered config.botId (by rw [hfind, if_pos rfl])
    have hlt : p < e.allocated := by
      rw [hallocated] at hp
      omega
    rw [hbots, if_neg hne]
    refine h.ending p hlt (Bool.eq_false_iff.mpr fun hp => ?_)
    obtain ⟨id, hid⟩ := registered_iff.mp hp
    apply hunregistered id
    rw [hfind, if_neg]
    · exact hid
    · rintro rfl
      simp [hfresh] at hid

theorem Routing.removeBot {e : BotsEnvironment} (h : Routing e) {id : Int} {bot : BotPtr}
    (hbot : e.botsById.find? id = some bot) : Routing (BotsEnvironment.removeBot id bot e) := by
  have hfind : ∀ key, (BotsEnvironment.removeBot id bot e).botsById.find? key =
      if key = id then none else e.botsById.find? key :=
    fun key => OrderedMap.find?_erase e.botsById id key
  have hothers : ∀ key p, (BotsEnvironment.removeBot id bot e).botsById.find? key = some p →
      e.botsById.find? key = some p ∧ p ≠ bot := by
    intro key p hp
    rw [hfind] at hp
    split_ifs at hp with hkey
    refine ⟨hp, ?_⟩
    rintro rfl
    exact hkey (h.id_unique _ _ _ hp hbot)
  have hbots : ∀ p, (BotsEnvironment.removeBot id bot e).bots p =
      if p = bot then { e.bots p with inbox := (e.bots p).inbox ++ [.shutdown] }
      else e.bots p := by
    intro p
    simp only [BotsEnvironment.removeBot, BotsEnvironment.send, Function.update_apply]
    split_ifs with heq
    · rw [heq]
    · rfl
  refine ⟨h.boxes, fun p hp => ?_, fun key p hkey => ?_, fun key key' p hkey hkey' => ?_,
    fun key p hkey => ?_, fun p hp hnot => ?_⟩
  · rw [hbots]
    split_ifs
    · exact h.boxed p hp
    · exact h.boxed p hp
  · exact h.registered_lt key p (hothers key p hkey).1
  · exact h.id_unique key key' p (hothers key p hkey).1 (hothers key' p hkey').1
  · obtain ⟨hkey, hne⟩ := hothers key p hkey
    rw [hbots, if_neg hne]
    exact h.serves key p hkey
  · rw [hbots]
    split_ifs with heq
    · exact .inr (by simp)
    · refine h.ending p hp (Bool.eq_false_iff.mpr fun hregistered => ?_)
      obtain ⟨key, hkey⟩ := registered_iff.mp hregistered
      have hkept : (BotsEnvironment.removeBot id bot e).botsById.find? key = some p := by
        rw [hfind, if_neg]
        · exact hkey
        · rintro rfl
          exact heq (Option.some.inj (hkey.symm.trans hbot))
      simp [registered_iff.mpr ⟨key, hkept⟩] at hnot

theorem step_cases {env : Surroundings} {bot bot' : BotEngine} (h : bot.step env = some bot') :
    bot.deregistered = false ∧ ∃ m inbox, bot.inbox = m :: inbox ∧
      { bot with inbox := inbox }.handle env m = .ok bot' := by
  unfold BotEngine.step at h
  split_ifs at h with hended
  split at h
  · cases h
  · next m inbox hinbox =>
      refine ⟨Bool.not_eq_true _ ▸ hended, m, inbox, hinbox, ?_⟩
      cases hhandle : { bot with inbox := inbox }.handle env m with
      | error e => simp [hhandle, Except.toOption] at h
      | ok bot'' => simpa [hhandle, Except.toOption] using h

theorem evtReload_cases {env : Surroundings} {bot bot' : BotEngine} {config : BotConfiguration}
    (h : bot.evtReload env config = .ok bot') :
    ∃ handlers, bot' = { bot with config := config, massageHandlers := handlers } := by
  unfold BotEngine.evtReload at h
  cases hload : loadHandlers env.parse config.handlers with
  | error e => simp [hload, bind, Except.bind] at h
  | ok handlers =>
      rw [hload] at h
      exact ⟨handlers, (Except.ok.inj h).symm⟩

theorem handle_frame {env : Surroundings} {bot bot' : BotEngine} {m : BotMessage}
    (h : bot.handle env m = .ok bot') : bot'.self = bot.self ∧ bot'.inbox = bot.inbox ∧
      (bot'.deregistered = true ↔ bot.deregistered = true ∨ m = .shutdown) ∧
      (bot'.config = bot.config ∨ m = .reload bot'.config) := by
  cases m with
  | shutdown =>
      obtain rfl := Except.ok.inj h
      exact ⟨rfl, rfl, by simp [BotEngine.evtShutdown], .inl rfl⟩
  | reload config =>
      obtain ⟨handlers, rfl⟩ := evtReload_cases h
      exact ⟨rfl, rfl, by simp, .inr rfl⟩
  | message msg =>
      obtain rfl := Except.ok.inj h
      unfold BotEngine.evtBotMessage
      split_ifs <;> exact ⟨rfl, rfl, by simp, .inl rfl⟩

theorem Serves.step {env : Surroundings} {bot bot' : BotEngine} (h : Serves bot)
    (hstep : bot.step env = some bot')
    (hsame : ∀ config inbox, bot.inbox = .reload config :: inbox →
      config.channel = bot.config.channel) : Serves bot' := by
  obtain ⟨hrunning, m, inbox, hinbox, hhandle⟩ := step_cases hstep
  obtain ⟨hself, hinbox', hended, hconfig⟩ := handle_frame hhandle
  have hstaying := h.staying
  rw [hinbox, List.mem_cons, not_or] at hstaying
  refine ⟨Bool.eq_false_iff.mpr fun hend => ?_, hinbox' ▸ hstaying.2, ?_⟩
  · rcases hended.mp hend with hend | rfl
    · simp [hrunning] at hend
    · exact hstaying.1 rfl
  · rw [hself, h.subscribed]
    rcases hconfig with hconfig | rfl
    · rw [hconfig]
    · exact (hsame bot'.config inbox hinbox).symm

theorem Ending.step {env : Surroundings} {bot bot' : BotEngine} (h : Ending bot)
    (hstep : bot.step env = some bot') : Ending bot' := by
  obtain ⟨hrunning, m, inbox, hinbox, hhandle⟩ := step_cases hstep
  obtain ⟨-, hinbox', hended, -⟩ := handle_frame hhandle
  rcases h with hend | hshutdown
  · simp [hrunning] at hend
  rw [hinbox, List.mem_cons] at hshutdown
  rcases hshutdown with hm | hshutdown
  · exact .inl (hended.mpr (.inr hm.symm))
  · exact .inr (hinbox' ▸ hshutdown)

theorem self_step {env : Surroundings} {bot bot' : BotEngine} (h : bot.step env = some bot') :
    bot'.self = bot.self := by
  obtain ⟨-, m, inbox, -, hhandle⟩ := step_cases h
  exact (handle_frame hhandle).1

/-- One message of a bot: a registered one has no `Shutdown` to handle, and one
that is going to end does not lose its `Shutdown`. -/
theorem Routing.bot {e : BotsEnvironment} (h : Routing e) {env : Surroundings} {p : BotPtr}
    {bot : BotEngine} (hstep : (e.bots p).step env = some bot)
    (hsame : ∀ config inbox, (e.bots p).inbox = .reload config :: inbox →
      e.registered p = true → config.channel = (e.bots p).config.channel) :
    Routing { e with bots := Function.update e.bots p bot } := by
  refine h.change (fun q => ?_) (fun q hregistered hq => ?_) fun q _ hq => ?_ <;>
    rw [Function.update_apply] <;> split_ifs with heq
  · rw [heq]
    exact self_step hstep
  · rfl
  · subst heq
    exact hq.step hstep fun config inbox hinbox => hsame config inbox hinbox hregistered
  · exact hq
  · subst heq
    exact hq.step hstep
  · exact hq

theorem ensures_addBot (env : Surroundings) (config : BotConfiguration) (keys : List Int)
    (hkeys : config.botId ∉ keys) :
    Ensures (fun e => Routing e ∧ ∀ key ∈ config.botId :: keys, e.botsById.find? key = none)
      (fun e => Routing e ∧ ∀ key ∈ keys, e.botsById.find? key = none)
      (BotsEnvironment.addBot env config) := by
  have hbox : Ensures
      (fun e => Routing e ∧ ∀ key ∈ config.botId :: keys, e.botsById.find? key = none)
      (fun e => (Routing e ∧ ∀ key ∈ config.botId :: keys, e.botsById.find? key = none) ∧
        e.botBoxes.find? config.channel = some config.channel)
      (update (BotsEnvironment.addBox config.channel) : Serve BotsEnvironment Unit) := by
    apply ensures_update
    intro e h
    obtain ⟨hrouting, hbox⟩ := h.1.addBox config.channel
    refine ⟨⟨hrouting, ?_⟩, hbox⟩
    rw [addBox_eq]
    exact h.2
  refine hbox.bind fun _ => (keeps_rethrow _).bind fun handlers => ensures_update fun e h => ?_
  obtain ⟨⟨hrouting, hfresh⟩, hbox⟩ := h
  rw [List.forall_mem_cons] at hfresh
  refine ⟨hrouting.introduceBot hfresh.1 hbox, fun key hkey => ?_⟩
  rw [find?_introduceBot hfresh.1, if_neg]
  · exact hfresh.2 key hkey
  · rintro rfl
    exact hkeys hkey

theorem ensures_addBot_single (env : Surroundings) (config : BotConfiguration) :
    Ensures (fun e => Routing e ∧ e.botsById.find? config.botId = none) Routing
      (BotsEnvironment.addBot env config) := by
  intro s hs
  refine (ensures_addBot env config [] (by simp) s ⟨hs.1, ?_⟩).mono
    fun _ _ h => h.1
  simpa using hs.2

theorem ensures_evtHttpAdd (env : Surroundings) (body : String) :
    Ensures (fun e => Routing e ∧ ∀ config ∈ added? e (.http env .add body),
        e.botsById.find? config.botId = none) Routing (BotsEnvironment.evtHttpAdd env body) := by
  refine ensures_withId (fun _ h => h.1) fun id hid => ensures_readState_bind fun e => ?_
  cases hbot : e.botsById.find? id with
  | some bot => exact ensures_respond (fun _ h => h.2.1) _
  | none =>
      refine (keeps_ping env _).bind fun _ => ?_
      by_cases hfound : (loadBotConfiguration env.db id).botId = 0
      · simp only [hfound, if_true]
        exact ensures_respond (fun _ h => h.2.1) _
      · simp only [hfound, if_false]
        suffices hadd : Ensures _ Routing _ from hadd.bind fun _ => keeps_respond _
        intro s hs
        obtain ⟨hread, hrouting, hfresh⟩ := hs
        refine ensures_addBot_single env _ s ⟨hrouting, hfresh _ ?_⟩
        rw [← hread] at hbot
        simp [added?, hid, hbot, hfound]

theorem keeps_evtHttpRemove (env : Surroundings) (body : String) :
    Keeps Routing (BotsEnvironment.evtHttpRemove env body) := by
  refine ensures_withId (fun _ h => h) fun id _ => ensures_readState_bind fun e => ?_
  cases hbot : e.botsById.find? id with
  | none => exact ensures_respond (fun _ h => h.2) _
  | some bot =>
      refine (ensures_update fun e' h => ?_).bind fun _ => keeps_respond _
      obtain ⟨rfl, hrouting⟩ := h
      exact hrouting.removeBot hbot

theorem keeps_evtHttpReload (env : Surroundings) (body : String) :
    Keeps Routing (BotsEnvironment.evtHttpReload env body) := by
  refine ensures_withId (fun _ h => h) fun id _ => keeps_readState_bind fun e => ?_
  cases e.botsById.find? id with
  | none => exact keeps_respond _
  | some bot =>
      refine (keeps_ping env _).bind fun _ => ?_
      by_cases hfound : (loadBotConfiguration env.db id).botId = 0
      · simp only [hfound, if_true]
        exact keeps_respond _
      · simp only [hfound, if_false]
        exact (ensures_update fun e h => h.send bot (by simp)).bind fun _ => keeps_respond _

theorem keeps_reloadEntry (env : Surroundings) {entry : Int × BotConfiguration}
    (hid : entry.2.botId = entry.1) : Keeps Routing (BotsEnvironment.reloadEntry env entry) := by
  apply ensures_readState_bind
  intro e
  cases hbot : e.botsById.find? entry.1 with
  | none =>
      intro s hs
      refine ensures_addBot_single env entry.2 s ⟨hs.2, ?_⟩
      rw [hid, hs.1]
      exact hbot
  | some bot => exact ensures_update fun _ h => h.2.send bot (by simp)

theorem keeps_evtHttpReloadAll (env : Surroundings) :
    Keeps Routing (BotsEnvironment.evtHttpReloadAll env) :=
  (keeps_ping env _).bind fun _ => (keeps_foldlM fun _ hentry _ =>
    keeps_reloadEntry env (botId_of_mem_loadBotConfigurations hentry)).bind fun _ => keeps_respond _

theorem ensures_evtHttp (env : Surroundings) (body : String) (request : BotRequest) :
    Ensures (fun e => Routing e ∧ ∀ config ∈ added? e (.http env request body),
        e.botsById.find? config.botId = none) Routing
      (BotsEnvironment.evtHttp env body request) := by
  cases request with
  | add => exact ensures_evtHttpAdd env body
  | remove => exact fun s hs => keeps_evtHttpRemove env body s hs.1
  | reload => exact fun s hs => keeps_evtHttpReload env body s hs.1
  | reloadall => exact fun s hs => keeps_evtHttpReloadAll env s hs.1

theorem Routing.step {e e' : BotsEnvironment} {event : Event} (h : Routing e)
    (hadds : AddsFresh ⟨e, event, e'⟩) (hreloads : ReloadsSame ⟨e, event, e'⟩)
    (hstep : e.step event = some e') : Routing e' := by
  cases event with
  | http env request body =>
      have hensures := ensures_evtHttp env body request ⟨e, []⟩ ⟨h, hadds⟩
      simp only [BotsEnvironment.step] at hstep
      simp only [wp] at hensures
      split at hstep
      · next served heq =>
          obtain rfl := Option.some.inj hstep
          rw [heq] at hensures
          exact hensures
      · cases hstep
  | chatMessage msg =>
      obtain rfl := Option.some.inj hstep
      exact h.evtChatMessage msg
  | bot env p =>
      simp only [BotsEnvironment.step] at hstep
      split_ifs at hstep
      obtain ⟨bot, hbot, rfl⟩ := Option.map_eq_some_iff.mp hstep
      apply h.bot hbot
      intro config inbox hinbox hregistered
      exact hreloads (p, config) (by simp [reloaded?, hinbox]) hregistered

theorem ensures_foldlM_addBot (env : Surroundings) {entries : List (Int × BotConfiguration)}
    (hentries : ∀ entry ∈ entries, entry.2.botId = entry.1)
    (hdistinct : (entries.map Prod.fst).Pairwise (· < ·)) :
    Ensures (fun e => Routing e ∧ ∀ key ∈ entries.map Prod.fst, e.botsById.find? key = none)
      Routing (entries.foldlM (fun _ entry => BotsEnvironment.addBot env entry.2) ()) := by
  induction entries with
  | nil => exact fun s hs => hs.1
  | cons entry entries ih =>
      rw [List.forall_mem_cons] at hentries
      rw [List.map_cons, List.pairwise_cons] at hdistinct
      rw [List.foldlM_cons, List.map_cons, ← hentries.1]
      refine (ensures_addBot env entry.2 _ fun hmem => ?_).bind fun _ =>
        ih hentries.2 hdistinct.2
      exact lt_irrefl _ (hdistinct.1 _ (hentries.1 ▸ hmem))

theorem routing_soEvtStart {env : Surroundings} {e : BotsEnvironment}
    (hstart : BotsEnvironment.soEvtStart env = some e) : Routing e := by
  simp only [BotsEnvironment.soEvtStart] at hstart
  split at hstart
  · next served heq =>
      obtain rfl := Option.some.inj hstart
      have hensures := ensures_foldlM_addBot env
        (fun _ hentry => botId_of_mem_loadBotConfigurations hentry)
        (loadBotConfigurations env.db).sorted
        ⟨⟨loadServiceAccountsNicknames env.db, .empty, .empty, fun _ => {}, 0⟩, []⟩
        ⟨⟨OrderedMap.forall_empty, by simp, by simp, by simp, by simp, by simp⟩, by simp⟩
      simp only [wp, heq] at hensures
      exact hensures
  · cases hstart

/-- In every run that keeps the channels of its bots, messages are routed by the
current configurations. -/
theorem routedAtRest_of_reloadsSame (env : Surroundings) {start : BotsEnvironment}
    (hstart : BotsEnvironment.soEvtStart env = some start)
    {tr : List (Transition BotsEnvironment Event)} {e : BotsEnvironment}
    (hrun : Run BotsEnvironment.step start tr e)
    (hchannels : ∀ t ∈ tr, AddsFresh t ∧ ReloadsSame t) : RoutedAtRest e := by
  have hrouting : Routing e :=
    hrun.invariant (fun t => AddsFresh t ∧ ReloadsSame t) (routing_soEvtStart hstart)
      (fun _ _ _ h hguard hstep => h.step hguard.1 hguard.2 hstep) hchannels
  exact hrouting.routedAtRest

instance : DecidablePred AtRest := fun e =>
  inferInstanceAs (Decidable (∀ p, p < e.allocated → ∀ m ∈ (e.bots p).inbox, _))

instance : DecidablePred AddsFresh := fun _ => inferInstanceAs (Decidable (∀ _ ∈ _, _))

instance : DecidablePred ReloadsSame := fun _ => inferInstanceAs (Decidable (∀ _ ∈ _, _))

def oneBot (id account channel : String) : Database := fun _ =>
  .rows [[id, "5", account, channel, "7", "2", "hi", "{}"]]

def onChannelA : BotsEnvironment :=
  (BotsEnvironment.soEvtStart (asking 0 (oneBot "1" "alice" "a"))).get (by decide +kernel)

theorem routedAtRest_of_reloadsSame_removed :
    RoutedAtRest ((exec BotsEnvironment.step onChannelA
      [.http (asking 2 (oneBot "2" "alice" "b")) .add "",
        .http (asking 1 (oneBot "1" "bob" "a")) .reload "", .bot (asking 0 fun _ => .failed) 0,
        .http (asking 2 fun _ => .failed) .remove "", .bot (asking 0 fun _ => .failed) 1]).get
        (by decide +kernel)) :=
  routedAtRest_of_reloadsSame (asking 0 (oneBot "1" "alice" "a")) (Option.some_get _).symm
    (run_trace _ (by decide +kernel)) (by decide +kernel)

/-- The bot of channel `a` is reloaded for channel `b`, and still gets what is
said on `a`. -/
theorem not_routedAtRest_moved :
    ¬∀ (env : Surroundings) (start : BotsEnvironment)
      (tr : List (Transition BotsEnvironment Event)) (e : BotsEnvironment),
      BotsEnvironment.soEvtStart env = some start → Run BotsEnvironment.step start tr e →
      RoutedAtRest e := by
  intro hall
  have hrouted := hall (asking 0 (oneBot "1" "alice" "a")) onChannelA _ _ (Option.some_get _).symm
    (run_trace [.http (asking 1 (oneBot "1" "alice" "b")) .reload "",
      .bot (asking 0 fun _ => .failed) 0] (by decide +kernel)) (by decide +kernel)
  exact absurd (hrouted ⟨"carol", "a", "hello", true⟩ rfl (by decide +kernel) 0)
    (by decide +kernel)

end TwitchChatWorker.BotRouting
