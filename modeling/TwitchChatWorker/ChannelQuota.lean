import Mathlib.Algebra.Group.Int.Defs
import Mathlib.Algebra.Group.Nat.Defs
import TwitchChatWorker.DBController

/-!
How the channels of an account are spread over its sessions.  The number of
sessions is the larger of one and `session_count`; the quota of a session
divides by `session_count` itself, as `size_t`.
-/

namespace TwitchChatWorker.ChannelQuota

open TwitchChatWorker.ChannelList
open TwitchChatWorker.DBController
open TwitchChatWorker.IrcClient
open TwitchChatWorker.Lib.OrderedMaps

/-- The sessions log in one after the other; which channel went to which. -/
def reserveAll (sessionCount : Int) :
    IRCChannelList → List SessionPtr → Option (List (SessionPtr × String) × IRCChannelList)
  | list, [] => some ([], list)
  | list, session :: sessions =>
      match list.reserveChannelsForSession sessionCount session with
      | none => none
      | some (names, list') =>
          match reserveAll sessionCount list' sessions with
          | none => none
          | some (others, last) => some (names.map (fun name => (session, name)) ++ others, last)

/-- The names of all channels, in order. -/
def names (list : IRCChannelList) : List String := list.channels.entries.map Prod.fst

/-- No channel has a session. -/
def Unattached (list : IRCChannelList) : Prop :=
  ∀ name channel, list.find? name = some channel → channel.session = none

/-- The quota exists, the quotas of the started sessions exceed the number of
channels, and one reservation for each of them takes every channel once. -/
structure QuotaWorks (config : IRCClientConfig) (list : IRCChannelList) : Prop where
  quota : ∃ quota, list.capacity config.sessionCount = some quota ∧
    list.channels.size < IRCClient.startCount config * quota
  attaches : ∀ sessions : List SessionPtr, sessions.length = IRCClient.startCount config →
    ∃ assigned last, reserveAll config.sessionCount list sessions = some (assigned, last) ∧
      assigned.map Prod.snd = names list ∧ (assigned.map Prod.snd).Nodup ∧
      ∀ session name, (session, name) ∈ assigned →
        session ∈ sessions ∧ last.sessionOf name = some session

/-- The configuration is one that the database gives. -/
def Loaded (db : Database) (config : IRCClientConfig) : Prop :=
  config ∈ loadAccounts db ∨ ∃ id, config = loadAccount db id

theorem unattached_load (loadedChannels : List String) : Unattached (.load loadedChannels) := by
  intro name channel hfind
  rw [IRCChannelList.find?_load] at hfind
  split_ifs at hfind
  exact Option.some.inj hfind ▸ rfl

theorem names_nodup (list : IRCChannelList) : (names list).Nodup :=
  list.channels.sorted.imp fun hlt => ne_of_lt hlt

theorem free_of_unattached {list : IRCChannelList} (h : Unattached list) :
    list.free = names list := by
  have hnamed := list.named
  simp only [IRCChannelList.free, IRCChannelList.freeNames, names]
  have hall : list.channels.entries.filter (fun entry => !entry.2.attached) =
      list.channels.entries := by
    apply List.filter_eq_self.mpr
    intro entry hentry
    have hfind := OrderedMap.mem_entries_iff.mp hentry
    simp [Channel.attached, h entry.1 entry.2 hfind]
  rw [hall]
  apply List.map_congr_left
  intro entry hentry
  exact hnamed entry.1 entry.2 (OrderedMap.mem_entries_iff.mp hentry)

theorem capacity_reserve (list : IRCChannelList) (quota : Nat) (session : SessionPtr)
    (sessionCount : Int) :
    (list.reserve quota session).2.capacity sessionCount = list.capacity sessionCount := by
  rw [IRCChannelList.capacity, IRCChannelList.capacity, IRCChannelList.size_reserve]

/-- The quota stays the same from session to session, so each one takes the
next stretch of the free channels, and nobody takes a channel from another. -/
theorem reserveAll_spec {sessionCount : Int} {quota : Nat} {list : IRCChannelList}
    (hquota : list.capacity sessionCount = some quota) (sessions : List SessionPtr) :
    ∃ assigned last, reserveAll sessionCount list sessions = some (assigned, last) ∧
      assigned.map Prod.snd = list.free.take (sessions.length * quota) ∧
      (∀ session name, (session, name) ∈ assigned →
        session ∈ sessions ∧ last.sessionOf name = some session) ∧
      ∀ name, name ∉ list.free → last.sessionOf name = list.sessionOf name := by
  induction sessions generalizing list with
  | nil => exact ⟨[], list, rfl, by simp, by simp, fun _ _ => rfl⟩
  | cons session sessions ih =>
      obtain ⟨others, last, hothers, hnames, hkept, hsame⟩ :=
        ih ((capacity_reserve list quota session sessionCount).trans hquota)
      have hfree := IRCChannelList.free_reserve list quota session
      have htaken := IRCChannelList.reserve_fst list quota session
      have hattached : ∀ name ∈ (list.reserve quota session).1,
          (list.reserve quota session).2.sessionOf name = some session := by
        intro name hname
        rw [IRCChannelList.sessionOf_reserve, if_pos hname]
      have hgone : ∀ name, (list.reserve quota session).2.sessionOf name ≠ none →
          name ∉ (list.reserve quota session).2.free := by
        intro name hsession hmem
        obtain ⟨channel, hfind, hnone⟩ := IRCChannelList.mem_free.mp hmem
        exact hsession (by simp [IRCChannelList.sessionOf, hfind, hnone])
      refine ⟨(list.reserve quota session).1.map (fun name => (session, name)) ++ others, last,
        ?_, ?_, ?_, ?_⟩
      · simp [reserveAll, IRCChannelList.reserveChannelsForSession, hquota, hothers]
      · have hhere : ((list.reserve quota session).1.map fun name => (session, name)).map
            Prod.snd = list.free.take quota := by
          rw [List.map_map, htaken]
          exact List.map_id _
        rw [List.map_append, hhere, hnames, hfree, List.length_cons, Nat.succ_mul, Nat.add_comm,
          List.take_add]
      · intro p name hmem
        rcases List.mem_append.mp hmem with hmem | hmem
        · obtain ⟨taken, hreserved, heq⟩ := List.mem_map.mp hmem
          obtain ⟨rfl, rfl⟩ : session = p ∧ taken = name := by simpa using heq
          have hnow := hattached taken hreserved
          refine ⟨List.mem_cons_self, ?_⟩
          rw [hsame taken (hgone taken (by simp [hnow])), hnow]
        · obtain ⟨hsession, hlast⟩ := hkept p name hmem
          exact ⟨List.mem_cons_of_mem _ hsession, hlast⟩
      · intro name hname
        rw [hsame name, IRCChannelList.sessionOf_reserve, if_neg]
        · rw [htaken]
          exact fun hmem => hname (List.mem_of_mem_take hmem)
        · rw [hfree]
          exact fun hmem => hname (List.mem_of_mem_drop hmem)

theorem toNumber_range (text : String) : -2 ^ 31 ≤ toNumber text ∧ toNumber text < 2 ^ 31 := by
  unfold toNumber
  dsimp only
  split_ifs with h
  · exact h
  · decide

theorem sessionCount_range {db : Database} {config : IRCClientConfig} (h : Loaded db config) :
    -2 ^ 31 ≤ config.sessionCount ∧ config.sessionCount < 2 ^ 31 := by
  rcases h with h | ⟨id, rfl⟩
  · unfold loadAccounts at h
    split at h
    · obtain ⟨row, -, rfl⟩ := List.mem_map.mp h
      exact toNumber_range _
    · simp at h
  · unfold loadAccount
    split
    · exact toNumber_range _
    · decide

theorem startCount_of_pos {config : IRCClientConfig} (h : 1 ≤ config.sessionCount) :
    (IRCClient.startCount config : Int) = config.sessionCount := by
  simp only [IRCClient.startCount, minSessCount]
  omega

theorem startCount_of_neg {config : IRCClientConfig} (h : config.sessionCount < 1) :
    IRCClient.startCount config = 1 := by
  simp only [IRCClient.startCount, minSessCount]
  omega

/-- The quotas suffice exactly for a positive count, or no channels at all and
a negative one. -/
theorem quota_iff {config : IRCClientConfig} (list : IRCChannelList)
    (hlow : -2 ^ 31 ≤ config.sessionCount) (hhigh : config.sessionCount < 2 ^ 31) :
    (∃ quota, list.capacity config.sessionCount = some quota ∧
        list.channels.size < IRCClient.startCount config * quota) ↔
      1 ≤ config.sessionCount ∨ config.sessionCount < 0 ∧ list.channels.size = 0 := by
  rcases lt_trichotomy config.sessionCount 0 with hneg | hzero | hpos
  · have hcount : 2 ≤ (config.sessionCount % 2 ^ 64).toNat := by omega
    have hquota : list.capacity config.sessionCount =
        some (list.channels.size / (config.sessionCount % 2 ^ 64).toNat + 1) := by
      unfold IRCChannelList.capacity
      split
      · omega
      · rfl
    have hdiv : list.channels.size / (config.sessionCount % 2 ^ 64).toNat ≤
        list.channels.size / 2 := Nat.div_le_div_left hcount Nat.two_pos
    rw [hquota, startCount_of_neg (by omega)]
    simp only [Option.some.injEq, exists_eq_left', Nat.one_mul]
    constructor
    · intro h
      exact .inr ⟨hneg, by omega⟩
    · rintro (h | ⟨-, h⟩)
      · omega
      · rw [h]
        exact Nat.succ_pos _
  · have hnone : list.capacity config.sessionCount = none := by
      rw [hzero]
      rfl
    rw [hnone]
    simp [hzero]
  · have hstart : (IRCClient.startCount config : Int) = config.sessionCount :=
      startCount_of_pos hpos
    have hcount : (config.sessionCount % 2 ^ 64).toNat = IRCClient.startCount config := by
      omega
    have hquota : list.capacity config.sessionCount =
        some (list.channels.size / IRCClient.startCount config + 1) := by
      rw [IRCChannelList.capacity, hcount]
      split
      · omega
      · rfl
    refine iff_of_true ⟨_, hquota, ?_⟩ (.inl hpos)
    exact Nat.lt_mul_div_succ _ (by omega)

/-- For every account that the database holds, the quota works exactly when
`session_count` is positive, or negative without any channels. -/
theorem quotaWorks_iff {db : Database} {config : IRCClientConfig} (hloaded : Loaded db config)
    {list : IRCChannelList} (hunattached : Unattached list) :
    QuotaWorks config list ↔
      1 ≤ config.sessionCount ∨ config.sessionCount < 0 ∧ list.channels.size = 0 := by
  obtain ⟨hlow, hhigh⟩ := sessionCount_range hloaded
  rw [← quota_iff list hlow hhigh]
  constructor
  · intro h
    exact h.quota
  · rintro ⟨quota, hquota, henough⟩
    refine ⟨⟨quota, hquota, henough⟩, fun sessions hsessions => ?_⟩
    obtain ⟨assigned, last, hall, hnames, hkept, -⟩ := reserveAll_spec hquota sessions
    have hlength : (names list).length = list.channels.size := List.length_map _
    have hevery : assigned.map Prod.snd = names list := by
      rw [hnames, free_of_unattached hunattached, hsessions, List.take_of_length_le]
      omega
    exact ⟨assigned, last, hall, hevery, hevery ▸ names_nodup list, hkept⟩

theorem quotaWorks_iff_two : QuotaWorks { sessionCount := 2 } (.load ["a", "b", "c"]) :=
  (@quotaWorks_iff (fun _ => .rows [["0", "", "", "", "20", "0", "3", "2", "2"]])
    { sessionCount := 2 } (.inl (by decide)) _ (unattached_load ["a", "b", "c"])).mpr
    (.inl (by decide))

/-- A column that is not a number: one session starts, and its login divides by
zero. -/
theorem not_quotaWorks_zero :
    ¬∀ (db : Database) (config : IRCClientConfig) (list : IRCChannelList),
      Loaded db config → Unattached list → QuotaWorks config list := by
  intro hall
  obtain ⟨⟨quota, hquota, -⟩, -⟩ := hall
    (fun _ => .rows [["1", "nick", "user", "oauth", "20", "20", "3", "2", "none"]])
    { id := 1, nick := "nick", user := "user", password := "oauth", commandPerSecLimit := 20
      sessionCount := 0 } (.load ["a"]) (.inl (by decide)) (unattached_load ["a"])
  cases hquota

end TwitchChatWorker.ChannelQuota
