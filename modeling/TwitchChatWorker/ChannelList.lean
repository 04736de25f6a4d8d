import Mathlib.Algebra.Group.Int.Defs
import Mathlib.Algebra.Group.Nat.Defs
import Mathlib.Data.List.Count
import Mathlib.Data.String.Basic
import TwitchChatWorker.Lib.OrderedMaps

/-!
The channels of one account and the sessions they are attached to
(`IRCChannelList.cpp`).  Every operation is one critical section under the
mutex of the list.
-/

namespace TwitchChatWorker.ChannelList

open TwitchChatWorker.Lib.OrderedMaps

/-- The address of an `IRCSession`.  Addresses are never used again. -/
abbrev SessionPtr := Nat

/-- `Channel` with the session that it is attached to. -/
structure Channel where
  name : String
  session : Option SessionPtr := none
  joined : Bool := false
deriving DecidableEq

namespace Channel

def setJoined (channel : Channel) (join : Bool) : Channel := { channel with joined := join }

def attach (channel : Channel) (irc : SessionPtr) : Channel := { channel with session := some irc }

def detach (channel : Channel) : Channel := { channel with session := none }

def attachedTo (channel : Channel) (irc : SessionPtr) : Bool := channel.session == some irc

def attached (channel : Channel) : Bool := channel.session.isSome

end Channel

/-- The `channels` map.  A channel is always stored under its own name. -/
structure IRCChannelList where
  channels : OrderedMap String Channel
  named : channels.Forall fun name channel => channel.name = name

namespace IRCChannelList

def find? (list : IRCChannelList) (name : String) : Option Channel := list.channels.find? name

/-- The session that a listed channel is attached to. -/
def sessionOf (list : IRCChannelList) (name : String) : Option SessionPtr :=
  (list.find? name).bind Channel.session

/-- The names of the channels without a session, in order. -/
def freeNames (entries : List (String × Channel)) : List String :=
  (entries.filter fun entry => !entry.2.attached).map fun entry => entry.2.name

/-- The channels that a login may reserve. -/
def free (list : IRCChannelList) : List String := freeNames list.channels.entries

/-- `load`, given the names that `loadChannelsFor` returned. -/
def load (loadedChannels : List String) : IRCChannelList where
  channels := OrderedMap.empty.emplaceAll
    (loadedChannels.map fun name => (name, { name := name }))
  named := OrderedMap.forall_empty.emplaceAll (by simp)

def inList (list : IRCChannelList) (name : String) : Bool := list.channels.contains name

def addChannel (list : IRCChannelList) (channel : Channel) : IRCChannelList where
  channels := list.channels.emplace channel.name channel
  named := list.named.emplace rfl

def removeChannel (list : IRCChannelList) (name : String) : IRCChannelList where
  channels := list.channels.erase name
  named := list.named.erase name

def extractChannel (list : IRCChannelList) (name : String) : Option Channel × IRCChannelList :=
  match list.find? name with
  | none => (none, list)
  | some channel => (some channel, list.removeChannel name)

def markChannelJoined (list : IRCChannelList) (name : String) : IRCChannelList :=
  match h : list.find? name with
  | none => list
  | some channel =>
      { channels := list.channels.assign name (channel.setJoined true)
        named := list.named.assign (list.named name channel h) }

/-- The names of the check list that are listed and not joined. -/
def selectNotJoinedChannels (list : IRCChannelList) (checkList : List String) : List String :=
  checkList.filter fun name => (list.find? name).any fun channel => !channel.joined

/-- The quota of one session.  `session_count` is converted to `size_t`; zero
makes the division undefined. -/
def capacity (list : IRCChannelList) (sessionCount : Int) : Option Nat :=
  match (sessionCount % 2 ^ 64).toNat with
  | 0 => none
  | count => some (list.channels.size / count + 1)

/-- The body of the reservation loop.  Once `result` is full the loop has been
left, and nothing changes any more. -/
def reserveVisit (capacity : Nat) (session : SessionPtr) (_name : String)
    (channel : Channel) (result : List String) : Channel × List String :=
  if result.length = capacity ∨ channel.attached then (channel, result)
  else (channel.attach session, result ++ [channel.name])

theorem reserveVisit_name (capacity : Nat) (session : SessionPtr) (name : String)
    (channel : Channel) (result : List String) :
    (reserveVisit capacity session name channel result).1.name = channel.name := by
  unfold reserveVisit
  split <;> rfl

/-- The first free channels, up to the capacity, go to the session. -/
def reserve (list : IRCChannelList) (capacity : Nat) (session : SessionPtr) :
    List String × IRCChannelList :=
  ((list.channels.mapAccum (reserveVisit capacity session) []).2,
    { channels := (list.channels.mapAccum (reserveVisit capacity session) []).1
      named := list.named.mapAccum
        (fun name channel result h => (reserveVisit_name _ _ name channel result).trans h) [] })

/-- The capacity is the same share of all channels for every session; a count of zero
divides by zero. -/
def reserveChannelsForSession (list : IRCChannelList) (sessionCount : Int)
    (session : SessionPtr) : Option (List String × IRCChannelList) :=
  match list.capacity sessionCount with
  | none => none
  | some capacity => some (list.reserve capacity session)

def detachAndPartFromSession (list : IRCChannelList) (session : SessionPtr) : IRCChannelList where
  channels := list.channels.mapValues fun channel =>
    if channel.attachedTo session then channel.detach.setJoined false else channel
  named := list.named.mapValues fun name channel h => by
    split
    · exact h
    · exact h

/-- The channel names with the ids of their sessions; the id of no session is
the largest `unsigned int`. -/
def dumpChannelsToSessionId (list : IRCChannelList) (getId : SessionPtr → Nat) :
    List (String × Nat) :=
  list.channels.entries.map fun entry =>
    (entry.1, match entry.2.session with
      | some session => getId session
      | none => 2 ^ 32 - 1)

theorem find?_load (loadedChannels : List String) (name : String) :
    (load loadedChannels).find? name =
      if name ∈ loadedChannels then some { name := name } else none := by
  suffices h : ∀ m : OrderedMap String Channel,
      m.Forall (fun name channel => channel = { name := name }) →
      (m.emplaceAll (loadedChannels.map fun name => (name, { name := name }))).find? name =
        if name ∈ loadedChannels then some { name := name } else m.find? name by
    simpa [load, find?] using h OrderedMap.empty OrderedMap.forall_empty
  induction loadedChannels with
  | nil => simp [OrderedMap.emplaceAll]
  | cons first others ih =>
      intro m hm
      have hnext := ih (m.emplace first { name := first }) (hm.emplace rfl)
      have hfirst : (m.find? first).getD { name := first } = { name := first } := by
        cases hold : m.find? first with
        | none => rfl
        | some old => exact hm first old hold
      simp only [OrderedMap.emplaceAll, List.map_cons, List.foldl_cons] at hnext ⊢
      rw [hnext, OrderedMap.find?_emplace, hfirst]
      by_cases heq : name = first <;> simp [heq]

theorem inList_iff {list : IRCChannelList} {name : String} :
    list.inList name = true ↔ ∃ channel, list.find? name = some channel :=
  OrderedMap.contains_iff

theorem find?_addChannel (list : IRCChannelList) (channel : Channel) (name : String) :
    (list.addChannel channel).find? name =
      if name = channel.name then some ((list.find? channel.name).getD channel)
      else list.find? name :=
  OrderedMap.find?_emplace _ _ _ _

theorem find?_removeChannel (list : IRCChannelList) (removed name : String) :
    (list.removeChannel removed).find? name =
      if name = removed then none else list.find? name :=
  OrderedMap.find?_erase _ _ _

theorem find?_markChannelJoined (list : IRCChannelList) (marked name : String) :
    (list.markChannelJoined marked).find? name =
      if name = marked then (list.find? name).map (·.setJoined true) else list.find? name := by
  unfold markChannelJoined
  split
  · rename_i hfind
    split_ifs with heq
    · simp [heq, hfind]
    · rfl
  · rename_i channel hfind
    have hassign := OrderedMap.find?_assign list.channels marked name (channel.setJoined true)
    simp only [find?] at hfind ⊢
    rw [hassign]
    by_cases heq : name = marked
    · simp [heq, hfind]
    · simp [heq]

theorem mem_selectNotJoinedChannels {list : IRCChannelList} {checkList : List String}
    {name : String} :
    name ∈ list.selectNotJoinedChannels checkList ↔
      name ∈ checkList ∧ ∃ channel, list.find? name = some channel ∧ channel.joined = false := by
  simp [selectNotJoinedChannels, Option.any_eq_true]

theorem find?_detachAndPartFromSession (list : IRCChannelList) (session : SessionPtr)
    (name : String) :
    (list.detachAndPartFromSession session).find? name =
      (list.find? name).map fun channel =>
        if channel.attachedTo session then channel.detach.setJoined false else channel :=
  OrderedMap.find?_mapValues _ _ _

theorem freeNames_cons (entry : String × Channel) (rest : List (String × Channel)) :
    freeNames (entry :: rest) =
      if entry.2.attached then freeNames rest else entry.2.name :: freeNames rest := by
  cases h : entry.2.attached <;> simp [freeNames, h]

theorem mem_freeNames {entries : List (String × Channel)} {name : String} :
    name ∈ freeNames entries ↔
      ∃ entry ∈ entries, entry.2.attached = false ∧ entry.2.name = name := by
  simp [freeNames, and_assoc]

theorem mapAccumEntries_reserveVisit_snd (capacity : Nat) (session : SessionPtr)
    (entries : List (String × Channel)) (result : List String)
    (hresult : result.length ≤ capacity) :
    (mapAccumEntries (reserveVisit capacity session) entries result).2 =
      result ++ (freeNames entries).take (capacity - result.length) := by
  induction entries generalizing result with
  | nil => simp [mapAccumEntries, freeNames]
  | cons entry rest ih =>
      by_cases hattached : entry.2.attached = true
      · simpa [mapAccumEntries, reserveVisit, freeNames_cons, hattached] using ih result hresult
      · by_cases hfull : result.length = capacity
        · simpa [mapAccumEntries, reserveVisit, hfull] using ih result hresult
        · have hrest := ih (result ++ [entry.2.name]) (by simp; omega)
          obtain ⟨room, hroom⟩ : ∃ room, capacity - result.length = room + 1 :=
            ⟨capacity - result.length - 1, by omega⟩
          have hless : capacity - (result.length + 1) = room := by omega
          simpa [mapAccumEntries, reserveVisit, freeNames_cons, hfull, hattached, hroom, hless]
            using hrest

theorem freeNames_mapAccumEntries_reserveVisit (capacity : Nat) (session : SessionPtr)
    (entries : List (String × Channel)) (result : List String)
    (hresult : result.length ≤ capacity) :
    freeNames (mapAccumEntries (reserveVisit capacity session) entries result).1 =
      (freeNames entries).drop (capacity - result.length) := by
  induction entries generalizing result with
  | nil => simp [mapAccumEntries, freeNames]
  | cons entry rest ih =>
      by_cases hattached : entry.2.attached = true
      · simpa [mapAccumEntries, reserveVisit, freeNames_cons, hattached] using ih result hresult
      · by_cases hfull : result.length = capacity
        · simpa [mapAccumEntries, reserveVisit, freeNames_cons, hfull, hattached] using
            ih result hresult
        · have hrest := ih (result ++ [entry.2.name]) (by simp; omega)
          obtain ⟨room, hroom⟩ : ∃ room, capacity - result.length = room + 1 :=
            ⟨capacity - result.length - 1, by omega⟩
          have hless : capacity - (result.length + 1) = room := by omega
          have hvisit : reserveVisit capacity session entry.1 entry.2 result =
              (entry.2.attach session, result ++ [entry.2.name]) := by
            simp [reserveVisit, hfull, hattached]
          have hnow : (entry.2.attach session).attached = true := rfl
          rw [List.length_append, List.length_singleton, hless] at hrest
          simp only [mapAccumEntries, hvisit, freeNames_cons, hnow, hattached, if_true, hrest,
            Bool.false_eq_true, if_false, hroom, List.drop_succ_cons]

theorem findEntry_mapAccumEntries_reserveVisit (capacity : Nat) (session : SessionPtr)
    {entries : List (String × Channel)} (hsorted : (entries.map Prod.fst).Pairwise (· < ·))
    (hnamed : ∀ entry ∈ entries, entry.2.name = entry.1) (result : List String)
    (hresult : result.length ≤ capacity) (name : String) :
    findEntry name (mapAccumEntries (reserveVisit capacity session) entries result).1 =
      (findEntry name entries).map fun channel =>
        if name ∈ (freeNames entries).take (capacity - result.length)
        then channel.attach session else channel := by
  induction entries generalizing result with
  | nil => simp [mapAccumEntries, findEntry]
  | cons entry rest ih =>
      obtain ⟨key, channel⟩ := entry
      simp only [List.map_cons, List.pairwise_cons] at hsorted
      obtain ⟨hname, hnames⟩ := List.forall_mem_cons.mp hnamed
      simp only at hname
      -- A name taken from the rest of the map is not the key of this entry.
      have hother : ∀ room, key ∉ (freeNames rest).take room := by
        intro room hmem
        obtain ⟨entry, hentry, -, rfl⟩ := mem_freeNames.mp (List.mem_of_mem_take hmem)
        rw [hnames entry hentry] at hsorted
        exact lt_irrefl _ (hsorted.1 entry.1 (List.mem_map_of_mem hentry))
      by_cases hattached : channel.attached = true
      · have hrest := ih hsorted.2 hnames result hresult
        by_cases heq : name = key
        · simp [mapAccumEntries, reserveVisit, hattached, findEntry, heq, freeNames_cons, hother]
        · simpa [mapAccumEntries, reserveVisit, hattached, findEntry, heq, freeNames_cons]
            using hrest
      · by_cases hfull : result.length = capacity
        · have hrest := ih hsorted.2 hnames result hresult
          by_cases heq : name = key
          · simp [mapAccumEntries, reserveVisit, hfull, findEntry, heq]
          · simpa [mapAccumEntries, reserveVisit, hfull, findEntry, heq] using hrest
        · have hrest := ih hsorted.2 hnames (result ++ [channel.name]) (by simp; omega)
          obtain ⟨room, hroom⟩ : ∃ room, capacity - result.length = room + 1 :=
            ⟨capacity - result.length - 1, by omega⟩
          have hless : capacity - (result.length + 1) = room := by omega
          simp only [List.length_append, List.length_singleton, hless] at hrest
          by_cases heq : name = key
          · simp [mapAccumEntries, reserveVisit, hattached, hfull, findEntry, heq, hroom, hname,
              freeNames_cons]
          · simpa [mapAccumEntries, reserveVisit, hattached, hfull, findEntry, heq, hroom, hname,
              freeNames_cons] using hrest

theorem reserve_fst (list : IRCChannelList) (capacity : Nat) (session : SessionPtr) :
    (list.reserve capacity session).1 = list.free.take capacity := by
  simpa [reserve, OrderedMap.mapAccum, free] using
    mapAccumEntries_reserveVisit_snd capacity session list.channels.entries [] (Nat.zero_le _)

theorem mem_free {list : IRCChannelList} {name : String} :
    name ∈ list.free ↔ ∃ channel, list.find? name = some channel ∧ channel.session = none := by
  have hnamed := list.named
  simp only [free, mem_freeNames, Prod.exists, OrderedMap.mem_entries_iff, Channel.attached,
    Option.isSome_eq_false_iff, Option.isNone_iff_eq_none, find?]
  constructor
  · rintro ⟨key, channel, hfind, hfree, rfl⟩
    exact ⟨channel, (hnamed key channel hfind).symm ▸ hfind, hfree⟩
  · rintro ⟨channel, hfind, hfree⟩
    exact ⟨name, channel, hfind, hfree, hnamed name channel hfind⟩

theorem find?_reserve (list : IRCChannelList) (capacity : Nat) (session : SessionPtr)
    (name : String) :
    (list.reserve capacity session).2.find? name =
      (list.find? name).map fun channel =>
        if name ∈ (list.reserve capacity session).1 then channel.attach session else channel := by
  have hnamed : ∀ entry ∈ list.channels.entries, entry.2.name = entry.1 := fun entry hentry =>
    list.named entry.1 entry.2 (OrderedMap.mem_entries_iff.mp hentry)
  rw [reserve_fst]
  exact findEntry_mapAccumEntries_reserveVisit capacity session list.channels.sorted hnamed []
    (Nat.zero_le _) name

theorem free_reserve (list : IRCChannelList) (capacity : Nat) (session : SessionPtr) :
    (list.reserve capacity session).2.free = list.free.drop capacity := by
  simpa [reserve, OrderedMap.mapAccum, free] using
    freeNames_mapAccumEntries_reserveVisit capacity session list.channels.entries []
      (Nat.zero_le _)

theorem length_free_reserve (list : IRCChannelList) (capacity : Nat) (session : SessionPtr) :
    (list.reserve capacity session).2.free.length = list.free.length - capacity := by
  rw [free_reserve, List.length_drop]

theorem size_reserve (list : IRCChannelList) (capacity : Nat) (session : SessionPtr) :
    (list.reserve capacity session).2.channels.size = list.channels.size := by
  have hkeys := mapAccumEntries_keys (reserveVisit capacity session) list.channels.entries []
  simpa [reserve, OrderedMap.mapAccum, OrderedMap.size] using congrArg List.length hkeys

theorem sessionOf_eq_some_iff {list : IRCChannelList} {name : String} {session : SessionPtr} :
    list.sessionOf name = some session ↔
      ∃ channel, list.find? name = some channel ∧ channel.session = some session := by
  simp [sessionOf, Option.bind_eq_some_iff]

theorem sessionOf_load (names : List String) (name : String) :
    (load names).sessionOf name = none := by
  rw [sessionOf, find?_load]
  split_ifs <;> rfl

theorem sessionOf_removeChannel {list : IRCChannelList} {removed name : String}
    {session : SessionPtr} (h : (list.removeChannel removed).sessionOf name = some session) :
    list.sessionOf name = some session := by
  rw [sessionOf, find?_removeChannel] at h
  split_ifs at h
  · simp at h
  · exact h

theorem sessionOf_addChannel {list : IRCChannelList} {channel : Channel} {name : String}
    {session : SessionPtr} (h : (list.addChannel channel).sessionOf name = some session) :
    list.sessionOf name = some session ∨ channel.session = some session := by
  rw [sessionOf, find?_addChannel] at h
  split_ifs at h with heq
  · cases hold : list.find? channel.name with
    | none => exact .inr (by simpa [hold] using h)
    | some old => exact .inl (by simpa [hold, heq, sessionOf] using h)
  · exact .inl h

theorem sessionOf_markChannelJoined (list : IRCChannelList) (marked name : String) :
    (list.markChannelJoined marked).sessionOf name = list.sessionOf name := by
  rw [sessionOf, find?_markChannelJoined, sessionOf]
  split_ifs
  · cases list.find? name <;> rfl
  · rfl

theorem sessionOf_detachAndPartFromSession (list : IRCChannelList) (session : SessionPtr)
    (name : String) :
    (list.detachAndPartFromSession session).sessionOf name =
      if list.sessionOf name = some session then none else list.sessionOf name := by
  rw [sessionOf, find?_detachAndPartFromSession,
    sessionOf]
  cases hfind : list.find? name with
  | none => simp
  | some channel =>
      by_cases hattached : channel.session = some session <;>
        simp [Channel.attachedTo, hattached, Channel.detach, Channel.setJoined]

theorem sessionOf_reserve (list : IRCChannelList) (capacity : Nat) (session : SessionPtr)
    (name : String) :
    (list.reserve capacity session).2.sessionOf name =
      if name ∈ (list.reserve capacity session).1 then some session else list.sessionOf name := by
  rw [sessionOf, find?_reserve, sessionOf]
  split_ifs with hmem
  · have hfree : name ∈ list.free := by
      rw [reserve_fst] at hmem
      exact List.mem_of_mem_take hmem
    obtain ⟨channel, hfind, -⟩ := mem_free.mp hfree
    simp [hfind, Channel.attach]
  · simp

theorem free_eq_nil_iff {list : IRCChannelList} :
    list.free = [] ↔ ∀ name channel, list.find? name = some channel → channel.session ≠ none := by
  simp only [List.eq_nil_iff_forall_not_mem, mem_free]
  grind

theorem free_markChannelJoined {list : IRCChannelList} (marked : String) (h : list.free = []) :
    (list.markChannelJoined marked).free = [] := by
  rw [free_eq_nil_iff] at h ⊢
  intro name channel hfind
  rw [find?_markChannelJoined] at hfind
  split_ifs at hfind
  · obtain ⟨stored, hstored, rfl⟩ := Option.map_eq_some_iff.mp hfind
    exact h name stored hstored
  · exact h name channel hfind

theorem free_addChannel {list : IRCChannelList} {channel : Channel}
    (hattached : channel.session ≠ none) (h : list.free = []) :
    (list.addChannel channel).free = [] := by
  rw [free_eq_nil_iff] at h ⊢
  intro name stored hfind
  rw [find?_addChannel] at hfind
  split_ifs at hfind with heq
  · cases hold : list.find? channel.name with
    | none =>
        obtain rfl : channel = stored := by simpa [hold] using hfind
        exact hattached
    | some old =>
        obtain rfl : old = stored := by simpa [hold] using hfind
        exact h channel.name old hold
  · exact h name stored hfind

theorem free_removeChannel {list : IRCChannelList} (removed : String) (h : list.free = []) :
    (list.removeChannel removed).free = [] := by
  rw [free_eq_nil_iff] at h ⊢
  intro name channel hfind
  rw [find?_removeChannel] at hfind
  split_ifs at hfind
  exact h name channel hfind

end IRCChannelList

end TwitchChatWorker.ChannelList
