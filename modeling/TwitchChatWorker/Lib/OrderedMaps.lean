import Mathlib.Order.Lattice
import Mathlib.Data.List.Basic
import Mathlib.Data.List.Pairwise
import Mathlib.Tactic.Common

/-!
Finite maps kept as lists of entries in strictly increasing key order, the
order in which an ordered tree map iterates over them.
-/

namespace TwitchChatWorker.Lib.OrderedMaps

/-- A finite map.  The keys of `entries` are distinct because they increase. -/
@[ext]
structure OrderedMap (κ ν : Type*) [LinearOrder κ] where
  entries : List (κ × ν)
  sorted : (entries.map Prod.fst).Pairwise (· < ·)

variable {κ ν τ : Type*} [LinearOrder κ]

/-- Insert the entry of `k` in key order, or replace its value; `f` is given
the value stored before. -/
def upsertEntries (k : κ) (f : Option ν → ν) : List (κ × ν) → List (κ × ν)
  | [] => [(k, f none)]
  | (k', v) :: rest =>
      if k < k' then (k, f none) :: (k', v) :: rest
      else if k = k' then (k, f (some v)) :: rest
      else (k', v) :: upsertEntries k f rest

/-- Visit the entries in key order, threading a state and replacing values. -/
def mapAccumEntries (f : κ → ν → τ → ν × τ) :
    List (κ × ν) → τ → List (κ × ν) × τ
  | [], t => ([], t)
  | (k, v) :: rest, t =>
      let visited := f k v t
      let others := mapAccumEntries f rest visited.2
      ((k, visited.1) :: others.1, others.2)

def findEntry (k : κ) : List (κ × ν) → Option ν
  | [] => none
  | (k', v) :: rest => if k = k' then some v else findEntry k rest

theorem mem_keys_upsertEntries {k key : κ} {f : Option ν → ν}
    {entries : List (κ × ν)}
    (h : key ∈ (upsertEntries k f entries).map Prod.fst) :
    key = k ∨ key ∈ entries.map Prod.fst := by
  induction entries with
  | nil => simpa [upsertEntries] using h
  | cons entry rest ih =>
      obtain ⟨k', v⟩ := entry
      simp only [upsertEntries] at h
      split_ifs at h <;> grind

theorem sorted_upsertEntries (k : κ) (f : Option ν → ν)
    {entries : List (κ × ν)}
    (h : (entries.map Prod.fst).Pairwise (· < ·)) :
    ((upsertEntries k f entries).map Prod.fst).Pairwise (· < ·) := by
  induction entries with
  | nil => simp [upsertEntries]
  | cons entry rest ih =>
      obtain ⟨k', v⟩ := entry
      simp only [List.map_cons, List.pairwise_cons] at h
      simp only [upsertEntries]
      split_ifs with hlt heq
      · simp only [List.map_cons, List.pairwise_cons, List.mem_cons]
        refine ⟨?_, h⟩
        rintro key (rfl | hkey)
        · exact hlt
        · exact hlt.trans (h.1 key hkey)
      · subst heq
        simpa using h
      · simp only [List.map_cons, List.pairwise_cons]
        refine ⟨?_, ih h.2⟩
        intro key hkey
        rcases mem_keys_upsertEntries hkey with rfl | hkey
        · exact lt_of_le_of_ne (not_lt.mp hlt) (Ne.symm heq)
        · exact h.1 key hkey

omit [LinearOrder κ] in
theorem mapAccumEntries_keys (f : κ → ν → τ → ν × τ)
    (entries : List (κ × ν)) (t : τ) :
    (mapAccumEntries f entries t).1.map Prod.fst = entries.map Prod.fst := by
  induction entries generalizing t with
  | nil => rfl
  | cons entry rest ih => simp [mapAccumEntries, ih]

omit [LinearOrder κ] in
theorem exists_of_mem_mapAccumEntries {f : κ → ν → τ → ν × τ} {k : κ} {v : ν}
    {entries : List (κ × ν)} {t : τ} (h : (k, v) ∈ (mapAccumEntries f entries t).1) :
    ∃ old t', (k, old) ∈ entries ∧ (f k old t').1 = v := by
  induction entries generalizing t with
  | nil => simp [mapAccumEntries] at h
  | cons entry rest ih =>
      simp only [mapAccumEntries, List.mem_cons, Prod.mk.injEq] at h
      rcases h with ⟨rfl, rfl⟩ | h
      · exact ⟨entry.2, t, by simp, rfl⟩
      · obtain ⟨old, t', hold, hf⟩ := ih h
        exact ⟨old, t', List.mem_cons_of_mem _ hold, hf⟩

theorem findEntry_upsertEntries (k key : κ) (f : Option ν → ν)
    {entries : List (κ × ν)}
    (h : (entries.map Prod.fst).Pairwise (· < ·)) :
    findEntry key (upsertEntries k f entries) =
      if key = k then some (f (findEntry k entries)) else findEntry key entries := by
  induction entries with
  | nil => simp [upsertEntries, findEntry]
  | cons entry rest ih =>
      obtain ⟨k', v⟩ := entry
      simp only [List.map_cons, List.pairwise_cons] at h
      have hrest := ih h.2
      have habsent : k < k' → findEntry k rest = none := by
        intro hlt
        have hbound : ∀ key ∈ rest.map Prod.fst, k < key :=
          fun key hkey => hlt.trans (h.1 key hkey)
        clear ih hrest h
        induction rest with
        | nil => rfl
        | cons entry rest ih =>
            simp only [List.map_cons, List.mem_cons, forall_eq_or_imp] at hbound
            simp [findEntry, hbound.1.ne, ih hbound.2]
      simp only [upsertEntries]
      split_ifs with hlt heq <;> grind [findEntry]

theorem mem_entries_iff_findEntry {k : κ} {v : ν} {entries : List (κ × ν)}
    (h : (entries.map Prod.fst).Pairwise (· < ·)) :
    (k, v) ∈ entries ↔ findEntry k entries = some v := by
  induction entries with
  | nil => simp [findEntry]
  | cons entry rest ih =>
      obtain ⟨k', v'⟩ := entry
      simp only [List.map_cons, List.pairwise_cons] at h
      simp only [List.mem_cons, Prod.mk.injEq, findEntry]
      by_cases heq : k = k'
      · subst heq
        have hnot : (k, v) ∉ rest := fun hmem =>
          lt_irrefl k (h.1 k (List.mem_map_of_mem hmem))
        simp [hnot, eq_comm]
      · simp [heq, ih h.2]

theorem findEntry_filter (k : κ) (entries : List (κ × ν)) (p : κ → Bool) :
    findEntry k (entries.filter fun entry => p entry.1) =
      if p k then findEntry k entries else none := by
  induction entries with
  | nil => simp [findEntry]
  | cons entry rest ih =>
      obtain ⟨k', v⟩ := entry
      by_cases hp : p k' = true <;> by_cases heq : k = k' <;>
        grind [findEntry]

namespace OrderedMap

def empty : OrderedMap κ ν := ⟨[], by simp⟩

instance : Inhabited (OrderedMap κ ν) := ⟨empty⟩

def size (m : OrderedMap κ ν) : Nat := m.entries.length

def find? (m : OrderedMap κ ν) (k : κ) : Option ν := findEntry k m.entries

def contains (m : OrderedMap κ ν) (k : κ) : Bool := (m.find? k).isSome

/-- The value under `k` is made from the one that is there. -/
def upsert (m : OrderedMap κ ν) (k : κ) (f : Option ν → ν) : OrderedMap κ ν :=
  ⟨upsertEntries k f m.entries, sorted_upsertEntries k f m.sorted⟩

/-- Store `v` under `k`, replacing an old value. -/
def assign (m : OrderedMap κ ν) (k : κ) (v : ν) : OrderedMap κ ν :=
  m.upsert k fun _ => v

/-- Insert `v` under `k` unless `k` has a value already. -/
def emplace (m : OrderedMap κ ν) (k : κ) (v : ν) : OrderedMap κ ν :=
  m.upsert k fun old => old.getD v

def erase (m : OrderedMap κ ν) (k : κ) : OrderedMap κ ν :=
  ⟨m.entries.filter fun entry => decide (entry.1 ≠ k),
    m.sorted.sublist (List.filter_sublist.map Prod.fst)⟩

def mapAccum (m : OrderedMap κ ν) (f : κ → ν → τ → ν × τ) (t : τ) :
    OrderedMap κ ν × τ :=
  (⟨(mapAccumEntries f m.entries t).1,
    (mapAccumEntries_keys f m.entries t).symm ▸ m.sorted⟩,
    (mapAccumEntries f m.entries t).2)

def mapValues (m : OrderedMap κ ν) (f : ν → ν) : OrderedMap κ ν :=
  ⟨m.entries.map fun entry => (entry.1, f entry.2), by
    simpa [Function.comp_def] using m.sorted⟩

def emplaceAll (m : OrderedMap κ ν) (entries : List (κ × ν)) : OrderedMap κ ν :=
  entries.foldl (fun m entry => m.emplace entry.1 entry.2) m

@[simp] theorem find?_empty (k : κ) : (empty : OrderedMap κ ν).find? k = none := rfl

theorem mem_entries_iff {m : OrderedMap κ ν} {k : κ} {v : ν} :
    (k, v) ∈ m.entries ↔ m.find? k = some v :=
  mem_entries_iff_findEntry m.sorted

theorem contains_iff {m : OrderedMap κ ν} {k : κ} :
    m.contains k = true ↔ ∃ v, m.find? k = some v := by
  simp [contains, Option.isSome_iff_exists]

theorem find?_upsert (m : OrderedMap κ ν) (k key : κ) (f : Option ν → ν) :
    (m.upsert k f).find? key =
      if key = k then some (f (m.find? k)) else m.find? key :=
  findEntry_upsertEntries k key f m.sorted

theorem find?_assign (m : OrderedMap κ ν) (k key : κ) (v : ν) :
    (m.assign k v).find? key = if key = k then some v else m.find? key :=
  find?_upsert m k key fun _ => v

theorem find?_emplace (m : OrderedMap κ ν) (k key : κ) (v : ν) :
    (m.emplace k v).find? key =
      if key = k then some ((m.find? k).getD v) else m.find? key :=
  find?_upsert m k key fun old => old.getD v

theorem find?_erase (m : OrderedMap κ ν) (k key : κ) :
    (m.erase k).find? key = if key = k then none else m.find? key := by
  have h := findEntry_filter key m.entries fun key => decide (key ≠ k)
  simp only [find?, erase]
  rw [h]
  by_cases heq : key = k <;> simp [heq]

theorem find?_mapValues (m : OrderedMap κ ν) (f : ν → ν) (k : κ) :
    (m.mapValues f).find? k = (m.find? k).map f := by
  simp only [find?, mapValues]
  induction m.entries with
  | nil => rfl
  | cons entry rest ih =>
      by_cases heq : k = entry.1 <;> simp [findEntry, heq, ih]

def Forall (m : OrderedMap κ ν) (p : κ → ν → Prop) : Prop :=
  ∀ k v, m.find? k = some v → p k v

theorem forall_empty {p : κ → ν → Prop} : (empty : OrderedMap κ ν).Forall p := by
  simp [Forall]

theorem Forall.upsert {m : OrderedMap κ ν} {p : κ → ν → Prop} (h : m.Forall p)
    {k : κ} {f : Option ν → ν} (hf : p k (f (m.find? k))) : (m.upsert k f).Forall p := by
  intro key v hfind
  rw [find?_upsert] at hfind
  split_ifs at hfind with heq
  · obtain rfl := Option.some.inj hfind
    exact heq ▸ hf
  · exact h key v hfind

theorem Forall.assign {m : OrderedMap κ ν} {p : κ → ν → Prop} (h : m.Forall p)
    {k : κ} {v : ν} (hv : p k v) : (m.assign k v).Forall p :=
  h.upsert hv

theorem Forall.emplace {m : OrderedMap κ ν} {p : κ → ν → Prop} (h : m.Forall p)
    {k : κ} {v : ν} (hv : p k v) : (m.emplace k v).Forall p := by
  apply h.upsert
  cases hold : m.find? k with
  | none => exact hv
  | some old => exact h k old hold

theorem Forall.erase {m : OrderedMap κ ν} {p : κ → ν → Prop} (h : m.Forall p)
    (k : κ) : (m.erase k).Forall p := by
  intro key v hfind
  rw [find?_erase] at hfind
  split_ifs at hfind
  exact h key v hfind

theorem Forall.mapValues {m : OrderedMap κ ν} {p : κ → ν → Prop} (h : m.Forall p)
    {f : ν → ν} (hf : ∀ k v, p k v → p k (f v)) : (m.mapValues f).Forall p := by
  intro key v hfind
  rw [find?_mapValues] at hfind
  obtain ⟨old, hold, rfl⟩ := Option.map_eq_some_iff.mp hfind
  exact hf key old (h key old hold)

theorem Forall.emplaceAll {entries : List (κ × ν)} {m : OrderedMap κ ν}
    {p : κ → ν → Prop} (h : m.Forall p) (hentries : ∀ entry ∈ entries, p entry.1 entry.2) :
    (m.emplaceAll entries).Forall p := by
  induction entries generalizing m with
  | nil => exact h
  | cons entry entries ih =>
      rw [List.forall_mem_cons] at hentries
      exact ih (h.emplace hentries.1) hentries.2

theorem Forall.mapAccum {m : OrderedMap κ ν} {p : κ → ν → Prop} (h : m.Forall p)
    {f : κ → ν → τ → ν × τ} (hf : ∀ k v t, p k v → p k (f k v t).1) (t : τ) :
    (m.mapAccum f t).1.Forall p := by
  intro key v hfind
  have hmem : (key, v) ∈ (mapAccumEntries f m.entries t).1 := mem_entries_iff.mpr hfind
  obtain ⟨old, t', hold, rfl⟩ := exists_of_mem_mapAccumEntries hmem
  exact hf key old t' (h key old (mem_entries_iff.mp hold))

end OrderedMap

end TwitchChatWorker.Lib.OrderedMaps
