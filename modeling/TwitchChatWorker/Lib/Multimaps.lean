import Mathlib.Data.List.Sort

/-!
The nodes of a multimap in the order of their keys.  A node keeps its name while
it is taken out and put back, so an iterator is the name of the node it stands on.
-/

namespace TwitchChatWorker.Lib.Multimaps

variable {α κ ν : Type*}

section Keys

variable [LinearOrder κ] (key : α → κ)

/-- In order of the keys, as `std::multimap` keeps its nodes. -/
def Sorted (nodes : List α) : Prop := nodes.Pairwise fun a b => key a ≤ key b

/-- A node comes after the nodes of its own key. -/
def insert (node : α) (nodes : List α) : List α :=
  nodes.orderedInsert (fun a b => key a < key b) node

variable {key}

theorem insert_perm (node : α) (nodes : List α) : (insert key node nodes).Perm (node :: nodes) :=
  List.perm_orderedInsert _ node nodes

theorem mem_insert {node other : α} {nodes : List α} :
    other ∈ insert key node nodes ↔ other = node ∨ other ∈ nodes :=
  List.mem_orderedInsert _

theorem insert_append {node : α} {before : List α} (h : ∀ a ∈ before, key a ≤ key node)
    (after : List α) : insert key node (before ++ after) = before ++ insert key node after := by
  induction before with
  | nil => rfl
  | cons a before ih =>
      rw [List.cons_append, insert, List.orderedInsert_cons,
        if_neg (not_lt.mpr (h a List.mem_cons_self)), List.cons_append]
      exact congrArg _ (ih fun b hb => h b (List.mem_cons_of_mem a hb))

theorem Sorted.insert {nodes : List α} (h : Sorted key nodes) (node : α) :
    Sorted key (insert key node nodes) := by
  induction nodes with
  | nil => exact List.pairwise_singleton _ node
  | cons a nodes ih =>
      obtain ⟨hle, hrest⟩ := List.pairwise_cons.mp h
      rw [Multimaps.insert, List.orderedInsert_cons]
      split
      next hlt =>
        refine List.pairwise_cons.mpr ⟨fun b hb => ?_, h⟩
        rcases List.mem_cons.mp hb with rfl | hb
        · exact hlt.le
        · exact hlt.le.trans (hle b hb)
      next hnot =>
        refine List.pairwise_cons.mpr ⟨fun b hb => ?_, ih hrest⟩
        rcases mem_insert.mp hb with rfl | hb
        · exact not_lt.mp hnot
        · exact hle b hb

theorem Sorted.eq_append {nodes : List α} (h : Sorted key nodes) (k : κ) :
    nodes = (nodes.filter fun a => key a ≤ k) ++ nodes.filter fun a => k < key a := by
  induction nodes with
  | nil => rfl
  | cons a nodes ih =>
      obtain ⟨hle, hrest⟩ := List.pairwise_cons.mp h
      by_cases hk : key a ≤ k
      · rw [List.filter_cons_of_pos (by simpa using hk),
          List.filter_cons_of_neg (by simpa using hk), List.cons_append, ← ih hrest]
      · have hlate : ∀ b ∈ a :: nodes, k < key b := by
          intro b hb
          rcases List.mem_cons.mp hb with rfl | hb
          · exact not_le.mp hk
          · exact (not_le.mp hk).trans_le (hle b hb)
        rw [List.filter_eq_nil_iff.mpr fun b hb => by simpa using hlate b hb,
          List.filter_eq_self.mpr fun b hb => by simpa using hlate b hb, List.nil_append]

end Keys

section Names

variable [DecidableEq ν] (name : α → ν)

/-- The node that an iterator stands on. -/
def node? (i : ν) (nodes : List α) : Option α := nodes.find? fun a => name a = i

/-- The iterator after one, or the end. -/
def next? (i : ν) : List α → Option ν
  | [] => none
  | a :: nodes => if name a = i then nodes.head?.map name else next? i nodes

def extract (i : ν) (nodes : List α) : List α := nodes.eraseP fun a => name a = i

variable {name}

theorem exists_of_node? {i : ν} {nodes : List α} {a : α} (h : node? name i nodes = some a) :
    name a = i ∧ ∃ before after, nodes = before ++ a :: after ∧
      extract name i nodes = before ++ after := by
  obtain ⟨hname, before, after, rfl, hbefore⟩ := List.find?_eq_some_iff_append.mp h
  refine ⟨of_decide_eq_true hname, before, after, rfl, ?_⟩
  rw [extract, List.eraseP_append_right _ fun b hb => by simpa using hbefore b hb,
    List.eraseP_cons, hname, Bool.cond_true]

theorem node?_cons_self (a : α) (nodes : List α) :
    node? name (name a) (a :: nodes) = some a := by
  simp [node?]

theorem next?_cons_self (a : α) (nodes : List α) :
    next? name (name a) (a :: nodes) = nodes.head?.map name := by
  simp [next?]

theorem extract_cons_self (a : α) (nodes : List α) :
    extract name (name a) (a :: nodes) = nodes := by
  simp [extract]

end Names

end TwitchChatWorker.Lib.Multimaps
