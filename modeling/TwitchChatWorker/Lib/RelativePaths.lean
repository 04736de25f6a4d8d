import Mathlib.Data.List.Basic
import Mathlib.Tactic.Common

/-!
Paths of segments between separators, and where they lead: a segment names a
child, or asks for the parent or for nothing.  A walk that is rooted stays at the
root instead of leaving it.
-/

namespace TwitchChatWorker.Lib.RelativePaths

section Walks

variable {σ : Type*}

/-- Up, nowhere, or down into a segment. -/
inductive Move (σ : Type*) where
  | here
  | up
  | into (name : σ)
  deriving DecidableEq

namespace Move

variable [DecidableEq σ] (up_ here_ : σ)

def ofSegment (segment : σ) : Move σ :=
  if segment = up_ then .up else if segment = here_ then .here else .into segment

def isDots (segment : σ) : Bool := segment = up_ || segment = here_

theorem ofSegment_cases (segment : σ) :
    (segment = up_ ∧ ofSegment up_ here_ segment = .up) ∨
      (segment = here_ ∧ ofSegment up_ here_ segment = .here) ∨
      (segment ≠ up_ ∧ segment ≠ here_ ∧ ofSegment up_ here_ segment = .into segment) := by
  unfold ofSegment
  split_ifs with hup hhere
  · exact .inl ⟨hup, rfl⟩
  · exact .inr (.inl ⟨hhere, rfl⟩)
  · exact .inr (.inr ⟨hup, hhere, rfl⟩)

end Move

/-- A place as it is seen from the start: so many levels up and then down along
the names. -/
@[ext] structure Place (σ : Type*) where
  ups : Nat := 0
  names : List σ := []
  deriving DecidableEq

namespace Place

def move (rooted : Bool) (p : Place σ) : Move σ → Place σ
  | .here => p
  | .up =>
      if p.names.isEmpty then
        if rooted then p else { p with ups := p.ups + 1 }
      else { p with names := p.names.dropLast }
  | .into name => { p with names := p.names ++ [name] }

/-- The place after all moves. -/
def walk (rooted : Bool) (p : Place σ) (moves : List (Move σ)) : Place σ :=
  moves.foldl (move rooted) p

def start : Place σ := {}

/-- The shortest way to a place. -/
def moves (p : Place σ) : List (Move σ) := List.replicate p.ups .up ++ p.names.map .into

variable {rooted : Bool} {p : Place σ} {ms : List (Move σ)}

@[simp] theorem walk_nil : walk rooted p [] = p := rfl

theorem walk_cons (m : Move σ) : walk rooted p (m :: ms) = walk rooted (p.move rooted m) ms := rfl

theorem walk_append (ms' : List (Move σ)) :
    walk rooted p (ms ++ ms') = walk rooted (walk rooted p ms) ms' :=
  List.foldl_append

theorem walk_into (names : List σ) :
    walk rooted p (names.map .into) = { p with names := p.names ++ names } := by
  induction names generalizing p with
  | nil => simp
  | cons name names ih =>
      rw [List.map_cons, walk_cons, ih]
      simp [move]

theorem walk_ups (k : Nat) (n : Nat) :
    walk false (⟨n, []⟩ : Place σ) (List.replicate k .up) = ⟨n + k, []⟩ := by
  induction k generalizing n with
  | zero => rfl
  | succ k ih =>
      rw [List.replicate_succ, walk_cons]
      simp only [move, List.isEmpty_nil, if_true, Bool.false_eq_true, if_false]
      rw [ih]
      congr 1
      omega

theorem move_up (names : List σ) : move true ⟨0, names⟩ .up = ⟨0, names.dropLast⟩ := by
  cases names <;> rfl

theorem ups_walk : (walk true p ms).ups = p.ups := by
  induction ms generalizing p with
  | nil => rfl
  | cons m ms ih =>
      rw [walk_cons, ih]
      cases m with
      | here => rfl
      | into name => rfl
      | up => simp only [move]; split <;> rfl

theorem mem_names_walk {name : σ} (h : name ∈ (walk rooted p ms).names) :
    name ∈ p.names ∨ .into name ∈ ms := by
  induction ms generalizing p with
  | nil => exact .inl h
  | cons m ms ih =>
      rcases ih h with hmoved | hrest
      · cases m with
        | here => exact .inl hmoved
        | into other =>
            rcases List.mem_append.mp hmoved with hold | hnew
            · exact .inl hold
            · obtain rfl := List.mem_singleton.mp hnew
              exact .inr List.mem_cons_self
        | up =>
            left
            simp only [move] at hmoved
            split at hmoved
            · split at hmoved
              · exact hmoved
              · exact hmoved
            · exact (List.dropLast_sublist _).subset hmoved
      · exact .inr (List.mem_cons_of_mem m hrest)

theorem walk_moves (h : rooted = true → p.ups = 0) : walk rooted start p.moves = p := by
  rw [moves, walk_append]
  have hups : walk rooted (start : Place σ) (List.replicate p.ups .up) = ⟨p.ups, []⟩ := by
    cases rooted with
    | true =>
        rw [h rfl]
        rfl
    | false => simpa [start] using walk_ups (σ := σ) p.ups 0
  rw [hups, walk_into]
  simp

/-- From a deeper place one walk ends at least as deep. -/
theorem length_walk_le {a b : List σ} (h : a.length ≤ b.length) :
    (walk true ⟨0, a⟩ ms).names.length ≤ (walk true ⟨0, b⟩ ms).names.length := by
  induction ms generalizing a b with
  | nil => exact h
  | cons m ms ih =>
      rw [walk_cons, walk_cons]
      cases m with
      | here => exact ih h
      | into name => exact ih (by simp only [List.length_append]; omega)
      | up =>
          rw [move_up, move_up]
          exact ih (by simp only [List.length_dropLast]; omega)

end Place

end Walks

section Segments

variable {α : Type*} (sep : α)

def tail (trailing : Bool) : List α := if trailing then [sep] else []

/-- Every segment behind a separator. -/
def absolutePath (names : List (List α)) (trailing : Bool) : List α :=
  names.flatMap (sep :: ·) ++ tail sep trailing

@[simp] theorem absolutePath_nil (trailing : Bool) :
    absolutePath sep [] trailing = tail sep trailing :=
  rfl

theorem absolutePath_cons (s : List α) (names : List (List α)) (trailing : Bool) :
    absolutePath sep (s :: names) trailing = sep :: s ++ absolutePath sep names trailing := by
  simp [absolutePath]

/-- A path whose first segment has no separator before it. -/
def relativePath (first : List α) (rest : List (List α)) (trailing : Bool) : List α :=
  first ++ absolutePath sep rest trailing

theorem absolutePath_concat (s : List α) (names : List (List α)) :
    absolutePath sep (names ++ [s]) false = absolutePath sep names false ++ sep :: s := by
  simp [absolutePath, tail]

variable [DecidableEq α]

def segments (path : List α) : List (List α) := (path.splitOn sep).filter fun s => !s.isEmpty

/-- A segment that a path can have. -/
structure Segment (s : List α) : Prop where
  ne_nil : s ≠ []
  sep : sep ∉ s

instance : DecidablePred (Segment sep) := fun s =>
  decidable_of_iff (s ≠ [] ∧ sep ∉ s) ⟨fun h => ⟨h.1, h.2⟩, fun h => ⟨h.ne_nil, h.sep⟩⟩

@[simp] theorem segments_nil : segments sep [] = [] := rfl

theorem segments_append_cons (path path' : List α) :
    segments sep (path ++ sep :: path') = segments sep path ++ segments sep path' := by
  rw [segments, List.splitOn_append_cons_self, List.filter_append]
  rfl

theorem segments_cons (path : List α) : segments sep (sep :: path) = segments sep path := by
  simpa using segments_append_cons sep [] path

variable {sep}

theorem Segment.segments_eq {s : List α} (h : Segment sep s) : segments sep s = [s] := by
  simp [segments, List.splitOn_eq_singleton h.sep, h.ne_nil]

theorem segment_of_mem {path s : List α} (h : s ∈ segments sep path) : Segment sep s := by
  obtain ⟨hmem, hne⟩ := List.mem_filter.mp h
  refine ⟨by simpa using hne, ?_⟩
  clear h hne
  induction path generalizing s with
  | nil =>
      obtain rfl : s = [] := by simpa using hmem
      simp
  | cons c path ih =>
      rw [List.splitOn_cons_eq_if_modifyHead] at hmem
      split at hmem
      · rcases List.mem_cons.mp hmem with rfl | hmem
        · simp
        · exact ih hmem
      next hc =>
        cases hsplit : path.splitOn sep with
        | nil => simp at hsplit
        | cons t ts =>
            rw [hsplit] at hmem ih
            rcases List.mem_cons.mp hmem with rfl | hmem
            · have ht := ih List.mem_cons_self
              simp only [List.mem_cons, not_or]
              exact ⟨fun heq => hc (by simp [heq]), ht⟩
            · exact ih (List.mem_cons_of_mem _ hmem)

variable (sep)

@[simp] theorem segments_tail (trailing : Bool) : segments sep (tail sep trailing) = [] := by
  cases trailing with
  | false => rfl
  | true => exact segments_cons sep []

theorem absolutePath_cases (names : List (List α)) (trailing : Bool) :
    absolutePath sep names trailing = [] ∨
      ∃ path, absolutePath sep names trailing = sep :: path ∧
        segments sep path = segments sep (absolutePath sep names trailing) := by
  cases names with
  | nil =>
      cases trailing with
      | false => exact .inl rfl
      | true => exact .inr ⟨[], rfl, (segments_cons sep []).symm⟩
  | cons s names =>
      rw [absolutePath_cons, List.cons_append]
      exact .inr ⟨_, rfl, (segments_cons sep _).symm⟩

variable {sep}

theorem segments_append_absolutePath {s : List α} (names : List (List α)) (trailing : Bool) :
    segments sep (s ++ absolutePath sep names trailing) =
      segments sep s ++ segments sep (absolutePath sep names trailing) := by
  rcases absolutePath_cases sep names trailing with hnil | ⟨path, hpath, hsegments⟩
  · simp [hnil]
  · rw [← hsegments, hpath, segments_append_cons]

theorem segments_absolutePath {names : List (List α)} (hnames : ∀ s ∈ names, Segment sep s)
    (trailing : Bool) : segments sep (absolutePath sep names trailing) = names := by
  induction names with
  | nil => simp
  | cons s names ih =>
      rw [List.forall_mem_cons] at hnames
      rw [absolutePath_cons, List.cons_append, segments_cons, segments_append_absolutePath,
        hnames.1.segments_eq, ih hnames.2, List.singleton_append]

end Segments

end TwitchChatWorker.Lib.RelativePaths
