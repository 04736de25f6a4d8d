import TwitchChatWorker.Lib.RelativePaths
import TwitchChatWorker.Uri

/-!
The loops over path segments as walks: the vector of normalized segments is the
shortest way to the place where the segments lead.
-/

namespace TwitchChatWorker.UriPaths

open TwitchChatWorker.Lib.RelativePaths
open TwitchChatWorker.Uri

abbrev slash : UInt8 := byte '/'

theorem getPathSegmentsFrom_eq {seg : Bytes} (hseg : slash ∉ seg) (path : Bytes) :
    getPathSegmentsFrom seg path = segments slash (seg ++ path) := by
  induction path generalizing seg with
  | nil =>
      rw [getPathSegmentsFrom, List.append_nil]
      split
      next hne => exact (Segment.segments_eq ⟨hne, hseg⟩).symm
      next hnil => simp [not_not.mp hnil]
  | cons c path ih =>
      rw [getPathSegmentsFrom]
      split
      next hc =>
        rw [hc, segments_append_cons]
        split
        next hne =>
          rw [Segment.segments_eq ⟨hne, hseg⟩, ih (by simp)]
          rfl
        next hnil =>
          rw [not_not.mp hnil, ih (by simp)]
          rfl
      next hc =>
        rw [ih (by simp [hseg, Ne.symm hc])]
        simp

theorem getPathSegments_eq (path : Bytes) : getPathSegments path = segments slash path :=
  getPathSegmentsFrom_eq (by simp) path

abbrev moveOf : Bytes → Move Bytes := Move.ofSegment (bytes "..") (bytes ".")

/-- The segment is one of the dot segments. -/
abbrev isDots : Bytes → Bool := Move.isDots (bytes "..") (bytes ".")

theorem moveOf_cases (segment : Bytes) :
    (segment = bytes ".." ∧ moveOf segment = .up) ∨
      (segment = bytes "." ∧ moveOf segment = .here) ∨
      (segment ≠ bytes ".." ∧ segment ≠ bytes "." ∧ moveOf segment = .into segment) :=
  Move.ofSegment_cases _ _ segment

/-- A place as the vector of normalized segments has it. -/
def wayTo (p : Place Bytes) : List Bytes := List.replicate p.ups (bytes "..") ++ p.names

/-- A name is no dot segment. -/
def Named (p : Place Bytes) : Prop := ∀ name ∈ p.names, name ≠ bytes ".." ∧ name ≠ bytes "."

theorem Named.move {p : Place Bytes} (h : Named p) (rooted : Bool) (segment : Bytes) :
    Named (p.move rooted (moveOf segment)) := by
  rcases moveOf_cases segment with ⟨-, hmove⟩ | ⟨-, hmove⟩ | ⟨hup, hhere, hmove⟩
  · rw [hmove]
    simp only [Place.move]
    split
    · split
      · exact h
      · exact h
    · exact fun name hname => h name ((List.dropLast_sublist _).subset hname)
  · rw [hmove]
    exact h
  · rw [hmove]
    intro name hname
    rcases List.mem_append.mp hname with hold | hnew
    · exact h name hold
    · obtain rfl := List.mem_singleton.mp hnew
      exact ⟨hup, hhere⟩

theorem removeDotStep_wayTo {p : Place Bytes} (h : Named p) {rooted : Bool}
    (hrooted : rooted = true → p.ups = 0) (segment : Bytes) :
    removeDotStep rooted (wayTo p) segment = wayTo (p.move rooted (moveOf segment)) := by
  obtain ⟨ups, names⟩ := p
  rcases moveOf_cases segment with ⟨rfl, hmove⟩ | ⟨rfl, hmove⟩ | ⟨hup, hhere, hmove⟩
  · rw [hmove, removeDotStep, if_pos rfl]
    rcases List.eq_nil_or_concat names with rfl | ⟨names, name, rfl⟩
    · cases rooted with
      | true =>
          obtain rfl : ups = 0 := hrooted rfl
          rfl
      | false =>
          cases ups with
          | zero => rfl
          | succ ups => simp [wayTo, Place.move, List.getLast?_replicate, List.replicate_succ']
    · have hname : name ≠ bytes ".." := (h name (by simp)).1
      simp [wayTo, Place.move, hname, List.dropLast_append_of_ne_nil]
  · rw [hmove, removeDotStep, if_neg (by decide), if_neg (by simp)]
    rfl
  · rw [hmove, removeDotStep, if_neg hup, if_pos hhere]
    simp [wayTo, Place.move]

/-- The vector of `removeDotSegments` is the way to where the segments lead. -/
theorem foldl_removeDotStep {p : Place Bytes} (h : Named p) {rooted : Bool}
    (hrooted : rooted = true → p.ups = 0) (segs : List Bytes) :
    segs.foldl (removeDotStep rooted) (wayTo p) =
      wayTo (p.walk rooted (segs.map moveOf)) ∧ Named (p.walk rooted (segs.map moveOf)) := by
  induction segs generalizing p with
  | nil => exact ⟨rfl, h⟩
  | cons segment segs ih =>
      have hups : rooted = true → (p.move rooted (moveOf segment)).ups = 0 := by
        rintro rfl
        rw [← hrooted rfl]
        exact @Place.ups_walk _ _ [moveOf segment]
      rw [List.foldl_cons, removeDotStep_wayTo h hrooted, List.map_cons, Place.walk_cons]
      exact ih (h.move rooted segment) hups

theorem mergeStep_names (names : List Bytes) (trailing : Bool) (segment : Bytes) :
    mergeStep (names, trailing) segment =
      ((Place.move true ⟨0, names⟩ (moveOf segment)).names,
        isDots segment) := by
  unfold isDots Move.isDots
  rcases moveOf_cases segment with ⟨rfl, hmove⟩ | ⟨rfl, hmove⟩ | ⟨hup, hhere, hmove⟩
  · rw [hmove]
    cases names <;> rfl
  · rw [hmove]
    rfl
  · rw [hmove, mergeStep, if_neg hup, if_pos hhere]
    simp [Place.move, hup, hhere]

theorem foldl_mergeStep (names segs : List Bytes) (trailing : Bool) :
    segs.foldl mergeStep (names, trailing) =
      ((Place.walk true ⟨0, names⟩ (segs.map moveOf)).names,
        (segs.getLast?.map isDots).getD trailing) := by
  induction segs generalizing names trailing with
  | nil => rfl
  | cons segment segs ih =>
      have hroot : Place.move true ⟨0, names⟩ (moveOf segment) =
          ⟨0, (Place.move true ⟨0, names⟩ (moveOf segment)).names⟩ :=
        Place.ext (@Place.ups_walk _ _ [moveOf segment]) rfl
      rw [List.foldl_cons, mergeStep_names, ih, List.map_cons, Place.walk_cons, ← hroot,
        List.getLast?_cons, Option.map_some, Option.getD_some, Option.getD_map]

theorem map_moveOf_wayTo {p : Place Bytes} (h : Named p) : (wayTo p).map moveOf = p.moves := by
  rw [wayTo, List.map_append, List.map_replicate, Place.moves]
  congr 1
  apply List.map_congr_left
  intro name hname
  rcases moveOf_cases name with ⟨hup, -⟩ | ⟨hhere, -⟩ | ⟨-, -, hmove⟩
  · exact absurd hup (h name hname).1
  · exact absurd hhere (h name hname).2
  · exact hmove

theorem segment_dots : Segment slash (bytes "..") ∧ Segment slash (bytes ".") :=
  ⟨⟨by decide, by decide⟩, ⟨by decide, by decide⟩⟩

theorem segment_of_mem_names {p : Place Bytes} {rooted : Bool} {segs : List Bytes}
    (hp : ∀ s ∈ p.names, Segment slash s) (hsegs : ∀ s ∈ segs, Segment slash s) :
    ∀ s ∈ (p.walk rooted (segs.map moveOf)).names, Segment slash s := by
  intro s hs
  rcases Place.mem_names_walk hs with hname | hmove
  · exact hp s hname
  · obtain ⟨segment, hsegment, heq⟩ := List.mem_map.mp hmove
    rcases moveOf_cases segment with ⟨-, hmove⟩ | ⟨-, hmove⟩ | ⟨-, -, hmove⟩
    · simp [hmove] at heq
    · simp [hmove] at heq
    · rw [hmove] at heq
      obtain rfl := Move.into.inj heq
      exact hsegs segment hsegment

theorem segment_of_mem_wayTo {rooted : Bool} {segs : List Bytes}
    (hsegs : ∀ s ∈ segs, Segment slash s) :
    ∀ s ∈ wayTo (Place.start.walk rooted (segs.map moveOf)), Segment slash s := by
  intro s hs
  rcases List.mem_append.mp hs with hup | hname
  · rw [List.eq_of_mem_replicate hup]
    exact segment_dots.1
  · exact segment_of_mem_names (by simp [Place.start]) hsegs s hname

section Building

variable {u : URI} {leading trailing : Bool} {segs : List Bytes}

/-- What stands before the first segment. -/
def opening (u : URI) (leading : Bool) (first : Bytes) : Bytes :=
  if leading then [slash] else if u.scheme = [] ∧ byte ':' ∈ first then bytes "./" else []

theorem path_buildPath_nil : (u.buildPath [] leading trailing).path = tail slash trailing := rfl

theorem path_buildPath_cons (first : Bytes) (rest : List Bytes) :
    (u.buildPath (first :: rest) leading trailing).path =
      opening u leading first ++ relativePath slash first rest trailing := by
  simp [URI.buildPath, opening, relativePath, absolutePath, tail]

theorem startsWithSlash_append {s path : Bytes} (hs : Segment slash s) :
    startsWithSlash (s ++ path) = false := by
  obtain ⟨c, text, rfl⟩ := List.exists_cons_of_ne_nil hs.ne_nil
  have hc : c ≠ slash := fun heq => hs.sep (by simp [heq])
  simpa [startsWithSlash] using hc

theorem startsWithSlash_buildPath (hsegs : ∀ s ∈ segs, Segment slash s) (hne : segs ≠ []) :
    startsWithSlash (u.buildPath segs leading trailing).path = leading := by
  obtain ⟨first, rest, rfl⟩ := List.exists_cons_of_ne_nil hne
  rw [path_buildPath_cons, opening]
  cases leading with
  | true => rfl
  | false =>
      rw [if_neg (by simp)]
      split
      · rfl
      · rw [List.nil_append, relativePath]
        exact startsWithSlash_append (hsegs first List.mem_cons_self)

theorem not_endsWithSlash_append {path s : Bytes} (hs : Segment slash s) :
    endsWithSlash (path ++ s) = false := by
  rw [endsWithSlash, List.getLast?_append_of_ne_nil path hs.ne_nil]
  apply decide_eq_false
  intro hlast
  exact hs.sep (List.mem_of_getLast? hlast)

theorem endsWithSlash_append {path first : Bytes} {rest : List Bytes}
    (hsegs : ∀ s ∈ first :: rest, Segment slash s) :
    endsWithSlash (path ++ relativePath slash first rest trailing) = trailing := by
  rw [relativePath]
  cases trailing with
  | true => simp [absolutePath, tail, endsWithSlash]
  | false =>
      rcases List.eq_nil_or_concat rest with rfl | ⟨rest, last, rfl⟩
      · rw [absolutePath_nil, tail, if_neg (by simp), List.append_nil]
        exact not_endsWithSlash_append (hsegs first List.mem_cons_self)
      · have hlast : Segment slash last := hsegs last (by simp)
        have hends : ∀ path : Bytes, path ++ slash :: last = path ++ [slash] ++ last := by simp
        rw [List.concat_eq_append, absolutePath_concat, ← List.append_assoc,
          ← List.append_assoc, hends]
        exact not_endsWithSlash_append hlast

theorem endsWithSlash_buildPath (hsegs : ∀ s ∈ segs, Segment slash s) (hne : segs ≠ []) :
    endsWithSlash (u.buildPath segs leading trailing).path = trailing := by
  obtain ⟨first, rest, rfl⟩ := List.exists_cons_of_ne_nil hne
  rw [path_buildPath_cons]
  exact endsWithSlash_append hsegs

theorem segments_relativePath {first : Bytes} {rest : List Bytes}
    (hsegs : ∀ s ∈ first :: rest, Segment slash s) :
    segments slash (relativePath slash first rest trailing) = first :: rest := by
  rw [List.forall_mem_cons] at hsegs
  rw [relativePath, segments_append_absolutePath, hsegs.1.segments_eq,
    segments_absolutePath hsegs.2, List.singleton_append]

/-- The `./` that protects a colon is a segment of its own. -/
theorem segments_buildPath (hsegs : ∀ s ∈ segs, Segment slash s) :
    segments slash (u.buildPath segs leading trailing).path =
      (if leading = false ∧ u.scheme = [] ∧ ∃ first ∈ segs.head?, byte ':' ∈ first then [bytes "."]
        else []) ++ segs := by
  cases segs with
  | nil => simp [path_buildPath_nil]
  | cons first rest =>
      have hnames := @segments_relativePath trailing first rest hsegs
      rw [path_buildPath_cons, opening]
      cases leading with
      | true =>
          rw [if_pos rfl, List.singleton_append, segments_cons, hnames]
          simp
      | false =>
          have hdot : bytes "./" = bytes "." ++ [slash] := by decide
          simp only [Bool.false_eq_true, if_false, true_and, List.head?_cons, Option.mem_def,
            Option.some.injEq, exists_eq_left']
          split
          · rw [hdot, List.append_assoc, List.singleton_append, segments_append_cons, hnames,
              segment_dots.2.segments_eq]
          · exact hnames

end Building

end TwitchChatWorker.UriPaths
