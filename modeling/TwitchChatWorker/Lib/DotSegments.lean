import Mathlib.Data.List.DropRight
import TwitchChatWorker.Lib.RelativePaths
import TwitchChatWorker.Lib.Scanning

/-!
The resolution of relative paths of RFC 3986, sections 5.2.3 and 5.2.4, as it is
written there, over any characters for the separator and the dot.  On an absolute
path it follows the walk below the root.
-/

namespace TwitchChatWorker.Lib.DotSegments

open TwitchChatWorker.Lib.RelativePaths
open TwitchChatWorker.Lib.Scanning

variable {α : Type*} [DecidableEq α] (sep dot : α)

/-- Without the last segment and the separator before it. -/
def removeLast (output : List α) : List α := (output.rdropWhile (· ≠ sep)).dropLast

/-- The loop of the algorithm over its input and output buffers; every round
shortens the input. -/
def removeDotsLoop : Nat → List α → List α → List α
  | 0, _, output => output
  | fuel + 1, input, output =>
      if input = [] then output
      else if [dot, dot, sep] <+: input then removeDotsLoop fuel (input.drop 3) output
      else if [dot, sep] <+: input then removeDotsLoop fuel (input.drop 2) output
      else if [sep, dot, sep] <+: input then removeDotsLoop fuel (input.drop 2) output
      else if input = [sep, dot] then removeDotsLoop fuel [sep] output
      else if [sep, dot, dot, sep] <+: input then
        removeDotsLoop fuel (input.drop 3) (removeLast sep output)
      else if input = [sep, dot, dot] then removeDotsLoop fuel [sep] (removeLast sep output)
      else if input = [dot] ∨ input = [dot, dot] then removeDotsLoop fuel [] output
      else
        removeDotsLoop fuel (input.tail.dropWhile (· ≠ sep))
          (output ++ input.take 1 ++ input.tail.takeWhile (· ≠ sep))

def removeDotSegments (path : List α) : List α := removeDotsLoop sep dot path.length path []

/-- The reference behind the last separator of the base path. -/
def merge (hasAuthority : Bool) (base reference : List α) : List α :=
  if hasAuthority ∧ base = [] then sep :: reference
  else base.rdropWhile (· ≠ sep) ++ reference

variable {sep dot}

theorem rdropWhile_append {path s : List α} (hs : sep ∉ s) :
    (path ++ sep :: s).rdropWhile (· ≠ sep) = path ++ [sep] := by
  have hreverse : (path ++ sep :: s).reverse = s.reverse ++ sep :: path.reverse := by simp
  have hscan := scanned_of_not_mem (mt List.mem_reverse.mp hs)
  rw [List.rdropWhile, hreverse, dropWhile_append_of_stops hscan (stops_delimiter _ _)]
  simp

/-- The output buffer without its last segment is the place one level up. -/
theorem removeLast_absolutePath {names : List (List α)} (hnames : ∀ s ∈ names, sep ∉ s) :
    removeLast sep (absolutePath sep names false) = absolutePath sep names.dropLast false := by
  rcases List.eq_nil_or_concat names with rfl | ⟨names, s, rfl⟩
  · rfl
  · rw [List.concat_eq_append] at hnames ⊢
    rw [List.dropLast_concat, absolutePath_concat, removeLast,
      rdropWhile_append (hnames s (by simp)), List.dropLast_concat]

theorem removeDotsLoop_nil (fuel : Nat) (output : List α) :
    removeDotsLoop sep dot fuel [] output = output := by
  cases fuel <;> simp [removeDotsLoop]

theorem removeDotsLoop_sep (hdot : dot ≠ sep) {fuel : Nat} (hfuel : 0 < fuel) (output : List α) :
    removeDotsLoop sep dot fuel [sep] output = output ++ [sep] := by
  obtain ⟨fuel, rfl⟩ := Nat.exists_eq_succ_of_ne_zero (Nat.ne_of_gt hfuel)
  simp [removeDotsLoop, List.cons_prefix_cons, hdot, Ne.symm hdot, removeDotsLoop_nil]

theorem stops_absolutePath (names : List (List α)) (trailing : Bool) :
    Stops (fun c => decide (c ≠ sep)) (absolutePath sep names trailing) := by
  rcases absolutePath_cases sep names trailing with hnil | ⟨path, hpath, -⟩
  · rw [hnil]
    exact stops_nil
  · rw [hpath]
    exact stops_delimiter _ _

theorem eq_of_isPrefix {s text path : List α} (hs : sep ∉ s) (htext : sep ∉ text)
    (hstops : Stops (fun c => decide (c ≠ sep)) path)
    (h : text ++ [sep] <+: s ++ path ∨ s ++ path = text) : s = text := by
  have hfirst := takeWhile_append_of_stops (scanned_of_not_mem hs) hstops
  rcases h with ⟨rest, hrest⟩ | heq
  · rw [← hrest, List.append_assoc, List.singleton_append,
      takeWhile_append_of_stops (scanned_of_not_mem htext) (stops_delimiter _ _)] at hfirst
    exact hfirst.symm
  · rw [heq, List.takeWhile_eq_self_iff.mpr (scanned_of_not_mem htext)] at hfirst
    exact hfirst.symm

theorem removeDotsLoop_segment (hdot : dot ≠ sep) {s path output : List α} (fuel : Nat)
    (hs : Segment sep s) (hup : s ≠ [dot, dot]) (hhere : s ≠ [dot])
    (hstops : Stops (fun c => decide (c ≠ sep)) path) :
    removeDotsLoop sep dot (fuel + 1) (sep :: s ++ path) output =
      removeDotsLoop sep dot fuel path (output ++ sep :: s) := by
  have hscan := scanned_of_not_mem hs.sep
  have hone : ¬([dot] ++ [sep] <+: s ++ path ∨ s ++ path = [dot]) := fun h =>
    hhere (eq_of_isPrefix hs.sep (by simp [Ne.symm hdot]) hstops h)
  have htwo : ¬([dot, dot] ++ [sep] <+: s ++ path ∨ s ++ path = [dot, dot]) := fun h =>
    hup (eq_of_isPrefix hs.sep (by simp [Ne.symm hdot]) hstops h)
  simp only [List.cons_append, List.nil_append, not_or] at hone htwo
  have htake := takeWhile_append_of_stops hscan hstops
  have hdrop := dropWhile_append_of_stops hscan hstops
  simp only [ne_eq, decide_not] at htake hdrop
  simp [removeDotsLoop, List.cons_prefix_cons, hdot, Ne.symm hdot, hone.1, hone.2, htwo.1, htwo.2,
    htake, hdrop]

/-- A round at `.` or `..`: the output is kept or loses its last segment, and the
separator stays in the input. -/
theorem removeDotsLoop_dots (hdot : dot ≠ sep) {s output : List α} (segs : List (List α))
    (trailing : Bool) (fuel : Nat) (hs : Move.isDots [dot, dot] [dot] s = true) :
    removeDotsLoop sep dot (fuel + 1) (sep :: s ++ absolutePath sep segs trailing) output =
      removeDotsLoop sep dot fuel (absolutePath sep segs (trailing || segs.isEmpty))
        (if s = [dot] then output else removeLast sep output) := by
  have hgoes : absolutePath sep segs trailing = [] ∧
        absolutePath sep segs (trailing || segs.isEmpty) = [sep] ∨
      ∃ path, absolutePath sep segs trailing = sep :: path ∧
        absolutePath sep segs (trailing || segs.isEmpty) = sep :: path := by
    cases segs with
    | nil =>
        cases trailing with
        | false => exact .inl ⟨rfl, rfl⟩
        | true => exact .inr ⟨[], rfl, rfl⟩
    | cons s segs =>
        rw [List.isEmpty_cons, Bool.or_false, absolutePath_cons, List.cons_append]
        exact .inr ⟨_, rfl, rfl⟩
  have hcases : s = [dot, dot] ∨ s = [dot] := by simpa [Move.isDots] using hs
  rcases hgoes with ⟨hpath, hrest⟩ | ⟨path, hpath, hrest⟩
  · rw [hpath, hrest]
    rcases hcases with rfl | rfl
    · simp [removeDotsLoop, List.cons_prefix_cons, hdot, Ne.symm hdot]
    · simp [removeDotsLoop, List.cons_prefix_cons, hdot]
  · rw [hpath, hrest]
    rcases hcases with rfl | rfl
    · simp [removeDotsLoop, List.cons_prefix_cons, hdot, Ne.symm hdot]
    · simp [removeDotsLoop, List.cons_prefix_cons, hdot]

/-- The loop walks below the root; a path that ends with a dot segment ends with a
separator. -/
theorem removeDotsLoop_absolutePath (hdot : dot ≠ sep) {segs names : List (List α)}
    (hsegs : ∀ s ∈ segs, Segment sep s) (hnames : ∀ s ∈ names, sep ∉ s) (trailing : Bool)
    {fuel : Nat} (hfuel : (absolutePath sep segs trailing).length ≤ fuel) :
    removeDotsLoop sep dot fuel (absolutePath sep segs trailing) (absolutePath sep names false) =
      absolutePath sep
        (Place.walk true ⟨0, names⟩ (segs.map (Move.ofSegment [dot, dot] [dot]))).names
        (trailing || (segs.getLast?.map (Move.isDots [dot, dot] [dot])).getD false) := by
  induction segs generalizing names trailing fuel with
  | nil =>
      cases trailing with
      | false => exact removeDotsLoop_nil fuel _
      | true =>
          have hpos : 0 < fuel := hfuel
          rw [absolutePath_nil, tail, if_pos rfl, removeDotsLoop_sep hdot hpos]
          simp [absolutePath, tail]
  | cons s segs ih =>
      rw [List.forall_mem_cons] at hsegs
      obtain ⟨hs, hsegs⟩ := hsegs
      have hpos : 0 < s.length := List.length_pos_iff.mpr hs.ne_nil
      have hlonger : (absolutePath sep segs (trailing || segs.isEmpty)).length ≤
          (absolutePath sep segs trailing).length + 1 := by
        simp only [absolutePath, List.length_append, tail]
        cases trailing <;> cases segs.isEmpty <;> simp
      rw [absolutePath_cons, List.length_append, List.length_cons] at hfuel
      obtain ⟨fuel, rfl⟩ := Nat.exists_eq_succ_of_ne_zero (show fuel ≠ 0 by omega)
      rw [absolutePath_cons, List.map_cons, Place.walk_cons, List.getLast?_cons, Option.map_some,
        Option.getD_some]
      have hlast : ∀ hdots : Move.isDots [dot, dot] [dot] s = true,
          (trailing || segs.isEmpty ||
              (segs.getLast?.map (Move.isDots [dot, dot] [dot])).getD false) =
            (trailing || Move.isDots [dot, dot] [dot] (segs.getLast?.getD s)) := by
        intro hdots
        cases segs with
        | nil => simp [hdots]
        | cons t segs => simp [List.getLast?_cons]
      rcases Move.ofSegment_cases [dot, dot] [dot] s with
        ⟨rfl, hmove⟩ | ⟨rfl, hmove⟩ | ⟨hup, hhere, hmove⟩
      · have hdots : Move.isDots [dot, dot] [dot] [dot, dot] = true := by simp [Move.isDots]
        have hparent : ∀ t ∈ names.dropLast, sep ∉ t := fun t ht =>
          hnames t ((List.dropLast_sublist _).subset ht)
        rw [hmove, removeDotsLoop_dots hdot segs trailing fuel hdots, if_neg (by simp),
          removeLast_absolutePath hnames, ih hsegs hparent _ (by omega), hlast hdots,
          Place.move_up]
      · have hdots : Move.isDots [dot, dot] [dot] [dot] = true := by simp [Move.isDots]
        rw [hmove, removeDotsLoop_dots hdot segs trailing fuel hdots, if_pos rfl,
          ih hsegs hnames _ (by omega), hlast hdots]
        rfl
      · have hchild : ∀ t ∈ names ++ [s], sep ∉ t := by
          intro t ht
          rcases List.mem_append.mp ht with hold | hnew
          · exact hnames t hold
          · exact List.mem_singleton.mp hnew ▸ hs.sep
        have hname : Move.isDots [dot, dot] [dot] s = false := by simp [Move.isDots, hup, hhere]
        rw [hmove, removeDotsLoop_segment hdot fuel hs hup hhere (stops_absolutePath segs trailing),
          ← absolutePath_concat, ih hsegs hchild _ (by omega)]
        cases segs with
        | nil => simp [hname, Place.move]
        | cons t segs => simp [List.getLast?_cons, Place.move]

theorem removeDotSegments_absolutePath (hdot : dot ≠ sep) {segs : List (List α)}
    (hsegs : ∀ s ∈ segs, Segment sep s) (trailing : Bool) :
    removeDotSegments sep dot (absolutePath sep segs trailing) =
      absolutePath sep
        (Place.walk true Place.start (segs.map (Move.ofSegment [dot, dot] [dot]))).names
        (trailing || (segs.getLast?.map (Move.isDots [dot, dot] [dot])).getD false) :=
  @removeDotsLoop_absolutePath _ _ _ _ hdot segs [] hsegs (by simp) trailing _ (Nat.le_refl _)

example : removeDotSegments '/' '.' "/a/b/c/./../../g".toList = "/a/g".toList := by decide

/-- The base path keeps all segments, or all but the last without a separator
behind it. -/
theorem merge_absolutePath (hasAuthority : Bool) {names : List (List α)} (first : List α)
    (rest : List (List α)) {trailing : Bool} (hnames : ∀ s ∈ names, sep ∉ s)
    (hbase : absolutePath sep names trailing ≠ []) (trailing' : Bool) :
    merge sep hasAuthority (absolutePath sep names trailing)
        (relativePath sep first rest trailing') =
      absolutePath sep ((if trailing then names else names.dropLast) ++ first :: rest)
        trailing' := by
  have hfolder : (absolutePath sep names trailing).rdropWhile (· ≠ sep) =
      absolutePath sep (if trailing then names else names.dropLast) false ++ [sep] := by
    cases trailing with
    | true =>
        have hends : absolutePath sep names true = absolutePath sep names false ++ sep :: [] := by
          simp [absolutePath, tail]
        rw [hends, rdropWhile_append (by simp), if_pos rfl]
    | false =>
        rcases List.eq_nil_or_concat names with rfl | ⟨names, s, rfl⟩
        · exact absurd rfl hbase
        · rw [List.concat_eq_append] at hnames ⊢
          rw [absolutePath_concat, rdropWhile_append (hnames s (by simp)), if_neg (by simp),
            List.dropLast_concat]
  rw [merge, if_neg (fun h => hbase h.2), hfolder]
  simp [absolutePath, relativePath, tail]

end TwitchChatWorker.Lib.DotSegments
