import TwitchChatWorker.UriPaths

/-!
What `normalize` makes of a path.  The slashes are put back from flags of the old
path, so a path whose segments cancel out keeps at most the one at its end.
-/

namespace TwitchChatWorker.PathNormalization

open TwitchChatWorker.Lib.RelativePaths
open TwitchChatWorker.Uri
open TwitchChatWorker.UriPaths

/-- The only dot segment is the `./` before a colon in the first segment of a
path without a scheme. -/
def OnlyProtectiveDot (v : URI) : Prop :=
  bytes "." ∉ segments slash v.path ∨
    v.scheme = [] ∧ bytes "./" <+: v.path ∧ ∃ first rest,
      segments slash v.path = bytes "." :: first :: rest ∧ byte ':' ∈ first ∧
        bytes "." ∉ first :: rest

/-- A path that normalization leaves as it is, without dot segments where none
may be. -/
structure Reduced (v : URI) : Prop where
  again : v.normalize = v
  here : OnlyProtectiveDot v
  up_scheme : v.scheme ≠ [] → bytes ".." ∉ segments slash v.path
  up_leading : ∃ k rest, segments slash v.path = List.replicate k (bytes "..") ++ rest ∧
    bytes ".." ∉ rest

def KeepsStart (u v : URI) : Prop := startsWithSlash v.path = startsWithSlash u.path

/-- Normalization reduces the path and keeps its leading slash. -/
structure Normalizes (u : URI) : Prop where
  reduced : Reduced u.normalize
  slash : u.path ≠ [] → KeepsStart u u.normalize

/-- `Normalizes` without a demand on a path that becomes empty. -/
structure NormalizesNonempty (u : URI) : Prop where
  reduced : Reduced u.normalize
  slash : u.normalize.path ≠ [] → KeepsStart u u.normalize

/-- The place that the path leads to; a URI with a scheme has a root. -/
def leadsTo (u : URI) : Place Bytes :=
  Place.start.walk (!u.isRelative) ((segments UriPaths.slash u.path).map moveOf)

/-- The `..` segments cancel all others. -/
def ReturnsToStart (u : URI) : Prop := leadsTo u = Place.start

variable {u : URI}

theorem named_start : Named Place.start := by simp [Named, Place.start]

theorem leadsTo_spec (u : URI) :
    (getPathSegments u.path).foldl (removeDotStep (!u.isRelative)) [] = wayTo (leadsTo u) ∧
      Named (leadsTo u) ∧ ((!u.isRelative) = true → (leadsTo u).ups = 0) := by
  have hway := @foldl_removeDotStep _ named_start (!u.isRelative) (fun _ => rfl)
    (segments UriPaths.slash u.path)
  rw [← getPathSegments_eq] at hway
  refine ⟨?_, ?_, fun hroot => ?_⟩
  · rw [leadsTo, ← getPathSegments_eq]
    exact hway.1
  · rw [leadsTo, ← getPathSegments_eq]
    exact hway.2
  · rw [leadsTo, hroot]
    exact Place.ups_walk

theorem normalize_eq (u : URI) :
    u.normalize = u.buildPath (wayTo (leadsTo u)) (startsWithSlash u.path)
      (endsWithSlash u.path) := by
  rw [URI.normalize, URI.removeDotSegments]
  split
  next hnil =>
    obtain ⟨scheme, userInfo, host, port, path, query, fragment⟩ := u
    obtain rfl : path = [] := hnil
    rfl
  next => rw [(leadsTo_spec u).1]

theorem segment_of_mem_leadsTo (u : URI) : ∀ s ∈ wayTo (leadsTo u), Segment UriPaths.slash s :=
  segment_of_mem_wayTo fun _ hs => segment_of_mem hs

/-- Whether the colon of the first segment is protected. -/
def Protected (u : URI) : Prop :=
  startsWithSlash u.path = false ∧ u.scheme = [] ∧
    ∃ first ∈ (wayTo (leadsTo u)).head?, byte ':' ∈ first

instance (u : URI) : Decidable (Protected u) := inferInstanceAs (Decidable (_ ∧ _ ∧ _))

theorem segments_normalize (u : URI) :
    segments UriPaths.slash u.normalize.path =
      (if Protected u then [bytes "."] else []) ++ wayTo (leadsTo u) := by
  rw [normalize_eq]
  exact segments_buildPath (segment_of_mem_leadsTo u)

/-- The normalized path leads to the same place. -/
theorem leadsTo_normalize (u : URI) : leadsTo u.normalize = leadsTo u := by
  obtain ⟨-, hnamed, hroot⟩ := leadsTo_spec u
  have hrelative : u.normalize.isRelative = u.isRelative := by rw [normalize_eq]; rfl
  have hmoves := map_moveOf_wayTo hnamed
  rw [leadsTo, hrelative, segments_normalize]
  split
  · rw [List.map_append, hmoves]
    exact Place.walk_moves hroot
  · rw [List.nil_append, hmoves]
    exact Place.walk_moves hroot

theorem normalize_again (u : URI) : u.normalize.normalize = u.normalize := by
  have hsegs := segment_of_mem_leadsTo u
  rw [normalize_eq u.normalize, leadsTo_normalize, normalize_eq u]
  by_cases hne : wayTo (leadsTo u) = []
  · rw [hne]
    cases endsWithSlash u.path <;> rfl
  · rw [startsWithSlash_buildPath hsegs hne, endsWithSlash_buildPath hsegs hne]
    rfl

theorem not_mem_names {p : Place Bytes} (h : Named p) :
    bytes ".." ∉ p.names ∧ bytes "." ∉ p.names :=
  ⟨fun hmem => (h _ hmem).1 rfl, fun hmem => (h _ hmem).2 rfl⟩

theorem not_mem_wayTo {p : Place Bytes} (h : Named p) : bytes "." ∉ wayTo p := by
  intro hmem
  rcases List.mem_append.mp hmem with hup | hname
  · exact absurd (List.eq_of_mem_replicate hup) (by decide)
  · exact (not_mem_names h).2 hname

theorem reduced_normalize (u : URI) : Reduced u.normalize := by
  obtain ⟨-, hnamed, hroot⟩ := leadsTo_spec u
  have hscheme : u.normalize.scheme = u.scheme := by rw [normalize_eq]; rfl
  have hsegments := segments_normalize u
  refine ⟨normalize_again u, ?_, fun hne => ?_, ?_⟩
  · split at hsegments
    next hprotected =>
      obtain ⟨hstart, hnone, first, hfirst, hcolon⟩ := hprotected
      obtain ⟨rest, hway⟩ := List.head?_eq_some_iff.mp hfirst
      refine .inr ⟨hscheme.trans hnone, ?_, first, rest, ?_, hcolon, ?_⟩
      · rw [normalize_eq, hway, path_buildPath_cons, opening, hstart, if_neg (by simp),
          if_pos ⟨hnone, hcolon⟩]
        exact List.prefix_append _ _
      · rw [hsegments, hway]
        rfl
      · rw [← hway]
        exact not_mem_wayTo hnamed
    next =>
      refine .inl ?_
      rw [hsegments]
      exact not_mem_wayTo hnamed
  · rw [hscheme] at hne
    have hups : (leadsTo u).ups = 0 := hroot (by simp [URI.isRelative, hne])
    have hclear : ¬Protected u := fun hprotected => hne hprotected.2.1
    rw [hsegments, if_neg hclear, wayTo, hups]
    exact (not_mem_names hnamed).1
  · split at hsegments
    next hprotected =>
      obtain ⟨-, -, first, hfirst, hcolon⟩ := hprotected
      have hups : (leadsTo u).ups = 0 := by
        by_contra hpos
        obtain ⟨k, hk⟩ := Nat.exists_eq_succ_of_ne_zero hpos
        rw [wayTo, hk, List.replicate_succ] at hfirst
        obtain rfl := Option.some.inj hfirst
        exact absurd hcolon (by decide)
      refine ⟨0, bytes "." :: (leadsTo u).names, ?_, ?_⟩
      · rw [hsegments, wayTo, hups]
        rfl
      · simp only [List.mem_cons, not_or]
        exact ⟨by decide, (not_mem_names hnamed).1⟩
    next => exact ⟨_, _, hsegments, (not_mem_names hnamed).1⟩

theorem wayTo_eq_nil_iff {p : Place Bytes} : wayTo p = [] ↔ p = Place.start := by
  obtain ⟨ups, names⟩ := p
  simp [wayTo, Place.start]

theorem keepsStart_iff (u : URI) :
    KeepsStart u u.normalize ↔
      ¬ReturnsToStart u ∨ startsWithSlash u.path = endsWithSlash u.path := by
  rw [KeepsStart, normalize_eq]
  by_cases hreturns : ReturnsToStart u
  · rw [wayTo_eq_nil_iff.mpr hreturns, path_buildPath_nil]
    cases endsWithSlash u.path <;> cases startsWithSlash u.path <;>
      simp [hreturns, tail, startsWithSlash]
  · have hne : wayTo (leadsTo u) ≠ [] := fun hnil => hreturns (wayTo_eq_nil_iff.mp hnil)
    rw [startsWithSlash_buildPath (segment_of_mem_leadsTo u) hne]
    simp [hreturns]

theorem path_normalize_of_returns (h : ReturnsToStart u) :
    u.normalize.path = tail UriPaths.slash (endsWithSlash u.path) := by
  rw [normalize_eq, wayTo_eq_nil_iff.mpr h, path_buildPath_nil]

/-- The path is normalized soundly exactly when its segments do not all cancel
out, or it has a slash at both ends or at none; where it may become empty, a
slash at its end alone does harm. -/
theorem normalizes_iff (u : URI) :
    (Normalizes u ↔
      ¬ReturnsToStart u ∨ startsWithSlash u.path = endsWithSlash u.path) ∧
    (NormalizesNonempty u ↔
      ¬ReturnsToStart u ∨ (endsWithSlash u.path = true → startsWithSlash u.path = true)) := by
  have hkeeps := keepsStart_iff u
  constructor
  · constructor
    · rintro ⟨-, hslash⟩
      by_cases hnil : u.path = []
      · right
        rw [hnil]
        rfl
      · exact hkeeps.mp (hslash hnil)
    · intro hcond
      exact ⟨reduced_normalize u, fun _ => hkeeps.mpr hcond⟩
  · constructor
    · rintro ⟨-, hslash⟩
      by_cases hreturns : ReturnsToStart u
      · right
        intro hends
        have hpath := path_normalize_of_returns hreturns
        rw [hends] at hpath
        have hsame := hkeeps.mp (hslash (by rw [hpath]; simp [tail]))
        rw [hsame.resolve_left (not_not.mpr hreturns), hends]
      · exact .inl hreturns
    · intro hcond
      refine ⟨reduced_normalize u, fun hne => hkeeps.mpr ?_⟩
      rcases hcond with haway | hends
      · exact .inl haway
      · by_cases hreturns : ReturnsToStart u
        · right
          have hpath := path_normalize_of_returns hreturns
          cases htrailing : endsWithSlash u.path with
          | true => exact hends htrailing
          | false =>
              rw [htrailing] at hpath
              exact absurd hpath hne
        · exact .inl hreturns

/-- `a/../` becomes `/`. -/
theorem not_normalizes_cancelled :
    ¬(∀ u, Normalizes u) ∧ ¬∀ u, NormalizesNonempty u := by
  constructor
  · intro hall
    have hslash := (hall { path := bytes "a/../" }).slash (by decide)
    exact absurd hslash (by unfold KeepsStart; decide)
  · intro hall
    have hslash := (hall { path := bytes "a/../" }).slash (by decide)
    exact absurd hslash (by unfold KeepsStart; decide)

end TwitchChatWorker.PathNormalization
