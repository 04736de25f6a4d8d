import TwitchChatWorker.Lib.DotSegments
import TwitchChatWorker.UriParsing
import TwitchChatWorker.UriPaths

/-!
`resolve` on a reference that is a relative path, against the algorithm that its
documentation names.
-/

namespace TwitchChatWorker.RelativeResolution

open TwitchChatWorker.Lib.RelativePaths
open TwitchChatWorker.Uri
open TwitchChatWorker.UriParsing
open TwitchChatWorker.UriPaths

/-- A URI with a host and a path of names, `/` at the least. -/
structure Base where
  uri : URI
  names : List Bytes
  trailing : Bool
  scheme_ne_nil : uri.scheme ≠ []
  host_ne_nil : uri.host ≠ []
  segments : ∀ s ∈ names, Segment slash s
  named : ∀ s ∈ names, s ≠ bytes ".." ∧ s ≠ bytes "."
  path_eq : uri.path = absolutePath slash names trailing
  path_ne_nil : uri.path ≠ []

/-- The text of a relative path and the segments it stands for. -/
structure Reference where
  text : Bytes
  first : Bytes
  rest : List Bytes
  trailing : Bool
  chars : ∀ c ∈ text, URI.endsPath c = false
  colon : byte ':' ∉ text.takeWhile (· ≠ slash)
  segments : ∀ s ∈ first :: rest, Segment slash s
  decoded : Decoded text (relativePath slash first rest trailing)

def Reference.path (ref : Reference) : Bytes :=
  relativePath slash ref.first ref.rest ref.trailing

/-- The path of RFC 3986, section 5.2. -/
def targetPath (base : Base) (ref : Reference) : Bytes :=
  Lib.DotSegments.removeDotSegments slash (byte '.')
    (Lib.DotSegments.merge slash (base.uri.host ≠ []) base.uri.path ref.path)

/-- The path of section 5.2 of RFC 3986, with the scheme and the authority of
the base. -/
structure ResolvedTo (base : Base) (ref : Reference) (v : URI) : Prop where
  path : v.path = targetPath base ref
  scheme : v.scheme = base.uri.scheme
  userInfo : v.userInfo = base.uri.userInfo
  host : v.host = base.uri.host
  port : v.port = base.uri.port

/-- The reference climbs out of all segments of the base path, or of all but the
last if neither path ends with a slash. -/
def ClimbsOut (base : Base) (ref : Reference) : Prop :=
  (Place.walk true ⟨0, if base.trailing || ref.trailing then base.names
    else base.names.dropLast⟩ ((ref.first :: ref.rest).map moveOf)).names = []

instance (base : Base) (ref : Reference) : Decidable (ClimbsOut base ref) :=
  inferInstanceAs (Decidable (_ = _))

theorem path_ne_nil (ref : Reference) : ref.path ≠ [] := by
  have hfirst := (ref.segments ref.first List.mem_cons_self).ne_nil
  simp [Reference.path, relativePath, hfirst]

theorem startsWithSlash_path (ref : Reference) : startsWithSlash ref.path = false :=
  startsWithSlash_append (ref.segments ref.first List.mem_cons_self)

theorem uriOf_reference (ref : Reference) : uriOf ref.text = .ok { path := ref.path } := by
  have hpath : ({} : URI).parsePathEtc ref.text = .ok { path := ref.path } := by
    have hparsed := @parsePathEtc_texts {} none none _ _ _ ref.chars ref.decoded.decode_eq
      (by simp) rfl
    simpa [queryText, fragmentText, Reference.path] using hparsed
  have hscheme : ∀ d it, ref.text.dropWhile (!URI.endsScheme ·) = d :: it → d ≠ byte ':' := by
    rintro d it hdrop rfl
    have hsplit := List.takeWhile_append_dropWhile (p := fun c => !URI.endsScheme c) (l := ref.text)
    rw [hdrop] at hsplit
    apply ref.colon
    rw [← hsplit, List.takeWhile_append_of_pos]
    · rw [List.takeWhile_cons_of_pos (by decide)]
      simp
    · intro c hc
      have hname : URI.endsScheme c = false := by simpa using List.mem_takeWhile_imp hc
      apply decide_eq_true
      rintro rfl
      exact absurd hname (by decide)
  rw [uriOf]
  cases htext : ref.text with
  | nil =>
      rw [htext] at hpath
      exact hpath
  | cons c text =>
      rw [htext] at hpath hscheme
      rw [URI.parse]
      split
      · exact hpath
      · split
        next d it hdrop => rw [if_neg (hscheme d it hdrop), hpath]
        next => exact hpath

theorem walk_append_names {names : List Bytes}
    (hnamed : ∀ s ∈ names, s ≠ bytes ".." ∧ s ≠ bytes ".")
    (segs : List Bytes) :
    Place.walk true ⟨0, []⟩ ((names ++ segs).map moveOf) =
      Place.walk true ⟨0, names⟩ (segs.map moveOf) := by
  have hnames : names.map moveOf = names.map .into := by
    apply List.map_congr_left
    intro s hs
    rcases moveOf_cases s with ⟨hup, -⟩ | ⟨hhere, -⟩ | ⟨-, -, hmove⟩
    · exact absurd hup (hnamed s hs).1
    · exact absurd hhere (hnamed s hs).2
    · exact hmove
  rw [List.map_append, Place.walk_append, hnames, Place.walk_into, List.nil_append]

variable {base : Base} {ref : Reference}

theorem getLast?_append_cons (names : List Bytes) (ref : Reference) (trailing : Bool) :
    ((names ++ ref.first :: ref.rest).getLast?.map isDots).getD trailing =
      isDots (ref.rest.getLast?.getD ref.first) := by
  rw [List.getLast?_append_of_ne_nil _ (by simp), List.getLast?_cons, Option.map_some,
    Option.getD_some]

theorem named_of_subset {names : List Bytes} (hsub : names ⊆ base.names) :
    ∀ s ∈ names, s ≠ bytes ".." ∧ s ≠ bytes "." :=
  fun s hs => base.named s (hsub hs)

theorem kept_subset (base : Base) (keepsAll : Bool) :
    (if keepsAll then base.names else base.names.dropLast) ⊆ base.names := by
  cases keepsAll with
  | true => exact List.Subset.refl _
  | false => exact (List.dropLast_sublist _).subset

theorem targetPath_eq (base : Base) (ref : Reference) :
    targetPath base ref = absolutePath slash
      (Place.walk true ⟨0, if base.trailing then base.names else base.names.dropLast⟩
        ((ref.first :: ref.rest).map moveOf)).names
      (ref.trailing || isDots (ref.rest.getLast?.getD ref.first)) := by
  have hsub := kept_subset base base.trailing
  have hsegs : ∀ s ∈ (if base.trailing then base.names else base.names.dropLast) ++
      ref.first :: ref.rest, Segment slash s := by
    intro s hs
    rcases List.mem_append.mp hs with hname | hsegment
    · exact base.segments s (hsub hname)
    · exact ref.segments s hsegment
  have hne := base.path_ne_nil
  rw [base.path_eq] at hne
  rw [targetPath, Reference.path, base.path_eq,
    Lib.DotSegments.merge_absolutePath _ _ _ (fun s hs => (base.segments s hs).sep) hne,
    Lib.DotSegments.removeDotSegments_absolutePath (by decide) hsegs]
  have hwalk := walk_append_names (named_of_subset hsub) (ref.first :: ref.rest)
  have hlast := getLast?_append_cons (if base.trailing then base.names else base.names.dropLast)
    ref false
  exact congrArg₂ (fun place => absolutePath slash place.names) hwalk
    (congrArg (ref.trailing || ·) hlast)

theorem mergePath_eq (base : Base) (ref : Reference) :
    base.uri.mergePath ref.path =
      base.uri.buildPath
        (Place.walk true ⟨0, if ref.trailing then base.names else base.names.dropLast⟩
          ((ref.first :: ref.rest).map moveOf)).names
        false (ref.trailing || isDots (ref.rest.getLast?.getD ref.first)) := by
  have hne := path_ne_nil ref
  have hends : endsWithSlash ref.path = ref.trailing :=
    @endsWithSlash_append ref.trailing [] ref.first ref.rest ref.segments
  have hbase : getPathSegments base.uri.path = base.names := by
    rw [getPathSegments_eq, base.path_eq, segments_absolutePath base.segments]
  have href : getPathSegments ref.path = ref.first :: ref.rest := by
    rw [getPathSegments_eq, Reference.path, segments_relativePath ref.segments]
  have hkept : (if ref.path ≠ [] ∧ (!ref.trailing) = true ∧ base.names ≠ [] then base.names.dropLast
      else base.names) = if ref.trailing then base.names else base.names.dropLast := by
    cases ref.trailing with
    | true => simp
    | false => cases hnames : base.names <;> simp [hne]
  have hwalk := walk_append_names (named_of_subset (kept_subset base ref.trailing))
    (ref.first :: ref.rest)
  simp only [URI.mergePath, hbase, href, hends, startsWithSlash_path, if_pos hne, hkept,
    foldl_mergeStep, hwalk, getLast?_append_cons, Bool.and_false]
  simp [hne]

theorem resolve_eq (base : Base) (ref : Reference) :
    base.uri.resolveText ref.text =
      .ok { base.uri.mergePath ref.path with query := [], fragment := [] } := by
  rw [URI.resolveText, uriOf_reference]
  simp [bind, Except.bind, pure, Except.pure, URI.resolve, path_ne_nil, startsWithSlash_path]

/-- A path that is built without a leading slash is an absolute one only where no
segment is left on either side. -/
theorem path_buildPath_eq_iff (u : URI) {segs : List Bytes} (hsegs : ∀ s ∈ segs, Segment slash s)
    (names : List Bytes) (trailing : Bool) :
    (u.buildPath segs false trailing).path = absolutePath slash names trailing ↔
      segs = [] ∧ names = [] := by
  constructor
  · intro heq
    have hnil : segs = [] := by
      by_contra hne
      have hstart : startsWithSlash (u.buildPath segs false trailing).path = false :=
        startsWithSlash_buildPath hsegs hne
      rw [heq] at hstart
      rcases absolutePath_cases slash names trailing with hempty | ⟨path, hpath, -⟩
      · obtain ⟨first, rest, rfl⟩ := List.exists_cons_of_ne_nil hne
        rw [hempty, path_buildPath_cons] at heq
        have hfirst := (hsegs first List.mem_cons_self).ne_nil
        simp [relativePath, hfirst] at heq
      · rw [hpath] at hstart
        simp [startsWithSlash] at hstart
    refine ⟨hnil, ?_⟩
    rw [hnil, path_buildPath_nil] at heq
    cases names with
    | nil => rfl
    | cons s names =>
        have hlength := congrArg List.length heq
        simp [absolutePath] at hlength
        omega
  · rintro ⟨rfl, rfl⟩
    rfl

/-- The longer of the two ways back to the root settles both. -/
theorem climbsOut_iff (base : Base) (ref : Reference) :
    ClimbsOut base ref ↔
      (Place.walk true ⟨0, if ref.trailing then base.names else base.names.dropLast⟩
        ((ref.first :: ref.rest).map moveOf)).names = [] ∧
      (Place.walk true ⟨0, if base.trailing then base.names else base.names.dropLast⟩
        ((ref.first :: ref.rest).map moveOf)).names = [] := by
  have hshorter : base.names.dropLast.length ≤ base.names.length := by
    rw [List.length_dropLast]
    omega
  have hmono := @Place.length_walk_le _ ((ref.first :: ref.rest).map moveOf) _ _ hshorter
  have hall : (Place.walk true ⟨0, base.names⟩ ((ref.first :: ref.rest).map moveOf)).names = [] →
      (Place.walk true ⟨0, base.names.dropLast⟩
        ((ref.first :: ref.rest).map moveOf)).names = [] := by
    intro hnil
    rw [hnil] at hmono
    exact List.eq_nil_of_length_eq_zero (Nat.le_zero.mp hmono)
  rw [ClimbsOut]
  cases base.trailing with
  | true =>
      cases ref.trailing with
      | true => simp
      | false => simpa using hall
  | false =>
      cases ref.trailing with
      | true => simpa using hall
      | false => simp

/-- A relative path is resolved as the algorithm says exactly when the result is
the root. -/
theorem resolved_iff (base : Base) (ref : Reference) :
    (∃ v, base.uri.resolveText ref.text = .ok v ∧ ResolvedTo base ref v) ↔
      ClimbsOut base ref := by
  have hsegs : ∀ s ∈ (Place.walk true ⟨0, if ref.trailing then base.names else base.names.dropLast⟩
      ((ref.first :: ref.rest).map moveOf)).names, Segment slash s :=
    segment_of_mem_names (fun s hs => base.segments s (kept_subset base ref.trailing hs))
      ref.segments
  have hpath := path_buildPath_eq_iff base.uri hsegs
    (Place.walk true ⟨0, if base.trailing then base.names else base.names.dropLast⟩
      ((ref.first :: ref.rest).map moveOf)).names
    (ref.trailing || isDots (ref.rest.getLast?.getD ref.first))
  rw [← targetPath_eq, ← mergePath_eq, ← climbsOut_iff] at hpath
  rw [resolve_eq]
  constructor
  · rintro ⟨v, hv, hresolved⟩
    obtain rfl := Except.ok.inj hv
    exact hpath.mp hresolved.path
  · intro hclimbs
    refine ⟨_, rfl, hpath.mpr hclimbs, ?_, ?_, ?_, ?_⟩
    all_goals rw [mergePath_eq]
    all_goals rfl

/-- `http://host/a/b`. -/
def folderBase : Base where
  uri := { scheme := bytes "http", host := bytes "host", port := 80, path := bytes "/a/b" }
  names := [bytes "a", bytes "b"]
  trailing := false
  scheme_ne_nil := by decide
  host_ne_nil := by decide
  segments := by decide
  named := by decide
  path_eq := by decide
  path_ne_nil := by decide

def siblingReference : Reference where
  text := bytes "c"
  first := bytes "c"
  rest := []
  trailing := false
  chars := List.forall_mem_singleton.mpr (by decide)
  colon := by decide
  segments := by decide
  decoded := .plain (by decide) .nil

def parentReference : Reference where
  text := bytes ".."
  first := bytes ".."
  rest := []
  trailing := false
  chars := List.forall_mem_cons.mpr ⟨by decide, List.forall_mem_singleton.mpr (by decide)⟩
  colon := by decide
  segments := by decide
  decoded := .plain (by decide) (.plain (by decide) .nil)

/-- `..` against `http://host/a/b` climbs out to the root. -/
theorem resolved_iff_parent :
    ∃ v, folderBase.uri.resolveText (bytes "..") = .ok v ∧
      ResolvedTo folderBase parentReference v :=
  (resolved_iff folderBase parentReference).mpr (by decide +kernel)

/-- `c` against `http://host/a/b` gives the path `a/c` for `/a/c`. -/
theorem not_resolved_sibling :
    ¬∀ (base : Base) (ref : Reference),
      ∃ v, base.uri.resolveText ref.text = .ok v ∧ ResolvedTo base ref v := by
  intro hall
  obtain ⟨v, hv, hresolved⟩ := hall folderBase siblingReference
  have hcode : folderBase.uri.resolveText siblingReference.text =
      .ok { folderBase.uri with path := bytes "a/c" } := by decide +kernel
  rw [hcode] at hv
  obtain rfl := Except.ok.inj hv
  exact absurd hresolved.path (by decide +kernel)

end TwitchChatWorker.RelativeResolution
