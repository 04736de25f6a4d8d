import TwitchChatWorker.UriParsed

/-!
Printing a parsed URI and parsing what was printed.
-/

namespace TwitchChatWorker.UriRoundTrip

open TwitchChatWorker.Lib.Scanning
open TwitchChatWorker.Uri
open TwitchChatWorker.UriParsing
open TwitchChatWorker.UriParsed

/-- With an authority, an empty path and the path `/` are the same. -/
def SamePath (authority path printed : Bytes) : Prop :=
  printed = path ∨ authority ≠ [] ∧ path ∈ [[], [byte '/']] ∧ printed ∈ [[], [byte '/']]

/-- The getters agree; a path may have gained its slash. -/
structure SameParts (u v : URI) : Prop where
  scheme : v.scheme = u.scheme
  userInfo : v.userInfo = u.userInfo
  host : v.host = u.host
  port : v.getPort = u.getPort
  path : SamePath u.getAuthority u.path v.path
  query : v.query = u.query
  fragment : v.fragment = u.fragment

/-- The text is accepted and gives the same parts. -/
def RoundTrips (u : URI) : Prop := ∃ v, uriOf u.toString = .ok v ∧ SameParts u v

/-- Nothing in the printed text is taken for a delimiter that was not meant,
and nothing that is not printed is needed. -/
def Printable (u : URI) : Prop :=
  if u.scheme = [] then
    u.host = [] ∧ u.port = 0 ∧
      (u.path = [] ∨ u.path.head? = some (byte '/') ∨ u.path.head? = some (byte '.') ∨
        byte ':' ∉ u.path.takeWhile (· ≠ byte '/'))
  else if u.host ≠ [] ∨ u.port ≠ 0 ∧ ¬u.isWellKnownPort then
    u.host.head? ≠ some (byte '[') ∨ byte ':' ∈ u.host
  else if u.scheme = bytes "file" then
    u.path.head? = some (byte '/') ∨ u.path = [] ∧ u.query = [] ∧ u.fragment = []
  else u.path ≠ [] ∧ ¬bytes "//" <+: u.path

section Text

def optional (text : Bytes) : Option Bytes := if text = [] then none else some text

/-- The query and the fragment as they are printed. -/
def tailText (u : URI) : Bytes :=
  queryText (optional u.query) ++
    fragmentText ((optional u.fragment).map fun text => encode text reservedFragment)

def encodePath (path : Bytes) : Bytes := encode path reservedPath

theorem encodePath_append (xs ys : Bytes) :
    encodePath (xs ++ ys) = encodePath xs ++ encodePath ys :=
  List.flatMap_append

theorem encodePath_cons (c : UInt8) (xs : Bytes) :
    encodePath (c :: xs) = encodeByte reservedPath c ++ encodePath xs :=
  List.flatMap_cons

theorem encodeByte_path (c : UInt8) :
    (∀ d ∈ encodeByte reservedPath c, URI.endsPath d = false) ∧
      (c ≠ byte '/' → ∀ d ∈ encodeByte reservedPath c, URI.endsAuthority d = false) ∧
      (c ≠ byte '/' ∧ c ≠ byte ':' →
        ∀ d ∈ encodeByte reservedPath c, URI.endsScheme d = false) := by
  have hall : ∀ c : UInt8, (encodeByte reservedPath c).all (URI.endsPath · = false) = true ∧
      (c ≠ byte '/' →
        (encodeByte reservedPath c).all (URI.endsAuthority · = false) = true) ∧
      (c ≠ byte '/' ∧ c ≠ byte ':' →
        (encodeByte reservedPath c).all (URI.endsScheme · = false) = true) :=
    forall_byte (by decide +kernel)
  obtain ⟨hpath, hauthority, hscheme⟩ := hall c
  exact ⟨List.all_iff_forall_prop.mp hpath,
    fun hc => List.all_iff_forall_prop.mp (hauthority hc),
    fun hc => List.all_iff_forall_prop.mp (hscheme hc)⟩

theorem encodeByte_delimiters : ∀ c ∈ bytes "/:.", encodeByte reservedPath c = [c] :=
  List.all_iff_forall_prop.mp (by decide +kernel)

theorem head?_encodeByte : ∀ c : UInt8, ∃ d ds, encodeByte reservedPath c = d :: ds ∧
    (c ≠ byte '/' ∧ c ≠ byte '.' → URI.startsPath d = false) := by
  have hhead : ∀ c : UInt8, encodeByte reservedPath c ≠ [] ∧
      (c ≠ byte '/' ∧ c ≠ byte '.' →
        URI.startsPath ((encodeByte reservedPath c).headD 0) = false) :=
    forall_byte (by decide +kernel)
  intro c
  obtain ⟨hne, hstart⟩ := hhead c
  obtain ⟨d, ds, hcode⟩ := List.exists_cons_of_ne_nil hne
  rw [hcode] at hstart
  exact ⟨d, ds, hcode, hstart⟩

theorem encodePath_slashes (x : Bytes) :
    encodePath (bytes "//" ++ x) = bytes "//" ++ encodePath x := by
  rw [encodePath_append]
  rfl

theorem encodePath_eq_nil {x : Bytes} (h : encodePath x = []) : x = [] := by
  cases x with
  | nil => rfl
  | cons c x =>
      obtain ⟨d, ds, hcode, -⟩ := head?_encodeByte c
      rw [encodePath_cons, hcode] at h
      exact absurd h (by simp)

theorem toString_eq (u : URI) :
    u.toString =
      (if u.scheme = [] then encodePath u.path
      else
        u.scheme ++ [byte ':'] ++
          (if u.getAuthority ≠ [] ∨ u.scheme = bytes "file" then bytes "//" ++ u.getAuthority
          else []) ++
          (if u.path ≠ [] then
            (if u.getAuthority ≠ [] ∧ u.path.head? ≠ some (byte '/') then [byte '/'] else []) ++
              encodePath u.path
          else if u.query ≠ [] ∨ u.fragment ≠ [] then [byte '/']
          else [])) ++ tailText u := by
  have htail : (if u.query ≠ [] then [byte '?'] ++ u.query else []) ++
      (if u.fragment ≠ [] then [byte '#'] ++ encode u.fragment reservedFragment else []) =
        tailText u := by
    unfold tailText optional
    by_cases hquery : u.query = [] <;> by_cases hfragment : u.fragment = [] <;>
      simp [hquery, hfragment, queryText, fragmentText]
  rw [← htail, URI.toString, List.append_assoc]
  simp only [URI.isRelative, decide_eq_true_eq]
  rfl

variable {u : URI}

theorem head?_tailText {c : UInt8} (hc : (tailText u).head? = some c) :
    URI.endsPath c = true := by
  have hstops : Stops (!URI.endsPath ·) (tailText u) := stops_queryText
  simpa using hstops c hc

theorem getD_optional (text : Bytes) : (optional text).getD [] = text := by
  unfold optional
  split
  next h => exact h.symm
  next => rfl

theorem parsePathEtc_encodePath (hquery : byte '#' ∉ u.query) (w : URI) (hw : w.query = [])
    (x : Bytes) :
    w.parsePathEtc (encodePath x ++ tailText u) =
      .ok { w with
        path := w.path ++ x
        query := u.query
        fragment := w.fragment ++ u.fragment } := by
  have hpath : ∀ c ∈ encodePath x, URI.endsPath c = false := by
    intro c hc
    obtain ⟨d, -, hd⟩ := List.mem_flatMap.mp hc
    exact (encodeByte_path d).1 c hd
  have hfragment : decode (((optional u.fragment).map fun text =>
      encode text reservedFragment).getD []) = .ok u.fragment := by
    unfold optional
    split
    next h => rw [h]; rfl
    next => exact decode_encode u.fragment reservedFragment
  have hqueryText : ∀ text ∈ optional u.query, byte '#' ∉ text := by
    intro text htext
    unfold optional at htext
    split at htext
    · simp at htext
    · obtain rfl := Option.some.inj htext
      exact hquery
  have hparsed := parsePathEtc_texts (u := w) hpath (decode_encode x reservedPath) hqueryText
    hfragment
  rw [hw, getD_optional] at hparsed
  exact hparsed

end Text

section Reading

variable {u w v : URI} {x : Bytes}

theorem head?_printed : (encodePath x ++ tailText u).head? = some (byte '/') ↔
    x.head? = some (byte '/') := by
  cases x with
  | nil =>
      have hends : ¬URI.endsPath (byte '/') = true := by decide
      simpa [encodePath, encode] using fun h => hends (head?_tailText h)
  | cons c x =>
      rw [encodePath_cons, List.head?_cons]
      by_cases hslash : c = byte '/'
      · rw [hslash, encodeByte_delimiters _ (by decide)]
        simp
      · obtain ⟨d, ds, hcode, -⟩ := head?_encodeByte c
        have hd := (encodeByte_path c).2.1 hslash d (by simp [hcode])
        have hdSlash : d ≠ byte '/' := by
          rintro rfl
          exact absurd hd (by decide)
        simp [hcode, hdSlash, hslash]

theorem slashes_prefix_iff {it : Bytes} :
    bytes "//" <+: it ↔ it.head? = some (byte '/') ∧ it.tail.head? = some (byte '/') := by
  have hslashes : bytes "//" = [byte '/', byte '/'] := by decide
  rw [hslashes]
  constructor
  · rintro ⟨rest, rfl⟩
    exact ⟨rfl, rfl⟩
  · rintro ⟨hfirst, hsecond⟩
    match it, hfirst, hsecond with
    | c :: d :: rest, hfirst, hsecond =>
        obtain rfl : c = byte '/' := Option.some.inj hfirst
        obtain rfl : d = byte '/' := Option.some.inj hsecond
        exact ⟨rest, rfl⟩

theorem slashes_prefix_printed : bytes "//" <+: encodePath x ++ tailText u ↔
    bytes "//" <+: x := by
  rw [slashes_prefix_iff, slashes_prefix_iff, head?_printed]
  apply and_congr_right
  intro hslash
  cases x with
  | nil => simp at hslash
  | cons c x =>
      obtain rfl : c = byte '/' := Option.some.inj hslash
      rw [encodePath_cons, encodeByte_delimiters _ (by decide)]
      exact head?_printed

theorem stops_printed (hx : x = [] ∨ x.head? = some (byte '/')) :
    Stops (!URI.endsAuthority ·) (encodePath x ++ tailText u) := by
  intro c hc
  rcases hx with rfl | hslash
  · have hends := head?_tailText hc
    simp only [URI.endsPath, Bool.or_eq_true, decide_eq_true_eq] at hends
    simp only [URI.endsAuthority]
    rcases hends with rfl | rfl <;> decide
  · rw [head?_printed.mpr hslash] at hc
    obtain rfl := Option.some.inj hc
    decide

theorem dropWhile_slash (path : Bytes) : path.dropWhile (· ≠ byte '/') = [] ∨
    (path.dropWhile (· ≠ byte '/')).head? = some (byte '/') := by
  cases hrest : path.dropWhile (· ≠ byte '/') with
  | nil => exact .inl rfl
  | cons c rest =>
      have hc := stops_dropWhile (p := (· ≠ byte '/')) path c (by rw [hrest, List.head?_cons])
      exact .inr (congrArg some (by simpa using hc))

theorem parseAfterScheme_path (hquery : byte '#' ∉ u.query) (hw : w.query = [])
    (hx : ¬bytes "//" <+: x) :
    w.parseAfterScheme (encodePath x ++ tailText u) =
      .ok { w with
        path := w.path ++ x
        query := u.query
        fragment := w.fragment ++ u.fragment } := by
  rw [URI.parseAfterScheme, if_neg (slashes_prefix_printed.not.mpr hx)]
  exact parsePathEtc_encodePath hquery w hw x

theorem printed_split (u : URI) (x : Bytes) : encodePath x ++ tailText u =
    encodePath (x.takeWhile (· ≠ byte '/')) ++
      (encodePath (x.dropWhile (· ≠ byte '/')) ++ tailText u) := by
  rw [← List.append_assoc, ← encodePath_append, List.takeWhile_append_dropWhile]

theorem scanAuthority_rest {userInfo part text rest : Bytes} (htext : InAuthority text)
    (hrest : Stops (!URI.endsAuthority ·) rest) :
    (URI.scanAuthority userInfo part (text ++ rest)).2.2 = rest := by
  induction text generalizing userInfo part with
  | nil =>
      cases rest with
      | nil => rfl
      | cons c rest =>
          have hc : URI.endsAuthority c = true := by simpa using stops_cons.mp hrest
          simp [URI.scanAuthority, hc]
  | cons c text ih =>
      rw [InAuthority, List.forall_mem_cons] at htext
      rw [List.cons_append, URI.scanAuthority, htext.1, if_neg (by simp)]
      split
      · exact ih htext.2
      · exact ih htext.2

theorem parseAuthority_rest {text rest it : Bytes} (htext : InAuthority text)
    (hrest : Stops (!URI.endsAuthority ·) rest)
    (h : u.parseAuthority (text ++ rest) = .ok (v, it)) : it = rest := by
  have hleft := @scanAuthority_rest u.userInfo [] text rest htext hrest
  rw [URI.parseAuthority] at h
  generalize URI.scanAuthority u.userInfo [] (text ++ rest) = scanned at h hleft
  obtain ⟨userInfo, part, left⟩ := scanned
  obtain rfl : left = rest := hleft
  obtain ⟨w, -, hset⟩ := exists_of_bind_eq_ok h
  exact (Prod.mk.inj (Except.ok.inj hset)).2.symm

/-- What follows two slashes is an authority up to the next slash, whatever it
was meant to be. -/
theorem path_of_slashes (hquery : byte '#' ∉ u.query) (hpath : w.path = []) (hw : w.query = [])
    (h : w.parseAfterScheme (bytes "//" ++ (encodePath x ++ tailText u)) = .ok v) :
    v.path = x.dropWhile (· ≠ byte '/') := by
  have hin : InAuthority (encodePath (x.takeWhile (· ≠ byte '/'))) := by
    intro c hc
    obtain ⟨d, hd, hcode⟩ := List.mem_flatMap.mp hc
    have hslash : d ≠ byte '/' := by simpa using List.mem_takeWhile_imp hd
    exact (encodeByte_path d).2.1 hslash c hcode
  rw [printed_split, parseAfterScheme_authority] at h
  obtain ⟨⟨w', it⟩, hauthority, hrest⟩ := exists_of_bind_eq_ok h
  obtain rfl := parseAuthority_rest hin (stops_printed (dropWhile_slash x)) hauthority
  obtain ⟨hframe, -⟩ := parseAuthority_range hauthority
  have hw' : w'.path = [] ∧ w'.query = [] := by
    rw [hframe]
    exact ⟨hpath, hw⟩
  have hread := parsePathEtc_encodePath hquery w' hw'.2 (x.dropWhile (· ≠ byte '/'))
  rw [hw'.1, List.nil_append] at hread
  obtain rfl := Except.ok.inj (hrest.symm.trans hread)
  rfl

theorem path_length_le (hquery : byte '#' ∉ u.query) (hpath : w.path = []) (hw : w.query = [])
    (h : w.parseAfterScheme (encodePath x ++ tailText u) = .ok v) :
    v.path.length ≤ x.length := by
  by_cases hslashes : bytes "//" <+: x
  · obtain ⟨y, rfl⟩ := hslashes
    rw [encodePath_slashes, List.append_assoc] at h
    rw [path_of_slashes hquery hpath hw h, List.length_append]
    exact Nat.le_add_left_of_le (List.dropWhile_sublist _).length_le
  · rw [parseAfterScheme_path hquery hw hslashes, hpath, List.nil_append] at h
    obtain rfl := Except.ok.inj h
    exact Nat.le_refl _

end Reading

section Relative

variable {u v : URI}

theorem uriOf_of_relative {it : Bytes}
    (h : (∀ c, it.head? = some c → URI.startsPath c = true) ∨
      (it.dropWhile (!URI.endsScheme ·)).head? ≠ some (byte ':')) :
    uriOf it = ({} : URI).parsePathEtc it := by
  rw [uriOf]
  cases it with
  | nil => rfl
  | cons c it =>
      rw [URI.parse]
      by_cases hstart : URI.startsPath c = true
      · rw [if_pos hstart]
      · have hcolon := h.resolve_left fun hall => hstart (hall c rfl)
        rw [if_neg hstart]
        split
        · next d rest hdrop =>
            rw [hdrop, List.head?_cons] at hcolon
            rw [if_neg fun heq => hcolon (congrArg some heq)]
        · rfl

/-- A path that does not look as if it began with a scheme. -/
def PathOnly (path : Bytes) : Prop :=
  path = [] ∨ path.head? = some (byte '/') ∨ path.head? = some (byte '.') ∨
    byte ':' ∉ path.takeWhile (· ≠ byte '/')

theorem startsPath_printed {x : Bytes}
    (hx : x = [] ∨ x.head? = some (byte '/') ∨ x.head? = some (byte '.')) :
    ∀ c, (encodePath x ++ tailText u).head? = some c → URI.startsPath c = true := by
  intro c hc
  rcases hx with rfl | hslash | hdot
  · have hends := head?_tailText hc
    simp only [URI.endsPath, Bool.or_eq_true, decide_eq_true_eq] at hends
    rcases hends with rfl | rfl <;> decide
  · rw [head?_printed.mpr hslash] at hc
    obtain rfl := Option.some.inj hc
    decide
  · cases x with
    | nil => simp at hdot
    | cons d x =>
        obtain rfl : d = byte '.' := Option.some.inj hdot
        rw [encodePath_cons, encodeByte_delimiters _ (by decide)] at hc
        obtain rfl : byte '.' = c := Option.some.inj hc
        decide

/-- The loop over the scheme comes to a slash, a query or a fragment first. -/
theorem endsScheme_printed {x : Bytes} (hcolon : byte ':' ∉ x.takeWhile (· ≠ byte '/')) :
    ((encodePath x ++ tailText u).dropWhile (!URI.endsScheme ·)).head? ≠ some (byte ':') := by
  have hfirst : ∀ c ∈ encodePath (x.takeWhile (· ≠ byte '/')), (!URI.endsScheme c) = true := by
    intro c hc
    obtain ⟨d, hd, hcode⟩ := List.mem_flatMap.mp hc
    have hslash : d ≠ byte '/' := by simpa using List.mem_takeWhile_imp hd
    have hdColon : d ≠ byte ':' := fun heq => hcolon (heq ▸ hd)
    rw [(encodeByte_path d).2.2 ⟨hslash, hdColon⟩ c hcode]
    rfl
  have hends : ∀ c, (encodePath (x.dropWhile (· ≠ byte '/')) ++ tailText u).head? = some c →
      URI.endsAuthority c = true := by
    intro c hc
    have hstops := stops_printed (u := u) (dropWhile_slash x) c hc
    simpa using hstops
  have hstops : Stops (!URI.endsScheme ·)
      (encodePath (x.dropWhile (· ≠ byte '/')) ++ tailText u) := by
    intro c hc
    have hc := hends c hc
    simp only [URI.endsAuthority, Bool.or_eq_true, decide_eq_true_eq] at hc
    rcases hc with (rfl | rfl) | rfl <;> decide
  rw [printed_split, dropWhile_append_of_stops hfirst hstops]
  intro hhead
  exact absurd (hends _ hhead) (by decide)

theorem uriOf_pathOnly (hquery : byte '#' ∉ u.query) (hpath : PathOnly u.path) :
    uriOf (encodePath u.path ++ tailText u) =
      .ok { path := u.path, query := u.query, fragment := u.fragment } := by
  have hread := parsePathEtc_encodePath hquery {} rfl u.path
  rw [uriOf_of_relative]
  · exact hread
  · rcases hpath with hnil | hslash | hdot | hcolon
    · exact .inl (startsPath_printed (.inl hnil))
    · exact .inl (startsPath_printed (.inr (.inl hslash)))
    · exact .inl (startsPath_printed (.inr (.inr hdot)))
    · exact .inr (endsScheme_printed hcolon)

theorem uriOf_scheme_end {scheme : Bytes}
    (hstart : ∀ c, scheme.head? = some c → URI.startsPath c = false)
    (hscheme : ∀ c ∈ scheme, URI.endsScheme c = false) :
    uriOf (scheme ++ [byte ':']) ≠ .ok v := by
  rw [uriOf, parse_scheme_eq hstart hscheme, if_pos rfl]
  simp

/-- A colon before the first slash makes a scheme of what is before it. -/
theorem path_lt_of_colon (hquery : byte '#' ∉ u.query) (hpath : ¬PathOnly u.path)
    (h : uriOf (encodePath u.path ++ tailText u) = .ok v) :
    v.path.length < u.path.length := by
  simp only [PathOnly, not_or, not_not] at hpath
  obtain ⟨hne, hslash, hdot, hcolon⟩ := hpath
  obtain ⟨a, b, hab, hca, hsa⟩ := exists_split_of_mem_takeWhile hcolon
  have hscheme : ∀ c ∈ encodePath a, URI.endsScheme c = false := by
    intro c hc
    obtain ⟨d, hd, hcode⟩ := List.mem_flatMap.mp hc
    exact (encodeByte_path d).2.2 ⟨fun heq => hsa (heq ▸ hd), fun heq => hca (heq ▸ hd)⟩ c hcode
  have hstart : ∀ c, (encodePath a).head? = some c → URI.startsPath c = false := by
    intro c hc
    cases a with
    | nil => simp [encodePath, encode] at hc
    | cons d a =>
        rw [hab] at hslash hdot
        obtain ⟨e, es, hcode, hstart⟩ := head?_encodeByte d
        rw [encodePath_cons, hcode] at hc
        obtain rfl : e = c := Option.some.inj hc
        exact hstart ⟨fun heq => hslash (congrArg some heq), fun heq => hdot (congrArg some heq)⟩
  have htext : encodePath u.path ++ tailText u =
      encodePath a ++ byte ':' :: (encodePath b ++ tailText u) := by
    rw [hab, encodePath_append, encodePath_cons, encodeByte_delimiters _ (by decide)]
    simp
  rw [htext] at h
  cases hrest : encodePath b ++ tailText u with
  | nil =>
      rw [hrest] at h
      exact absurd h (uriOf_scheme_end hstart hscheme)
  | cons c rest =>
      rw [uriOf, parse_scheme hstart hscheme (by simp [hrest])] at h
      have hlength := path_length_le hquery rfl rfl h
      rw [hab, List.length_append, List.length_cons]
      omega

theorem roundTrips_relative (h : Parsed u) (hscheme : u.scheme = []) :
    RoundTrips u ↔ u.host = [] ∧ u.port = 0 ∧ PathOnly u.path := by
  have htext : u.toString = encodePath u.path ++ tailText u := by
    rw [toString_eq, if_pos hscheme]
  have hunknown : URI.getWellKnownPort {} = 0 := by decide +kernel
  have hport : u.getPort = u.port := by
    rw [URI.getPort, URI.getWellKnownPort, hscheme]
    split
    next hzero => rw [hzero]; exact hunknown
    next => rfl
  have hpathPort : ∀ path query fragment : Bytes,
      URI.getPort { path := path, query := query, fragment := fragment } = 0 := fun _ _ _ =>
    hunknown
  rw [RoundTrips, htext]
  constructor
  · rintro ⟨v, hread, hsame⟩
    have hpath : PathOnly u.path := by
      by_contra hnot
      have hlt := path_lt_of_colon h.query_chars hnot hread
      rcases hsame.path with heq | ⟨-, hempty, -⟩
      · rw [heq] at hlt
        exact lt_irrefl _ hlt
      · rcases List.mem_cons.mp hempty with hnil | hslash
        · exact hnot (.inl hnil)
        · exact hnot (.inr (.inl (by rw [List.mem_singleton.mp hslash]; rfl)))
    rw [uriOf_pathOnly h.query_chars hpath] at hread
    obtain rfl := Except.ok.inj hread
    refine ⟨hsame.host.symm, ?_, hpath⟩
    rw [← hport, ← hsame.port]
    exact hpathPort _ _ _
  · rintro ⟨hhost, hzero, hpath⟩
    refine ⟨_, uriOf_pathOnly h.query_chars hpath, ?_⟩
    refine ⟨hscheme.symm, h.userInfo.symm, hhost.symm, ?_, .inl rfl, rfl, rfl⟩
    rw [hport, hzero]
    exact hpathPort _ _ _

end Relative

section Absolute

variable {u v : URI}

def hostText (host : Bytes) : Bytes :=
  if byte ':' ∈ host then byte '[' :: host ++ [byte ']'] else host

/-- The port that `toString` writes. -/
def printedPort (u : URI) : Option UInt16 :=
  if u.port ≠ 0 ∧ ¬u.isWellKnownPort then some u.port else none

/-- The path that `toString` writes. -/
def printedPath (u : URI) : Bytes :=
  if u.path = [] ∧ (u.query ≠ [] ∨ u.fragment ≠ []) then [byte '/'] else u.path

/-- The URI when the parser has read the scheme. -/
def schemeOnly (u : URI) : URI := { scheme := u.scheme, port := u.getWellKnownPort }

theorem getAuthority_eq (h : Parsed u) :
    u.getAuthority = hostText u.host ++ portText (printedPort u) := by
  have hinfo : (if u.userInfo ≠ [] then u.userInfo ++ [byte '@'] else []) = [] :=
    if_neg (not_not.mpr h.userInfo)
  rw [URI.getAuthority, hinfo, List.nil_append]
  unfold hostText printedPort
  by_cases hport : u.port ≠ 0 ∧ ¬u.isWellKnownPort = true
  · simp only [if_pos hport]
    rfl
  · simp only [if_neg hport]
    rfl

theorem printedPort_ne_zero (u : URI) : printedPort u ≠ some 0 := by
  unfold printedPort
  split
  next h => exact fun heq => h.1 (Option.some.inj heq)
  next => simp

theorem getPort_of_printedPort (hscheme : v.scheme = u.scheme)
    (hport : v.port = (printedPort u).getD u.getWellKnownPort) : v.getPort = u.getPort := by
  have hknown : v.getWellKnownPort = u.getWellKnownPort := by
    rw [URI.getWellKnownPort, URI.getWellKnownPort, hscheme]
  rw [URI.getPort, URI.getPort, hport, hknown]
  unfold printedPort
  split
  next h => simp [h.1]
  next h =>
    rw [not_and_or, not_not, not_not] at h
    rcases h with hzero | hwell
    · simp [hzero]
    · have heq : u.port = u.getWellKnownPort := by simpa [URI.isWellKnownPort] using hwell
      simp [heq]

theorem getAuthority_eq_nil (h : Parsed u) (hauth : u.getAuthority = []) :
    u.host = [] ∧ printedPort u = none := by
  rw [getAuthority_eq h, List.append_eq_nil_iff] at hauth
  constructor
  · have hhost := hauth.1
    unfold hostText at hhost
    split at hhost
    · simp at hhost
    · exact hhost
  · cases hport : printedPort u with
    | none => rfl
    | some port => simp [hport, portText] at hauth

theorem getAuthority_ne_nil (h : Parsed u) :
    u.getAuthority ≠ [] ↔ u.host ≠ [] ∨ u.port ≠ 0 ∧ ¬u.isWellKnownPort := by
  constructor
  · intro hauth
    by_contra hnot
    rw [not_or, not_not] at hnot
    have hport : printedPort u = none := if_neg hnot.2
    rw [getAuthority_eq h, hnot.1, hport] at hauth
    exact hauth rfl
  · intro hprinted hauth
    obtain ⟨hhost, hport⟩ := getAuthority_eq_nil h hauth
    rcases hprinted with hne | hshown
    · exact hne hhost
    · rw [printedPort, if_pos hshown] at hport
      simp at hport

theorem path_start_of_authority (h : Parsed u) (hauth : u.getAuthority ≠ []) :
    u.path = [] ∨ u.path.head? = some (byte '/') := by
  refine h.path_start.resolve_left ?_
  rintro ⟨hhost, hport⟩
  have hprinted : printedPort u = none := by
    unfold printedPort
    rw [if_neg]
    rintro ⟨hne, hwell⟩
    rcases hport with hzero | hknown
    · exact hne hzero
    · exact hwell (decide_eq_true hknown)
  rw [getAuthority_eq h, hhost, hprinted] at hauth
  exact hauth rfl

theorem toString_absolute (h : Parsed u) (hscheme : u.scheme ≠ []) :
    u.toString = u.scheme ++ byte ':' ::
      ((if u.getAuthority ≠ [] ∨ u.scheme = bytes "file" then bytes "//" ++ u.getAuthority
        else []) ++ (encodePath (printedPath u) ++ tailText u)) := by
  have hslash : encodePath [byte '/'] = [byte '/'] := by decide +kernel
  have hpath : (if u.path ≠ [] then
      (if u.getAuthority ≠ [] ∧ u.path.head? ≠ some (byte '/') then [byte '/'] else []) ++
        encodePath u.path
      else if u.query ≠ [] ∨ u.fragment ≠ [] then [byte '/']
      else []) = encodePath (printedPath u) := by
    unfold printedPath
    by_cases hnil : u.path = []
    · rw [if_neg (not_not.mpr hnil)]
      by_cases hmore : u.query ≠ [] ∨ u.fragment ≠ []
      · rw [if_pos hmore, if_pos ⟨hnil, hmore⟩, hslash]
      · rw [if_neg hmore, if_neg fun hboth => hmore hboth.2, hnil]
        rfl
    · have hslashed : ¬(u.getAuthority ≠ [] ∧ u.path.head? ≠ some (byte '/')) := by
        rintro ⟨hauth, hhead⟩
        exact hhead ((path_start_of_authority h hauth).resolve_left hnil)
      have hprinted : ¬(u.path = [] ∧ (u.query ≠ [] ∨ u.fragment ≠ [])) := fun hboth =>
        hnil hboth.1
      rw [if_pos hnil, if_neg hslashed, if_neg hprinted, List.nil_append]
  rw [toString_eq, if_neg hscheme, hpath]
  simp only [List.append_assoc, List.cons_append, List.nil_append]

theorem uriOf_absolute (h : Parsed u) {it : Bytes} (hit : it ≠ []) :
    uriOf (u.scheme ++ byte ':' :: it) = (schemeOnly u).parseAfterScheme it := by
  rw [uriOf, parse_scheme h.scheme_start h.scheme_chars hit, setScheme_new, h.scheme_lower]
  rfl

theorem printedPath_start (hpath : u.path = [] ∨ u.path.head? = some (byte '/')) :
    printedPath u = [] ∨ (printedPath u).head? = some (byte '/') := by
  unfold printedPath
  split
  · exact .inr rfl
  · exact hpath

theorem samePath_printedPath {authority : Bytes} (hauth : authority ≠ []) :
    SamePath authority u.path (printedPath u) := by
  unfold printedPath
  split
  next h => exact .inr ⟨hauth, by simp [h.1], by simp⟩
  next => exact .inl rfl

theorem getAuthority_inAuthority (h : Parsed u) :
    InAuthority u.getAuthority ∧ byte '@' ∉ u.getAuthority := by
  have hbrackets : InAuthority [byte '['] ∧ InAuthority [byte ']'] :=
    ⟨List.all_iff_forall_prop.mp (by decide), List.all_iff_forall_prop.mp (by decide)⟩
  obtain ⟨hport, hportAt⟩ := inAuthority_portText (printedPort u)
  have hhost : InAuthority (hostText u.host) ∧ byte '@' ∉ hostText u.host := by
    unfold hostText
    split
    · constructor
      · exact inAuthority_append (inAuthority_append hbrackets.1 h.host.chars) hbrackets.2
      · intro hat
        simp only [List.cons_append, List.mem_cons, List.mem_append, List.not_mem_nil, or_false]
          at hat
        rcases hat with heq | hin | heq
        · exact absurd heq (by decide)
        · exact h.host.at_sign hin
        · exact absurd heq (by decide)
    · exact ⟨h.host.chars, h.host.at_sign⟩
  rw [getAuthority_eq h, List.mem_append, not_or]
  exact ⟨inAuthority_append hhost.1 hport, hhost.2, hportAt⟩

theorem parseAfterScheme_printed {w : URI} {authority x : Bytes} (hin : InAuthority authority)
    (hat : byte '@' ∉ authority) (hx : x = [] ∨ x.head? = some (byte '/')) :
    w.parseAfterScheme (bytes "//" ++ (authority ++ (encodePath x ++ tailText u))) =
      (w.parseHostAndPort authority).bind fun v =>
        ({ v with userInfo := [] } : URI).parsePathEtc (encodePath x ++ tailText u) := by
  rw [parseAfterScheme_authority, parseAuthority_append hin hat (stops_printed hx)]
  cases w.parseHostAndPort authority <;> rfl

theorem parseHostAndPort_getAuthority (h : Parsed u) (hauth : u.getAuthority ≠ [])
    (hform : u.host.head? ≠ some (byte '[') ∨ byte ':' ∈ u.host) (w : URI) :
    w.parseHostAndPort u.getAuthority =
      .ok { w with port := (printedPort u).getD w.getWellKnownPort, host := u.host } := by
  have hport := printedPort_ne_zero u
  conv => rhs; rw [← h.host.lower]
  rw [getAuthority_eq h] at hauth ⊢
  by_cases hcolon : byte ':' ∈ u.host
  · have hclose : byte ']' ∉ u.host := by
      rcases h.host.form with ⟨hnot, -⟩ | hclose
      · exact absurd hcolon hnot
      · exact hclose
    rw [hostText, if_pos hcolon, List.append_assoc, List.singleton_append]
    exact parseHostAndPort_bracketed hclose hport
  · rw [hostText, if_neg hcolon] at hauth ⊢
    exact parseHostAndPort_name hauth (hform.resolve_right hcolon) hcolon hport

/-- A host that begins with a bracket is taken for one in brackets. -/
theorem parseHostAndPort_open (h : Parsed u) (hhead : u.host.head? = some (byte '['))
    (hcolon : byte ':' ∉ u.host) (w v : URI) : w.parseHostAndPort u.getAuthority ≠ .ok v := by
  have hclose : byte ']' ∉ u.host := h.host.form.resolve_left fun hform => hform.2 hhead
  have hport : byte ']' ∉ portText (printedPort u) := by
    cases printedPort u with
    | none => simp [portText]
    | some port =>
        intro hmem
        rcases List.mem_cons.mp hmem with heq | hdigit
        · exact absurd heq (by decide)
        · exact absurd (mem_digits hdigit) (by decide)
  rw [getAuthority_eq h, hostText, if_neg hcolon]
  cases hhost : u.host with
  | nil => simp [hhost] at hhead
  | cons c host =>
      rw [hhost] at hhead hclose
      obtain rfl : c = byte '[' := Option.some.inj hhead
      have hdrop : (host ++ portText (printedPort u)).dropWhile (· ≠ byte ']') = [] := by
        apply List.dropWhile_eq_nil_iff.mpr
        intro d hd
        refine decide_eq_true ?_
        rintro rfl
        rcases List.mem_append.mp hd with hin | hin
        · exact hclose (List.mem_cons_of_mem _ hin)
        · exact hport hin
      have hscan : URI.scanHost (byte '[' :: host ++ portText (printedPort u)) =
          .error ⟨bytes "unterminated IPv6 address"⟩ := by
        rw [URI.scanHost, List.cons_append, List.head?_cons, if_pos rfl, List.tail_cons, hdrop]
      rw [URI.parseHostAndPort, if_neg (by simp), hscan]
      simp [bind, Except.bind]

theorem roundTrips_authority (h : Parsed u) (hscheme : u.scheme ≠ [])
    (hauth : u.getAuthority ≠ []) :
    RoundTrips u ↔ u.host.head? ≠ some (byte '[') ∨ byte ':' ∈ u.host := by
  obtain ⟨hin, hat⟩ := getAuthority_inAuthority h
  have hstart := printedPath_start (path_start_of_authority h hauth)
  have hread : uriOf u.toString =
      ((schemeOnly u).parseHostAndPort u.getAuthority).bind fun v =>
        ({ v with userInfo := [] } : URI).parsePathEtc
          (encodePath (printedPath u) ++ tailText u) := by
    rw [toString_absolute h hscheme, if_pos (.inl hauth), List.append_assoc,
      uriOf_absolute h (by simp [bytes]), parseAfterScheme_printed hin hat hstart]
  rw [RoundTrips, hread]
  constructor
  · rintro ⟨v, hv, -⟩
    by_contra hnot
    rw [not_or, not_not] at hnot
    obtain ⟨w, hopen, -⟩ := exists_of_bind_eq_ok hv
    exact parseHostAndPort_open h hnot.1 hnot.2 _ w hopen
  · intro hform
    rw [parseHostAndPort_getAuthority h hauth hform]
    refine ⟨_, parsePathEtc_encodePath h.query_chars _ rfl _, ?_⟩
    exact ⟨rfl, h.userInfo.symm, rfl, getPort_of_printedPort rfl rfl,
      samePath_printedPath hauth, rfl, rfl⟩

theorem eq_of_samePath {authority path printed : Bytes} (hauth : authority = [])
    (h : SamePath authority path printed) : printed = path := by
  rcases h with heq | ⟨hne, -⟩
  · exact heq
  · exact absurd hauth hne

theorem printedPath_of_ne_nil (hpath : u.path ≠ []) : printedPath u = u.path :=
  if_neg fun h => hpath h.1

theorem roundTrips_file (h : Parsed u) (hfile : u.scheme = bytes "file")
    (hauth : u.getAuthority = []) :
    RoundTrips u ↔
      u.path.head? = some (byte '/') ∨ u.path = [] ∧ u.query = [] ∧ u.fragment = [] := by
  obtain ⟨hhost, hport⟩ := getAuthority_eq_nil h hauth
  have hscheme : u.scheme ≠ [] := by
    rw [hfile]
    decide
  have hread : uriOf u.toString = (schemeOnly u).parseAfterScheme
      (bytes "//" ++ (encodePath (printedPath u) ++ tailText u)) := by
    rw [toString_absolute h hscheme, if_pos (.inr hfile), hauth, List.append_nil,
      uriOf_absolute h (by simp [bytes])]
  rw [RoundTrips, hread]
  constructor
  · rintro ⟨v, hv, hsame⟩
    have hpath := path_of_slashes h.query_chars rfl rfl hv
    rw [eq_of_samePath hauth hsame.path] at hpath
    by_cases hnil : u.path = []
    · refine .inr ⟨hnil, ?_⟩
      by_contra hmore
      rw [not_and_or] at hmore
      have hslash : printedPath u = [byte '/'] := if_pos ⟨hnil, hmore⟩
      rw [hslash, hnil] at hpath
      exact absurd hpath (by decide)
    · rw [printedPath_of_ne_nil hnil] at hpath
      rw [hpath]
      refine .inl ((dropWhile_slash u.path).resolve_left ?_)
      rw [← hpath]
      exact hnil
  · intro hform
    have hprinted : printedPath u = u.path := by
      rcases hform with hslash | ⟨-, hquery, hfragment⟩
      · apply printedPath_of_ne_nil
        intro hnil
        simp [hnil] at hslash
      · apply if_neg
        rintro ⟨-, hmore⟩
        exact hmore.elim (fun hne => hne hquery) fun hne => hne hfragment
    have hstart : u.path = [] ∨ u.path.head? = some (byte '/') := hform.elim .inr fun h => .inl h.1
    have hnone := @parseAfterScheme_printed u (schemeOnly u) [] u.path (by simp [InAuthority])
      (by simp) hstart
    rw [List.nil_append] at hnone
    rw [hprinted, hnone]
    refine ⟨_, parsePathEtc_encodePath h.query_chars _ rfl _, ?_⟩
    refine ⟨rfl, h.userInfo.symm, hhost.symm, ?_, .inl rfl, rfl, rfl⟩
    exact getPort_of_printedPort rfl (by rw [hport]; rfl)

theorem roundTrips_other (h : Parsed u) (hscheme : u.scheme ≠ []) (hfile : u.scheme ≠ bytes "file")
    (hauth : u.getAuthority = []) :
    RoundTrips u ↔ u.path ≠ [] ∧ ¬bytes "//" <+: u.path := by
  obtain ⟨hhost, hport⟩ := getAuthority_eq_nil h hauth
  have htext : u.toString = u.scheme ++ byte ':' :: (encodePath (printedPath u) ++ tailText u) := by
    have hneither : ¬(u.getAuthority ≠ [] ∨ u.scheme = bytes "file") := by
      rw [not_or, not_not]
      exact ⟨hauth, hfile⟩
    rw [toString_absolute h hscheme, if_neg hneither, List.nil_append]
  rw [RoundTrips, htext]
  constructor
  · rintro ⟨v, hv, hsame⟩
    have hpath := eq_of_samePath hauth hsame.path
    by_cases hempty : encodePath (printedPath u) ++ tailText u = []
    · rw [hempty] at hv
      exact absurd hv (uriOf_scheme_end h.scheme_start h.scheme_chars)
    rw [uriOf_absolute h hempty] at hv
    constructor
    · intro hnil
      have hmore : u.query ≠ [] ∨ u.fragment ≠ [] := by
        by_contra hnone
        rw [not_or, not_not, not_not] at hnone
        refine hempty ?_
        rw [printedPath, if_neg fun hboth => hboth.2.elim (· hnone.1) (· hnone.2), hnil,
          tailText, hnone.1, hnone.2]
        rfl
      have hslash : printedPath u = [byte '/'] := if_pos ⟨hnil, hmore⟩
      rw [hslash, parseAfterScheme_path h.query_chars rfl (by decide)] at hv
      obtain rfl := Except.ok.inj hv
      rw [hnil] at hpath
      exact absurd hpath (List.cons_ne_nil (byte '/') [])
    · rintro ⟨y, hslashes⟩
      have hne : u.path ≠ [] := by
        rw [← hslashes]
        simp [bytes]
      rw [printedPath_of_ne_nil hne, ← hslashes, encodePath_slashes, List.append_assoc] at hv
      have hshort := path_of_slashes h.query_chars rfl rfl hv
      have hle := (y.dropWhile_sublist (· ≠ byte '/')).length_le
      rw [← hshort, hpath, ← hslashes, List.length_append] at hle
      have htwo : (bytes "//").length = 2 := by decide
      omega
  · rintro ⟨hne, hslashes⟩
    have htextNe : encodePath u.path ++ tailText u ≠ [] := fun hempty =>
      hne (encodePath_eq_nil (List.append_eq_nil_iff.mp hempty).1)
    rw [printedPath_of_ne_nil hne, uriOf_absolute h htextNe]
    refine ⟨_, parseAfterScheme_path h.query_chars rfl hslashes, ?_⟩
    refine ⟨rfl, h.userInfo.symm, hhost.symm, ?_, .inl rfl, rfl, rfl⟩
    exact getPort_of_printedPort rfl (by rw [hport]; rfl)

end Absolute

/-- Exactly these of the URIs that a text has are read back from what they
print. -/
theorem roundTrips_iff {s : Bytes} {u : URI} (h : uriOf s = .ok u) :
    RoundTrips u ↔ Printable u := by
  have hparsed := parsed_of_uriOf h
  rw [Printable]
  simp only [← getAuthority_ne_nil hparsed]
  split_ifs with hscheme hauth hfile
  · exact roundTrips_relative hparsed hscheme
  · exact roundTrips_authority hparsed hscheme hauth
  · exact roundTrips_file hparsed hfile (not_not.mp hauth)
  · exact roundTrips_other hparsed hscheme hfile (not_not.mp hauth)

theorem roundTrips_iff_sample :
    RoundTrips { scheme := bytes "irc", host := bytes "chat", port := 194, path := bytes "/a b" } :=
  (roundTrips_iff (s := bytes "IRC://Chat/a%20b") (by decide +kernel)).mpr (by
    unfold Printable
    decide +kernel)

/-- `x://` is printed as `x:`. -/
theorem not_roundTrips_schemeOnly :
    ∃ u, uriOf (bytes "x://") = .ok u ∧ ¬RoundTrips u := by
  refine ⟨{ scheme := bytes "x" }, by decide +kernel, ?_⟩
  rintro ⟨v, hread, -⟩
  have htext : ({ scheme := bytes "x" } : URI).toString = bytes "x" ++ [byte ':'] := by
    decide +kernel
  rw [htext] at hread
  have hscheme : ∀ c ∈ bytes "x", URI.startsPath c = false ∧ URI.endsScheme c = false :=
    List.all_iff_forall_prop.mp (by decide)
  exact uriOf_scheme_end (fun c hc => (hscheme c (List.mem_of_mem_head? hc)).1)
    (fun c hc => (hscheme c hc).2) hread

end TwitchChatWorker.UriRoundTrip
