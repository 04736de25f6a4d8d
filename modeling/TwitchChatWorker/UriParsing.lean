import Mathlib.Data.Bool.AllAny
import TwitchChatWorker.Lib.Scanning
import TwitchChatWorker.Uri

/-!
What the parser of `URI` makes of a text that is put together from its parts:
one lemma for each loop, and from them the components of a whole text.
-/

namespace TwitchChatWorker.UriParsing

open TwitchChatWorker.DBController
open TwitchChatWorker.Lib.Scanning
open TwitchChatWorker.Uri

section Ports

/-- The port in decimal. -/
def digits (port : UInt16) : Bytes := bytes (toString (port.toNat : Int))

def portText : Option UInt16 → Bytes
  | none => []
  | some port => byte ':' :: digits port

theorem toString_toList (n : Nat) : (toString (n : Int)).toList = Nat.toDigits 10 n := by
  rw [Int.toString_eq_repr, Int.repr_eq_if, if_pos (Int.natCast_nonneg n), Nat.toList_repr,
    Int.toNat_natCast]

theorem isDigit_iff {c : Char} : c.isDigit = true ↔ 48 ≤ c.toNat ∧ c.toNat ≤ 57 := by
  simp only [Char.isDigit, Bool.and_eq_true, decide_eq_true_eq, Char.toNat, ge_iff_le,
    UInt32.le_iff_toNat_le]
  rfl

theorem digit_of_mem_toString {n : Nat} {c : Char} (hc : c ∈ (toString (n : Int)).toList) :
    48 ≤ c.toNat ∧ c.toNat ≤ 57 := by
  rw [toString_toList] at hc
  exact isDigit_iff.mp (Nat.isDigit_of_mem_toDigits (by decide) (Nat.le_refl 10) hc)

theorem toNat_byte {c : Char} (hc : c.toNat < 256) : (byte c).toNat = c.toNat := by
  exact UInt8.toNat_ofNat_of_lt hc

theorem characters_bytes {text : String} (htext : ∀ c ∈ text.toList, c.toNat < 256) :
    characters (bytes text) = text := by
  have hmap : (text.toList.map byte).map (fun c => Char.ofNat c.toNat) = text.toList := by
    rw [List.map_map]
    conv => rhs; rw [← List.map_id text.toList]
    apply List.map_congr_left
    intro c hc
    simp only [Function.comp_apply, id, toNat_byte (htext c hc), Char.ofNat_toNat]
  rw [characters, bytes, hmap, String.ofList_toList]

theorem mem_digits {port : UInt16} {c : UInt8} (hc : c ∈ digits port) :
    byte '0' ≤ c ∧ c ≤ byte '9' := by
  obtain ⟨d, hd, rfl⟩ := List.mem_map.mp hc
  obtain ⟨hlow, hhigh⟩ := digit_of_mem_toString hd
  have hnat := toNat_byte (c := d) (by omega)
  simp only [UInt8.le_iff_toNat_le, hnat]
  exact ⟨hlow, hhigh⟩

theorem digits_ne_nil (port : UInt16) : digits port ≠ [] := by
  intro h
  have hnil : (toString (port.toNat : Int)).toList = [] := List.map_eq_nil_iff.mp h
  rw [toString_toList] at hnil
  exact absurd hnil Nat.toDigits_ne_nil

theorem toNumber_digits (port : UInt16) : toNumber (characters (digits port)) = port.toNat := by
  have hsmall := port.toNat_lt
  rw [digits, characters_bytes, toNumber_toString (by omega)]
  intro c hc
  have hdigit := digit_of_mem_toString hc
  omega

theorem parsePort_portText (u : URI) {port : Option UInt16} (hport : port ≠ some 0) :
    u.parsePort (portText port) = .ok (port.getD u.getWellKnownPort) := by
  cases port with
  | none => rfl
  | some port =>
      have hsmall := port.toNat_lt
      have hpos : 0 < port.toNat := by
        apply Nat.pos_of_ne_zero
        intro h
        exact hport (congrArg some (UInt16.toNat_inj.mp h))
      rw [portText, URI.parsePort, if_pos rfl, if_pos (digits_ne_nil port)]
      simp only [toNumber_digits]
      rw [if_pos ⟨by omega, by omega⟩]
      simp

theorem stops_portText (port : Option UInt16) : Stops (· ≠ byte ':') (portText port) := by
  cases port with
  | none => exact stops_nil
  | some port => exact stops_cons.mpr (by decide)

end Ports

section Authority

variable {u : URI} {host : Bytes} {port : Option UInt16}

theorem parseHostAndPort_of_scanHost {it rest : Bytes} (hne : it ≠ [])
    (hscan : URI.scanHost it = .ok (host, rest)) (hrest : rest = portText port)
    (hport : port ≠ some 0) :
    u.parseHostAndPort it =
      .ok { u with port := port.getD u.getWellKnownPort, host := toLower host } := by
  subst hrest
  rw [URI.parseHostAndPort, if_neg hne, hscan]
  simp only [bind, Except.bind, parsePort_portText u hport]
  rfl

/-- A host with a colon is read only in brackets. -/
theorem parseHostAndPort_name (hne : host ++ portText port ≠ [])
    (hbracket : host.head? ≠ some (byte '[')) (hcolon : byte ':' ∉ host)
    (hport : port ≠ some 0) :
    u.parseHostAndPort (host ++ portText port) =
      .ok { u with port := port.getD u.getWellKnownPort, host := toLower host } := by
  have hhost := scanned_of_not_mem hcolon
  have hhead : (host ++ portText port).head? ≠ some (byte '[') := by
    cases host with
    | nil =>
        cases port with
        | none => simp [portText]
        | some port => simp [portText]; decide
    | cons c host => exact hbracket
  apply parseHostAndPort_of_scanHost hne ?_ rfl hport
  rw [URI.scanHost, if_neg hhead, takeWhile_append_of_stops hhost (stops_portText port),
    dropWhile_append_of_stops hhost (stops_portText port)]

theorem parseHostAndPort_bracketed (hclose : byte ']' ∉ host) (hport : port ≠ some 0) :
    u.parseHostAndPort (byte '[' :: host ++ byte ']' :: portText port) =
      .ok { u with port := port.getD u.getWellKnownPort, host := toLower host } := by
  have hhost := scanned_of_not_mem hclose
  have hstops := stops_delimiter (byte ']') (portText port)
  apply parseHostAndPort_of_scanHost (by simp) ?_ rfl hport
  rw [URI.scanHost, List.cons_append, List.head?_cons, if_pos rfl, List.tail_cons,
    takeWhile_append_of_stops hhost hstops, dropWhile_append_of_stops hhost hstops]

/-- A text that can stand in an authority. -/
def InAuthority (text : Bytes) : Prop := ∀ c ∈ text, URI.endsAuthority c = false

theorem scanAuthority_append {userInfo part text rest : Bytes} (htext : InAuthority text)
    (hat : byte '@' ∉ text) (hrest : Stops (!URI.endsAuthority ·) rest) :
    URI.scanAuthority userInfo part (text ++ rest) = (userInfo, part ++ text, rest) := by
  induction text generalizing part with
  | nil =>
      cases rest with
      | nil => simp [URI.scanAuthority]
      | cons c rest =>
          have hc : URI.endsAuthority c = true := by simpa using stops_cons.mp hrest
          simp [URI.scanAuthority, hc]
  | cons c text ih =>
      rw [InAuthority, List.forall_mem_cons] at htext
      rw [List.mem_cons, not_or] at hat
      rw [List.cons_append, URI.scanAuthority, htext.1, if_neg (by simp), if_neg (Ne.symm hat.1),
        ih htext.2 hat.2]
      simp

theorem scanAuthority_userInfo {userInfo part info it : Bytes} (hinfo : InAuthority info)
    (hat : byte '@' ∉ info) :
    URI.scanAuthority userInfo part (info ++ byte '@' :: it) =
      URI.scanAuthority (part ++ info) [] it := by
  induction info generalizing part with
  | nil =>
      have hends : URI.endsAuthority (byte '@') = false := by decide
      rw [List.nil_append, List.append_nil, URI.scanAuthority, hends]
      simp
  | cons c info ih =>
      rw [InAuthority, List.forall_mem_cons] at hinfo
      rw [List.mem_cons, not_or] at hat
      rw [List.cons_append, URI.scanAuthority, hinfo.1, if_neg (by simp), if_neg (Ne.symm hat.1),
        ih hinfo.2 hat.2]
      simp

theorem parseAuthority_append {text rest : Bytes} (htext : InAuthority text)
    (hat : byte '@' ∉ text) (hrest : Stops (!URI.endsAuthority ·) rest) :
    u.parseAuthority (text ++ rest) =
      (u.parseHostAndPort text).map fun v => ({ v with userInfo := [] }, rest) := by
  rw [URI.parseAuthority, scanAuthority_append htext hat hrest, List.nil_append]
  dsimp only
  cases u.parseHostAndPort text <;> rfl

theorem parseAuthority_userInfo {info text rest : Bytes} (hinfo : InAuthority info)
    (hat : byte '@' ∉ info) (htext : InAuthority text) (hat' : byte '@' ∉ text)
    (hrest : Stops (!URI.endsAuthority ·) rest) :
    u.parseAuthority (info ++ byte '@' :: (text ++ rest)) =
      (({ u with userInfo := info } : URI).parseHostAndPort text).map fun v =>
        ({ v with userInfo := [] }, rest) := by
  rw [URI.parseAuthority, scanAuthority_userInfo hinfo hat,
    scanAuthority_append htext hat' hrest, List.nil_append]
  dsimp only [List.nil_append]
  cases ({ u with userInfo := info } : URI).parseHostAndPort text <;> rfl

end Authority

section PathEtc

variable {u : URI}

def queryText : Option Bytes → Bytes
  | none => []
  | some query => byte '?' :: query

def fragmentText : Option Bytes → Bytes
  | none => []
  | some fragment => byte '#' :: fragment

variable {query fragment : Option Bytes}

theorem stops_fragmentText : Stops (· ≠ byte '#') (fragmentText fragment) := by
  cases fragment with
  | none => exact stops_nil
  | some fragment => exact stops_cons.mpr (by decide)

theorem stops_queryText : Stops (!URI.endsPath ·) (queryText query ++ fragmentText fragment) := by
  cases query with
  | none =>
      cases fragment with
      | none => exact stops_nil
      | some fragment => exact stops_cons.mpr (by decide)
  | some query => exact stops_cons.mpr (by decide)

theorem parseFragment_text {decoded : Bytes}
    (hfragment : decode (fragment.getD []) = .ok decoded) :
    (if (fragmentText fragment).head? = some (byte '#') then
        u.parseFragment (fragmentText fragment).tail
      else .ok u) = .ok { u with fragment := u.fragment ++ decoded } := by
  cases fragment with
  | none =>
      obtain rfl : [] = decoded := Except.ok.inj hfragment
      simp [fragmentText]
  | some fragment =>
      have hdecode : decode fragment = .ok decoded := hfragment
      rw [fragmentText, List.head?_cons, if_pos rfl, List.tail_cons, URI.parseFragment, hdecode]
      rfl

theorem parseQueryEtc_texts {decoded : Bytes} (hquery : ∀ text ∈ query, byte '#' ∉ text)
    (hfragment : decode (fragment.getD []) = .ok decoded) :
    u.parseQueryEtc (queryText query ++ fragmentText fragment) =
      .ok { u with query := query.getD u.query, fragment := u.fragment ++ decoded } := by
  rw [URI.parseQueryEtc]
  cases query with
  | none =>
      have hhead : (fragmentText fragment).head? ≠ some (byte '?') := by
        cases fragment with
        | none => simp [fragmentText]
        | some fragment => rw [fragmentText, List.head?_cons]; decide
      rw [queryText, List.nil_append, if_neg hhead]
      exact parseFragment_text hfragment
  | some text =>
      have htext := scanned_of_not_mem (hquery text rfl)
      rw [queryText, List.cons_append, List.head?_cons, if_pos rfl, List.tail_cons,
        URI.parseQuery, takeWhile_append_of_stops htext stops_fragmentText,
        dropWhile_append_of_stops htext stops_fragmentText]
      exact parseFragment_text hfragment

theorem head?_ne_of_endsPath {c d : UInt8} {text rest : Bytes} (hc : URI.endsPath c = false)
    (hd : URI.endsPath d = true) : (c :: text ++ rest).head? ≠ some d := by
  rw [List.cons_append, List.head?_cons]
  rintro heq
  obtain rfl := Option.some.inj heq
  rw [hc] at hd
  exact absurd hd (by decide)

theorem parsePathEtc_texts {path decodedPath decodedFragment : Bytes}
    (hpath : ∀ c ∈ path, URI.endsPath c = false) (hdecode : decode path = .ok decodedPath)
    (hquery : ∀ text ∈ query, byte '#' ∉ text)
    (hfragment : decode (fragment.getD []) = .ok decodedFragment) :
    u.parsePathEtc (path ++ (queryText query ++ fragmentText fragment)) =
      .ok { u with
        path := u.path ++ decodedPath
        query := query.getD u.query
        fragment := u.fragment ++ decodedFragment } := by
  cases path with
  | nil =>
      have hrest := parseQueryEtc_texts (u := u) hquery hfragment
      obtain rfl : [] = decodedPath := Except.ok.inj hdecode
      rw [List.append_nil, List.nil_append, URI.parsePathEtc]
      split_ifs with hempty hhead
      · rw [hempty] at hrest
        exact hrest
      · cases hqf : queryText query ++ fragmentText fragment with
        | nil => exact absurd hqf hempty
        | cons c rest =>
            have hc := stops_queryText c (by rw [hqf, List.head?_cons])
            rw [hqf, List.head?_cons, ne_eq, ne_eq, Option.some.injEq, Option.some.injEq]
              at hhead
            simp [URI.endsPath, hhead.1, hhead.2] at hc
      · exact hrest
  | cons c path =>
      have hrest := parseQueryEtc_texts (u := { u with path := u.path ++ decodedPath }) hquery
        hfragment
      have hc := hpath c List.mem_cons_self
      have hscan : ∀ d ∈ c :: path, (!URI.endsPath d) = true := by
        intro d hd
        rw [hpath d hd]
        rfl
      rw [URI.parsePathEtc, if_neg (by simp), if_pos ⟨head?_ne_of_endsPath hc rfl,
        head?_ne_of_endsPath hc rfl⟩, URI.parsePath,
        takeWhile_append_of_stops hscan stops_queryText,
        dropWhile_append_of_stops hscan stops_queryText, hdecode]
      exact hrest

end PathEtc

section Scheme

variable {u : URI} {scheme it : Bytes}

theorem parse_scheme_eq (hstart : ∀ c, scheme.head? = some c → URI.startsPath c = false)
    (hscheme : ∀ c ∈ scheme, URI.endsScheme c = false) :
    u.parse (scheme ++ byte ':' :: it) =
      if it = [] then
        .error ⟨bytes "URI scheme must be followed by authority or path: " ++
          (scheme ++ byte ':' :: it)⟩
      else (u.setScheme scheme).parseAfterScheme it := by
  have hscan : ∀ c ∈ scheme, (!URI.endsScheme c) = true := by
    intro c hc
    rw [hscheme c hc]
    rfl
  have hstops : Stops (!URI.endsScheme ·) (byte ':' :: it) := stops_cons.mpr (by decide)
  have hdrop := dropWhile_append_of_stops hscan hstops
  have htake := takeWhile_append_of_stops hscan hstops
  cases scheme with
  | nil =>
      have hcolon : URI.startsPath (byte ':') = false := by decide
      rw [List.nil_append] at hdrop htake ⊢
      rw [URI.parse, hcolon, hdrop, htake]
      simp
  | cons c scheme =>
      have hc := hstart c rfl
      rw [List.cons_append] at hdrop htake ⊢
      rw [URI.parse, hc, hdrop, htake]
      simp

theorem parse_scheme (hstart : ∀ c, scheme.head? = some c → URI.startsPath c = false)
    (hscheme : ∀ c ∈ scheme, URI.endsScheme c = false) (hit : it ≠ []) :
    u.parse (scheme ++ byte ':' :: it) = (u.setScheme scheme).parseAfterScheme it := by
  rw [parse_scheme_eq hstart hscheme, if_neg hit]

theorem parseAfterScheme_authority {text rest : Bytes} :
    u.parseAfterScheme (bytes "//" ++ (text ++ rest)) =
      (do
        let (u, it) ← u.parseAuthority (text ++ rest)
        u.parsePathEtc it) := by
  rw [URI.parseAfterScheme, if_pos (List.prefix_append _ _)]
  rfl

theorem setScheme_new (scheme : Bytes) :
    ({} : URI).setScheme scheme =
      { scheme := toLower scheme
        port := URI.getWellKnownPort { scheme := toLower scheme } } := rfl

end Scheme

section Components

def letter (c : UInt8) : Bool :=
  byte 'A' ≤ c && c ≤ byte 'Z' || byte 'a' ≤ c && c ≤ byte 'z'

/-- A host as it stands in the text. -/
structure HostText where
  name : Bytes
  bracketed : Bool

namespace HostText

def text (host : HostText) : Bytes :=
  if host.bracketed then byte '[' :: host.name ++ [byte ']'] else host.name

structure Valid (host : HostText) : Prop where
  ascii : ∀ c ∈ host.name, c < 128
  chars : ∀ c ∈ host.name, c ∉ bytes "@/?#["
  name : host.bracketed = false → host.name ≠ [] ∧ byte ':' ∉ host.name
  bracketed : host.bracketed = true → byte ']' ∉ host.name

end HostText

/-- The parts of a URI with an authority, as they are written. -/
structure UriText where
  scheme : Bytes
  userInfo : Option Bytes
  host : HostText
  port : Option UInt16
  path : Bytes
  decodedPath : Bytes
  query : Option Bytes
  fragment : Option Bytes
  decodedFragment : Bytes
  scheme_ne_nil : scheme ≠ []
  scheme_letters : ∀ c ∈ scheme, letter c = true
  userInfo_valid : ∀ info ∈ userInfo, info ≠ [] ∧ ∀ c ∈ info, c ∉ bytes "@/?#"
  host_valid : host.Valid
  port_ne_zero : port ≠ some 0
  path_start : path = [] ∨ path.head? = some (byte '/')
  path_chars : ∀ c ∈ path, c ∉ bytes "?#"
  path_decoded : Decoded path decodedPath
  query_chars : ∀ text ∈ query, byte '#' ∉ text
  fragment_decoded : Decoded (fragment.getD []) decodedFragment

namespace UriText

def userInfoText : Option Bytes → Bytes
  | none => []
  | some info => info ++ [byte '@']

/-- `scheme://[userinfo@]host[:port]path[?query][#fragment]`. -/
def text (t : UriText) : Bytes :=
  t.scheme ++ bytes "://" ++ userInfoText t.userInfo ++ t.host.text ++ portText t.port ++
    t.path ++ queryText t.query ++ fragmentText t.fragment

end UriText

/-- The port of the scheme. -/
def wellKnownPort (scheme : Bytes) : UInt16 := URI.getWellKnownPort { scheme := scheme }

/-- The components of `u` are those that the text was put together from. -/
structure Recovers (t : UriText) (u : URI) : Prop where
  scheme : u.scheme = toLower t.scheme
  userInfo : u.userInfo = t.userInfo.getD []
  host : u.host = toLower t.host.name
  port : u.getPort = t.port.getD (wellKnownPort (toLower t.scheme))
  path : u.path = t.decodedPath
  query : u.query = t.query.getD []
  fragment : u.fragment = t.decodedFragment

theorem letter_cases : ∀ c : UInt8, letter c = true →
    URI.startsPath c = false ∧ URI.endsScheme c = false :=
  forall_byte (by decide +kernel)

theorem not_mem_delimiters : ∀ c : UInt8, c ∉ bytes "@/?#" →
    URI.endsAuthority c = false ∧ c ≠ byte '@' :=
  forall_byte (by decide +kernel)

theorem digit_cases : ∀ c : UInt8, byte '0' ≤ c ∧ c ≤ byte '9' →
    URI.endsAuthority c = false ∧ c ≠ byte '@' :=
  forall_byte (by decide +kernel)

theorem inAuthority_append {xs ys : Bytes} (hxs : InAuthority xs) (hys : InAuthority ys) :
    InAuthority (xs ++ ys) := by
  intro c hc
  rcases List.mem_append.mp hc with h | h
  · exact hxs c h
  · exact hys c h

theorem inAuthority_portText (port : Option UInt16) :
    InAuthority (portText port) ∧ byte '@' ∉ portText port := by
  cases port with
  | none => simp [portText, InAuthority]
  | some port =>
      constructor
      · intro c hc
        rcases List.mem_cons.mp hc with rfl | hc
        · decide
        · exact (digit_cases c (mem_digits hc)).1
      · intro hat
        rcases List.mem_cons.mp hat with heq | hat
        · exact absurd heq (by decide)
        · exact (digit_cases _ (mem_digits hat)).2 rfl

variable {t : UriText}

theorem HostText.Valid.inAuthority {host : HostText} (h : host.Valid) :
    InAuthority host.text ∧ byte '@' ∉ host.text := by
  have hname : ∀ c ∈ host.name, URI.endsAuthority c = false ∧ c ≠ byte '@' := by
    intro c hc
    apply not_mem_delimiters
    intro hmem
    exact h.chars c hc (by
      have hsub : bytes "@/?#" ⊆ bytes "@/?#[" := by decide
      exact hsub hmem)
  have hbrackets : ∀ c ∈ [byte '[', byte ']'], URI.endsAuthority c = false ∧ c ≠ byte '@' :=
    List.all_iff_forall_prop.mp (by decide)
  have htext : ∀ c ∈ host.text, URI.endsAuthority c = false ∧ c ≠ byte '@' := by
    intro c hc
    rw [HostText.text] at hc
    split at hc
    · simp only [List.cons_append, List.mem_cons, List.mem_append, List.not_mem_nil, or_false]
        at hc
      rcases hc with hopen | hin | hclose
      · exact hbrackets c (by simp [hopen])
      · exact hname c hin
      · exact hbrackets c (by simp [hclose])
    · exact hname c hc
  exact ⟨fun c hc => (htext c hc).1, fun hat => (htext _ hat).2 rfl⟩

theorem HostText.Valid.parseHostAndPort {host : HostText} (h : host.Valid) (u : URI)
    {port : Option UInt16} (hport : port ≠ some 0) :
    u.parseHostAndPort (host.text ++ portText port) =
      .ok { u with port := port.getD u.getWellKnownPort, host := toLower host.name } := by
  obtain ⟨name, bracketed⟩ := host
  cases bracketed with
  | false =>
      obtain ⟨hne, hcolon⟩ := h.name rfl
      have hbracket : name.head? ≠ some (byte '[') := by
        intro hhead
        have hmem : byte '[' ∈ name := List.mem_of_mem_head? hhead
        exact h.chars _ hmem (by decide)
      have htext : name ++ portText port ≠ [] := fun hnil =>
        hne (List.append_eq_nil_iff.mp hnil).1
      exact parseHostAndPort_name htext hbracket hcolon hport
  | true =>
      have htext := parseHostAndPort_bracketed (u := u) (h.bracketed rfl) hport
      simpa [HostText.text] using htext

theorem parseAuthority_text (t : UriText) {u : URI} {rest : Bytes}
    (hrest : Stops (!URI.endsAuthority ·) rest) (hinfo : u.userInfo = []) :
    u.parseAuthority (UriText.userInfoText t.userInfo ++
        (t.host.text ++ portText t.port ++ rest)) =
      .ok ({ u with
        port := t.port.getD u.getWellKnownPort
        host := toLower t.host.name }, rest) := by
  obtain ⟨hhost, hhostAt⟩ := t.host_valid.inAuthority
  obtain ⟨hport, hportAt⟩ := inAuthority_portText t.port
  have htext := inAuthority_append hhost hport
  have hat : byte '@' ∉ t.host.text ++ portText t.port := by
    rw [List.mem_append, not_or]
    exact ⟨hhostAt, hportAt⟩
  cases huserInfo : t.userInfo with
  | none =>
      rw [UriText.userInfoText, List.nil_append, parseAuthority_append htext hat hrest,
        t.host_valid.parseHostAndPort u t.port_ne_zero, ← hinfo]
      rfl
  | some info =>
      obtain ⟨-, hchars⟩ := t.userInfo_valid info huserInfo
      have hinfoText : InAuthority info := fun c hc => (not_mem_delimiters c (hchars c hc)).1
      have hinfoAt : byte '@' ∉ info := fun hmem =>
        (not_mem_delimiters _ (hchars _ hmem)).2 rfl
      rw [UriText.userInfoText, List.append_assoc, List.singleton_append,
        parseAuthority_userInfo hinfoText hinfoAt htext hat hrest,
        t.host_valid.parseHostAndPort _ t.port_ne_zero, ← hinfo]
      rfl

theorem endsPath_of_not_mem : ∀ c : UInt8, c ∉ bytes "?#" → URI.endsPath c = false :=
  forall_byte (by decide +kernel)

theorem stops_path (t : UriText) : Stops (!URI.endsAuthority ·)
    (t.path ++ (queryText t.query ++ fragmentText t.fragment)) := by
  have hrest : Stops (!URI.endsAuthority ·) (queryText t.query ++ fragmentText t.fragment) := by
    cases t.query with
    | none =>
        cases t.fragment with
        | none => exact stops_nil
        | some fragment => exact stops_cons.mpr (by decide)
    | some query => exact stops_cons.mpr (by decide)
  refine Stops.append ?_ hrest
  rcases t.path_start with hnil | hslash
  · rw [hnil]
    exact stops_nil
  · intro c hc
    rw [hslash] at hc
    obtain rfl := Option.some.inj hc
    decide

theorem uriOf_text (t : UriText) :
    uriOf t.text = .ok
      { scheme := toLower t.scheme
        host := toLower t.host.name
        port := t.port.getD (wellKnownPort (toLower t.scheme))
        path := t.decodedPath
        query := t.query.getD []
        fragment := t.decodedFragment } := by
  have hstart : ∀ c, t.scheme.head? = some c → URI.startsPath c = false := fun c hc =>
    (letter_cases c (t.scheme_letters c (List.mem_of_mem_head? hc))).1
  have hscheme : ∀ c ∈ t.scheme, URI.endsScheme c = false := fun c hc =>
    (letter_cases c (t.scheme_letters c hc)).2
  have htext : t.text = t.scheme ++ byte ':' :: (bytes "//" ++
      (UriText.userInfoText t.userInfo ++ (t.host.text ++ portText t.port ++
        (t.path ++ (queryText t.query ++ fragmentText t.fragment))))) := by
    have hcolon : bytes "://" = byte ':' :: bytes "//" := by decide
    simp [UriText.text, hcolon]
  have hpath := parsePathEtc_texts
    (u := { scheme := toLower t.scheme
            host := toLower t.host.name
            port := t.port.getD (wellKnownPort (toLower t.scheme)) })
    (fun c hc => endsPath_of_not_mem c (t.path_chars c hc)) t.path_decoded.decode_eq
    t.query_chars t.fragment_decoded.decode_eq
  rw [htext, uriOf, parse_scheme hstart hscheme (by simp [bytes]), setScheme_new,
    parseAfterScheme_authority, parseAuthority_text t (stops_path t) rfl]
  exact hpath

/-- A text is taken apart correctly exactly when it has no user info. -/
theorem recovers_iff (t : UriText) :
    (∃ u, uriOf t.text = .ok u ∧ Recovers t u) ↔ t.userInfo = none := by
  rw [uriOf_text]
  constructor
  · rintro ⟨u, hu, hrecovers⟩
    obtain rfl := Except.ok.inj hu
    cases hinfo : t.userInfo with
    | none => rfl
    | some info =>
        have hlost := hrecovers.userInfo
        rw [hinfo] at hlost
        exact absurd hlost.symm (t.userInfo_valid info hinfo).1
  · intro hnone
    refine ⟨_, rfl, rfl, ?_, rfl, ?_, rfl, rfl, rfl⟩
    · rw [hnone]
      rfl
    · rw [URI.getPort]
      split
      next hzero =>
        cases hport : t.port with
        | none => rfl
        | some port =>
            rw [hport] at hzero
            exact absurd (hport.trans (congrArg some hzero)) t.port_ne_zero
      next => rfl

/-- `irc://bob@chat`. -/
def withUserInfo : UriText where
  scheme := bytes "irc"
  userInfo := some (bytes "bob")
  host := ⟨bytes "chat", false⟩
  port := none
  path := []
  decodedPath := []
  query := none
  fragment := none
  decodedFragment := []
  scheme_ne_nil := by decide
  scheme_letters := List.all_iff_forall_prop.mp (by decide)
  userInfo_valid := by
    intro info hinfo
    obtain rfl := Option.some.inj hinfo
    exact ⟨by decide, List.all_iff_forall_prop.mp (by decide)⟩
  host_valid :=
    ⟨List.all_iff_forall_prop.mp (by decide), List.all_iff_forall_prop.mp (by decide), by decide,
      by decide⟩
  port_ne_zero := by decide
  path_start := .inl rfl
  path_chars := by simp
  path_decoded := .nil
  query_chars := by simp
  fragment_decoded := .nil

theorem not_recovers_withUserInfo :
    ¬∃ u, uriOf withUserInfo.text = .ok u ∧ Recovers withUserInfo u := by
  rintro ⟨u, hu, hrecovers⟩
  rw [uriOf_text] at hu
  obtain rfl := Except.ok.inj hu
  exact absurd hrecovers.userInfo (by decide)

end Components

end TwitchChatWorker.UriParsing
