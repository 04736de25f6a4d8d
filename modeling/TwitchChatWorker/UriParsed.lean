import TwitchChatWorker.UriParsing

/-!
What the parser of `URI` guarantees of every text that it accepts.
-/

namespace TwitchChatWorker.UriParsed

open TwitchChatWorker.Lib.Scanning
open TwitchChatWorker.Uri
open TwitchChatWorker.UriParsing

section Lower

theorem lowerByte_cases : ∀ c : UInt8, lowerByte (lowerByte c) = lowerByte c ∧
    URI.startsPath (lowerByte c) = URI.startsPath c ∧
    URI.endsScheme (lowerByte c) = URI.endsScheme c ∧
    URI.endsAuthority (lowerByte c) = URI.endsAuthority c :=
  forall_byte (by decide +kernel)

theorem lowerByte_eq_delimiter (c : UInt8) : ∀ d ∈ bytes "@:[]", lowerByte c = d → c = d := by
  have hall : ∀ c : UInt8, (bytes "@:[]").all (fun d => lowerByte c = d → c = d) = true :=
    forall_byte (by decide +kernel)
  exact List.all_iff_forall_prop.mp (hall c)

theorem toLower_toLower (str : Bytes) : toLower (toLower str) = toLower str := by
  rw [toLower, toLower, List.map_map]
  apply List.map_congr_left
  intro c _
  exact (lowerByte_cases c).1

theorem mem_of_mem_toLower {d : UInt8} (hd : d ∈ bytes "@:[]") {str : Bytes}
    (h : d ∈ toLower str) : d ∈ str := by
  obtain ⟨c, hc, heq⟩ := List.mem_map.mp h
  exact lowerByte_eq_delimiter c d hd heq ▸ hc

end Lower

/-- The hosts that `parse` can give. -/
structure ParsedHost (host : Bytes) : Prop where
  lower : toLower host = host
  chars : InAuthority host
  at_sign : byte '@' ∉ host
  form : (byte ':' ∉ host ∧ host.head? ≠ some (byte '[')) ∨ byte ']' ∉ host

/-- What holds of every URI that has been parsed. -/
structure Parsed (u : URI) : Prop where
  userInfo : u.userInfo = []
  scheme_lower : toLower u.scheme = u.scheme
  scheme_start : ∀ c, u.scheme.head? = some c → URI.startsPath c = false
  scheme_chars : ∀ c ∈ u.scheme, URI.endsScheme c = false
  host : ParsedHost u.host
  path_start : (u.host = [] ∧ (u.port = 0 ∨ u.port = u.getWellKnownPort)) ∨
    u.path = [] ∨ u.path.head? = some (byte '/')
  query_chars : byte '#' ∉ u.query

section Range

variable {u v : URI}

theorem decode_head {it decoded : Bytes} (hslash : it.head? = some (byte '/'))
    (hdecode : decode it = .ok decoded) : decoded.head? = some (byte '/') := by
  cases it with
  | nil => simp at hslash
  | cons c it =>
      obtain rfl : c = byte '/' := Option.some.inj hslash
      rw [decode, decodeFrom_plain (by decide)] at hdecode
      cases hrest : decodeFrom (byte '/' :: it) it with
      | error e => simp [hrest, Except.map] at hdecode
      | ok rest =>
          rw [hrest] at hdecode
          obtain rfl := Except.ok.inj hdecode
          rfl

/-- Only the path, the query and the fragment are set, and a path that begins
with a slash is read from a text that does. -/
structure SetsPathEtc (u : URI) (it : Bytes) (v : URI) : Prop where
  frame : v = { u with path := v.path, query := v.query, fragment := v.fragment }
  query : byte '#' ∉ u.query → byte '#' ∉ v.query
  path : Stops (!URI.endsAuthority ·) it → u.path = [] →
    v.path = [] ∨ v.path.head? = some (byte '/')

theorem parseFragment_frame {it : Bytes} (h : u.parseFragment it = .ok v) :
    v = { u with fragment := v.fragment } := by
  obtain ⟨fragment, -, hset⟩ := exists_of_bind_eq_ok h
  obtain rfl := Except.ok.inj hset
  rfl

theorem parseQueryEtc_frame {it : Bytes} (h : u.parseQueryEtc it = .ok v) :
    v = { u with query := v.query, fragment := v.fragment } ∧
      (byte '#' ∉ u.query → byte '#' ∉ v.query) := by
  have htail : ∀ (w : URI) (rest : Bytes),
      (if rest.head? = some (byte '#') then w.parseFragment rest.tail else .ok w) = .ok v →
        v = { w with fragment := v.fragment } := by
    intro w rest hrest
    split at hrest
    · exact parseFragment_frame hrest
    · obtain rfl := Except.ok.inj hrest
      rfl
  rw [URI.parseQueryEtc] at h
  by_cases hquestion : it.head? = some (byte '?')
  · rw [if_pos hquestion, URI.parseQuery] at h
    rw [htail _ _ h]
    refine ⟨rfl, fun _ hmem => ?_⟩
    have hscanned := List.mem_takeWhile_imp hmem
    simp at hscanned
  · rw [if_neg hquestion] at h
    rw [htail _ _ h]
    exact ⟨rfl, fun hquery => hquery⟩

theorem parsePathEtc_sets {it : Bytes} (h : u.parsePathEtc it = .ok v) :
    SetsPathEtc u it v := by
  rw [URI.parsePathEtc] at h
  split_ifs at h with hempty hhead
  · obtain rfl := Except.ok.inj h
    exact ⟨rfl, fun hquery => hquery, fun _ hpath => .inl hpath⟩
  · obtain ⟨⟨w, rest⟩, hparsed, hrest⟩ := exists_of_bind_eq_ok h
    obtain ⟨path, hdecode, hset⟩ := exists_of_bind_eq_ok hparsed
    obtain ⟨rfl, rfl⟩ := Prod.mk.inj (Except.ok.inj hset)
    obtain ⟨hframe, hquery⟩ := parseQueryEtc_frame hrest
    rw [hframe]
    refine ⟨rfl, hquery, fun hstops hpath => .inr ?_⟩
    cases it with
    | nil => exact absurd rfl hempty
    | cons c it =>
        have hc := stops_cons.mp hstops
        have hslash : c = byte '/' := by
          simp only [List.head?_cons, ne_eq, Option.some.injEq] at hhead
          simpa [URI.endsAuthority, hhead.1, hhead.2] using hc
        subst hslash
        rw [hpath, List.nil_append]
        apply decode_head ?_ hdecode
        rw [List.takeWhile_cons_of_pos (by decide), List.head?_cons]
  · obtain ⟨hframe, hquery⟩ := parseQueryEtc_frame h
    rw [hframe]
    exact ⟨rfl, hquery, fun _ hpath => .inl hpath⟩

theorem parsedHost_nil : ParsedHost [] :=
  ⟨rfl, by simp [InAuthority], by simp, by simp⟩

theorem ParsedHost.toLower {host : Bytes} (hchars : InAuthority host) (hat : byte '@' ∉ host)
    (hform : (byte ':' ∉ host ∧ host.head? ≠ some (byte '[')) ∨ byte ']' ∉ host) :
    ParsedHost (toLower host) where
  lower := toLower_toLower host
  chars := by
    intro c hc
    obtain ⟨d, hd, rfl⟩ := List.mem_map.mp hc
    rw [(lowerByte_cases d).2.2.2]
    exact hchars d hd
  at_sign := fun h => hat (mem_of_mem_toLower (by decide) h)
  form := by
    refine hform.imp ?_ ?_
    · rintro ⟨hcolon, hhead⟩
      refine ⟨fun h => hcolon (mem_of_mem_toLower (by decide) h), ?_⟩
      cases host with
      | nil => simp [Uri.toLower]
      | cons c host =>
          intro hlower
          have hc : lowerByte c = byte '[' := Option.some.inj hlower
          exact hhead (congrArg some (lowerByte_eq_delimiter c _ (by decide) hc))
    · exact fun hclose h => hclose (mem_of_mem_toLower (by decide) h)

theorem scanHost_range {it host rest : Bytes} (h : URI.scanHost it = .ok (host, rest)) :
    host ⊆ it ∧
      ((byte ':' ∉ host ∧ host.head? ≠ some (byte '[')) ∨ byte ']' ∉ host) := by
  rw [URI.scanHost] at h
  split_ifs at h with hbracket
  · split at h
    · simp at h
    · obtain ⟨rfl, rfl⟩ := Prod.mk.inj (Except.ok.inj h)
      refine ⟨fun c hc => List.mem_of_mem_tail ((List.takeWhile_sublist _).subset hc), .inr ?_⟩
      exact not_mem_takeWhile_ne _ _
  · obtain ⟨rfl, rfl⟩ := Prod.mk.inj (Except.ok.inj h)
    refine ⟨(List.takeWhile_sublist _).subset, .inl ⟨not_mem_takeWhile_ne _ _, ?_⟩⟩
    cases it with
    | nil => simp
    | cons c it =>
        rw [List.takeWhile_cons]
        split
        · exact hbracket
        · simp

theorem parseHostAndPort_range {part : Bytes} (hchars : InAuthority part)
    (hat : byte '@' ∉ part) (h : u.parseHostAndPort part = .ok v) :
    v = { u with port := v.port, host := v.host } ∧ (ParsedHost u.host → ParsedHost v.host) := by
  rw [URI.parseHostAndPort] at h
  split_ifs at h with hempty
  · obtain rfl := Except.ok.inj h
    exact ⟨rfl, fun hhost => hhost⟩
  · obtain ⟨⟨host, rest⟩, hscan, hread⟩ := exists_of_bind_eq_ok h
    obtain ⟨port, -, hset⟩ := exists_of_bind_eq_ok hread
    obtain rfl := Except.ok.inj hset
    obtain ⟨hsub, hform⟩ := scanHost_range hscan
    refine ⟨rfl, fun _ => ParsedHost.toLower ?_ (fun hmem => hat (hsub hmem)) hform⟩
    exact fun c hc => hchars c (hsub hc)

theorem scanAuthority_range {userInfo part it : Bytes} (hpart : InAuthority part)
    (hat : byte '@' ∉ part) :
    InAuthority (URI.scanAuthority userInfo part it).2.1 ∧
      byte '@' ∉ (URI.scanAuthority userInfo part it).2.1 ∧
      Stops (!URI.endsAuthority ·) (URI.scanAuthority userInfo part it).2.2 := by
  induction it generalizing userInfo part with
  | nil => exact ⟨hpart, hat, stops_nil⟩
  | cons c it ih =>
      rw [URI.scanAuthority]
      split_ifs with hends hsign
      · exact ⟨hpart, hat, stops_cons.mpr (by simp [hends])⟩
      · exact ih (by simp [InAuthority]) (by simp)
      · apply ih
        · apply inAuthority_append hpart
          intro d hd
          obtain rfl := List.mem_singleton.mp hd
          simpa using hends
        · rw [List.mem_append, not_or, List.mem_singleton]
          exact ⟨hat, Ne.symm hsign⟩

theorem parseAuthority_range {it rest : Bytes} (h : u.parseAuthority it = .ok (v, rest)) :
    v = { u with userInfo := [], port := v.port, host := v.host } ∧
      (ParsedHost u.host → ParsedHost v.host) ∧ Stops (!URI.endsAuthority ·) rest := by
  rw [URI.parseAuthority] at h
  obtain ⟨hchars, hat, hstops⟩ := @scanAuthority_range u.userInfo [] it
    (by simp [InAuthority]) (by simp)
  generalize URI.scanAuthority u.userInfo [] it = scanned at h hchars hat hstops
  obtain ⟨userInfo, part, left⟩ := scanned
  dsimp only at h
  obtain ⟨w, hpart, hset⟩ := exists_of_bind_eq_ok h
  obtain ⟨hframe, hhost⟩ := parseHostAndPort_range hchars hat hpart
  obtain ⟨rfl, rfl⟩ := Prod.mk.inj (Except.ok.inj hset)
  refine ⟨?_, hhost, hstops⟩
  rw [hframe]

theorem parsed_of_parsePathEtc {it : Bytes} (h : ({} : URI).parsePathEtc it = .ok v) :
    Parsed v := by
  have hsets := parsePathEtc_sets h
  rw [hsets.frame]
  exact ⟨rfl, rfl, by simp, by simp, parsedHost_nil, .inl ⟨rfl, .inl rfl⟩,
    hsets.query (by simp)⟩

theorem parsed_of_parseAfterScheme {scheme it : Bytes}
    (hstart : ∀ c, scheme.head? = some c → URI.startsPath c = false)
    (hscheme : ∀ c ∈ scheme, URI.endsScheme c = false)
    (h : (({} : URI).setScheme scheme).parseAfterScheme it = .ok v) : Parsed v := by
  have hlowerStart : ∀ c, (toLower scheme).head? = some c → URI.startsPath c = false := by
    intro c hc
    cases scheme with
    | nil => simp [toLower] at hc
    | cons d scheme =>
        obtain rfl : lowerByte d = c := Option.some.inj hc
        rw [(lowerByte_cases d).2.1]
        exact hstart d rfl
  have hlowerScheme : ∀ c ∈ toLower scheme, URI.endsScheme c = false := by
    intro c hc
    obtain ⟨d, hd, rfl⟩ := List.mem_map.mp hc
    rw [(lowerByte_cases d).2.2.1]
    exact hscheme d hd
  rw [setScheme_new, URI.parseAfterScheme] at h
  split_ifs at h with hslashes
  · obtain ⟨⟨w, rest⟩, hauthority, hrest⟩ := exists_of_bind_eq_ok h
    obtain ⟨hframe, hhost, hstops⟩ := parseAuthority_range hauthority
    have hsets : SetsPathEtc w rest v := parsePathEtc_sets hrest
    have hpath : w.path = [] := by rw [hframe]
    have hquery : byte '#' ∉ w.query := by rw [hframe]; simp
    have hstart := hsets.path hstops hpath
    have hnoHash := hsets.query hquery
    rw [hsets.frame, hframe]
    exact ⟨rfl, toLower_toLower scheme, hlowerStart, hlowerScheme, hhost parsedHost_nil,
      .inr hstart, hnoHash⟩
  · have hsets := parsePathEtc_sets h
    rw [hsets.frame]
    exact ⟨rfl, toLower_toLower scheme, hlowerStart, hlowerScheme, parsedHost_nil,
      .inl ⟨rfl, .inr rfl⟩, hsets.query (by simp)⟩

theorem parsed_of_uriOf {s : Bytes} (h : uriOf s = .ok v) : Parsed v := by
  have hempty : Parsed {} :=
    ⟨rfl, rfl, by simp, by simp, parsedHost_nil, .inl ⟨rfl, .inl rfl⟩, by simp⟩
  rw [uriOf] at h
  cases s with
  | nil =>
      obtain rfl := Except.ok.inj h
      exact hempty
  | cons c s =>
      rw [URI.parse] at h
      split_ifs at h with hstart
      · exact parsed_of_parsePathEtc h
      · have hscan : ∀ d ∈ (c :: s).takeWhile (!URI.endsScheme ·), URI.endsScheme d = false := by
          intro d hd
          simpa using List.mem_takeWhile_imp hd
        have hhead : ∀ d, ((c :: s).takeWhile (!URI.endsScheme ·)).head? = some d →
            URI.startsPath d = false := by
          intro d hd
          rw [List.takeWhile_cons] at hd
          split at hd
          · obtain rfl : c = d := Option.some.inj hd
            simpa using hstart
          · simp at hd
        split at h
        · split_ifs at h
          · exact parsed_of_parseAfterScheme hhead hscan h
          · exact parsed_of_parsePathEtc h
        · exact parsed_of_parsePathEtc h

end Range

end TwitchChatWorker.UriParsed
