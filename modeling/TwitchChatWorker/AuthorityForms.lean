import Mathlib.Data.List.DropRight
import TwitchChatWorker.UriParsing

/-!
Which authorities `setAuthority` takes, and which of them are well formed.
-/

namespace TwitchChatWorker.AuthorityForms

open TwitchChatWorker.DBController
open TwitchChatWorker.Lib.Scanning
open TwitchChatWorker.Uri
open TwitchChatWorker.UriParsing

/-- A decimal digit. -/
def digit (c : UInt8) : Bool := byte '0' ≤ c && c ≤ byte '9'

/-- The number that the digits at the beginning of a text denote. -/
def portNumber (port : Bytes) : Nat :=
  (port.takeWhile digit).foldl (fun n c => 10 * n + (c.toNat - 48)) 0

/-- The numbers that a port may be. -/
def validPort (n : Nat) : Prop := 0 < n ∧ n < 65536

instance : DecidablePred validPort := fun _ => inferInstanceAs (Decidable (_ ∧ _))

/-- The part behind the last `@`. -/
def hostPart (authority : Bytes) : Bytes := authority.rtakeWhile (· ≠ byte '@')

/-- A host without a colon, or one in brackets, and the text behind it. -/
inductive HostAnd : Bytes → Bytes → Bytes → Prop where
  | name {host rest : Bytes} :
      (host ++ rest).head? ≠ some (byte '[') → byte ':' ∉ host →
      (∀ c, rest.head? = some c → c = byte ':') → HostAnd (host ++ rest) host rest
  | bracketed {host rest : Bytes} :
      byte ']' ∉ host → HostAnd (byte '[' :: (host ++ byte ']' :: rest)) host rest

/-- Behind the host stands nothing or a port, which `port` is. -/
def PortForm (rest : Bytes) (port : UInt16) : Prop :=
  rest = [] ∨ ∃ text, rest = byte ':' :: text ∧
    (text = [] ∨ (∀ c ∈ text, digit c) ∧ validPort (portNumber text) ∧
      port.toNat = portNumber text)

/-- An authority that is taken is well formed. -/
def Sound (u : URI) (authority : Bytes) : Prop :=
  ∀ v, u.setAuthority authority = .ok v →
    hostPart authority = [] ∨
      ∃ host rest, HostAnd (hostPart authority) host rest ∧ PortForm rest v.getPort

/-- Something follows the digits of a valid port. -/
def Overread (port : Bytes) : Prop :=
  port.dropWhile digit ≠ [] ∧ validPort (portNumber port)

/-- Behind the host stands something other than a colon, or a port that is followed by
more. -/
def GarbageAfterHost (rest : Bytes) : Prop :=
  (∃ c, rest.head? = some c ∧ c ≠ byte ':') ∨ ∃ port, rest = byte ':' :: port ∧ Overread port

/-- Something is left over behind the host or the port of the authority. -/
def Garbage (authority : Bytes) : Prop :=
  ∃ host rest, HostAnd (hostPart authority) host rest ∧ GarbageAfterHost rest

section Ports

theorem isDigit_character : ∀ c : UInt8,
    (Char.ofNat c.toNat).isDigit = digit c ∧ (Char.ofNat c.toNat).toNat = c.toNat :=
  forall_byte (by decide +kernel)

theorem digitsValue_characters (port : Bytes) :
    digitsValue (port.map fun c => Char.ofNat c.toNat) = portNumber port := by
  have hdigit : Char.isDigit ∘ (fun c : UInt8 => Char.ofNat c.toNat) = digit := by
    funext c
    exact (isDigit_character c).1
  rw [digitsValue, portNumber, List.takeWhile_map, hdigit, List.foldl_map]
  congr 1
  funext n c
  rw [(isDigit_character c).2]
  rfl

theorem toNumber_eq_iff (port : Bytes) {n : Nat} (hn : validPort n) :
    toNumber (characters port) = n ↔ portNumber port = n := by
  obtain ⟨hpos, hlt⟩ := hn
  have hvalue := digitsValue_characters port
  simp only [toNumber, characters, String.toList_ofList]
  generalize hchars : port.map (fun c => Char.ofNat c.toNat) = chars at hvalue
  split
  next digits =>
    cases port with
    | nil => simp at hchars
    | cons c port =>
        have hhead : Char.ofNat c.toNat = '-' := (List.cons.inj hchars).1
        have hminus : digit c = false := by
          rw [← (isDigit_character c).1, hhead]
          decide
        have hnone : portNumber (c :: port) = 0 := by simp [portNumber, hminus]
        rw [hnone]
        constructor
        · intro hread
          split at hread <;> omega
        · omega
  next =>
    rw [hvalue]
    constructor
    · intro hread
      split at hread <;> omega
    · intro hread
      rw [if_pos (by omega), hread]

theorem parsePort_colon (u : URI) {text : Bytes} (hne : text ≠ []) :
    u.parsePort (byte ':' :: text) =
      if validPort (portNumber text) then .ok (portNumber text).toUInt16
      else .error (syntaxException "bad or invalid port number" text) := by
  rw [URI.parsePort, if_pos rfl, if_pos hne]
  by_cases hvalid : validPort (portNumber text)
  · have hread := (toNumber_eq_iff text hvalid).mpr rfl
    obtain ⟨hpos, hlt⟩ := hvalid
    simp only [hread]
    rw [if_pos ⟨by omega, by omega⟩, if_pos ⟨hpos, hlt⟩, Int.toNat_natCast]
  · rw [if_neg hvalid]
    simp only
    rw [if_neg]
    rintro ⟨hpos, hlt⟩
    obtain ⟨n, hn⟩ := Int.eq_ofNat_of_zero_le (show 0 ≤ toNumber (characters text) by omega)
    have hnumber : validPort n := ⟨by omega, by omega⟩
    rw [(toNumber_eq_iff text hnumber).mp hn] at hvalid
    exact hvalid hnumber

theorem getPort_of_valid (u : URI) {n : Nat} (hn : validPort n) :
    ({ u with port := n.toUInt16 } : URI).getPort.toNat = n := by
  obtain ⟨hpos, hlt⟩ := hn
  have hnat : n.toUInt16.toNat = n := UInt16.toNat_ofNat_of_lt hlt
  have hne : n.toUInt16 ≠ 0 := by
    intro hzero
    rw [hzero] at hnat
    exact absurd hnat (by simp; omega)
  rw [URI.getPort, if_neg hne, hnat]

/-- What is behind the host alone decides whether a port that is taken is well
formed. -/
theorem portForm_iff_not_garbage (u : URI) (rest : Bytes) :
    (∀ port, u.parsePort rest = .ok port →
      PortForm rest ({ u with port := port } : URI).getPort) ↔ ¬GarbageAfterHost rest := by
  constructor
  · rintro hforms (⟨c, hhead, hcolon⟩ | ⟨port, rfl, hafter, hvalid⟩)
    · cases rest with
      | nil => simp at hhead
      | cons d rest =>
          obtain rfl := Option.some.inj hhead
          rcases hforms _ (by rw [URI.parsePort, if_neg hcolon]) with hnil | ⟨text, heq, -⟩
          · simp at hnil
          · exact hcolon (List.cons.inj heq).1
    · have hne : port ≠ [] := by
        rintro rfl
        exact hafter rfl
      have hread := parsePort_colon u hne
      rw [if_pos hvalid] at hread
      rcases hforms _ hread with hnil | ⟨text, heq, hnil | ⟨hdigits, -⟩⟩
      · simp at hnil
      · exact hne ((List.cons.inj heq).2.trans hnil)
      · obtain rfl := (List.cons.inj heq).2
        exact hafter (List.dropWhile_eq_nil_iff.mpr hdigits)
  · intro hclean port hread
    cases rest with
    | nil => exact .inl rfl
    | cons c text =>
        obtain rfl : c = byte ':' := by
          by_contra hcolon
          exact hclean (.inl ⟨c, rfl, hcolon⟩)
        refine .inr ⟨text, rfl, ?_⟩
        cases text with
        | nil => exact .inl rfl
        | cons d text =>
            rw [parsePort_colon u (by simp)] at hread
            split at hread
            next hvalid =>
              obtain rfl := Except.ok.inj hread
              refine .inr ⟨?_, hvalid, getPort_of_valid u hvalid⟩
              apply List.dropWhile_eq_nil_iff.mp
              by_contra hafter
              exact hclean (.inr ⟨d :: text, rfl, hafter, hvalid⟩)
            next => simp at hread

end Ports

section Hosts

theorem scanHost_eq_iff {text host rest : Bytes} :
    URI.scanHost text = .ok (host, rest) ↔ HostAnd text host rest := by
  constructor
  · intro hscan
    rw [URI.scanHost] at hscan
    split at hscan
    next hbracket =>
      obtain ⟨it, rfl⟩ := List.head?_eq_some_iff.mp hbracket
      rw [List.tail_cons] at hscan
      split at hscan
      next => simp at hscan
      next c it' hdrop =>
        obtain ⟨rfl, rfl⟩ := Prod.mk.inj (Except.ok.inj hscan)
        have hclose : c = byte ']' := head?_dropWhile_ne c (by rw [hdrop, List.head?_cons])
        have hsplit : it.takeWhile (fun c => decide (c ≠ byte ']')) ++
            it.dropWhile (fun c => decide (c ≠ byte ']')) = it := List.takeWhile_append_dropWhile
        rw [hdrop, hclose] at hsplit
        nth_rewrite 1 [← hsplit]
        exact .bracketed (not_mem_takeWhile_ne _ _)
    next hbracket =>
      obtain ⟨rfl, rfl⟩ := Prod.mk.inj (Except.ok.inj hscan)
      have hsplit : text.takeWhile (fun c => decide (c ≠ byte ':')) ++
          text.dropWhile (fun c => decide (c ≠ byte ':')) = text := List.takeWhile_append_dropWhile
      nth_rewrite 1 [← hsplit]
      exact .name (by rwa [hsplit]) (not_mem_takeWhile_ne _ _) head?_dropWhile_ne
  · intro h
    cases h with
    | @name host rest hbracket hcolon hrest =>
        have hhost := scanned_of_not_mem hcolon
        have hstops : Stops (fun c => decide (c ≠ byte ':')) rest := by
          intro c hc
          simpa using hrest c hc
        rw [URI.scanHost, if_neg hbracket, takeWhile_append_of_stops hhost hstops,
          dropWhile_append_of_stops hhost hstops]
    | @bracketed host rest hclose =>
        have hhost := scanned_of_not_mem hclose
        have hstops := stops_delimiter (byte ']') rest
        rw [URI.scanHost, List.head?_cons, if_pos rfl, List.tail_cons,
          takeWhile_append_of_stops hhost hstops, dropWhile_append_of_stops hhost hstops]

theorem HostAnd.unique {text host rest host' rest' : Bytes} (h : HostAnd text host rest)
    (h' : HostAnd text host' rest') : host = host' ∧ rest = rest' := by
  have hscan := scanHost_eq_iff.mpr h
  rw [scanHost_eq_iff.mpr h'] at hscan
  obtain ⟨rfl, rfl⟩ := Prod.mk.inj (Except.ok.inj hscan)
  exact ⟨rfl, rfl⟩

theorem hostPart_of_not_mem {text : Bytes} (hat : byte '@' ∉ text) : hostPart text = text :=
  List.rtakeWhile_eq_self_iff.mpr (scanned_of_not_mem hat)

theorem hostPart_append {info text : Bytes} (hat : byte '@' ∉ text) :
    hostPart (info ++ byte '@' :: text) = text := by
  have htext := scanned_of_not_mem (mt List.mem_reverse.mp hat)
  have hreverse : (info ++ byte '@' :: text).reverse =
      text.reverse ++ byte '@' :: info.reverse := by simp
  rw [hostPart, List.rtakeWhile, hreverse, takeWhile_append_of_stops htext
    (stops_delimiter _ _), List.reverse_reverse]

theorem scanAuthority_last {userInfo part info text : Bytes} (hinfo : InAuthority info)
    (htext : InAuthority text) (hat : byte '@' ∉ text) :
    (URI.scanAuthority userInfo part (info ++ byte '@' :: text)).2 = (text, []) := by
  have hsign : URI.endsAuthority (byte '@') = false := by decide
  induction info generalizing userInfo part with
  | nil =>
      have hscan : URI.scanAuthority part [] (text ++ []) = (part, [] ++ text, []) :=
        scanAuthority_append htext hat stops_nil
      rw [List.append_nil, List.nil_append] at hscan
      rw [List.nil_append, URI.scanAuthority, hsign, if_neg (by simp), if_pos rfl, hscan]
  | cons c info ih =>
      rw [InAuthority, List.forall_mem_cons] at hinfo
      rw [List.cons_append, URI.scanAuthority, hinfo.1, if_neg (by simp)]
      split
      · exact ih hinfo.2
      · exact ih hinfo.2

theorem scanAuthority_hostPart {userInfo authority : Bytes} (h : InAuthority authority) :
    (URI.scanAuthority userInfo [] authority).2 = (hostPart authority, []) := by
  by_cases hat : byte '@' ∈ authority
  · obtain ⟨info, text, rfl, hlast⟩ := exists_last_split hat
    rw [hostPart_append hlast]
    exact scanAuthority_last (fun c hc => h c (by simp [hc])) (fun c hc => h c (by simp [hc]))
      hlast
  · have hscan : URI.scanAuthority userInfo [] (authority ++ []) =
        (userInfo, [] ++ authority, []) := scanAuthority_append h hat stops_nil
    rw [List.append_nil, List.nil_append] at hscan
    rw [hscan, hostPart_of_not_mem hat]

end Hosts

variable {u v : URI} {authority : Bytes}

theorem setAuthority_ok_iff (h : InAuthority authority) (hne : hostPart authority ≠ []) :
    u.setAuthority authority = .ok v ↔
      ∃ host rest port, HostAnd (hostPart authority) host rest ∧ u.parsePort rest = .ok port ∧
        v = { u with userInfo := [], host := toLower host, port := port } := by
  have hscan : (URI.scanAuthority [] [] authority).2 = (hostPart authority, []) :=
    scanAuthority_hostPart h
  rw [URI.setAuthority, URI.parseAuthority]
  dsimp only
  generalize URI.scanAuthority [] [] authority = scanned at hscan
  obtain ⟨info, part, rest⟩ := scanned
  obtain ⟨rfl, rfl⟩ := Prod.mk.inj hscan
  dsimp only
  rw [URI.parseHostAndPort, if_neg hne]
  constructor
  · intro hset
    obtain ⟨⟨w, left⟩, hparsed, hv⟩ := exists_of_bind_eq_ok hset
    obtain ⟨x, hhostPort, hw⟩ := exists_of_bind_eq_ok hparsed
    obtain ⟨⟨host, rest⟩, hhost, hread⟩ := exists_of_bind_eq_ok hhostPort
    obtain ⟨port, hport, hx⟩ := exists_of_bind_eq_ok hread
    refine ⟨host, rest, port, scanHost_eq_iff.mp hhost, hport, ?_⟩
    obtain rfl := Except.ok.inj hx
    obtain ⟨rfl, rfl⟩ := Prod.mk.inj (Except.ok.inj hw)
    exact (Except.ok.inj hv).symm
  · rintro ⟨host, rest, port, hhost, hport, rfl⟩
    have hread : ({ u with userInfo := info, host := [], port := 0 } : URI).parsePort rest =
        .ok port := hport
    rw [scanHost_eq_iff.mpr hhost]
    simp only [bind, Except.bind, hread]
    rfl

/-- An authority is taken in error exactly when something follows its host or
the digits of its port. -/
theorem sound_iff (u : URI) (authority : Bytes) (h : InAuthority authority) :
    Sound u authority ↔ ¬Garbage authority := by
  by_cases hne : hostPart authority = []
  · refine iff_of_true (fun v _ => .inl hne) ?_
    rintro ⟨host, rest, hhost, hgarbage⟩
    rw [hne] at hhost
    have hnone : HostAnd ([] ++ []) [] [] := .name (by simp) (by simp) (by simp)
    obtain ⟨-, rfl⟩ := hhost.unique hnone
    rcases hgarbage with ⟨c, hc, -⟩ | ⟨port, hport, -⟩
    · simp at hc
    · simp at hport
  · constructor
    · rintro hsound ⟨host, rest, hhost, hgarbage⟩
      refine (portForm_iff_not_garbage u rest).mp (fun port hport => ?_) hgarbage
      have hset := (setAuthority_ok_iff (u := u) h hne).mpr ⟨host, rest, port, hhost, hport, rfl⟩
      obtain ⟨host', rest', hhost', hform⟩ := (hsound _ hset).resolve_left hne
      obtain ⟨-, rfl⟩ := hhost.unique hhost'
      exact hform
    · intro hclean v hset
      obtain ⟨host, rest, port, hhost, hport, rfl⟩ := (setAuthority_ok_iff h hne).mp hset
      have hrest : ¬GarbageAfterHost rest := fun hgarbage => hclean ⟨host, rest, hhost, hgarbage⟩
      exact .inr ⟨host, rest, hhost, (portForm_iff_not_garbage u rest).mpr hrest port hport⟩

theorem sound_iff_bracketed : Sound {} (bytes "bob@[::1]:8080") := by
  refine (sound_iff {} (bytes "bob@[::1]:8080") (List.all_iff_forall_prop.mp (by decide))).mpr ?_
  rintro ⟨host, rest, hhost, hgarbage⟩
  have hpart : hostPart (bytes "bob@[::1]:8080") =
      byte '[' :: (bytes "::1" ++ byte ']' :: bytes ":8080") := by decide
  have hform : HostAnd (hostPart (bytes "bob@[::1]:8080")) (bytes "::1") (bytes ":8080") :=
    hpart ▸ .bracketed (by decide)
  obtain ⟨-, rfl⟩ := hform.unique hhost
  rcases hgarbage with ⟨c, hc, hcolon⟩ | ⟨port, hport, hafter, -⟩
  · exact hcolon (Option.some.inj hc).symm
  · obtain rfl := (List.cons.inj hport).2
    exact hafter (by decide)

/-- `host:80abc` is taken with the port 80. -/
theorem not_sound_overread :
    ¬∀ (u : URI) (authority : Bytes), InAuthority authority → Sound u authority := by
  intro hall
  have hset : ({} : URI).setAuthority (bytes "host:80abc") =
      .ok { host := bytes "host", port := 80 } := by decide
  have hpart : hostPart (bytes "host:80abc") = bytes "host" ++ bytes ":80abc" := by decide
  have hform : HostAnd (hostPart (bytes "host:80abc")) (bytes "host") (bytes ":80abc") :=
    hpart ▸ .name (by decide) (by decide) fun c hc => (Option.some.inj hc).symm
  rcases hall {} _ (List.all_iff_forall_prop.mp (by decide)) _ hset with
    hnil | ⟨host, rest, hhost, hport⟩
  · exact absurd hnil (by decide)
  · obtain ⟨-, rfl⟩ := hform.unique hhost
    rcases hport with hnil | ⟨text, htext, hport⟩
    · exact absurd hnil (by decide)
    · obtain rfl := (List.cons.inj htext).2
      rcases hport with hnil | ⟨hdigits, -⟩
      · exact absurd hnil (by decide)
      · exact absurd (hdigits (byte 'a') (by decide)) (by decide)

end TwitchChatWorker.AuthorityForms
