import TwitchChatWorker.DBController

/-!
The class `URI`: its components, how a text is parsed into them, how they are
printed, and how a path is normalized and resolved.  Texts are strings of bytes;
an iterator is the text it has before it.
-/

namespace TwitchChatWorker.Uri

open TwitchChatWorker.DBController

abbrev Bytes := List UInt8

def byte (c : Char) : UInt8 := c.toNat.toUInt8

def bytes (text : String) : Bytes := text.toList.map byte

/-- The characters of a byte string, for the functions that read numbers. -/
def characters (str : Bytes) : String := String.ofList (str.map fun c => Char.ofNat c.toNat)

/-- `SyntaxException` by its message. -/
structure SyntaxException where
  message : Bytes
deriving DecidableEq

def syntaxException (msg : String) (arg : Bytes) : SyntaxException :=
  if arg = [] then ⟨bytes msg⟩ else ⟨bytes msg ++ bytes ": " ++ arg⟩

/-- `tolower` in the locale of the program. -/
def lowerByte (c : UInt8) : UInt8 := if byte 'A' ≤ c ∧ c ≤ byte 'Z' then c + 32 else c

def toLower (str : Bytes) : Bytes := str.map lowerByte

/-- `SCHEME_TO_PORT_MAP`. -/
def schemeToPort : List (String × UInt16) :=
  [("acap", 674), ("afp", 548), ("dict", 2628), ("dns", 53), ("ftp", 21), ("git", 9418),
    ("gopher", 70), ("http", 80), ("https", 443), ("imap", 143), ("ipp", 631), ("ipps", 631),
    ("irc", 194), ("ircs", 6697), ("ldap", 389), ("ldaps", 636), ("mms", 1755), ("msrp", 2855),
    ("mtqp", 1038), ("nfs", 111), ("nntp", 119), ("nntps", 563), ("pop", 110),
    ("prospero", 1525), ("redis", 6379), ("rsync", 873), ("rtmp", 1935), ("rtsp", 554),
    ("rtsps", 322), ("rtspu", 5005), ("sftp", 22), ("smb", 445), ("snmp", 161), ("ssh", 22),
    ("svn", 3690), ("sip", 5060), ("sips", 5061), ("telnet", 23), ("ventrilo", 3784),
    ("vnc", 5900), ("wais", 210), ("ws", 80), ("wss", 443), ("xmpp", 5222)]

/-- `RESERVED_PATH`. -/
def reservedPath : Bytes := bytes "?#"

def reservedQuery : Bytes := bytes "#"

def reservedFragment : Bytes := []

/-- `ILLEGAL`. -/
def illegal : Bytes := bytes "%<>\x7b\x7d|\\\"^\x60"

def unreserved (c : UInt8) : Bool :=
  byte 'a' ≤ c && c ≤ byte 'z' || byte 'A' ≤ c && c ≤ byte 'Z' || byte '0' ≤ c && c ≤ byte '9' ||
    c = byte '-' || c = byte '_' || c = byte '.' || c = byte '~'

def hexChar (digit : UInt8) : UInt8 :=
  if digit < 10 then byte '0' + digit else byte 'A' + (digit - 10)

/-- `%02X`. -/
def formatHex (c : UInt8) : Bytes := [hexChar (c / 16), hexChar (c % 16)]

/-- The characters are signed, so those from `0x80` on are below the space. -/
def encodeByte (reserved : Bytes) (c : UInt8) : Bytes :=
  if unreserved c then [c]
  else if c.toInt8 ≤ 0x20 ∨ 0x7F ≤ c.toInt8 ∨ c ∈ illegal ∨ c ∈ reserved then
    byte '%' :: formatHex c
  else [c]

def encode (str reserved : Bytes) : Bytes := str.flatMap (encodeByte reserved)

def hexDigit (c : UInt8) : Except SyntaxException UInt8 :=
  if byte '0' ≤ c ∧ c ≤ byte '9' then .ok (c - byte '0')
  else if byte 'A' ≤ c ∧ c ≤ byte 'F' then .ok (c - byte 'A' + 10)
  else if byte 'a' ≤ c ∧ c ≤ byte 'f' then .ok (c - byte 'a' + 10)
  else .error ⟨bytes "URI encoding: not a hex digit"⟩

def decodeFrom (str : Bytes) : Bytes → Except SyntaxException Bytes
  | [] => .ok []
  | c :: it =>
      if c = byte '%' then
        match it with
        | [] =>
            .error (syntaxException "URI encoding: no hex digit following percent sign" str)
        | [_] =>
            .error (syntaxException "URI encoding: two hex digits must follow percent sign" str)
        | hi :: lo :: it => do
            let h ← hexDigit hi
            let l ← hexDigit lo
            let decoded ← decodeFrom str it
            return (h * 16 + l) :: decoded
      else do
        let decoded ← decodeFrom str it
        return c :: decoded

def decode (str : Bytes) : Except SyntaxException Bytes := decodeFrom str str

structure URI where
  scheme : Bytes := []
  userInfo : Bytes := []
  host : Bytes := []
  port : UInt16 := 0
  path : Bytes := []
  query : Bytes := []
  fragment : Bytes := []
deriving DecidableEq

namespace URI

/-- The port of the scheme, and `0` for a scheme that is not in the table. -/
def getWellKnownPort (u : URI) : UInt16 :=
  (schemeToPort.lookup (characters u.scheme)).getD 0

def isWellKnownPort (u : URI) : Bool := u.port = u.getWellKnownPort

/-- The port, or that of the scheme where none is given. -/
def getPort (u : URI) : UInt16 := if u.port = 0 then u.getWellKnownPort else u.port

def isRelative (u : URI) : Bool := u.scheme = []

def setScheme (u : URI) (scheme : Bytes) : URI :=
  let u := { u with scheme := toLower scheme }
  if u.port = 0 then { u with port := u.getWellKnownPort } else u

/-- The port is left out where it is that of the scheme. -/
def getAuthority (u : URI) : Bytes :=
  (if u.userInfo ≠ [] then u.userInfo ++ [byte '@'] else []) ++
    (if byte ':' ∈ u.host then [byte '['] ++ u.host ++ [byte ']'] else u.host) ++
    (if u.port ≠ 0 ∧ ¬u.isWellKnownPort then
      [byte ':'] ++ bytes (toString (u.port.toNat : Int))
    else [])

def toString (u : URI) : Bytes :=
  (if u.isRelative then encode u.path reservedPath
    else
      let auth := u.getAuthority
      u.scheme ++ [byte ':'] ++
        (if auth ≠ [] ∨ u.scheme = bytes "file" then bytes "//" ++ auth else []) ++
        (if u.path ≠ [] then
          (if auth ≠ [] ∧ u.path.head? ≠ some (byte '/') then [byte '/'] else []) ++
            encode u.path reservedPath
        else if u.query ≠ [] ∨ u.fragment ≠ [] then [byte '/']
        else [])) ++
    (if u.query ≠ [] then [byte '?'] ++ u.query else []) ++
    (if u.fragment ≠ [] then [byte '#'] ++ encode u.fragment reservedFragment else [])

/-- The port of the text behind the host. -/
def parsePort (u : URI) (it : Bytes) : Except SyntaxException UInt16 :=
  match it with
  | c :: portStr =>
      if c = byte ':' then
        if portStr ≠ [] then
          let nport := toNumber (characters portStr)
          if 0 < nport ∧ nport < 65536 then .ok nport.toNat.toUInt16
          else .error (syntaxException "bad or invalid port number" portStr)
        else .ok u.getWellKnownPort
      else .ok u.getWellKnownPort
  | [] => .ok u.getWellKnownPort

/-- The host and the text behind it. -/
def scanHost (it : Bytes) : Except SyntaxException (Bytes × Bytes) :=
  if it.head? = some (byte '[') then
    match it.tail.dropWhile (· ≠ byte ']') with
    | [] => .error ⟨bytes "unterminated IPv6 address"⟩
    | _ :: rest => .ok (it.tail.takeWhile (· ≠ byte ']'), rest)
  else .ok (it.takeWhile (· ≠ byte ':'), it.dropWhile (· ≠ byte ':'))

def parseHostAndPort (u : URI) (it : Bytes) : Except SyntaxException URI :=
  if it = [] then .ok u
  else do
    let (host, it) ← scanHost it
    let port ← u.parsePort it
    return { u with port := port, host := toLower host }

def endsAuthority (c : UInt8) : Bool := c = byte '/' || c = byte '?' || c = byte '#'

/-- The loop over the authority: every `@` makes a user info of the part before. -/
def scanAuthority (userInfo part : Bytes) : Bytes → Bytes × Bytes × Bytes
  | [] => (userInfo, part, [])
  | c :: it =>
      if endsAuthority c then (userInfo, part, c :: it)
      else if c = byte '@' then scanAuthority part [] it
      else scanAuthority userInfo (part ++ [c]) it

/-- The user info is in the end replaced by the local `info`, which is empty. -/
def parseAuthority (u : URI) (it : Bytes) : Except SyntaxException (URI × Bytes) := do
  let info : Bytes := []
  let (userInfo, part, it) := scanAuthority u.userInfo [] it
  let u ← { u with userInfo := userInfo }.parseHostAndPort part
  return ({ u with userInfo := info }, it)

def setAuthority (u : URI) (authority : Bytes) : Except SyntaxException URI := do
  let (u, _) ← { u with userInfo := [], host := [], port := 0 }.parseAuthority authority
  return u

def endsPath (c : UInt8) : Bool := c = byte '?' || c = byte '#'

def parsePath (u : URI) (it : Bytes) : Except SyntaxException (URI × Bytes) := do
  let path ← decode (it.takeWhile (!endsPath ·))
  return ({ u with path := u.path ++ path }, it.dropWhile (!endsPath ·))

def parseQuery (u : URI) (it : Bytes) : URI × Bytes :=
  ({ u with query := it.takeWhile (· ≠ byte '#') }, it.dropWhile (· ≠ byte '#'))

def parseFragment (u : URI) (it : Bytes) : Except SyntaxException URI := do
  let fragment ← decode it
  return { u with fragment := u.fragment ++ fragment }

def parseQueryEtc (u : URI) (it : Bytes) : Except SyntaxException URI :=
  let (u, it) := if it.head? = some (byte '?') then u.parseQuery it.tail else (u, it)
  if it.head? = some (byte '#') then u.parseFragment it.tail else .ok u

def parsePathEtc (u : URI) (it : Bytes) : Except SyntaxException URI :=
  if it = [] then .ok u
  else if it.head? ≠ some (byte '?') ∧ it.head? ≠ some (byte '#') then do
    let (u, it) ← u.parsePath it
    u.parseQueryEtc it
  else u.parseQueryEtc it

def parseAfterScheme (u : URI) (it : Bytes) : Except SyntaxException URI :=
  if bytes "//" <+: it then do
    let (u, it) ← u.parseAuthority (it.drop 2)
    u.parsePathEtc it
  else u.parsePathEtc it

def endsScheme (c : UInt8) : Bool :=
  c = byte ':' || c = byte '?' || c = byte '#' || c = byte '/'

def startsPath (c : UInt8) : Bool :=
  c = byte '/' || c = byte '.' || c = byte '?' || c = byte '#'

/-- A colon before the first slash, question mark or number sign ends the scheme. -/
def parse (u : URI) (uri : Bytes) : Except SyntaxException URI :=
  match uri with
  | [] => .ok u
  | c :: _ =>
      if startsPath c then u.parsePathEtc uri
      else
        match uri.dropWhile (!endsScheme ·) with
        | d :: it =>
            if d = byte ':' then
              if it = [] then
                .error ⟨bytes "URI scheme must be followed by authority or path: " ++ uri⟩
              else (u.setScheme (uri.takeWhile (!endsScheme ·))).parseAfterScheme it
            else u.parsePathEtc uri
        | [] => u.parsePathEtc uri

end URI

section Coding

theorem forall_byte {p : UInt8 → Prop} (h : ∀ n : Fin 256, p (UInt8.ofFin n)) (c : UInt8) : p c :=
  h c.toFin

theorem hexDigit_hexChar : ∀ c : UInt8, hexDigit (hexChar (c / 16)) = .ok (c / 16) ∧
    hexDigit (hexChar (c % 16)) = .ok (c % 16) :=
  forall_byte (by decide +kernel)

theorem nibbles : ∀ c : UInt8, c / 16 * 16 + c % 16 = c := forall_byte (by decide +kernel)

theorem encodeByte_cases (reserved : Bytes) (c : UInt8) :
    (encodeByte reserved c = [c] ∧ c ≠ byte '%') ∨
      encodeByte reserved c = byte '%' :: formatHex c := by
  have hpercent : ¬unreserved (byte '%') = true ∧ byte '%' ∈ illegal := by decide +kernel
  unfold encodeByte
  split_ifs with hunreserved hescaped
  · refine .inl ⟨rfl, ?_⟩
    rintro rfl
    exact hpercent.1 hunreserved
  · exact .inr rfl
  · refine .inl ⟨rfl, ?_⟩
    rintro rfl
    exact hescaped (.inr (.inr (.inl hpercent.2)))

theorem decodeFrom_plain {c : UInt8} (hplain : c ≠ byte '%') (str it : Bytes) :
    decodeFrom str (c :: it) = (decodeFrom str it).map (c :: ·) := by
  rw [decodeFrom.eq_def]
  simp only [if_neg hplain]
  cases decodeFrom str it <;> rfl

theorem decodeFrom_triplet {hi lo h l : UInt8} (hhi : hexDigit hi = .ok h)
    (hlo : hexDigit lo = .ok l) (str it : Bytes) :
    decodeFrom str (byte '%' :: hi :: lo :: it) =
      (decodeFrom str it).map ((h * 16 + l) :: ·) := by
  rw [decodeFrom.eq_def]
  simp only [if_pos, hhi, hlo]
  cases decodeFrom str it <;> rfl

theorem decodeFrom_encodeByte (str reserved : Bytes) (c : UInt8) (it : Bytes) :
    decodeFrom str (encodeByte reserved c ++ it) = (decodeFrom str it).map (c :: ·) := by
  rcases encodeByte_cases reserved c with ⟨heq, hplain⟩ | heq
  · rw [heq, List.singleton_append, decodeFrom_plain hplain]
  · obtain ⟨hhi, hlo⟩ := hexDigit_hexChar c
    have htriplet := decodeFrom_triplet hhi hlo str it
    rw [nibbles] at htriplet
    rw [heq]
    exact htriplet

theorem decodeFrom_encode (str reserved xs : Bytes) :
    decodeFrom str (encode xs reserved) = .ok xs := by
  induction xs with
  | nil => rfl
  | cons c xs ih =>
      rw [encode, List.flatMap_cons, decodeFrom_encodeByte, ← encode, ih]
      rfl

theorem decode_encode (xs reserved : Bytes) : decode (encode xs reserved) = .ok xs :=
  decodeFrom_encode _ reserved xs

/-- The value of a hexadecimal digit is its place among the sixteen, in either case. -/
def hexValue (c : UInt8) : Option UInt8 :=
  (((bytes "0123456789ABCDEF").idxOf? c).or ((bytes "0123456789abcdef").idxOf? c)).map UInt8.ofNat

/-- The bytes that a well percent-encoded text stands for. -/
inductive Decoded : Bytes → Bytes → Prop where
  | nil : Decoded [] []
  | plain {c : UInt8} {text decoded : Bytes} :
      c ≠ byte '%' → Decoded text decoded → Decoded (c :: text) (c :: decoded)
  | triplet {hi lo h l : UInt8} {text decoded : Bytes} :
      hexValue hi = some h → hexValue lo = some l → Decoded text decoded →
      Decoded (byte '%' :: hi :: lo :: text) ((h * 16 + l) :: decoded)

theorem toOption_hexDigit : ∀ c : UInt8, (hexDigit c).toOption = hexValue c :=
  forall_byte (by decide +kernel)

theorem hexDigit_of_hexValue {c d : UInt8} (h : hexValue c = some d) : hexDigit c = .ok d := by
  rw [← toOption_hexDigit] at h
  cases hd : hexDigit c with
  | error e => simp [hd, Except.toOption] at h
  | ok d' => simpa [hd, Except.toOption] using h

theorem Decoded.decodeFrom_eq {text decoded : Bytes} (h : Decoded text decoded) (str : Bytes) :
    decodeFrom str text = .ok decoded := by
  induction h with
  | nil => rfl
  | plain hplain _ ih =>
      rw [decodeFrom_plain hplain, ih]
      rfl
  | triplet hhi hlo _ ih =>
      rw [decodeFrom_triplet (hexDigit_of_hexValue hhi) (hexDigit_of_hexValue hlo), ih]
      rfl

theorem Decoded.decode_eq {text decoded : Bytes} (h : Decoded text decoded) :
    decode text = .ok decoded :=
  h.decodeFrom_eq text

end Coding

/-- The constructor that parses a text. -/
def uriOf (uri : Bytes) : Except SyntaxException URI := ({} : URI).parse uri

section Paths

/-- The loop of `getPathSegments` with the segment read so far. -/
def getPathSegmentsFrom (seg : Bytes) : Bytes → List Bytes
  | [] => if seg ≠ [] then [seg] else []
  | c :: it =>
      if c = byte '/' then
        if seg ≠ [] then seg :: getPathSegmentsFrom [] it else getPathSegmentsFrom seg it
      else getPathSegmentsFrom (seg ++ [c]) it

def getPathSegments (path : Bytes) : List Bytes := getPathSegmentsFrom [] path

def startsWithSlash (path : Bytes) : Bool := path.head? = some (byte '/')

def endsWithSlash (path : Bytes) : Bool := path.getLast? = some (byte '/')

/-- One round of the loop of `removeDotSegments`. -/
def removeDotStep (removeLeading : Bool) (normalizedSegments : List Bytes) (segment : Bytes) :
    List Bytes :=
  if segment = bytes ".." then
    if normalizedSegments ≠ [] then
      if normalizedSegments.getLast? = some (bytes "..") then normalizedSegments ++ [segment]
      else normalizedSegments.dropLast
    else if !removeLeading then normalizedSegments ++ [segment]
    else normalizedSegments
  else if segment ≠ bytes "." then normalizedSegments ++ [segment]
  else normalizedSegments

/-- One round of the loop of `mergePath`; the flag is `addTrailingSlash`. -/
def mergeStep (state : List Bytes × Bool) (segment : Bytes) : List Bytes × Bool :=
  if segment = bytes ".." then
    (if state.1 ≠ [] then state.1.dropLast else state.1, true)
  else if segment ≠ bytes "." then (state.1 ++ [segment], false)
  else (state.1, true)

namespace URI

/-- A leading segment with a colon is kept from being read as a scheme. -/
def buildPath (u : URI) (segments : List Bytes) (leadingSlash trailingSlash : Bool) : URI :=
  let path :=
    match segments with
    | [] => []
    | first :: rest =>
        (if leadingSlash then [byte '/']
        else if u.scheme = [] ∧ byte ':' ∈ first then bytes "./"
        else []) ++ first ++ rest.flatMap (byte '/' :: ·)
  { u with path := path ++ if trailingSlash then [byte '/'] else [] }

def removeDotSegments (u : URI) (removeLeading : Bool := true) : URI :=
  if u.path = [] then u
  else
    u.buildPath ((getPathSegments u.path).foldl (removeDotStep removeLeading) [])
      (startsWithSlash u.path) (endsWithSlash u.path)

/-- Leading dot segments stay where there is no scheme. -/
def normalize (u : URI) : URI := u.removeDotSegments (!u.isRelative)

/-- The parameter `path` hides the member, whose segments alone are read. -/
def mergePath (u : URI) (path : Bytes) : URI :=
  let segments := if path ≠ [] then getPathSegments u.path else []
  let segments :=
    if path ≠ [] ∧ !endsWithSlash path ∧ segments ≠ [] then segments.dropLast else segments
  let segments := segments ++ getPathSegments path
  let addLeadingSlash := path ≠ [] && startsWithSlash path
  let hasTrailingSlash := path ≠ [] && endsWithSlash path
  let (normalizedSegments, addTrailingSlash) := segments.foldl mergeStep ([], false)
  u.buildPath normalizedSegments addLeadingSlash (hasTrailingSlash || addTrailingSlash)

/-- Section 5.2 of RFC 3986, as the source has it. -/
def resolve (u relativeURI : URI) : URI :=
  let u :=
    if relativeURI.scheme ≠ [] then
      removeDotSegments { u with
        scheme := relativeURI.scheme
        userInfo := relativeURI.userInfo
        host := relativeURI.host
        port := relativeURI.port
        path := relativeURI.path
        query := relativeURI.query }
    else if relativeURI.host ≠ [] then
      removeDotSegments { u with
        userInfo := relativeURI.userInfo
        host := relativeURI.host
        port := relativeURI.port
        path := relativeURI.path
        query := relativeURI.query }
    else if relativeURI.path = [] then
      if relativeURI.query ≠ [] then { u with query := relativeURI.query } else u
    else
      let u :=
        if startsWithSlash relativeURI.path then
          removeDotSegments { u with path := relativeURI.path }
        else u.mergePath relativeURI.path
      { u with query := relativeURI.query }
  { u with fragment := relativeURI.fragment }

/-- The overload for a text parses it first. -/
def resolveText (u : URI) (relativeURI : Bytes) : Except SyntaxException URI := do
  let parsedURI ← uriOf relativeURI
  return u.resolve parsedURI

end URI

end Paths

section Components

namespace URI

/-- Ports are compared as `getPort` gives them. -/
def equals (u uri : URI) : Bool :=
  u.scheme = uri.scheme && u.userInfo = uri.userInfo && u.host = uri.host &&
    u.getPort = uri.getPort && u.path = uri.path && u.query = uri.query &&
    u.fragment = uri.fragment

def setUserInfo (u : URI) (info : Bytes) : Except SyntaxException URI := do
  let userInfo ← decode info
  return { u with userInfo := userInfo }

def setHost (u : URI) (newHost : Bytes) : URI := { u with host := newHost }

def setPort (u : URI) (newPort : UInt16) : URI := { u with port := newPort }

def setPath (u : URI) (newPath : Bytes) : Except SyntaxException URI := do
  let path ← decode newPath
  return { u with path := path }

def setRawQuery (u : URI) (newQuery : Bytes) : URI := { u with query := newQuery }

def setQuery (u : URI) (newQuery : Bytes) : URI := { u with query := encode newQuery reservedQuery }

def getQuery (u : URI) : Except SyntaxException Bytes := decode u.query

def setFragment (u : URI) (newFragment : Bytes) : Except SyntaxException URI := do
  let fragment ← decode newFragment
  return { u with fragment := fragment }

def setPathEtc (u : URI) (pathEtc : Bytes) : Except SyntaxException URI :=
  { u with path := [], query := [], fragment := [] }.parsePathEtc pathEtc

def getPathAndQuery (u : URI) : Bytes :=
  encode u.path reservedPath ++ if u.query ≠ [] then [byte '?'] ++ u.query else []

def getPathEtc (u : URI) : Bytes :=
  u.getPathAndQuery ++
    if u.fragment ≠ [] then [byte '#'] ++ encode u.fragment reservedFragment else []

def empty (u : URI) : Bool :=
  u.scheme = [] && u.host = [] && u.path = [] && u.query = [] && u.fragment = []

/-- `operator=` for a text, which clears the URI first. -/
def assign (uri : Bytes) : Except SyntaxException URI := ({} : URI).parse uri

end URI

end Components

end TwitchChatWorker.Uri
