import TwitchChatWorker.JsonValues
import TwitchChatWorker.Lib.Base64
import TwitchChatWorker.Lib.Scanning
import TwitchChatWorker.Uri

/-!
Basic authentication in `HTTPServer`.  Header texts are cut at positions of the
type `size_t`.
-/

namespace TwitchChatWorker.BasicAuthentication

open TwitchChatWorker.JsonValues
open TwitchChatWorker.Lib
open TwitchChatWorker.Lib.Scanning
open TwitchChatWorker.Uri

/-- The greatest `size_t`, also the position of what is not found. -/
def npos : Nat := 2 ^ 64 - 1

/-- A text in memory is shorter than `npos`. -/
abbrev Value := { text : Bytes // text.length < npos }

/-- A header field of a request. -/
structure Field where
  name : Bytes
  value : Value

/-- What the server reads of a request. -/
structure Request where
  method : Bytes := bytes "GET"
  target : Bytes := bytes "/"
  version : Nat := 11
  keepAlive : Bool := true
  fields : List Field := []
  body : Bytes := []

/-- What the server uses of Boost: the characters between the two base64
iterators, the search for a field, and the text of its version. -/
structure Boost where
  base64 : Bytes → Bytes
  find : List Field → Bytes → Option Value
  version : String

/-- The characters of Base64 in the order of their values. -/
def alphabet : Bytes := bytes "ABCDEFGHIJKLMNOPQRSTUVWXYZabcdefghijklmnopqrstuvwxyz0123456789+/"

def symbol (s : Fin 64) : UInt8 := alphabet.getD s.val 0

/-- The value of the first field of a name; names have no case. -/
def firstValue (fields : List Field) (name : Bytes) : Option Value :=
  (fields.find? fun field => decide (toLower field.name = toLower name)).map Field.value

/-- The iterators yield the unpadded encoding, `find` returns the first field. -/
structure Boost.Documented (boost : Boost) : Prop where
  base64 : ∀ val, boost.base64 val = Base64.encode symbol val
  find : ∀ fields name, boost.find fields name = firstValue fields name

/-- What the server itself answers with. -/
structure Response where
  status : Nat
  version : Nat
  server : String
  contentType : String
  keepAlive : Bool
  body : Json

/-- `HTTPResponseFactory::CreateResponse` with an error as its body. -/
def createResponse (boost : Boost) (req : Request) (status : Nat) (error : String) : Response where
  status := status
  version := req.version
  server := boost.version
  contentType := "application/json"
  keepAlive := req.keepAlive
  body := .object [("error", .string error)]

def unauthorized (boost : Boost) (req : Request) : Response :=
  createResponse boost req 401 "Unauthorized"

def forbidden (boost : Boost) (req : Request) : Response :=
  createResponse boost req 403 "Forbidden"

def notAcceptable (boost : Boost) (req : Request) : Response :=
  createResponse boost req 406 "Not acceptable here"

/-- The configured user and password, empty for none. -/
structure HTTPServerConfig where
  user : Bytes := []
  pass : Bytes := []

structure HTTPServer where
  basicAuth : Bytes := []

/-- `encode64`. -/
def encode64 (boost : Boost) (val : Bytes) : Bytes :=
  boost.base64 val ++ List.replicate ((3 - val.length % 3) % 3) (byte '=')

/-- What a client has to encode. -/
def credentials (config : HTTPServerConfig) : Bytes :=
  config.user ++ byte ':' :: config.pass

/-- The constructor, as far as it is about authentication. -/
def newHTTPServer (boost : Boost) (config : HTTPServerConfig) : HTTPServer :=
  if config.pass ≠ [] then { basicAuth := encode64 boost (credentials config) } else {}

/-- `std::out_of_range`. -/
structure OutOfRange where

/-- `find` of a `string_view`, with `npos` for nothing found. -/
def find (text : Bytes) (c : UInt8) : Nat := if c ∈ text then text.idxOf c else npos

/-- `substr` of a `string_view`. -/
def substr (text : Bytes) (pos n : Nat) : Except OutOfRange Bytes :=
  if text.length < pos then .error ⟨⟩ else .ok ((text.drop pos).take n)

/-- Who gets the request: the client, as the one response, or the application
handler. -/
inductive Handled where
  | sent (response : Response)
  | passed (req : Request)

def handleRequest (boost : Boost) (server : HTTPServer) (req : Request) :
    Except OutOfRange Handled :=
  if server.basicAuth ≠ [] then
    match boost.find req.fields (bytes "Authorization") with
    | none => return .sent (unauthorized boost req)
    | some value => do
        let pos := find value (byte ' ')
        let type ← substr value 0 pos
        if type ≠ bytes "Basic" then
          return .sent (notAcceptable boost req)
        -- the sum wraps around to the beginning where there is no space
        let encoded ← substr value ((pos + 1) % 2 ^ 64) npos
        if encoded ≠ server.basicAuth then
          return .sent (forbidden boost req)
        return .passed req
  else return .passed req

/-! ### Where a value is cut -/

theorem symbol_injective : Function.Injective symbol := by
  unfold Function.Injective
  decide +kernel

theorem symbol_ne_pad : ∀ s, symbol s ≠ byte '=' := by
  decide +kernel

/-- The value of the first field `Authorization`. -/
def authorization (req : Request) : Option Value :=
  firstValue req.fields (bytes "Authorization")

/-- The padded base64 of `user:password`. -/
def expected (config : HTTPServerConfig) : Bytes :=
  Base64.padded symbol (byte '=') (credentials config)

/-- The application handler gets the request. -/
def Accepts (boost : Boost) (config : HTTPServerConfig) (req : Request) : Prop :=
  handleRequest boost (newHTTPServer boost config) req = .ok (.passed req)

section Cuts

variable {value : Value}

theorem substr_zero_npos (value : Value) : substr value 0 npos = .ok value.1 := by
  rw [substr, if_neg (Nat.not_lt_zero _), List.drop_zero, List.take_of_length_le value.2.le]

theorem cut_of_not_mem (h : byte ' ' ∉ value.1) :
    substr value 0 (find value (byte ' ')) = .ok value.1 ∧
      substr value ((find value (byte ' ') + 1) % 2 ^ 64) npos = .ok value.1 := by
  rw [find, if_neg h]
  exact ⟨substr_zero_npos value, substr_zero_npos value⟩

theorem cut_of_append {head rest : Bytes} (h : value.1 = head ++ byte ' ' :: rest)
    (hhead : byte ' ' ∉ head) :
    substr value 0 (find value (byte ' ')) = .ok head ∧
      substr value ((find value (byte ' ') + 1) % 2 ^ 64) npos = .ok rest := by
  have hlength : value.1.length = head.length + (rest.length + 1) := by simp [h]
  have hsize := value.2
  have hfind : find value (byte ' ') = head.length := by
    rw [find, h, if_pos (by simp), List.idxOf_append_of_notMem hhead, List.idxOf_cons_self]
    rfl
  have hwrap : (head.length + 1) % 2 ^ 64 = head.length + 1 := by
    apply Nat.mod_eq_of_lt
    simp only [npos] at hsize
    omega
  rw [hfind, hwrap]
  constructor
  · rw [substr, if_neg (Nat.not_lt_zero _), h, List.drop_zero, List.take_left]
  · rw [substr, if_neg (by omega), h]
    rw [← List.singleton_append, ← List.append_assoc, List.drop_left' (by simp)]
    rw [List.take_of_length_le]
    omega

theorem space_cases (value : Value) :
    byte ' ' ∉ value.1 ∨
      ∃ head rest, value.1 = head ++ byte ' ' :: rest ∧ byte ' ' ∉ head := by
  by_cases h : byte ' ' ∈ value.1
  · obtain ⟨head, rest, heq, hhead⟩ := List.eq_append_cons_of_mem h
    exact Or.inr ⟨head, rest, heq, hhead⟩
  · exact Or.inl h

end Cuts

section Requests

variable {boost : Boost} {config : HTTPServerConfig} {req : Request}

theorem padded_symbol_injective : Function.Injective (Base64.padded symbol (byte '=')) :=
  Base64.padded_injective symbol_injective symbol_ne_pad

theorem expected_ne_nil (config : HTTPServerConfig) : expected config ≠ [] := by
  intro h
  have hnil : credentials config = [] := padded_symbol_injective h
  simp [credentials] at hnil

theorem basicAuth_of_pass (hboost : boost.Documented) (hpass : config.pass ≠ []) :
    (newHTTPServer boost config).basicAuth = expected config := by
  rw [newHTTPServer, if_pos hpass]
  change encode64 boost (credentials config) = _
  rw [encode64, hboost.base64]
  rfl

theorem accepts_of_no_pass (hpass : config.pass = []) : Accepts boost config req := by
  simp [Accepts, newHTTPServer, hpass, handleRequest, pure, Except.pure]

theorem handleRequest_of_none (hboost : boost.Documented) (hpass : config.pass ≠ [])
    (hreq : authorization req = none) :
    handleRequest boost (newHTTPServer boost config) req =
      .ok (.sent (unauthorized boost req)) := by
  have hfind : boost.find req.fields (bytes "Authorization") = none :=
    (hboost.find _ _).trans hreq
  rw [handleRequest, basicAuth_of_pass hboost hpass, if_pos (expected_ne_nil config), hfind]
  rfl

theorem handleRequest_of_cut (hboost : boost.Documented) (hpass : config.pass ≠ [])
    {value : Value} (hreq : authorization req = some value) {type encoded : Bytes}
    (hcut : substr value 0 (find value (byte ' ')) = .ok type ∧
      substr value ((find value (byte ' ') + 1) % 2 ^ 64) npos = .ok encoded) :
    handleRequest boost (newHTTPServer boost config) req =
      if type ≠ bytes "Basic" then .ok (.sent (notAcceptable boost req))
      else if encoded ≠ expected config then .ok (.sent (forbidden boost req))
      else .ok (.passed req) := by
  have hfind : boost.find req.fields (bytes "Authorization") = some value :=
    (hboost.find _ _).trans hreq
  rw [handleRequest, basicAuth_of_pass hboost hpass, if_pos (expected_ne_nil config), hfind]
  simp only [hcut.1, hcut.2, bind, Except.bind, pure, Except.pure]

theorem bytes_basic_no_space : byte ' ' ∉ bytes "Basic" := by
  decide

/-- A value is cut into `Basic` and the expected text only where it is these
two with a space between them: without a space it would be its own text, of
five characters, while encodings come in fours. -/
theorem cut_eq_expected_iff {value : Value} {type encoded : Bytes}
    (hcut : substr value 0 (find value (byte ' ')) = .ok type ∧
      substr value ((find value (byte ' ') + 1) % 2 ^ 64) npos = .ok encoded) :
    type = bytes "Basic" ∧ encoded = expected config ↔
      value.1 = bytes "Basic " ++ expected config := by
  have hspace (rest : Bytes) : bytes "Basic " ++ rest = bytes "Basic" ++ byte ' ' :: rest := rfl
  rw [hspace]
  constructor
  · rintro ⟨rfl, rfl⟩
    rcases space_cases value with hnone | ⟨head, rest, heq, hhead⟩
    · obtain ⟨htype, hencoded⟩ := cut_of_not_mem hnone
      have hbasic : value.1 = bytes "Basic" := Except.ok.inj (htype.symm.trans hcut.1)
      have hexpected : value.1 = expected config := Except.ok.inj (hencoded.symm.trans hcut.2)
      have hfour := Base64.length_padded symbol (byte '=') (credentials config)
      change 4 ∣ (expected config).length at hfour
      rw [← hexpected, hbasic] at hfour
      exact absurd hfour (by decide)
    · obtain ⟨htype, hencoded⟩ := cut_of_append heq hhead
      have hbasic : head = bytes "Basic" := Except.ok.inj (htype.symm.trans hcut.1)
      have hexpected : rest = expected config := Except.ok.inj (hencoded.symm.trans hcut.2)
      rw [heq, hbasic, hexpected]
  · intro heq
    obtain ⟨htype, hencoded⟩ := cut_of_append heq bytes_basic_no_space
    exact ⟨Except.ok.inj (hcut.1.symm.trans htype), Except.ok.inj (hcut.2.symm.trans hencoded)⟩

theorem exists_cut (value : Value) : ∃ type encoded,
    substr value 0 (find value (byte ' ')) = .ok type ∧
      substr value ((find value (byte ' ') + 1) % 2 ^ 64) npos = .ok encoded := by
  rcases space_cases value with hnone | ⟨head, rest, heq, hhead⟩
  · exact ⟨_, _, cut_of_not_mem hnone⟩
  · exact ⟨_, _, cut_of_append heq hhead⟩

theorem accepts_iff (hboost : boost.Documented) :
    Accepts boost config req ↔ config.pass = [] ∨
      ∃ value, authorization req = some value ∧ value.1 = bytes "Basic " ++ expected config := by
  by_cases hpass : config.pass = []
  · exact iff_of_true (accepts_of_no_pass hpass) (Or.inl hpass)
  · rw [or_iff_right hpass]
    cases hreq : authorization req with
    | none =>
        rw [Accepts, handleRequest_of_none hboost hpass hreq]
        simp
    | some value =>
        obtain ⟨type, encoded, hcut⟩ := exists_cut value
        rw [Accepts, handleRequest_of_cut hboost hpass hreq hcut]
        simp only [Option.some.injEq, exists_eq_left', ← cut_eq_expected_iff hcut]
        split_ifs with htype hencoded
        · simp [htype]
        · simp [hencoded]
        · simpa using ⟨not_not.mp htype, not_not.mp hencoded⟩

theorem refused_of_not_accepts (hboost : boost.Documented) (h : ¬Accepts boost config req) :
    ∃ response, handleRequest boost (newHTTPServer boost config) req = .ok (.sent response) ∧
      response.status ∈ [401, 406, 403] := by
  have hpass : config.pass ≠ [] := fun hpass => h (accepts_of_no_pass hpass)
  cases hreq : authorization req with
  | none =>
      exact ⟨_, handleRequest_of_none hboost hpass hreq, by simp [unauthorized, createResponse]⟩
  | some value =>
      obtain ⟨type, encoded, hcut⟩ := exists_cut value
      have hresult := handleRequest_of_cut hboost hpass hreq hcut
      split_ifs at hresult with htype hencoded
      · exact ⟨_, hresult, by simp [notAcceptable, createResponse]⟩
      · exact ⟨_, hresult, by simp [forbidden, createResponse]⟩
      · exact absurd hresult h

/-- Passwords that are not empty are asked for exactly, and a request that is
not passed on gets one response; servers that have passwords and accept the
same value have the same credentials. -/
theorem authentication_exact (hboost : boost.Documented) :
    (∀ (config : HTTPServerConfig) (req : Request),
      (Accepts boost config req ↔ config.pass = [] ∨
        ∃ value, authorization req = some value ∧
          value.1 = bytes "Basic " ++ expected config) ∧
      (¬Accepts boost config req → ∃ response,
        handleRequest boost (newHTTPServer boost config) req = .ok (.sent response) ∧
          response.status ∈ [401, 406, 403])) ∧
    ∀ (config config' : HTTPServerConfig) (req req' : Request) (value : Value),
      config.pass ≠ [] → config'.pass ≠ [] → authorization req = some value →
      authorization req' = some value → Accepts boost config req → Accepts boost config' req' →
      credentials config = credentials config' := by
  constructor
  · intro config req
    exact ⟨accepts_iff hboost, refused_of_not_accepts hboost⟩
  · intro config config' req req' value hpass hpass' hreq hreq' haccepts haccepts'
    rw [accepts_iff hboost, or_iff_right hpass, hreq] at haccepts
    rw [accepts_iff hboost, or_iff_right hpass', hreq'] at haccepts'
    obtain ⟨_, ⟨⟩, hvalue⟩ := haccepts
    obtain ⟨_, ⟨⟩, hvalue'⟩ := haccepts'
    exact padded_symbol_injective (List.append_cancel_left (hvalue.symm.trans hvalue'))

end Requests

/-- What the library documents. -/
def documented : Boost where
  base64 := Base64.encode symbol
  find := firstValue
  version := "Boost.Beast"

theorem documented_documented : documented.Documented where
  base64 := fun _ => rfl
  find := fun _ _ => rfl

/-- The password `key` of the user `bot`. -/
theorem authentication_exact_bot :
    Accepts documented ⟨bytes "bot", bytes "key"⟩
      { fields :=
          [⟨bytes "authorization", ⟨bytes "Basic Ym90OmtleQ==", by decide⟩⟩] } :=
  ((authentication_exact documented_documented).1 _ _).1.mpr (Or.inr ⟨_, rfl, by decide⟩)

/-- Two servers without passwords accept every value. -/
theorem not_authentication_exact_empty :
    ¬∀ (boost : Boost) (config config' : HTTPServerConfig) (req : Request) (value : Value),
      boost.Documented → authorization req = some value → Accepts boost config req →
      Accepts boost config' req → credentials config = credentials config' := by
  intro hall
  have heq := hall documented ⟨bytes "a", []⟩ ⟨bytes "b", []⟩
    { fields := [⟨bytes "Authorization", ⟨[], by decide⟩⟩] } _ documented_documented rfl
    (accepts_of_no_pass rfl) (accepts_of_no_pass rfl)
  exact absurd heq (by decide)

end TwitchChatWorker.BasicAuthentication
