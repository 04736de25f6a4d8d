import TwitchChatWorker.Lib.Runs
import TwitchChatWorker.UriParsed

/-!
Equal URIs and what is done with them.  The comparison does not tell a port that
is not set from the well-known port of the scheme.
-/

namespace TwitchChatWorker.UriEquality

open TwitchChatWorker.Lib.Runs
open TwitchChatWorker.Uri
open TwitchChatWorker.UriParsed

/-- What the functions of the class that read a URI give. -/
structure Reading where
  scheme : Bytes
  userInfo : Bytes
  host : Bytes
  port : UInt16
  authority : Bytes
  path : Bytes
  rawQuery : Bytes
  query : Except SyntaxException Bytes
  fragment : Bytes
  pathEtc : Bytes
  pathAndQuery : Bytes
  isRelative : Bool
  empty : Bool
  toString : Bytes

/-- Everything that the getters give. -/
def reading (u : URI) : Reading where
  scheme := u.scheme
  userInfo := u.userInfo
  host := u.host
  port := u.getPort
  authority := u.getAuthority
  path := u.path
  rawQuery := u.query
  query := u.getQuery
  fragment := u.fragment
  pathEtc := u.getPathEtc
  pathAndQuery := u.getPathAndQuery
  isRelative := u.isRelative
  empty := u.empty
  toString := u.toString

/-- The functions of the class that change a URI. -/
inductive Change where
  | setScheme (scheme : Bytes)
  | setUserInfo (info : Bytes)
  | setHost (newHost : Bytes)
  | setPort (newPort : UInt16)
  | setAuthority (authority : Bytes)
  | setPath (newPath : Bytes)
  | setRawQuery (newQuery : Bytes)
  | setQuery (newQuery : Bytes)
  | setFragment (newFragment : Bytes)
  | setPathEtc (pathEtc : Bytes)
  | resolve (relativeURI : Bytes)
  | normalize
  | assign (uri : Bytes)
  | clear
deriving DecidableEq

/-- A call that changes the URI. -/
def change (u : URI) : Change → Except SyntaxException URI
  | .setScheme scheme => .ok (u.setScheme scheme)
  | .setUserInfo info => u.setUserInfo info
  | .setHost newHost => .ok (u.setHost newHost)
  | .setPort newPort => .ok (u.setPort newPort)
  | .setAuthority authority => u.setAuthority authority
  | .setPath newPath => u.setPath newPath
  | .setRawQuery newQuery => .ok (u.setRawQuery newQuery)
  | .setQuery newQuery => .ok (u.setQuery newQuery)
  | .setFragment newFragment => u.setFragment newFragment
  | .setPathEtc pathEtc => u.setPathEtc pathEtc
  | .resolve relativeURI => u.resolveText relativeURI
  | .normalize => .ok u.normalize
  | .assign uri => URI.assign uri
  | .clear => .ok {}

/-- Two URIs that are treated alike; what is left of a URI by an exception is not
used. -/
def step (p : URI × URI) (c : Change) : Option (URI × URI) :=
  match change p.1 c, change p.2 c with
  | .ok u, .ok v => some (u, v)
  | _, _ => none

/-- The two are equal, nothing that can be read of them differs, and every change
throws the same of both or of none. -/
structure Alike (p : URI × URI) : Prop where
  equals : p.1.equals p.2
  reading : reading p.1 = reading p.2
  throws : ∀ c e, change p.1 c = .error e ↔ change p.2 c = .error e

/-- A new scheme meets ports that are both set or both not set, or it has the
well-known port of the old one. -/
def KeepsPorts (t : Transition (URI × URI) Change) : Prop :=
  match t.event with
  | .setScheme scheme =>
      t.pre.1.port = t.pre.2.port ∨
        ({ t.pre.1 with scheme := toLower scheme } : URI).getWellKnownPort =
          t.pre.1.getWellKnownPort
  | _ => True

instance : DecidablePred KeepsPorts := fun t => by
  unfold KeepsPorts
  split <;> infer_instance

section Ports

/-- A URI with another port. -/
def withPort (p : UInt16) (u : URI) : URI := { u with port := p }

theorem equals_iff (u v : URI) :
    u.equals v = true ↔ v = withPort v.port u ∧ u.getPort = v.getPort := by
  obtain ⟨scheme, userInfo, host, port, path, query, fragment⟩ := u
  obtain ⟨scheme', userInfo', host', port', path', query', fragment'⟩ := v
  simp only [URI.equals, withPort, Bool.and_eq_true, decide_eq_true_eq, URI.mk.injEq, true_and]
  constructor
  · rintro ⟨⟨⟨⟨⟨⟨rfl, rfl⟩, rfl⟩, hport⟩, rfl⟩, rfl⟩, rfl⟩
    exact ⟨⟨rfl, rfl, rfl, rfl, rfl, rfl⟩, hport⟩
  · rintro ⟨⟨rfl, rfl, rfl, rfl, rfl, rfl⟩, hport⟩
    exact ⟨⟨⟨⟨⟨⟨rfl, rfl⟩, rfl⟩, hport⟩, rfl⟩, rfl⟩, rfl⟩

variable {u : URI} {p : UInt16}

/-- Ports that count the same are the same, or one is not set and the other is
well known. -/
theorem getPort_eq_iff : u.getPort = (withPort p u).getPort ↔
    u.port = p ∨ u.port = 0 ∧ p = u.getWellKnownPort ∨ p = 0 ∧ u.port = u.getWellKnownPort := by
  have hwell : (withPort p u).getWellKnownPort = u.getWellKnownPort := rfl
  unfold URI.getPort
  rw [hwell]
  simp only [withPort]
  split_ifs with hu hp hp
  · simp [hu, hp]
  · simp [hu, hp, eq_comm]
  · simp [hu, hp]
  · simp [hu, hp]

theorem getAuthority_withPort (h : u.getPort = (withPort p u).getPort) :
    (withPort p u).getAuthority = u.getAuthority := by
  unfold URI.getAuthority URI.isWellKnownPort
  apply congrArg₂ (· ++ ·) rfl
  rw [show (withPort p u).getWellKnownPort = u.getWellKnownPort from rfl]
  rcases getPort_eq_iff.mp h with rfl | ⟨hu, rfl⟩ | ⟨rfl, hu⟩
  · rfl
  · simp [withPort, hu]
  · simp [withPort, ← hu]

theorem reading_withPort (h : u.getPort = (withPort p u).getPort) :
    reading (withPort p u) = reading u := by
  have hauthority := getAuthority_withPort h
  have htext : (withPort p u).toString = u.toString := by
    unfold URI.toString
    rw [hauthority]
    rfl
  unfold reading
  rw [hauthority, htext, ← h]
  rfl

end Ports

section Changes

variable {u : URI} {p : UInt16}

theorem parsePath_withPort (it : Bytes) : (withPort p u).parsePath it =
    (u.parsePath it).map fun r => (withPort p r.1, r.2) := by
  unfold URI.parsePath
  cases decode (it.takeWhile (!URI.endsPath ·)) <;> rfl

theorem parseQueryEtc_withPort (it : Bytes) :
    (withPort p u).parseQueryEtc it = (u.parseQueryEtc it).map (withPort p) := by
  have htail (w : URI) (it : Bytes) :
      (if it.head? = some (byte '#') then (withPort p w).parseFragment it.tail
        else .ok (withPort p w)) =
        (if it.head? = some (byte '#') then w.parseFragment it.tail else .ok w).map
          (withPort p) := by
    split_ifs
    · unfold URI.parseFragment
      cases decode it.tail <;> rfl
    · rfl
  unfold URI.parseQueryEtc
  by_cases hquery : it.head? = some (byte '?')
  · rw [if_pos hquery, if_pos hquery]
    exact htail (u.parseQuery it.tail).1 (u.parseQuery it.tail).2
  · rw [if_neg hquery, if_neg hquery]
    exact htail u it

theorem parsePathEtc_withPort (it : Bytes) :
    (withPort p u).parsePathEtc it = (u.parsePathEtc it).map (withPort p) := by
  unfold URI.parsePathEtc
  split_ifs
  · rfl
  · rw [parsePath_withPort]
    cases u.parsePath it with
    | error e => rfl
    | ok r => exact parseQueryEtc_withPort r.2
  · exact parseQueryEtc_withPort it

theorem removeDotSegments_withPort (removeLeading : Bool) :
    (withPort p u).removeDotSegments removeLeading =
      withPort p (u.removeDotSegments removeLeading) := by
  unfold URI.removeDotSegments
  by_cases hpath : u.path = []
  · rw [if_pos hpath]
    exact if_pos hpath
  · rw [if_neg hpath]
    exact if_neg hpath

theorem removeDotSegments_frame (u : URI) (removeLeading : Bool) :
    (u.removeDotSegments removeLeading).port = u.port ∧
      (u.removeDotSegments removeLeading).scheme = u.scheme := by
  unfold URI.removeDotSegments
  split_ifs <;> exact ⟨rfl, rfl⟩

theorem resolve_given {v : URI} (hgiven : v.scheme ≠ [] ∨ v.host ≠ []) :
    (withPort p u).resolve v = u.resolve v := by
  unfold URI.resolve
  by_cases hscheme : v.scheme ≠ []
  · simp only [if_pos hscheme]
    rfl
  · have hhost : v.host ≠ [] := hgiven.resolve_left hscheme
    simp only [if_neg hscheme, if_pos hhost]
    rfl

theorem resolve_withPort (u : URI) (p : UInt16) {v : URI} (hscheme : v.scheme = [])
    (hhost : v.host = []) :
    (withPort p u).resolve v = withPort p (u.resolve v) ∧
      (u.resolve v).port = u.port ∧ (u.resolve v).scheme = u.scheme := by
  unfold URI.resolve
  simp only [if_neg (not_not.mpr hscheme), if_neg (not_not.mpr hhost)]
  by_cases hpath : v.path = []
  · simp only [if_pos hpath]
    by_cases hquery : v.query = []
    · rw [if_neg (not_not.mpr hquery), if_neg (not_not.mpr hquery)]
      exact ⟨rfl, rfl, rfl⟩
    · rw [if_pos hquery, if_pos hquery]
      exact ⟨rfl, rfl, rfl⟩
  · simp only [if_neg hpath]
    by_cases hslash : startsWithSlash v.path = true
    · obtain ⟨hport, hscheme⟩ := removeDotSegments_frame { u with path := v.path } true
      simp only [if_pos hslash]
      refine ⟨?_, hport, hscheme⟩
      have hsame := removeDotSegments_withPort (p := p) (u := { u with path := v.path }) true
      exact congrArg (fun w : URI => { w with query := v.query, fragment := v.fragment }) hsame
    · simp only [if_neg hslash]
      exact ⟨rfl, rfl, rfl⟩

/-- A change that is not of the scheme either sets the port anew or leaves it and
the scheme as they are, and what it does besides does not depend on the port. -/
theorem change_withPort {c : Change} (hscheme : ∀ scheme, c ≠ .setScheme scheme) :
    change (withPort p u) c = change u c ∨
      change (withPort p u) c = (change u c).map (withPort p) ∧
        ∀ w, change u c = .ok w → w.port = u.port ∧ w.scheme = u.scheme := by
  have hdecoded (text : Bytes) (set : URI → Bytes → URI)
      (hset : ∀ text, set (withPort p u) text = withPort p (set u text) ∧
        (set u text).port = u.port ∧ (set u text).scheme = u.scheme) :
      ((decode text).bind fun decoded => .ok (set (withPort p u) decoded)) =
          ((decode text).bind fun decoded => .ok (set u decoded)).map (withPort p) ∧
        ∀ w, ((decode text).bind fun decoded => .ok (set u decoded)) = .ok w →
          w.port = u.port ∧ w.scheme = u.scheme := by
    cases decode text with
    | error e => exact ⟨rfl, by simp [Except.bind]⟩
    | ok decoded =>
        refine ⟨congrArg Except.ok (hset decoded).1, fun w hw => ?_⟩
        obtain rfl := Except.ok.inj hw
        exact (hset decoded).2
  cases c with
  | setScheme scheme => exact absurd rfl (hscheme scheme)
  | setPort newPort => exact .inl rfl
  | setAuthority authority => exact .inl rfl
  | assign uri => exact .inl rfl
  | clear => exact .inl rfl
  | setHost newHost | setRawQuery newQuery | setQuery newQuery =>
      refine .inr ⟨rfl, fun w hw => ?_⟩
      obtain rfl := Except.ok.inj hw
      exact ⟨rfl, rfl⟩
  | setUserInfo info =>
      exact .inr (hdecoded info (fun u text => { u with userInfo := text })
        fun _ => ⟨rfl, rfl, rfl⟩)
  | setPath newPath =>
      exact .inr (hdecoded newPath (fun u text => { u with path := text })
        fun _ => ⟨rfl, rfl, rfl⟩)
  | setFragment newFragment =>
      exact .inr (hdecoded newFragment (fun u text => { u with fragment := text })
        fun _ => ⟨rfl, rfl, rfl⟩)
  | setPathEtc pathEtc =>
      let cleared : URI := { u with path := [], query := [], fragment := [] }
      refine .inr ⟨parsePathEtc_withPort (u := cleared) pathEtc, fun w hw => ?_⟩
      rw [(parsePathEtc_sets hw).frame]
      exact ⟨rfl, rfl⟩
  | resolve relativeURI =>
      simp only [change, URI.resolveText]
      cases uriOf relativeURI with
      | error e => exact .inl rfl
      | ok v =>
          by_cases hgiven : v.scheme ≠ [] ∨ v.host ≠ []
          · exact .inl (congrArg Except.ok (resolve_given hgiven))
          · rw [not_or, not_not, not_not] at hgiven
            obtain ⟨hsame, hframe⟩ := resolve_withPort u p hgiven.1 hgiven.2
            refine .inr ⟨congrArg Except.ok hsame, fun w hw => ?_⟩
            obtain rfl := Except.ok.inj hw
            exact hframe
  | normalize =>
      refine .inr ⟨congrArg Except.ok (removeDotSegments_withPort _), fun w hw => ?_⟩
      obtain rfl := Except.ok.inj hw
      unfold URI.normalize URI.removeDotSegments
      split_ifs <;> exact ⟨rfl, rfl⟩

theorem getPort_setScheme (u : URI) (scheme : Bytes) : (u.setScheme scheme).getPort =
    if u.port = 0 then ({ u with scheme := toLower scheme } : URI).getWellKnownPort
    else u.port := by
  by_cases hport : u.port = 0
  · rw [if_pos hport, URI.getPort, URI.setScheme]
    simp only [hport, if_true]
    split_ifs <;> rfl
  · rw [if_neg hport, URI.getPort, URI.setScheme]
    simp only [if_neg hport]

theorem equals_setScheme_iff (h : u.getPort = (withPort p u).getPort) (scheme : Bytes) :
    (u.setScheme scheme).equals ((withPort p u).setScheme scheme) = true ↔
      u.port = p ∨ ({ u with scheme := toLower scheme } : URI).getWellKnownPort =
        u.getWellKnownPort := by
  have hports : (u.setScheme scheme).equals ((withPort p u).setScheme scheme) = true ↔
      (u.setScheme scheme).getPort = ((withPort p u).setScheme scheme).getPort := by
    rw [equals_iff]
    apply and_iff_right
    unfold URI.setScheme
    dsimp only
    split_ifs <;> rfl
  rw [hports, getPort_setScheme, getPort_setScheme]
  rw [show ({ withPort p u with scheme := toLower scheme } : URI).getWellKnownPort =
    ({ u with scheme := toLower scheme } : URI).getWellKnownPort from rfl]
  generalize ({ u with scheme := toLower scheme } : URI).getWellKnownPort = port
  rw [show (withPort p u).port = p from rfl]
  rcases getPort_eq_iff.mp h with rfl | ⟨hu, rfl⟩ | ⟨rfl, hu⟩
  · simp
  · rw [hu, if_pos rfl, eq_comm (a := 0)]
    split_ifs with hwell <;> simp [hwell]
  · rw [hu, if_pos (rfl : (0 : UInt16) = 0)]
    split_ifs with hwell <;> simp [hwell, eq_comm]

end Changes

section Runs

/-- Equal URIs differ in nothing that can be read, and no change throws of one only. -/
theorem alike_of_equals {p : URI × URI} (h : p.1.equals p.2) : Alike p := by
  obtain ⟨u, v⟩ := p
  obtain ⟨hv, hport⟩ := (equals_iff u v).mp h
  generalize v.port = port at hv
  subst hv
  refine ⟨h, (reading_withPort hport).symm, fun c e => ?_⟩
  by_cases hscheme : ∃ scheme, c = .setScheme scheme
  · obtain ⟨scheme, rfl⟩ := hscheme
    simp [change]
  · rw [not_exists] at hscheme
    rcases change_withPort (u := u) (p := port) hscheme with heq | ⟨heq, -⟩
    · rw [heq]
    · rw [heq]
      cases change u c <;> simp [Except.map]

theorem equals_change {u v u' v' : URI} {c : Change} (hscheme : ∀ scheme, c ≠ .setScheme scheme)
    (h : u.equals v) (hu : change u c = .ok u') (hv : change v c = .ok v') : u'.equals v' := by
  obtain ⟨hsame, hport⟩ := (equals_iff u v).mp h
  generalize v.port = port at hsame
  subst hsame
  rcases change_withPort (u := u) (p := port) hscheme with heq | ⟨heq, hframe⟩
  · rw [heq, hu] at hv
    obtain rfl := Except.ok.inj hv
    exact (equals_iff u' u').mpr ⟨rfl, rfl⟩
  · rw [heq, hu] at hv
    obtain rfl := Except.ok.inj hv
    obtain ⟨hport', hscheme'⟩ := hframe u' hu
    apply (equals_iff u' _).mpr
    refine ⟨rfl, ?_⟩
    have hwell (w : URI) (hw : w.scheme = u.scheme) : w.getWellKnownPort = u.getWellKnownPort := by
      unfold URI.getWellKnownPort
      rw [hw]
    unfold URI.getPort at hport ⊢
    rw [hwell (withPort port u) rfl] at hport
    rw [hport', hwell u' hscheme', hwell (withPort port u') hscheme']
    exact hport

theorem alike_step_iff {p p' : URI × URI} {c : Change} (h : Alike p) (hstep : step p c = some p') :
    Alike p' ↔ KeepsPorts ⟨p, c, p'⟩ := by
  obtain ⟨u, v⟩ := p
  simp only [step] at hstep
  split at hstep
  next u' v' hu hv =>
    obtain rfl := Option.some.inj hstep
    by_cases hscheme : ∃ scheme, c = .setScheme scheme
    · obtain ⟨scheme, rfl⟩ := hscheme
      obtain rfl := Except.ok.inj hu
      obtain rfl := Except.ok.inj hv
      obtain ⟨hsame, hport⟩ := (equals_iff u v).mp h.equals
      have hiff := equals_setScheme_iff (hsame ▸ hport) scheme
      rw [← hsame] at hiff
      exact ⟨fun halike => hiff.mp halike.equals, fun hkeeps => alike_of_equals (hiff.mpr hkeeps)⟩
    · rw [not_exists] at hscheme
      refine iff_of_true (alike_of_equals (equals_change hscheme h.equals hu hv)) ?_
      cases c with
      | setScheme scheme => exact absurd rfl (hscheme scheme)
      | _ => trivial
  · simp at hstep

/-- Equal URIs stay alike through the same changes exactly when every new scheme
keeps their ports together. -/
theorem alike_iff_keepsPorts (u v : URI) (h : u.equals v)
    (tr : List (Transition (URI × URI) Change)) (p : URI × URI) (hrun : Run step (u, v) tr p) :
    (∀ t ∈ tr, Alike t.post) ↔ ∀ t ∈ tr, KeepsPorts t :=
  hrun.forall_good_iff (fun _ => True) Alike (fun _ => True) KeepsPorts trivial
    (alike_of_equals h) (fun _ _ _ _ _ _ => trivial)
    (fun _ _ _ _ _ hstep halike => alike_step_iff halike hstep) (fun _ _ => trivial)

/-- One URI has the well-known port set and the other none: with a new scheme they
part. -/
def parted : List Change :=
  [.setPath (bytes "/a%20b"), .resolve (bytes "../c?d"), .setScheme (bytes "HTTPS"), .normalize]

theorem alike_iff_keepsPorts_parted :
    let u : URI := { scheme := bytes "http", host := bytes "h", port := 80 }
    let v : URI := { scheme := bytes "http", host := bytes "h" }
    u.equals v = true ∧ ¬∀ t ∈ trace step (u, v) parted, Alike t.post := by
  intro u v
  have hequals : u.equals v = true := by decide +kernel
  have hsome : (exec step (u, v) parted).isSome := by decide +kernel
  have hparts : ¬∀ t ∈ trace step (u, v) parted, KeepsPorts t := by decide +kernel
  exact ⟨hequals, fun halike =>
    hparts ((alike_iff_keepsPorts u v hequals _ _ (run_trace parted hsome)).mp halike)⟩

end Runs

end TwitchChatWorker.UriEquality
