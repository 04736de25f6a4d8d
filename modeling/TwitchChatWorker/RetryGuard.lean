import Mathlib.Algebra.Group.Nat.Defs
import TwitchChatWorker.Lib.Attempts

/-!
The loops of `PGConnection` around the server: the connect loop of its
constructor and the retry loop around a request.  The server answers the n-th
attempt; the fuel bounds the attempts that are looked at.
-/

namespace TwitchChatWorker.RetryGuard

open TwitchChatWorker.Lib.Attempts

/-- The part of the configuration that the loops read. -/
structure PGConnectionConfig where
  sendRetries : UInt32 := 5
  retryDelaySec : UInt32 := 5

/-- `ExecStatusType`, as far as it is told apart. -/
inductive ExecStatus where
  | tuplesOk
  | fatalError
  | other
deriving DecidableEq

/-- What the library says about a new connection. -/
structure Login where
  statusOk : Bool
  setnonblocking : Int
deriving DecidableEq

/-- The success of a request, given the status of each of its results. -/
def request (results : List ExecStatus) : Bool :=
  results.foldl (fun success status =>
    match status with
    | .tuplesOk => true
    | .fatalError => false
    | .other => success) false

/-- `resetConnect` by what the login answers. -/
def resetConnect (login : Login) : Bool := !(!login.statusOk && login.setnonblocking != 0)

/-- The outcomes of the n-th call of the guarded function and of the reconnect
that follows it. -/
structure Outcomes where
  func : Nat → Bool
  resets : Nat → Bool

/-- How a loop ended: its result, its calls and the seconds it slept. -/
structure Ended where
  result : Bool
  calls : Nat
  sleptSec : Nat
deriving DecidableEq

/-- The loop with its `unsigned int` counter `i` and the number of calls so far. -/
def retryLoop (config : PGConnectionConfig) (o : Outcomes) : Nat → UInt32 → Nat → Option Ended
  | 0, _, _ => none
  | fuel + 1, i, n =>
      if o.func n then some ⟨true, n + 1, n * config.retryDelaySec.toNat⟩
      else if !o.resets n && i == config.sendRetries then
        some ⟨false, n + 1, (n + 1) * config.retryDelaySec.toNat⟩
      else retryLoop config o fuel (i + 1) (n + 1)

/-- `retryGuard`, with fuel for the rounds of its loop. -/
def retryGuard (config : PGConnectionConfig) (o : Outcomes) (fuel : Nat) : Option Ended :=
  retryLoop config o fuel 0 0

/-- `ping`, by what its requests and logins answer. -/
def ping (config : PGConnectionConfig) (results : Nat → List ExecStatus) (logins : Nat → Login)
    (fuel : Nat) : Option Ended :=
  retryGuard config ⟨fun n => request (results n), fun n => resetConnect (logins n)⟩ fuel

/-- The loop of the constructor; the result is `established`. -/
def connectLoop (config : PGConnectionConfig) (logins : Nat → Login) :
    Nat → UInt32 → Nat → Option Ended
  | 0, _, _ => none
  | fuel + 1, i, n =>
      if resetConnect (logins n) then some ⟨true, n + 1, n * config.retryDelaySec.toNat⟩
      else if i + 1 > config.sendRetries then
        some ⟨false, n + 1, n * config.retryDelaySec.toNat⟩
      else connectLoop config logins fuel (i + 1) (n + 1)

/-- The loop ends after at most `sendRetries + 1` calls, with true exactly when
one of them succeeded. -/
def Bounded (config : PGConnectionConfig) (o : Outcomes) : Prop :=
  ∃ fuel ended, retryGuard config o fuel = some ended ∧
    ended.calls ≤ config.sendRetries.toNat + 1 ∧
    (ended.result = true ↔ ∃ n < ended.calls, o.func n = true)

/-- How the n-th attempt ends the retry loop, if it does. -/
def verdict (config : PGConnectionConfig) (o : Outcomes) (n : Nat) : Option Bool :=
  if o.func n then some true
  else if !o.resets n && UInt32.ofNat n == config.sendRetries then some false
  else none

/-- How the call ends when its rounds are known. -/
def ended (config : PGConnectionConfig) (outcome : Bool × Nat) : Ended :=
  ⟨outcome.1, outcome.2 + 1,
    (if outcome.1 then outcome.2 else outcome.2 + 1) * config.retryDelaySec.toNat⟩

theorem ofNat_succ (n : Nat) : UInt32.ofNat n + 1 = UInt32.ofNat (n + 1) := by
  simp [UInt32.ofNat_add]

theorem retryLoop_eq (config : PGConnectionConfig) (o : Outcomes) (fuel n : Nat) :
    retryLoop config o fuel (UInt32.ofNat n) n =
      (firstOutcome (verdict config o) fuel n).map (ended config) := by
  induction fuel generalizing n with
  | zero => rfl
  | succ fuel ih =>
      simp only [retryLoop, firstOutcome, verdict, ofNat_succ]
      split_ifs
      · rfl
      · rfl
      · exact ih (n + 1)

theorem retryGuard_eq (config : PGConnectionConfig) (o : Outcomes) (fuel : Nat) :
    retryGuard config o fuel = (firstOutcome (verdict config o) fuel 0).map (ended config) :=
  retryLoop_eq config o fuel 0

theorem func_of_verdict_none {config : PGConnectionConfig} {o : Outcomes} {n : Nat}
    (h : verdict config o n = none) : o.func n = false := by
  unfold verdict at h
  split_ifs at h with hfunc
  exact Bool.eq_false_iff.mpr hfunc

theorem verdict_true_iff {config : PGConnectionConfig} {o : Outcomes} {n : Nat} :
    verdict config o n = some true ↔ o.func n = true := by
  unfold verdict
  split_ifs with hfunc <;> simp [hfunc]

theorem verdict_false_iff {config : PGConnectionConfig} {o : Outcomes} {n : Nat} :
    verdict config o n = some false ↔
      o.func n = false ∧ o.resets n = false ∧ UInt32.ofNat n = config.sendRetries := by
  unfold verdict
  split_ifs with hfunc hend
  · simp [hfunc]
  · simpa [hfunc] using hend
  · simpa [hfunc] using hend

theorem result_iff {config : PGConnectionConfig} {o : Outcomes} {result : Bool} {n : Nat}
    (hn : verdict config o n = some result) (hbefore : ∀ k < n, verdict config o k = none) :
    result = true ↔ ∃ k < n + 1, o.func k = true := by
  constructor
  · rintro rfl
    exact ⟨n, Nat.lt_succ_self n, verdict_true_iff.mp hn⟩
  · rintro ⟨k, hk, hfunc⟩
    rcases Nat.eq_or_lt_of_le (Nat.le_of_lt_succ hk) with rfl | hlt
    · exact Option.some.inj (hn.symm.trans (verdict_true_iff.mpr hfunc))
    · simp [func_of_verdict_none (hbefore k hlt)] at hfunc

theorem ends_of_bounded {config : PGConnectionConfig} {o : Outcomes} (h : Bounded config o) :
    (∃ n ≤ config.sendRetries.toNat, o.func n = true) ∨
      o.resets config.sendRetries.toNat = false := by
  obtain ⟨fuel, e, hguard, hcalls, -⟩ := h
  rw [retryGuard_eq] at hguard
  obtain ⟨⟨result, n⟩, hfirst, rfl⟩ := Option.map_eq_some_iff.mp hguard
  obtain ⟨-, -, hn, -⟩ := firstOutcome_eq_some_iff.mp hfirst
  have hle : n ≤ config.sendRetries.toNat := Nat.le_of_succ_le_succ hcalls
  cases result with
  | true => exact .inl ⟨n, hle, verdict_true_iff.mp hn⟩
  | false =>
      obtain ⟨-, hreset, hcounter⟩ := verdict_false_iff.mp hn
      have hlimit : config.sendRetries.toNat = n := by
        rw [← hcounter, UInt32.toNat_ofNat']
        exact Nat.mod_eq_of_lt (Nat.lt_of_le_of_lt hle config.sendRetries.toNat_lt)
      exact .inr (hlimit ▸ hreset)

theorem bounded_of_verdict {config : PGConnectionConfig} {o : Outcomes} {m : Nat}
    (hm : m ≤ config.sendRetries.toNat) (hsettled : verdict config o m ≠ none) :
    Bounded config o := by
  obtain ⟨fuel, result, n, hfirst, hle, hn, hbefore⟩ := exists_firstOutcome_le hsettled
  refine ⟨fuel, ended config (result, n), ?_, ?_, result_iff hn hbefore⟩
  · rw [retryGuard_eq, hfirst]
    rfl
  · exact Nat.succ_le_succ (Nat.le_trans hle hm)

/-- The loop is bounded exactly when one of the first `sendRetries + 1` calls
succeeds, or the reconnect after the last of them fails. -/
theorem bounded_iff (config : PGConnectionConfig) (o : Outcomes) :
    Bounded config o ↔
      (∃ n ≤ config.sendRetries.toNat, o.func n = true) ∨
        o.resets config.sendRetries.toNat = false := by
  constructor
  · exact ends_of_bounded
  · rintro (⟨n, hle, hfunc⟩ | hreset)
    · exact bounded_of_verdict hle (by simp [verdict_true_iff.mpr hfunc])
    · apply bounded_of_verdict (Nat.le_refl _)
      unfold verdict
      split_ifs <;> simp_all

/-- The server accepts every connection and answers no request. -/
theorem not_bounded_accepting :
    ¬∀ (config : PGConnectionConfig) (o : Outcomes), Bounded config o := by
  intro hall
  have hends := ends_of_bounded (hall {} ⟨fun _ => false, fun _ => true⟩)
  simp at hends

theorem ping_eq_none {config : PGConnectionConfig} {results : Nat → List ExecStatus}
    {logins : Nat → Login} (hrequests : ∀ n, request (results n) = false)
    (hlogins : ∀ n, resetConnect (logins n) = true) (fuel : Nat) :
    ping config results logins fuel = none := by
  rw [ping, retryGuard_eq, Option.map_eq_none_iff, Option.eq_none_iff_forall_ne_some]
  rintro ⟨result, n⟩ hfirst
  obtain ⟨-, -, hn, -⟩ := firstOutcome_eq_some_iff.mp hfirst
  simp [verdict, hrequests, hlogins] at hn

/-- How the n-th attempt ends the connect loop, if it does. -/
def connectVerdict (config : PGConnectionConfig) (logins : Nat → Login) (n : Nat) : Option Bool :=
  if resetConnect (logins n) then some true
  else if UInt32.ofNat n + 1 > config.sendRetries then some false
  else none

theorem connectLoop_eq (config : PGConnectionConfig) (logins : Nat → Login) (fuel n : Nat) :
    connectLoop config logins fuel (UInt32.ofNat n) n =
      (firstOutcome (connectVerdict config logins) fuel n).map fun outcome =>
        ⟨outcome.1, outcome.2 + 1, outcome.2 * config.retryDelaySec.toNat⟩ := by
  induction fuel generalizing n with
  | zero => rfl
  | succ fuel ih =>
      simp only [connectLoop, firstOutcome, connectVerdict, ofNat_succ]
      split_ifs
      · rfl
      · rfl
      · exact ih (n + 1)

/-- The connect loop compares its counter whatever the server does, so its limit
holds as long as the counter can exceed it. -/
theorem connectLoop_bounded (config : PGConnectionConfig) (logins : Nat → Login)
    (hlimit : config.sendRetries.toNat + 1 < 2 ^ 32) :
    ∃ fuel e, connectLoop config logins fuel 0 0 = some e ∧
      e.calls ≤ config.sendRetries.toNat + 1 ∧
      (e.result = true ↔ ∃ n < e.calls, resetConnect (logins n) = true) := by
  have hsettled : connectVerdict config logins config.sendRetries.toNat ≠ none := by
    have hexceeds : UInt32.ofNat config.sendRetries.toNat + 1 > config.sendRetries := by
      rw [ofNat_succ, gt_iff_lt, UInt32.lt_iff_toNat_lt, UInt32.toNat_ofNat',
        Nat.mod_eq_of_lt hlimit]
      exact Nat.lt_succ_self _
    unfold connectVerdict
    split_ifs <;> simp
  obtain ⟨fuel, result, n, hfirst, hle, hn, hbefore⟩ := exists_firstOutcome_le hsettled
  refine ⟨fuel, ⟨result, n + 1, n * config.retryDelaySec.toNat⟩, ?_, Nat.succ_le_succ hle, ?_⟩
  · exact (connectLoop_eq config logins fuel 0).trans (by rw [hfirst]; rfl)
  · constructor
    · rintro rfl
      refine ⟨n, Nat.lt_succ_self n, ?_⟩
      by_contra hreset
      simp [connectVerdict, hreset] at hn
    · rintro ⟨k, hk, hreset⟩
      have hk' : connectVerdict config logins k = some true := by
        simp [connectVerdict, hreset]
      rcases Nat.eq_or_lt_of_le (Nat.le_of_lt_succ hk) with rfl | hlt
      · exact Option.some.inj (hn.symm.trans hk')
      · simp [hbefore k hlt] at hk'

end TwitchChatWorker.RetryGuard
