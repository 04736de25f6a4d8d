import Mathlib.Data.List.Basic
import Mathlib.Logic.Function.Basic
import Mathlib.Tactic.Common

/-!
The base64 encoding of byte strings over any alphabet of 64 symbols, with and
without padding.
-/

namespace TwitchChatWorker.Lib.Base64

/-- The groups of six bits of a byte string; the last group is filled up with
zeros. -/
def sextets : List UInt8 → List (Fin 64)
  | [] => []
  | [a] => [Fin.ofNat 64 (a.toNat / 4), Fin.ofNat 64 (a.toNat % 4 * 16)]
  | [a, b] =>
      [Fin.ofNat 64 (a.toNat / 4), Fin.ofNat 64 (a.toNat % 4 * 16 + b.toNat / 16),
        Fin.ofNat 64 (b.toNat % 16 * 4)]
  | a :: b :: c :: rest =>
      Fin.ofNat 64 (a.toNat / 4) :: Fin.ofNat 64 (a.toNat % 4 * 16 + b.toNat / 16) ::
        Fin.ofNat 64 (b.toNat % 16 * 4 + c.toNat / 64) :: Fin.ofNat 64 (c.toNat % 64) ::
        sextets rest

/-- The bytes of whole and partial groups of symbols. -/
def octets : List (Fin 64) → List UInt8
  | [s, t] => [UInt8.ofNat (s.val * 4 + t.val / 16)]
  | [s, t, u] =>
      [UInt8.ofNat (s.val * 4 + t.val / 16), UInt8.ofNat (t.val % 16 * 16 + u.val / 4)]
  | s :: t :: u :: v :: rest =>
      UInt8.ofNat (s.val * 4 + t.val / 16) :: UInt8.ofNat (t.val % 16 * 16 + u.val / 4) ::
        UInt8.ofNat (u.val % 4 * 64 + v.val) :: octets rest
  | _ => []

section Bits

variable (a b c : UInt8)

theorem first_octet {n : Nat} (h : n < 16) :
    UInt8.ofNat ((Fin.ofNat 64 (a.toNat / 4)).val * 4 +
      (Fin.ofNat 64 (a.toNat % 4 * 16 + n)).val / 16) = a := by
  have ha := a.toNat_lt
  apply UInt8.toNat.inj
  simp only [Fin.val_ofNat, UInt8.toNat_ofNat']
  omega

theorem second_octet {m n : Nat} (h : n < 4) :
    UInt8.ofNat ((Fin.ofNat 64 (m % 4 * 16 + b.toNat / 16)).val % 16 * 16 +
      (Fin.ofNat 64 (b.toNat % 16 * 4 + n)).val / 4) = b := by
  have hb := b.toNat_lt
  apply UInt8.toNat.inj
  simp only [Fin.val_ofNat, UInt8.toNat_ofNat']
  omega

theorem third_octet {m : Nat} :
    UInt8.ofNat ((Fin.ofNat 64 (m % 16 * 4 + c.toNat / 64)).val % 4 * 64 +
      (Fin.ofNat 64 (c.toNat % 64)).val) = c := by
  have hc := c.toNat_lt
  apply UInt8.toNat.inj
  simp only [Fin.val_ofNat, UInt8.toNat_ofNat']
  omega

end Bits

theorem octets_sextets (bytes : List UInt8) : octets (sextets bytes) = bytes := by
  induction bytes using sextets.induct with
  | case1 => rfl
  | case2 a =>
      have ha := first_octet a (n := 0) (by omega)
      simpa [sextets, octets] using ha
  | case3 a b =>
      have ha := first_octet a (n := b.toNat / 16) (by have := b.toNat_lt; omega)
      have hb := second_octet b (m := a.toNat) (n := 0) (by omega)
      simp only [sextets, octets, ha]
      simpa using hb
  | case4 a b c rest ih =>
      have ha := first_octet a (n := b.toNat / 16) (by have := b.toNat_lt; omega)
      have hb := second_octet b (m := a.toNat) (n := c.toNat / 64) (by have := c.toNat_lt; omega)
      have hc := third_octet c (m := b.toNat)
      simp only [sextets, octets, ha, hb, hc, ih]

theorem sextets_injective : Function.Injective sextets :=
  Function.LeftInverse.injective octets_sextets

variable {α : Type*}

def encode (symbol : Fin 64 → α) (bytes : List UInt8) : List α := (sextets bytes).map symbol

/-- The encoding, filled up with pads to full groups of four symbols. -/
def padded (symbol : Fin 64 → α) (pad : α) (bytes : List UInt8) : List α :=
  encode symbol bytes ++ List.replicate ((3 - bytes.length % 3) % 3) pad

theorem encode_injective {symbol : Fin 64 → α} (h : Function.Injective symbol) :
    Function.Injective (encode symbol) :=
  (List.map_injective_iff.mpr h).comp sextets_injective

theorem takeWhile_padded [DecidableEq α] {symbol : Fin 64 → α} {pad : α}
    (hpad : ∀ s, symbol s ≠ pad) (bytes : List UInt8) :
    (padded symbol pad bytes).takeWhile (fun x => decide (x ≠ pad)) = encode symbol bytes := by
  have hsymbols : ∀ x ∈ encode symbol bytes, decide (x ≠ pad) = true := by
    intro x hx
    obtain ⟨s, -, rfl⟩ := List.mem_map.mp hx
    simpa using hpad s
  rw [padded, List.takeWhile_append_of_pos hsymbols, List.takeWhile_replicate]
  simp

theorem padded_injective {symbol : Fin 64 → α} {pad : α} (h : Function.Injective symbol)
    (hpad : ∀ s, symbol s ≠ pad) : Function.Injective (padded symbol pad) := by
  classical
  intro left right heq
  apply encode_injective h
  rw [← takeWhile_padded hpad left, ← takeWhile_padded hpad right, heq]

theorem length_padded (symbol : Fin 64 → α) (pad : α) (bytes : List UInt8) :
    4 ∣ (padded symbol pad bytes).length := by
  induction bytes using sextets.induct with
  | case1 => simp [padded, encode, sextets]
  | case2 a => simp [padded, encode, sextets]
  | case3 a b => simp [padded, encode, sextets]
  | case4 a b c rest ih =>
      simp only [padded, encode, sextets, List.map_cons, List.length_append, List.length_cons,
        List.length_map, List.length_replicate] at ih ⊢
      omega

end TwitchChatWorker.Lib.Base64
