import TwitchChatWorker.Uri

/-!
`encode` and `decode` as a code: what `encode` writes, what `decode` takes and
what it rejects.
-/

namespace TwitchChatWorker.PercentCoding

open TwitchChatWorker.Uri

/-- The digits that `encode` writes. -/
def upperHex (c : UInt8) : Bool :=
  byte '0' ≤ c && c ≤ byte '9' || byte 'A' ≤ c && c ≤ byte 'F'

/-- The digits that `decode` takes. -/
def hex (c : UInt8) : Bool := upperHex c || byte 'a' ≤ c && c ≤ byte 'f'

/-- The characters that stand for themselves in an encoded text. -/
def Plain (reserved : Bytes) (c : UInt8) : Prop :=
  unreserved c ∨ (0x20 < c ∧ c < 0x7F) ∧ c ∉ illegal ∧ c ∉ reserved

/-- The texts that `encode` writes. -/
inductive Encoded (reserved : Bytes) : Bytes → Prop where
  | nil : Encoded reserved []
  | plain {c : UInt8} {text : Bytes} :
      Plain reserved c → Encoded reserved text → Encoded reserved (c :: text)
  | triplet {hi lo : UInt8} {text : Bytes} :
      upperHex hi → upperHex lo → Encoded reserved text →
      Encoded reserved (byte '%' :: hi :: lo :: text)

/-- Behind complete triplets and plain characters there is a percent sign without
two hex digits. -/
inductive Malformed : Bytes → Prop where
  | here {text : Bytes} :
      (∀ hi lo rest, text = hi :: lo :: rest → ¬(hex hi ∧ hex lo)) →
      Malformed (byte '%' :: text)
  | plain {c : UInt8} {text : Bytes} : c ≠ byte '%' → Malformed text → Malformed (c :: text)
  | triplet {hi lo : UInt8} {text : Bytes} :
      hex hi → hex lo → Malformed text → Malformed (byte '%' :: hi :: lo :: text)

theorem upperHex_hexChar : ∀ c : UInt8,
    upperHex (hexChar (c / 16)) = true ∧ upperHex (hexChar (c % 16)) = true :=
  forall_byte (by decide +kernel)

/-- Signed, the bytes from `0x80` on are negative. -/
theorem printable_of_signed : ∀ c : UInt8,
    ¬(c.toInt8 ≤ 0x20 ∨ 0x7F ≤ c.toInt8) → 0x20 < c ∧ c < 0x7F :=
  forall_byte (by decide +kernel)

theorem hexValue_isSome : ∀ c : UInt8, hex c = true → (hexValue c).isSome = true :=
  forall_byte (by decide +kernel)

theorem hexDigit_of_not_hex : ∀ c : UInt8, ¬hex c = true →
    hexDigit c = .error ⟨bytes "URI encoding: not a hex digit"⟩ :=
  forall_byte (by decide +kernel)

theorem encoded_encodeByte (reserved : Bytes) (c : UInt8) {text : Bytes}
    (htext : Encoded reserved text) : Encoded reserved (encodeByte reserved c ++ text) := by
  unfold encodeByte
  split
  next hunreserved => exact .plain (.inl hunreserved) htext
  next =>
    split
    next => exact .triplet (upperHex_hexChar c).1 (upperHex_hexChar c).2 htext
    next hplain =>
      simp only [not_or] at hplain
      obtain ⟨hspace, hdelete, hillegal, hreserved⟩ := hplain
      have hprintable := printable_of_signed c (not_or.mpr ⟨hspace, hdelete⟩)
      exact .plain (.inr ⟨hprintable, hillegal, hreserved⟩) htext

theorem encoded_encode (str reserved : Bytes) : Encoded reserved (encode str reserved) := by
  induction str with
  | nil => exact .nil
  | cons c str ih =>
      rw [encode, List.flatMap_cons, ← encode]
      exact encoded_encodeByte reserved c ih

theorem decodeFrom_of_malformed {text : Bytes} (h : Malformed text) (str : Bytes) :
    ∃ e, decodeFrom str text = .error e := by
  induction h with
  | @here text hdigits =>
      match text with
      | [] => exact ⟨_, rfl⟩
      | [_] => exact ⟨_, rfl⟩
      | hi :: lo :: rest =>
          rw [decodeFrom.eq_def]
          by_cases hhi : hex hi
          · have hlo : ¬hex lo := fun hlo => hdigits hi lo rest rfl ⟨hhi, hlo⟩
            obtain ⟨h, hh⟩ := Option.isSome_iff_exists.mp (hexValue_isSome hi hhi)
            simp only [if_pos, hexDigit_of_hexValue hh, hexDigit_of_not_hex lo hlo]
            exact ⟨_, rfl⟩
          · simp only [if_pos, hexDigit_of_not_hex hi hhi]
            exact ⟨_, rfl⟩
  | plain hplain _ ih =>
      obtain ⟨e, he⟩ := ih
      rw [decodeFrom_plain hplain, he]
      exact ⟨e, rfl⟩
  | triplet hhi hlo _ ih =>
      obtain ⟨e, he⟩ := ih
      obtain ⟨h, hh⟩ := Option.isSome_iff_exists.mp (hexValue_isSome _ hhi)
      obtain ⟨l, hl⟩ := Option.isSome_iff_exists.mp (hexValue_isSome _ hlo)
      rw [decodeFrom_triplet (hexDigit_of_hexValue hh) (hexDigit_of_hexValue hl), he]
      exact ⟨e, rfl⟩

theorem decoded_or_malformed (text : Bytes) :
    (∃ decoded, Decoded text decoded) ∨ Malformed text := by
  induction text using decodeFrom.induct with
  | case1 => exact .inl ⟨[], .nil⟩
  | case2 => exact .inr (.here (by simp))
  | case3 hi => exact .inr (.here (by simp))
  | case4 hi lo text ih =>
      by_cases hdigits : hex hi ∧ hex lo
      · obtain ⟨hhi, hlo⟩ := hdigits
        rcases ih with ⟨decoded, hdecoded⟩ | hmalformed
        · obtain ⟨h, hh⟩ := Option.isSome_iff_exists.mp (hexValue_isSome hi hhi)
          obtain ⟨l, hl⟩ := Option.isSome_iff_exists.mp (hexValue_isSome lo hlo)
          exact .inl ⟨_, .triplet hh hl hdecoded⟩
        · exact .inr (.triplet hhi hlo hmalformed)
      · refine .inr (.here ?_)
        rintro hi' lo' rest heq
        simp only [List.cons.injEq] at heq
        obtain ⟨rfl, rfl, rfl⟩ := heq
        exact hdigits
  | case5 c text hplain ih =>
      rcases ih with ⟨decoded, hdecoded⟩ | hmalformed
      · exact .inl ⟨_, .plain hplain hdecoded⟩
      · exact .inr (.plain hplain hmalformed)

theorem decode_error_iff (text : Bytes) : (∃ e, decode text = .error e) ↔ Malformed text := by
  constructor
  · rintro ⟨e, he⟩
    rcases decoded_or_malformed text with ⟨decoded, hdecoded⟩ | hmalformed
    · rw [hdecoded.decode_eq] at he
      simp at he
    · exact hmalformed
  · intro hmalformed
    exact decodeFrom_of_malformed hmalformed text

/-- Encoding loses nothing and writes only plain characters and triplets;
decoding rejects exactly the malformed texts and takes every other one unit by
unit. -/
theorem percentCoding (str reserved text : Bytes) :
    decode (encode str reserved) = .ok str ∧ Encoded reserved (encode str reserved) ∧
      ((∃ e, decode text = .error e) ↔ Malformed text) ∧
      (¬Malformed text → ∃ decoded, decode text = .ok decoded ∧ Decoded text decoded) := by
  refine ⟨decode_encode str reserved, encoded_encode str reserved, decode_error_iff text, ?_⟩
  intro hwell
  obtain ⟨decoded, hdecoded⟩ := (decoded_or_malformed text).resolve_right hwell
  exact ⟨decoded, hdecoded.decode_eq, hdecoded⟩

end TwitchChatWorker.PercentCoding
