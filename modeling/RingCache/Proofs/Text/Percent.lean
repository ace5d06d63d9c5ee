import Mathlib.Data.List.Basic
import Mathlib.Tactic.Common
import RingCache.Text.Percent

/-!
# Percent encoding can be undone

Each byte is written in a way that is read back as just that byte, whatever follows (`read_back`);
so a text is read back from its encoded form (`decode_encode`). An encoded text is made of letters,
digits, `-_.~` and `%` alone (`isWritten_encode`): it contains no separator of a path or a query.
-/

namespace RingCache.Text.Percent

/-- Whether a byte stands in an encoded text: it stands for itself, or is a percent sign. -/
def isWritten (b : UInt8) : Bool := isPlain b || b == 37

/-- The character that a byte below 128 encodes. -/
def charOf (b : UInt8) : Char := Char.ofNat b.toNat

/-! ### Single bytes -/

theorem value?_digit {n : UInt8} (h : n < 16) : value? (digit n) = some n := by
  rw [digit, value?]
  grind

theorem isWritten_digit {n : UInt8} (h : n < 16) : isWritten (digit n) = true := by
  simp only [isWritten, isPlain, digit, Bool.or_eq_true, Bool.and_eq_true, beq_iff_eq]
  split
  · grind
  · grind

theorem isPlain_percent : isPlain 37 = false := by decide

theorem lt_of_isWritten {b : UInt8} (h : isWritten b = true) : b < 128 := by
  rw [isWritten, isPlain] at h
  grind

theorem high_lt (b : UInt8) : b / 16 < 16 := by
  have := b.toNat_lt
  rw [UInt8.lt_iff_toNat_lt, UInt8.toNat_div]
  show b.toNat / 16 < 16
  omega

theorem low_lt (b : UInt8) : b % 16 < 16 := by
  rw [UInt8.lt_iff_toNat_lt, UInt8.toNat_mod]
  show b.toNat % 16 < 16
  omega

theorem high_low (b : UInt8) : b / 16 * 16 + b % 16 = b := by
  have := b.toNat_lt
  apply UInt8.toNat_inj.mp
  rw [UInt8.toNat_add, UInt8.toNat_mul, UInt8.toNat_div, UInt8.toNat_mod]
  show (b.toNat / 16 * 16 % 256 + b.toNat % 16) % 256 = b.toNat
  omega

theorem isWritten_encodeByte (b : UInt8) : ∀ w ∈ encodeByte b, isWritten w = true := by
  intro w hw
  rw [encodeByte] at hw
  split at hw
  · next hplain =>
    rw [List.mem_singleton.mp hw, isWritten, hplain]
    rfl
  · simp only [List.mem_cons, List.not_mem_nil, or_false] at hw
    rcases hw with rfl | rfl | rfl
    · decide
    · exact isWritten_digit (high_lt b)
    · exact isWritten_digit (low_lt b)

/-! ### Reading back -/

/-- A byte that is no percent sign stands for itself. -/
theorem decodeBytes_cons {b : UInt8} (h : b ≠ 37) (rest : List UInt8) :
    decodeBytes (b :: rest) = b :: decodeBytes rest := by
  rw [decodeBytes]
  rintro hi lo rest' rfl
  exact absurd rfl h

/-- **A written byte is read back**, whatever follows it. -/
theorem read_back (b : UInt8) (rest : List UInt8) :
    decodeBytes (encodeByte b ++ rest) = b :: decodeBytes rest := by
  rw [encodeByte]
  split
  · next hplain =>
    apply decodeBytes_cons
    rintro rfl
    rw [isPlain_percent] at hplain
    cases hplain
  · show decodeBytes (37 :: digit (b / 16) :: digit (b % 16) :: rest) = _
    rw [decodeBytes, value?_digit (high_lt b), value?_digit (low_lt b)]
    show (b / 16 * 16 + b % 16) :: _ = _
    rw [high_low]

theorem decodeBytes_flatMap (bs : List UInt8) : decodeBytes (bs.flatMap encodeByte) = bs := by
  induction bs with
  | nil => rw [List.flatMap_nil, decodeBytes]
  | cons b bs ih => rw [List.flatMap_cons, read_back, ih]

/-! ### Texts -/

/-- The characters of an encoded text are bytes below 128. -/
theorem utf8EncodeChar_charOf {b : UInt8} (h : b < 128) :
    String.utf8EncodeChar (charOf b) = [b] := by
  have hlt : b.toNat < 128 := UInt8.lt_iff_toNat_lt.mp h
  have hval : (charOf b).val.toNat = b.toNat := by
    rw [charOf, Char.ofNat, dif_pos (.inl (by omega))]
    rfl
  rw [String.utf8EncodeChar]
  simp only [hval]
  rw [if_pos (by omega), UInt8.ofNat_toNat]

theorem charOf_inj {b b' : UInt8} (h : b < 128) (h' : b' < 128) (heq : charOf b = charOf b') :
    b = b' := by
  have hsame : [b] = [b'] := by
    rw [← utf8EncodeChar_charOf h, heq, utf8EncodeChar_charOf h']
  exact List.singleton_inj.mp hsame

theorem flatMap_utf8EncodeChar {bs : List UInt8} (h : ∀ b ∈ bs, b < 128) :
    (bs.map charOf).flatMap String.utf8EncodeChar = bs := by
  induction bs with
  | nil => rfl
  | cons b bs ih =>
    rw [List.map_cons, List.flatMap_cons, utf8EncodeChar_charOf (h b List.mem_cons_self),
      ih fun c hc => h c (List.mem_cons_of_mem _ hc)]
    rfl

theorem toUTF8_ofList {bs : List UInt8} (h : ∀ b ∈ bs, b < 128) :
    (String.ofList (bs.map charOf)).toUTF8.data.toList = bs := by
  rw [String.toUTF8, String.toByteArray_ofList, List.utf8Encode, flatMap_utf8EncodeChar h,
    List.data_toByteArray]

theorem isWritten_bytes (s : String) :
    ∀ b ∈ s.toUTF8.data.toList.flatMap encodeByte, isWritten b = true := by
  intro b hb
  obtain ⟨c, -, hbc⟩ := List.mem_flatMap.mp hb
  exact isWritten_encodeByte c b hbc

/-- **An encoded text** is made of plain characters and percent signs. -/
theorem isWritten_encode (s : String) :
    ∀ c ∈ (encode s).toList, ∃ b, isWritten b = true ∧ c = charOf b := by
  intro c hc
  rw [encode, String.toList_ofList] at hc
  obtain ⟨b, hb, rfl⟩ := List.mem_map.mp hc
  exact ⟨b, isWritten_bytes s b hb, rfl⟩

/-- Bytes below 128 that are not written stand in no encoded text. -/
theorem not_mem_encode {b : UInt8} (hlt : b < 128) (hb : isWritten b = false) (s : String) :
    charOf b ∉ (encode s).toList := by
  intro hmem
  obtain ⟨b', hb', heq⟩ := isWritten_encode s _ hmem
  rw [charOf_inj hlt (lt_of_isWritten hb') heq, hb'] at hb
  cases hb

theorem text?_toUTF8 (s : String) : Utf8.text? s.toUTF8 = .ok s := by
  have hread : String.fromUTF8? s.toUTF8 = some s := dif_pos s.isValidUTF8
  rw [Utf8.text?, hread]

/-- The bytes that an encoded text stands for are those of the text. -/
theorem bytes_encode (s : String) : bytes (encode s) = s.toUTF8 := by
  have hbytes : (encode s).toUTF8.data.toList = s.toUTF8.data.toList.flatMap encodeByte :=
    toUTF8_ofList fun b hb => lt_of_isWritten (isWritten_bytes s b hb)
  rw [bytes, hbytes, decodeBytes_flatMap]

/-- **A text is read back** from its encoded form. -/
theorem decode_encode (s : String) : decode (encode s) = .ok s := by
  rw [decode, bytes_encode, text?_toUTF8]

/-- Different texts are encoded differently. -/
theorem encode_inj {s t : String} (h : encode s = encode t) : s = t := by
  have hdecode := decode_encode s
  rw [h, decode_encode] at hdecode
  cases hdecode
  rfl

example : encode "a b/é" = "a%20b%2F%C3%A9" := by decide +kernel

end RingCache.Text.Percent
