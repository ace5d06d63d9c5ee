import Mathlib.Tactic.Common
import RingCache.Proofs.Text.Percent

/-!
# What a written form stands for

A percent sign with two hexadecimal digits stands for one byte, and every other byte stands for
itself, a percent sign without two such digits included. `Spells` says so by rules, without an order
of reading, and `decodeBytes` finds just what the rules give (`decodeBytes_eq_iff`). A segment can
therefore be read as a text just where it spells the bytes of one (`decode_eq_ok_iff`).
-/

namespace RingCache.Text.Percent

variable {written bs : List UInt8} {segment s : String}

/-- A percent sign and two hexadecimal digits stand in front. -/
def BeginsEscape (written : List UInt8) : Prop :=
  ∃ hi lo rest, written = 37 :: hi :: lo :: rest ∧ (value? hi).isSome ∧ (value? lo).isSome

/-- What written bytes stand for. -/
inductive Spells : List UInt8 → List UInt8 → Prop where
  | nil : Spells [] []
  /-- two digits after a percent sign make a byte -/
  | escape {hi lo high low : UInt8} {rest bs : List UInt8} (hhi : value? hi = some high)
      (hlo : value? lo = some low) (h : Spells rest bs) :
      Spells (37 :: hi :: lo :: rest) ((high * 16 + low) :: bs)
  /-- any other byte stands for itself -/
  | itself {b : UInt8} {rest bs : List UInt8} (hplain : ¬ BeginsEscape (b :: rest))
      (h : Spells rest bs) : Spells (b :: rest) (b :: bs)

/-! ### The rules and the reader -/

theorem decodeBytes_escape {hi lo high low : UInt8} (hhi : value? hi = some high)
    (hlo : value? lo = some low) (rest : List UInt8) :
    decodeBytes (37 :: hi :: lo :: rest) = (high * 16 + low) :: decodeBytes rest := by
  rw [decodeBytes, hhi, hlo]

theorem decodeBytes_itself {b : UInt8} {rest : List UInt8} (hplain : ¬ BeginsEscape (b :: rest)) :
    decodeBytes (b :: rest) = b :: decodeBytes rest := by
  by_cases hb : b = 37
  · subst hb
    match rest with
    | [] | [_] => rfl
    | hi :: lo :: rest =>
      rw [decodeBytes]
      split
      · next hhi hlo =>
        exact absurd ⟨hi, lo, rest, rfl, Option.isSome_of_eq_some hhi,
          Option.isSome_of_eq_some hlo⟩ hplain
      · rfl
  · exact decodeBytes_cons hb rest

/-- The reader follows the rules. -/
theorem spells_decodeBytes (written : List UInt8) : Spells written (decodeBytes written) := by
  fun_induction decodeBytes written with
  | case1 => exact .nil
  | case2 hi lo rest high low hlo hhi ih => exact .escape hhi hlo ih
  | case3 hi lo rest hnot ih =>
    refine .itself ?_ ih
    rintro ⟨_, _, _, heq, hhi, hlo⟩
    cases heq
    obtain ⟨high, hhi⟩ := Option.isSome_iff_exists.mp hhi
    obtain ⟨low, hlo⟩ := Option.isSome_iff_exists.mp hlo
    exact hnot high low hhi hlo
  | case4 b rest hnot ih =>
    refine .itself ?_ ih
    rintro ⟨hi, lo, rest', heq, -, -⟩
    cases heq
    exact hnot hi lo rest' rfl rfl

/-- **The reader finds just what the rules give.** -/
theorem decodeBytes_eq_iff : decodeBytes written = bs ↔ Spells written bs := by
  constructor
  · rintro rfl
    exact spells_decodeBytes written
  · intro h
    induction h with
    | nil => rfl
    | escape hhi hlo _ ih => rw [decodeBytes_escape hhi hlo, ih]
    | itself hplain _ ih => rw [decodeBytes_itself hplain, ih]

/-- Something that is written stands for something. -/
theorem Spells.ne_nil (h : Spells written bs) (hne : written ≠ []) : bs ≠ [] := by
  cases h with
  | nil => exact absurd rfl hne
  | escape | itself => exact List.cons_ne_nil _ _

/-! ### Segments that are texts -/

/-- A segment stands for a text: it spells the bytes of the text. -/
def Means (segment s : String) : Prop :=
  Spells segment.toUTF8.data.toList s.toUTF8.data.toList

theorem text?_eq_ok_iff {bytes : ByteArray} : Utf8.text? bytes = .ok s ↔ bytes = s.toUTF8 := by
  constructor
  · intro h
    rw [Utf8.text?] at h
    split at h
    · next hread =>
      cases h
      rw [String.fromUTF8?] at hread
      split at hread
      · cases hread
        rfl
      · cases hread
    · cases h
  · rintro rfl
    exact text?_toUTF8 s

/-- **A segment is read as a text** just where it stands for one. -/
theorem decode_eq_ok_iff : decode segment = .ok s ↔ Means segment s := by
  rw [decode, text?_eq_ok_iff, Means, ← decodeBytes_eq_iff, bytes]
  constructor
  · intro h
    rw [← h]
  · intro h
    rw [h]

example : decode "%41%zz%" = .ok "A%zz%" := by decide +kernel

/-- A segment that is not empty stands for a text that is not. -/
theorem Means.ne_empty (h : Means segment s) (hne : segment ≠ "") : s ≠ "" := by
  rintro rfl
  refine h.ne_nil (fun hnil => hne ?_) rfl
  have hsize : segment.toUTF8.size = 0 := by
    rw [ByteArray.size, ← Array.length_toList, hnil]
    rfl
  exact String.utf8ByteSize_eq_zero_iff.mp hsize

end RingCache.Text.Percent
