import Mathlib.Data.List.Basic
import Mathlib.Tactic

/-!
# UTF-8 bytes

Texts as byte sequences: the encoding of a text, the text of a byte sequence when it
is valid, and the two facts a line-oriented byte protocol rests on.

Main results:

- Theorem {lit}`fromUtf8_utf8Bytes`: the bytes of a text decode to the text.
- Theorem {lit}`mem_of_byte_mem`: the byte of a small character occurs only for that
  character.
- Theorem {lit}`fromUtf8_of_large`: a byte above {lit}`0xF7` occurs in no text.
-/

namespace Foundation

/-- The bytes of a text. -/
def utf8Bytes (s : List Char) : List UInt8 :=
  s.flatMap String.utf8EncodeChar

/-- The text of a byte sequence, when it is valid UTF-8. -/
def fromUtf8 (bytes : List UInt8) : Option (List Char) :=
  bytes.toByteArray.utf8Decode?.map Array.toList

theorem utf8Bytes_append (s t : List Char) :
    utf8Bytes (s ++ t) = utf8Bytes s ++ utf8Bytes t :=
  List.flatMap_append

theorem toByteArray_utf8Bytes (s : List Char) : (utf8Bytes s).toByteArray = s.utf8Encode := rfl

/-- The bytes of a text decode to the text. -/
theorem fromUtf8_utf8Bytes (s : List Char) : fromUtf8 (utf8Bytes s) = some s := by
  rw [fromUtf8, toByteArray_utf8Bytes, List.utf8Decode?_utf8Encode]
  rfl

/-- A byte sequence that decodes is the encoding of its text. -/
theorem utf8Bytes_of_fromUtf8 {bytes : List UInt8} {s : List Char}
    (hs : fromUtf8 bytes = some s) : utf8Bytes s = bytes := by
  rw [fromUtf8, Option.map_eq_some_iff] at hs
  obtain ⟨chars, hchars, rfl⟩ := hs
  have hsome : bytes.toByteArray.utf8Decode?.isSome = true := by rw [hchars]; rfl
  have hget := ByteArray.utf8Encode_get_utf8Decode? (h := hsome)
  simp only [hchars, Option.get_some] at hget
  rw [← toByteArray_utf8Bytes] at hget
  exact List.toByteArray_inj.mp hget

/-- A character below 128 is its own byte; every other byte lies between 128 and 247. -/
theorem mem_utf8EncodeChar {c : Char} {b : UInt8} (hb : b ∈ String.utf8EncodeChar c) :
    (b.toNat = c.toNat ∧ c.toNat ≤ 127) ∨ (128 ≤ b.toNat ∧ b.toNat ≤ 247) := by
  have hv : c.val.toNat = c.toNat := rfl
  rw [String.utf8EncodeChar, hv] at hb
  split_ifs at hb with h1 h2 h3
  · left
    rw [List.mem_singleton.mp hb, UInt8.toNat_ofNat']
    omega
  · right
    simp only [List.mem_cons, List.not_mem_nil, or_false] at hb
    rcases hb with hb | hb <;> rw [hb, UInt8.toNat_ofNat'] <;> omega
  · right
    simp only [List.mem_cons, List.not_mem_nil, or_false] at hb
    rcases hb with hb | hb | hb <;> rw [hb, UInt8.toNat_ofNat'] <;> omega
  · right
    simp only [List.mem_cons, List.not_mem_nil, or_false] at hb
    rcases hb with hb | hb | hb | hb <;> rw [hb, UInt8.toNat_ofNat'] <;> omega

/-- The byte of a small character occurs only for that character. -/
theorem mem_of_byte_mem {s : List Char} {c : Char} {b : UInt8} (hb : b.toNat = c.toNat)
    (hsmall : c.toNat ≤ 127) (hs : b ∈ utf8Bytes s) : c ∈ s := by
  obtain ⟨d, hd, hbyte⟩ := List.mem_flatMap.mp hs
  rcases mem_utf8EncodeChar hbyte with ⟨heq, -⟩ | ⟨hlarge, -⟩
  · have hchar : d = c := by rw [← Char.toNat_inj, ← heq, hb]
    exact hchar ▸ hd
  · omega

/-- The line feed byte occurs only for a line feed. -/
theorem newline_mem_utf8Bytes {s : List Char} (hs : (10 : UInt8) ∈ utf8Bytes s) : '\n' ∈ s :=
  mem_of_byte_mem rfl (by decide) hs

/-- A byte above {lit}`0xF7` occurs in no text. -/
theorem fromUtf8_of_large {bytes : List UInt8} {b : UInt8} (hb : b ∈ bytes)
    (hlarge : 247 < b.toNat) : fromUtf8 bytes = none := by
  rw [Option.eq_none_iff_forall_ne_some]
  intro s hs
  rw [← utf8Bytes_of_fromUtf8 hs] at hb
  obtain ⟨c, -, hbyte⟩ := List.mem_flatMap.mp hb
  rcases mem_utf8EncodeChar hbyte with ⟨heq, hsmall⟩ | ⟨-, hsmall⟩
  · omega
  · omega

end Foundation
