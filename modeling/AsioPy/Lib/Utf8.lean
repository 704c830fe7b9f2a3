import Mathlib.Data.List.Basic
import Mathlib.Tactic.Linarith

/-!
# UTF-8 on lists of bytes

The decoder of the core library, on lists, with the two facts that the byte length of a text is
compared with its number of code points by: an encoding has at least one byte for each code point,
and exactly one for each only when the text is ASCII.
-/

namespace Utf8

/-- The UTF-8 encoding of a text. -/
def encode (s : List Char) : List UInt8 := s.flatMap String.utf8EncodeChar

/-- The text that some bytes are the UTF-8 encoding of, if there is one. -/
def decode (bs : List UInt8) : Option (List Char) := bs.toByteArray.utf8Decode?.map Array.toList

/-- A code point of the ASCII range. -/
def IsAscii (c : Char) : Prop := c.val < 128

instance (c : Char) : Decidable (IsAscii c) := inferInstanceAs (Decidable (c.val < 128))

/-- The encoding is the core library's. -/
theorem toByteArray_encode (s : List Char) : (encode s).toByteArray = s.utf8Encode := rfl

/-- Decoding is the inverse of encoding. -/
theorem decode_encode (s : List Char) : decode (encode s) = some s := by
  simp [decode, toByteArray_encode]

/-- A text is decoded exactly from its encoding. -/
theorem decode_eq_some_iff {bs : List UInt8} {s : List Char} :
    decode bs = some s ↔ encode s = bs := by
  constructor
  · intro h
    obtain ⟨a, ha, rfl⟩ := Option.map_eq_some_iff.mp h
    have hv : bs.toByteArray.utf8Decode?.isSome = true := by simp [ha]
    have hget : bs.toByteArray.utf8Decode?.get hv = a := by simp [ha]
    have henc := ByteArray.utf8Encode_get_utf8Decode? (b := bs.toByteArray) (h := hv)
    rw [hget] at henc
    have hdata := congrArg (fun b : ByteArray => b.data.toList) henc
    simpa [List.utf8Encode, encode] using hdata
  · rintro rfl
    exact decode_encode s

/-- A code point is encoded in one byte exactly when it is ASCII. -/
theorem utf8Size_eq_one_iff {c : Char} : c.utf8Size = 1 ↔ IsAscii c := by
  rw [Char.utf8Size_eq_one_iff, IsAscii, UInt32.le_iff_toNat_le, UInt32.lt_iff_toNat_lt]
  exact Nat.lt_succ_iff.symm

/-- The length of an encoding, from its first code point on. -/
theorem length_encode_cons (c : Char) (s : List Char) :
    (encode (c :: s)).length = c.utf8Size + (encode s).length := by
  simp [encode]

/-- An encoding has at least one byte for each code point. -/
theorem length_le_length_encode (s : List Char) : s.length ≤ (encode s).length := by
  induction s with
  | nil => simp
  | cons c s ih =>
    rw [length_encode_cons, List.length_cons]
    have := c.utf8Size_pos
    omega

/-- An encoding with no more bytes than code points is that of an ASCII text. -/
theorem isAscii_of_length_encode_le {s : List Char} (h : (encode s).length ≤ s.length) :
    ∀ c ∈ s, IsAscii c := by
  induction s with
  | nil => simp
  | cons c s ih =>
    rw [length_encode_cons, List.length_cons] at h
    have hpos := c.utf8Size_pos
    have hs := length_le_length_encode s
    have hc : IsAscii c := utf8Size_eq_one_iff.mp (by omega)
    rintro d (_ | ⟨_, hd⟩)
    · exact hc
    · exact ih (by omega) d hd

/-- An ASCII text is encoded code point by code point. -/
theorem encode_ascii {s : List Char} (h : ∀ c ∈ s, IsAscii c) :
    encode s = s.map fun c => c.val.toUInt8 := by
  induction s with
  | nil => rfl
  | cons c s ih =>
    have hc : String.utf8EncodeChar c = [c.val.toUInt8] :=
      String.utf8EncodeChar_eq_singleton (utf8Size_eq_one_iff.mpr (h c List.mem_cons_self))
    have hs := ih fun d hd => h d (List.mem_cons_of_mem c hd)
    rw [encode, List.flatMap_cons, hc, List.map_cons, ← hs]
    rfl

end Utf8
