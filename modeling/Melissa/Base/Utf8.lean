import Mathlib.Data.List.Basic
import Mathlib.Tactic.Common

/-! Texts as bytes in UTF-8. -/

namespace Utf8

def encode (text : List Char) : List UInt8 := text.flatMap String.utf8EncodeChar

/-- The text the bytes stand for, if they are valid. -/
def decode (bytes : List UInt8) : Option (List Char) :=
  bytes.toByteArray.utf8Decode?.map Array.toList

@[simp] theorem encode_nil : encode [] = [] := rfl

theorem encode_cons (c : Char) (text : List Char) :
    encode (c :: text) = String.utf8EncodeChar c ++ encode text := rfl

theorem decode_encodeChar_append (c : Char) (bytes : List UInt8) :
    decode (String.utf8EncodeChar c ++ bytes) = (decode bytes).map (c :: ·) := by
  rw [decode, List.toByteArray_append, ← List.utf8Encode_singleton,
    ByteArray.utf8Decode?_utf8Encode_singleton_append, decode, Option.map_map, Option.map_map]
  congr 1
  funext chars
  simp

theorem decode_encode_append (text : List Char) (bytes : List UInt8) :
    decode (encode text ++ bytes) = (decode bytes).map (text ++ ·) := by
  induction text with
  | nil => simp
  | cons c text ih =>
      rw [encode_cons, List.append_assoc, decode_encodeChar_append, ih, Option.map_map]
      rfl

theorem decode_nil : decode [] = some [] := by
  simp [decode]

theorem decode_encode (text : List Char) : decode (encode text) = some text := by
  have whole := decode_encode_append text []
  rwa [List.append_nil, decode_nil, Option.map_some, List.append_nil] at whole

theorem encode_of_decode {bytes : List UInt8} {text : List Char}
    (decoded : decode bytes = some text) : bytes = encode text := by
  have valid : bytes.toByteArray.IsValidUTF8 := by
    rw [← ByteArray.isSome_utf8Decode?_iff]
    rw [decode, Option.map_eq_some_iff] at decoded
    obtain ⟨chars, found, _⟩ := decoded
    rw [found]
    rfl
  obtain ⟨other, same⟩ := valid
  have own : bytes = encode other := by
    have lists := congrArg (fun array => array.data.toList) same
    simpa [List.utf8Encode, encode] using lists
  rw [own, decode_encode] at decoded
  rw [own, Option.some.inj decoded]

theorem encodeChar_ascii {c : Char} (ascii : c.toNat < 128) :
    String.utf8EncodeChar c = [UInt8.ofNat c.toNat] := by
  have low : c.val.toNat ≤ 127 := Nat.le_of_lt_succ ascii
  rw [String.utf8EncodeChar, if_pos low]
  rfl

theorem encode_ascii_length {text : List Char} (ascii : ∀ c ∈ text, c.toNat < 128) :
    (encode text).length = text.length := by
  induction text with
  | nil => rfl
  | cons c text ih =>
      rw [List.forall_mem_cons] at ascii
      rw [encode_cons, encodeChar_ascii ascii.1, List.length_append, ih ascii.2,
        List.length_singleton, List.length_cons, Nat.add_comm]

end Utf8
