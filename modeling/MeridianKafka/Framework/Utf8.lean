import Mathlib.Data.List.Basic

/-!
# UTF-8

`encode` writes a text as bytes and `decode` reads bytes as a text, when they are one. The
conversions are those of the strings of Lean, on lists: what is written is read back
(`decode_encode`), texts that follow one another are written one after the other
(`encode_append`), and an ASCII character is written as the byte of its number.
-/

namespace Framework

namespace Utf8

def encode (text : List Char) : List UInt8 := (String.ofList text).toUTF8.data.toList

def decode (bytes : List UInt8) : Option (List Char) :=
  (String.fromUTF8? ⟨bytes.toArray⟩).map String.toList

/-- **What is written is read back.** -/
@[simp] theorem decode_encode (text : List Char) : decode (encode text) = some text := by
  have hvalid : (String.ofList text).toByteArray.IsValidUTF8 := (String.ofList text).isValidUTF8
  have hread : String.fromUTF8? ⟨(encode text).toArray⟩ = some (String.ofList text) := by
    show String.fromUTF8? (String.ofList text).toByteArray = _
    rw [String.fromUTF8?, dif_pos hvalid]
    rfl
  rw [decode, hread, Option.map_some, String.toList_ofList]

/-- Only what was written is read. -/
theorem decode_eq_some_iff {bytes : List UInt8} {text : List Char} :
    decode bytes = some text ↔ bytes = encode text := by
  constructor
  · intro h
    obtain ⟨s, hs, rfl⟩ := Option.map_eq_some_iff.mp h
    unfold String.fromUTF8? at hs
    split at hs
    · obtain rfl := Option.some.inj hs
      rw [encode, String.ofList_toList]
      rfl
    · exact absurd hs (by simp)
  · rintro rfl
    exact decode_encode text

theorem encode_eq_flatMap (text : List Char) :
    encode text = text.flatMap String.utf8EncodeChar := by
  show (String.ofList text).toByteArray.data.toList = _
  rw [← String.utf8Encode_toList, String.toList_ofList, List.utf8Encode, List.data_toByteArray]

@[simp] theorem encode_append (text text' : List Char) :
    encode (text ++ text') = encode text ++ encode text' := by
  rw [encode_eq_flatMap, encode_eq_flatMap, encode_eq_flatMap, List.flatMap_append]

theorem utf8EncodeChar_of_ascii {c : Char} (h : c.toNat < 128) :
    String.utf8EncodeChar c = [UInt8.ofNat c.toNat] := by
  have hval : c.val.toNat ≤ 127 := Nat.le_of_lt_succ h
  unfold String.utf8EncodeChar
  dsimp only
  rw [if_pos hval]
  rfl

/-- ASCII characters are written as their numbers. -/
theorem encode_of_ascii {text : List Char} (h : ∀ c ∈ text, c.toNat < 128) :
    encode text = text.map fun c => UInt8.ofNat c.toNat := by
  rw [encode_eq_flatMap]
  induction text with
  | nil => rfl
  | cons c text ih =>
    rw [List.flatMap_cons, List.map_cons, utf8EncodeChar_of_ascii (h c List.mem_cons_self),
      ih fun c hc => h c (List.mem_cons_of_mem _ hc)]
    rfl

/-- Bytes as the characters of their numbers. -/
def characters (bytes : List UInt8) : List Char := bytes.map fun byte => Char.ofNat byte.toNat

theorem characters_encode {text : List Char} (h : ∀ c ∈ text, c.toNat < 128) :
    characters (encode text) = text := by
  rw [encode_of_ascii h, characters, List.map_map]
  calc
    text.map ((fun byte : UInt8 => Char.ofNat byte.toNat) ∘ fun c => UInt8.ofNat c.toNat)
      = text.map id := by
        refine List.map_congr_left fun c hc => ?_
        have hsize : c.toNat < 256 := Nat.lt_trans (h c hc) (by omega)
        show Char.ofNat (UInt8.ofNat c.toNat).toNat = c
        rw [UInt8.toNat_ofNat_of_lt' hsize, Char.ofNat_toNat]
    _ = text := List.map_id _

end Utf8

end Framework
