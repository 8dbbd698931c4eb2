import Mathlib.Data.Int.Notation
import Mathlib.Data.List.DropRight

/-!
# Texts

`str.strip` and `int` read a text as the language does, in every script. A number that is
written with decimal digits is read back (`readInt_ofList_toDigits`).

A Python text may hold surrogates that stand alone (`PyText`); one without them is a string.
-/

namespace MeridianKafka

/-- `str.isspace`, of one character. -/
def isSpace (c : Char) : Bool :=
  let n := c.toNat
  (9 ≤ n && n ≤ 13) || (28 ≤ n && n ≤ 32) || n = 0x85 || n = 0xa0 || n = 0x1680 ||
    (0x2000 ≤ n && n ≤ 0x200a) || n = 0x2028 || n = 0x2029 || n = 0x202f || n = 0x205f ||
    n = 0x3000

/-- The text without the characters `p` at its ends. -/
def stripBy (p : Char → Bool) (text : List Char) : List Char := (text.dropWhile p).rdropWhile p

/-- The zeros of the decimal digits; the other nine follow each of them. -/
def decimalZeros : List ℕ :=
  [0x30, 0x660, 0x6f0, 0x7c0, 0x966, 0x9e6, 0xa66, 0xae6, 0xb66, 0xbe6, 0xc66, 0xce6, 0xd66,
    0xde6, 0xe50, 0xed0, 0xf20, 0x1040, 0x1090, 0x17e0, 0x1810, 0x1946, 0x19d0, 0x1a80, 0x1a90,
    0x1b50, 0x1bb0, 0x1c40, 0x1c50, 0xa620, 0xa8d0, 0xa900, 0xa9d0, 0xa9f0, 0xaa50, 0xabf0,
    0xff10, 0x104a0, 0x10d30, 0x11066, 0x110f0, 0x11136, 0x111d0, 0x112f0, 0x11450, 0x114d0,
    0x11650, 0x116c0, 0x11730, 0x118e0, 0x11950, 0x11c50, 0x11d50, 0x11da0, 0x11f50, 0x16a60,
    0x16ac0, 0x16b50, 0x1d7ce, 0x1d7d8, 0x1d7e2, 0x1d7ec, 0x1d7f6, 0x1e140, 0x1e2f0, 0x1e4f0,
    0x1e950, 0x1fbf0]

/-- The value of a decimal digit. -/
def decimalValue (c : Char) : Option ℕ :=
  (decimalZeros.find? fun first => first ≤ c.toNat && c.toNat ≤ first + 9).map (c.toNat - ·)

/-- Digits, in groups that single underscores separate; at most 4300 of them are read. -/
def readDigits (text : List Char) : Option ℕ := do
  let groups ← (text.splitOn '_').mapM fun group =>
    if group.isEmpty then none else group.mapM decimalValue
  let digits := groups.flatten
  if digits.length ≤ 4300 then some (digits.foldl (fun n digit => 10 * n + digit) 0) else none

/-- `int`, of a text. The four separators that `str.strip` drops are not dropped here. -/
def readInt (text : String) : Option ℤ :=
  match stripBy (fun c => isSpace c && !(28 ≤ c.toNat && c.toNat ≤ 31)) text.toList with
  | '+' :: digits => (readDigits digits).map fun n => (n : ℤ)
  | '-' :: digits => (readDigits digits).map fun n => -(n : ℤ)
  | digits => (readDigits digits).map fun n => (n : ℤ)

/-! ### Decimal digits -/

theorem stripBy_of_forall {p : Char → Bool} {text : List Char} (h : ∀ c ∈ text, p c = false) :
    stripBy p text = text := by
  have hdrop : text.dropWhile p = text := by
    cases text with
    | nil => rfl
    | cons c text => exact List.dropWhile_cons_of_neg (by simp [h c List.mem_cons_self])
  rw [stripBy, hdrop, List.rdropWhile_eq_self_iff]
  intro hne
  simp [h _ (List.getLast_mem hne)]

/-- An ASCII digit is a digit. -/
theorem decimalValue_of_isDigit {c : Char} (h : c.isDigit = true) :
    decimalValue c = some (c.toNat - '0'.toNat) := by
  have hrange : 48 ≤ c.toNat ∧ c.toNat ≤ 57 := by
    rw [Char.isDigit, Bool.and_eq_true, decide_eq_true_eq, decide_eq_true_eq] at h
    exact h
  have hfirst : (decide (0x30 ≤ c.toNat) && decide (c.toNat ≤ 0x30 + 9)) = true := by
    rw [Bool.and_eq_true, decide_eq_true_eq, decide_eq_true_eq]
    exact hrange
  have hzeros : decimalZeros = 0x30 :: decimalZeros.tail := rfl
  rw [decimalValue, hzeros, List.find?_cons, hfirst]
  rfl

theorem isSpace_of_isDigit {c : Char} (h : c.isDigit = true) : isSpace c = false := by
  have hrange : 48 ≤ c.toNat ∧ c.toNat ≤ 57 := by
    rw [Char.isDigit, Bool.and_eq_true, decide_eq_true_eq, decide_eq_true_eq] at h
    exact h
  unfold isSpace
  simp only [Bool.or_eq_false_iff, Bool.and_eq_false_iff, decide_eq_false_iff_not]
  omega

theorem readDigits_toDigits {n : ℕ} (small : (Nat.toDigits 10 n).length ≤ 4300) :
    readDigits (Nat.toDigits 10 n) = some n := by
  have hdigits : ∀ c ∈ Nat.toDigits 10 n, c.isDigit = true := fun c hc =>
    Nat.isDigit_of_mem_toDigits (by omega) (by omega) hc
  have hvalues : (Nat.toDigits 10 n).mapM decimalValue =
      some ((Nat.toDigits 10 n).map fun c => c.toNat - '0'.toNat) := by
    generalize Nat.toDigits 10 n = text at hdigits
    induction text with
    | nil => rfl
    | cons c text ih =>
      rw [List.mapM_cons, decimalValue_of_isDigit (hdigits c List.mem_cons_self),
        ih fun c' hc' => hdigits c' (List.mem_cons_of_mem _ hc')]
      rfl
  have hlength : ((Nat.toDigits 10 n).map fun c => c.toNat - '0'.toNat).length ≤ 4300 := by
    rwa [List.length_map]
  -- The loop of `int` over the digits undoes the one that has written them.
  have hfold : ((Nat.toDigits 10 n).map fun c => c.toNat - '0'.toNat).foldl
      (fun n digit => 10 * n + digit) 0 = n := by
    rw [List.foldl_map]
    exact Nat.ofDigitChars_ten_toDigits
  unfold readDigits
  rw [List.splitOn_eq_singleton Nat.underscore_not_in_toDigits, List.mapM_cons,
    if_neg (by simp), hvalues]
  generalize (Nat.toDigits 10 n).map _ = digits at hlength hfold
  show (if (digits ++ []).length ≤ 4300 then
    some ((digits ++ []).foldl (fun n digit => 10 * n + digit) 0) else none) = _
  rw [List.append_nil, if_pos hlength, hfold]

/-- **What is written in decimal digits is read back.** -/
theorem readInt_ofList_toDigits {n : ℕ} (small : (Nat.toDigits 10 n).length ≤ 4300) :
    readInt (String.ofList (Nat.toDigits 10 n)) = some (n : ℤ) := by
  have hdigits : ∀ c ∈ Nat.toDigits 10 n, c.isDigit = true := fun c hc =>
    Nat.isDigit_of_mem_toDigits (by omega) (by omega) hc
  have hstrip : stripBy (fun c => isSpace c && !(28 ≤ c.toNat && c.toNat ≤ 31))
      (Nat.toDigits 10 n) = Nat.toDigits 10 n :=
    stripBy_of_forall fun c hc => by rw [isSpace_of_isDigit (hdigits c hc), Bool.false_and]
  unfold readInt
  rw [String.toList_ofList, hstrip]
  split
  · next digits heq =>
    -- the first digit is not a sign
    have hplus := hdigits '+' (by rw [heq]; exact List.mem_cons_self)
    exact absurd hplus (by decide)
  · next digits heq =>
    have hminus := hdigits '-' (by rw [heq]; exact List.mem_cons_self)
    exact absurd hminus (by decide)
  · rw [readDigits_toDigits small]
    rfl

/-! ### Surrogates -/

/-- A Python text: its characters, and none for a surrogate that stands alone. -/
abbrev PyText := List (Option Char)

namespace PyText

/-- A text of characters. -/
def ofString (s : String) : PyText := s.toList.map some

/-- The text as a string, when it has an encoding. -/
def string? (text : PyText) : Option String := (text.mapM id).map String.ofList

theorem mapM_id_eq_some_iff {text : PyText} {chars : List Char} :
    text.mapM id = some chars ↔ text = chars.map some := by
  induction text generalizing chars with
  | nil =>
    rw [List.mapM_nil, Option.pure_def, Option.some_inj]
    constructor
    · rintro rfl
      rfl
    · intro h
      exact (List.map_eq_nil_iff.mp h.symm).symm
  | cons c text ih =>
    rw [List.mapM_cons]
    simp only [Option.bind_eq_bind, Option.bind_eq_some_iff, ih, Option.pure_def, Option.some_inj,
      id]
    constructor
    · rintro ⟨c', rfl, chars', rfl, rfl⟩
      rfl
    · intro h
      cases chars with
      | nil => exact absurd h (by simp)
      | cons c' chars' =>
        obtain ⟨rfl, rfl⟩ := List.cons.inj h
        exact ⟨c', rfl, chars', rfl, rfl⟩

theorem string?_eq_some_iff {text : PyText} {s : String} :
    text.string? = some s ↔ text = ofString s := by
  unfold string? ofString
  rw [Option.map_eq_some_iff]
  constructor
  · rintro ⟨chars, hchars, rfl⟩
    rw [String.toList_ofList]
    exact mapM_id_eq_some_iff.mp hchars
  · intro h
    exact ⟨s.toList, mapM_id_eq_some_iff.mpr h, String.ofList_toList⟩

theorem ofString_injective : Function.Injective ofString := fun _ _ h =>
  String.toList_injective (List.map_injective_iff.mpr (fun _ _ => Option.some.inj) h)

end PyText

end MeridianKafka
