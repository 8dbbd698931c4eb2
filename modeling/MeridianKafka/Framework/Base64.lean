import Mathlib.Data.List.Basic

/-!
# Base64

`encode` writes bytes with the URL-safe alphabet and without the padding at the end;
`decode` reads such a text. `decode` does not look at the spare bits of the last
character, so a text is the canonical one of its bytes exactly when `encode` gives it
back. What is written is read back (`decode_encode`), is at least as long as the bytes
(`length_le_encode`), and consists of ASCII characters other than the dot.

`encodePadded` and `decodePadded` do the same with the standard alphabet and the padding.
-/

namespace Framework

namespace Base64

/-- The character of six bits. -/
def digit (n : ℕ) : Char :=
  if n < 26 then Char.ofNat (65 + n)
  else if n < 52 then Char.ofNat (71 + n)
  else if n < 62 then Char.ofNat (n - 4)
  else if n = 62 then '-'
  else '_'

/-- The six bits of a character. -/
def value (c : Char) : Option ℕ :=
  if c.isUpper then some (c.toNat - 65)
  else if c.isLower then some (c.toNat - 71)
  else if c.isDigit then some (c.toNat + 4)
  else if c = '-' then some 62
  else if c = '_' then some 63
  else none

def encode : List UInt8 → List Char
  | [] => []
  | [a] => [digit (a.toNat / 4), digit (a.toNat % 4 * 16)]
  | [a, b] =>
    [digit (a.toNat / 4), digit (a.toNat % 4 * 16 + b.toNat / 16), digit (b.toNat % 16 * 4)]
  | a :: b :: c :: bytes =>
    digit (a.toNat / 4) :: digit (a.toNat % 4 * 16 + b.toNat / 16) ::
      digit (b.toNat % 16 * 4 + c.toNat / 64) :: digit (c.toNat % 64) :: encode bytes

def decode : List Char → Option (List UInt8)
  | [] => some []
  | [_] => none
  | [w, x] => do
    let w ← value w
    let x ← value x
    return [UInt8.ofNat (w * 4 + x / 16)]
  | [w, x, y] => do
    let w ← value w
    let x ← value x
    let y ← value y
    return [UInt8.ofNat (w * 4 + x / 16), UInt8.ofNat (x % 16 * 16 + y / 4)]
  | w :: x :: y :: z :: cs => do
    let w ← value w
    let x ← value x
    let y ← value y
    let z ← value z
    let bytes ← decode cs
    return UInt8.ofNat (w * 4 + x / 16) :: UInt8.ofNat (x % 16 * 16 + y / 4) ::
      UInt8.ofNat (y % 4 * 64 + z) :: bytes

theorem value_digit : ∀ n < 64, value (digit n) = some n := by decide

theorem digit_toNat_lt : ∀ n < 64, (digit n).toNat < 128 := by decide

theorem digit_ne_dot : ∀ n < 64, digit n ≠ '.' := by decide

theorem digit_ne_comma : ∀ n < 64, digit n ≠ ',' := by decide

/-- Two parts of a byte that are put together again. -/
theorem ofNat_eq {n : ℕ} {a : UInt8} (h : n = a.toNat) : UInt8.ofNat n = a := by
  rw [h]
  exact UInt8.ofNat_toNat

/-- **What is written is read back.** -/
theorem decode_encode (bytes : List UInt8) : decode (encode bytes) = some bytes := by
  fun_induction encode bytes with
  | case1 => rfl
  | case2 a =>
    have ha := a.toNat_lt
    rw [decode, value_digit _ (by omega), value_digit _ (by omega)]
    change some [UInt8.ofNat _] = _
    rw [ofNat_eq (by omega : _ = a.toNat)]
  | case3 a b =>
    have ha := a.toNat_lt
    have hb := b.toNat_lt
    rw [decode, value_digit _ (by omega), value_digit _ (by omega), value_digit _ (by omega)]
    change some [UInt8.ofNat _, UInt8.ofNat _] = _
    rw [ofNat_eq (by omega : _ = a.toNat), ofNat_eq (by omega : _ = b.toNat)]
  | case4 a b c bytes ih =>
    have ha := a.toNat_lt
    have hb := b.toNat_lt
    have hc := c.toNat_lt
    rw [decode, value_digit _ (by omega), value_digit _ (by omega), value_digit _ (by omega),
      value_digit _ (by omega), ih]
    change some (UInt8.ofNat _ :: UInt8.ofNat _ :: UInt8.ofNat _ :: bytes) = _
    rw [ofNat_eq (by omega : _ = a.toNat), ofNat_eq (by omega : _ = b.toNat),
      ofNat_eq (by omega : _ = c.toNat)]

/-- Every character of the text is the one of some six bits. -/
theorem exists_digit_of_mem_encode {bytes : List UInt8} {d : Char} (hd : d ∈ encode bytes) :
    ∃ n < 64, d = digit n := by
  fun_induction encode bytes with
  | case1 => exact absurd hd List.not_mem_nil
  | case2 a =>
    have ha := a.toNat_lt
    simp only [List.mem_cons, List.not_mem_nil, or_false] at hd
    rcases hd with rfl | rfl <;> exact ⟨_, by omega, rfl⟩
  | case3 a b =>
    have ha := a.toNat_lt
    have hb := b.toNat_lt
    simp only [List.mem_cons, List.not_mem_nil, or_false] at hd
    rcases hd with rfl | rfl | rfl <;> exact ⟨_, by omega, rfl⟩
  | case4 a b c bytes ih =>
    have ha := a.toNat_lt
    have hb := b.toNat_lt
    have hc := c.toNat_lt
    simp only [List.mem_cons] at hd
    rcases hd with rfl | rfl | rfl | rfl | hd
    · exact ⟨_, by omega, rfl⟩
    · exact ⟨_, by omega, rfl⟩
    · exact ⟨_, by omega, rfl⟩
    · exact ⟨_, by omega, rfl⟩
    · exact ih hd

theorem dot_notMem_encode (bytes : List UInt8) : '.' ∉ encode bytes := by
  intro hdot
  obtain ⟨n, hn, heq⟩ := exists_digit_of_mem_encode hdot
  exact digit_ne_dot n hn heq.symm

theorem comma_notMem_encode (bytes : List UInt8) : ',' ∉ encode bytes := by
  intro hcomma
  obtain ⟨n, hn, heq⟩ := exists_digit_of_mem_encode hcomma
  exact digit_ne_comma n hn heq.symm

theorem toNat_lt_of_mem_encode {bytes : List UInt8} {d : Char} (hd : d ∈ encode bytes) :
    d.toNat < 128 := by
  obtain ⟨n, hn, rfl⟩ := exists_digit_of_mem_encode hd
  exact digit_toNat_lt n hn

/-- Four characters for three bytes. -/
theorem length_encode (bytes : List UInt8) :
    (encode bytes).length = (4 * bytes.length + 2) / 3 := by
  fun_induction encode bytes with
  | case1 => rfl
  | case2 a => simp
  | case3 a b => simp
  | case4 a b c bytes ih =>
    simp only [List.length_cons, ih]
    omega

theorem length_le_encode (bytes : List UInt8) : bytes.length ≤ (encode bytes).length := by
  rw [length_encode]
  omega

/-! ### The standard alphabet, padded -/

/-- The character of the standard alphabet. -/
def standard (c : Char) : Char := if c = '-' then '+' else if c = '_' then '/' else c

/-- The character of the URL-safe alphabet, for one of the standard alphabet. -/
def urlSafe (c : Char) : Option Char :=
  if c = '+' then some '-' else if c = '/' then some '_'
  else if c = '-' ∨ c = '_' then none else some c

/-- How many equals signs fill the last four characters up. -/
def padding (body : List Char) : List Char := List.replicate ((4 - body.length % 4) % 4) '='

def encodePadded (bytes : List UInt8) : List Char :=
  let body := (encode bytes).map standard
  body ++ padding body

/-- Nothing but the text of some bytes is read: no other character, no more padding than there
has to be and nothing behind it. -/
def decodePadded (text : List Char) : Option (List UInt8) :=
  let body := text.takeWhile (· ≠ '=')
  if text.dropWhile (· ≠ '=') = padding body then (body.mapM urlSafe).bind decode else none

theorem urlSafe_standard_digit : ∀ n < 64, urlSafe (standard (digit n)) = some (digit n) := by
  decide

theorem standard_digit_ne : ∀ n < 64, standard (digit n) ≠ '=' ∧ standard (digit n) ≠ ',' ∧
    (standard (digit n)).toNat < 128 := by decide

/-- The characters of a padded text are ASCII characters other than the comma. -/
theorem of_mem_encodePadded {bytes : List UInt8} {c : Char} (hc : c ∈ encodePadded bytes) :
    c ≠ ',' ∧ c.toNat < 128 := by
  rcases List.mem_append.mp hc with hbody | hpad
  · obtain ⟨d, hd, rfl⟩ := List.mem_map.mp hbody
    obtain ⟨n, hn, rfl⟩ := exists_digit_of_mem_encode hd
    exact (standard_digit_ne n hn).2
  · rw [List.eq_of_mem_replicate hpad]
    decide

/-- Nothing in front of the padding is an equals sign. -/
theorem ne_equals_of_mem_body {bytes : List UInt8} {c : Char}
    (hc : c ∈ (encode bytes).map standard) : decide (c ≠ '=') = true := by
  obtain ⟨d, hd, rfl⟩ := List.mem_map.mp hc
  obtain ⟨n, hn, rfl⟩ := exists_digit_of_mem_encode hd
  exact decide_eq_true (standard_digit_ne n hn).1

theorem span_padding (body : List Char) :
    (padding body).takeWhile (· ≠ '=') = [] ∧
      (padding body).dropWhile (· ≠ '=') = padding body := by
  unfold padding
  cases (4 - body.length % 4) % 4 with
  | zero => exact ⟨rfl, rfl⟩
  | succ n => exact ⟨List.takeWhile_cons_of_neg (by simp), List.dropWhile_cons_of_neg (by simp)⟩

theorem mapM_urlSafe_standard {text : List Char}
    (hdigits : ∀ c ∈ text, ∃ n < 64, c = digit n) :
    (text.map standard).mapM urlSafe = some text := by
  induction text with
  | nil => rfl
  | cons c text ih =>
    obtain ⟨n, hn, rfl⟩ := hdigits c List.mem_cons_self
    rw [List.map_cons, List.mapM_cons, urlSafe_standard_digit n hn,
      ih fun c' hc' => hdigits c' (List.mem_cons_of_mem _ hc')]
    rfl

/-- **What is written is read back**, with the padding. -/
theorem decodePadded_encodePadded (bytes : List UInt8) :
    decodePadded (encodePadded bytes) = some bytes := by
  obtain ⟨htake, hdrop⟩ := span_padding ((encode bytes).map standard)
  have hread := mapM_urlSafe_standard fun c (hc : c ∈ encode bytes) =>
    exists_digit_of_mem_encode hc
  unfold decodePadded encodePadded
  dsimp only
  -- the text comes apart at its first equals sign
  rw [List.takeWhile_append_of_pos fun c => ne_equals_of_mem_body,
    List.dropWhile_append_of_pos fun c => ne_equals_of_mem_body, htake, hdrop, List.append_nil,
    if_pos rfl, hread]
  exact decode_encode bytes

end Base64

end Framework
