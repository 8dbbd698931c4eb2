import MeridianKafka.Framework.Dict
import Mathlib.Data.String.Basic

/-!
# JSON values and their text

`Json` is a JSON value. The fields of an object stand in a list, in the order in which
they were written; `Json.sorted` puts them in the order of their keys, at every depth, so
that two values with one `sorted` form are equal as mappings.

`Json.text` is the compact text of a value: no blanks, the characters of a string as they
are, short escapes where there is one. `Json.ofText` reads such a text back
(`ofText_text`), and `Json.ofBytes` its UTF-8 bytes (`ofBytes_bytes`). The text of a
floating-point number is left open, so these are about values without one (`floatFree`).
-/

namespace Framework

/-- A JSON value. A floating-point number is given by its 64 bits. -/
inductive Json
  | null
  | bool (value : Bool)
  | int (value : ℤ)
  | float (bits : UInt64)
  | str (value : String)
  | arr (items : List Json)
  | obj (fields : List (String × Json))

namespace Json

/-! ### The order of the keys -/

mutual

/-- The value with the fields of every object in the order of their keys. -/
def sorted : Json → Json
  | .arr items => .arr (sortedItems items)
  | .obj fields => .obj ((sortedFields fields).insertionSort fun f g => f.1 ≤ g.1)
  | .null => .null
  | .bool value => .bool value
  | .int value => .int value
  | .float bits => .float bits
  | .str value => .str value

def sortedItems : List Json → List Json
  | [] => []
  | item :: items => item.sorted :: sortedItems items

def sortedFields : List (String × Json) → List (String × Json)
  | [] => []
  | (key, value) :: fields => (key, value.sorted) :: sortedFields fields

end

theorem sortedItems_eq (items : List Json) : sortedItems items = items.map sorted := by
  induction items with
  | nil => rfl
  | cons item items ih => rw [sortedItems, ih, List.map_cons]

theorem sortedFields_eq (fields : List (String × Json)) :
    sortedFields fields = fields.map fun f => (f.1, f.2.sorted) := by
  induction fields with
  | nil => rfl
  | cons field fields ih => rw [sortedFields, ih, List.map_cons]

/-- The fields of an object without the order in which they were written. -/
def sortFields (fields : List (String × Json)) : List (String × Json) :=
  (fields.map fun f => (f.1, f.2.sorted)).insertionSort fun f g => f.1 ≤ g.1

theorem sorted_obj (fields : List (String × Json)) :
    (Json.obj fields).sorted = .obj (sortFields fields) := by
  rw [sorted, sortedFields_eq, sortFields]

theorem perm_sortFields (fields : List (String × Json)) :
    (sortFields fields).Perm (fields.map fun f => (f.1, f.2.sorted)) :=
  List.perm_insertionSort _ _

/-- Neither the order of the fields nor that within their values is left. -/
theorem sortFields_eq_of_perm {fields fields' : List (String × Json)} (hperm : fields'.Perm fields)
    (nodup : (fields.map Prod.fst).Nodup) : sortFields fields' = sortFields fields := by
  have hfst : ∀ l : List (String × Json),
      (l.map fun f => (f.1, f.2.sorted)).map Prod.fst = l.map Prod.fst := fun l => by
    rw [List.map_map]
    rfl
  have hnodup : ((fields.map fun f => (f.1, f.2.sorted)).map Prod.fst).Nodup := by rwa [hfst]
  have hnodup' : ((fields'.map fun f => (f.1, f.2.sorted)).map Prod.fst).Nodup := by
    rw [hfst]
    exact (hperm.map Prod.fst).nodup_iff.mpr nodup
  have hget := Dict.lookup_eq_of_perm (hperm.symm.map fun f => (f.1, f.2.sorted)) hnodup
  exact congrArg Dict.entries
    (@Dict.sorted_eq_of_get?_eq _ _ _ _ ⟨_, hnodup'⟩ ⟨_, hnodup⟩ hget)

theorem sortFields_eq_self {fields : List (String × Json)}
    (hfixed : ∀ f ∈ fields, f.2.sorted = f.2) :
    sortFields (fields.insertionSort fun f g => f.1 ≤ g.1) =
      fields.insertionSort fun f g => f.1 ≤ g.1 := by
  have htotal : Std.Total fun f g : String × Json => f.1 ≤ g.1 := ⟨fun f g => le_total f.1 g.1⟩
  have htrans : IsTrans (String × Json) fun f g => f.1 ≤ g.1 := ⟨fun _ _ _ => le_trans⟩
  have hmap : ((fields.insertionSort fun f g => f.1 ≤ g.1).map fun f => (f.1, f.2.sorted)) =
      fields.insertionSort fun f g => f.1 ≤ g.1 := by
    refine (List.map_congr_left fun f hf => ?_).trans (List.map_id _)
    rw [hfixed f ((List.mem_insertionSort _).mp hf)]
    rfl
  rw [sortFields, hmap]
  exact (List.pairwise_insertionSort _ fields).insertionSort_eq

mutual

/-- Sorting what is sorted changes nothing, at any depth. -/
theorem sorted_sorted : ∀ value : Json, value.sorted.sorted = value.sorted
  | .null | .bool _ | .int _ | .float _ | .str _ => rfl
  | .arr items => by
    rw [sorted, sorted, sortedItems_eq (sortedItems items), sortedItems_eq items, List.map_map]
    refine congrArg Json.arr (List.map_congr_left fun item hitem => ?_)
    exact sorted_sorted item
  | .obj fields => by
    rw [sorted, sorted_obj, sortFields_eq_self]
    intro f hf
    exact sorted_sortedFields fields f hf

theorem sorted_sortedFields :
    ∀ (fields : List (String × Json)), ∀ f ∈ sortedFields fields, f.2.sorted = f.2
  | [] => fun f hf => absurd hf (by simp [sortedFields])
  | (key, value) :: fields => by
    intro f hf
    rw [sortedFields, List.mem_cons] at hf
    rcases hf with rfl | hf
    · exact sorted_sorted value
    · exact sorted_sortedFields fields f hf

end

/-! ### The text of a value -/

/-- A character of a string, escaped where it has to be. -/
def escape (c : Char) : List Char :=
  if c = '"' then ['\\', '"']
  else if c = '\\' then ['\\', '\\']
  else if c = '\n' then ['\\', 'n']
  else if c = '\r' then ['\\', 'r']
  else if c = '\t' then ['\\', 't']
  else if c = '\x08' then ['\\', 'b']
  else if c = '\x0c' then ['\\', 'f']
  else if c.toNat < 32 then
    ['\\', 'u', '0', '0', (c.toNat / 16).digitChar, (c.toNat % 16).digitChar]
  else [c]

/-- A string between its quotes. -/
def quote (s : String) : List Char := '"' :: (s.toList.flatMap escape ++ ['"'])

/-- An integer in decimal. -/
def intText (n : ℤ) : List Char :=
  if n < 0 then '-' :: Nat.toDigits 10 n.natAbs else Nat.toDigits 10 n.natAbs

mutual

/-- The compact text. A floating-point number has none here. -/
def text : Json → List Char
  | .null => ['n', 'u', 'l', 'l']
  | .bool true => ['t', 'r', 'u', 'e']
  | .bool false => ['f', 'a', 'l', 's', 'e']
  | .int value => intText value
  | .float _ => []
  | .str value => quote value
  | .arr items => '[' :: itemsText items
  | .obj fields => '{' :: fieldsText fields

/-- What follows an opening bracket. -/
def itemsText : List Json → List Char
  | [] => [']']
  | item :: items => item.text ++ moreItemsText items

/-- What follows an item. -/
def moreItemsText : List Json → List Char
  | [] => [']']
  | item :: items => ',' :: (item.text ++ moreItemsText items)

/-- What follows an opening brace. -/
def fieldsText : List (String × Json) → List Char
  | [] => ['}']
  | (key, value) :: fields => quote key ++ ':' :: (value.text ++ moreFieldsText fields)

/-- What follows a field. -/
def moreFieldsText : List (String × Json) → List Char
  | [] => ['}']
  | (key, value) :: fields =>
    ',' :: (quote key ++ ':' :: (value.text ++ moreFieldsText fields))

end

mutual

/-- No floating-point number occurs. -/
def floatFree : Json → Bool
  | .float _ => false
  | .arr items => floatFreeItems items
  | .obj fields => floatFreeFields fields
  | .null => true
  | .bool _ => true
  | .int _ => true
  | .str _ => true

def floatFreeItems : List Json → Bool
  | [] => true
  | item :: items => item.floatFree && floatFreeItems items

def floatFreeFields : List (String × Json) → Bool
  | [] => true
  | (_, value) :: fields => value.floatFree && floatFreeFields fields

end

theorem floatFreeItems_eq (items : List Json) : floatFreeItems items = items.all floatFree := by
  induction items with
  | nil => rfl
  | cons item items ih => rw [floatFreeItems, ih, List.all_cons]

theorem floatFreeFields_eq (fields : List (String × Json)) :
    floatFreeFields fields = fields.all fun f => f.2.floatFree := by
  induction fields with
  | nil => rfl
  | cons field fields ih => rw [floatFreeFields, ih, List.all_cons]

mutual

/-- Sorting the keys neither adds nor drops a number. -/
theorem floatFree_sorted : ∀ value : Json, value.sorted.floatFree = value.floatFree
  | .null | .bool _ | .int _ | .float _ | .str _ => rfl
  | .arr items => by rw [sorted, floatFree, floatFree, floatFreeItems_sortedItems items]
  | .obj fields => by
    have hperm : ((sortedFields fields).insertionSort fun f g => f.1 ≤ g.1).Perm
        (sortedFields fields) := List.perm_insertionSort _ _
    rw [sorted, floatFree, floatFree, floatFreeFields_eq, hperm.all_eq, ← floatFreeFields_eq,
      floatFreeFields_sortedFields fields]

theorem floatFreeItems_sortedItems :
    ∀ items : List Json, floatFreeItems (sortedItems items) = floatFreeItems items
  | [] => rfl
  | item :: items => by
    rw [sortedItems, floatFreeItems, floatFreeItems, floatFree_sorted item,
      floatFreeItems_sortedItems items]

theorem floatFreeFields_sortedFields :
    ∀ fields : List (String × Json), floatFreeFields (sortedFields fields) = floatFreeFields fields
  | [] => rfl
  | (key, value) :: fields => by
    rw [sortedFields, floatFreeFields, floatFreeFields, floatFree_sorted value,
      floatFreeFields_sortedFields fields]

end

/-! ### Reading a text -/

/-- The rest of a text after the one that is expected. -/
def expect : List Char → List Char → Option (List Char)
  | [], cs => some cs
  | _ :: _, [] => none
  | e :: es, c :: cs => if c = e then expect es cs else none

/-- The value of a hexadecimal digit. -/
def hexValue (c : Char) : ℕ := if c.isDigit then c.toNat - 48 else c.toNat - 87

/-- The character that stands after a backslash, when it is not a code point. -/
def unescape (c : Char) : Option Char :=
  if c = '"' ∨ c = '\\' ∨ c = '/' then some c
  else if c = 'n' then some '\n'
  else if c = 'r' then some '\r'
  else if c = 't' then some '\t'
  else if c = 'b' then some '\x08'
  else if c = 'f' then some '\x0c'
  else none

/-- What follows a backslash. -/
def readEscape : List Char → Option (Option Char × List Char)
  | 'u' :: '0' :: '0' :: a :: b :: cs => some (Char.ofNat (16 * hexValue a + hexValue b), cs)
  | e :: cs => (unescape e).map fun c => (some c, cs)
  | [] => none

/-- The next character of a string, or none at its closing quote, and what follows. -/
def readChar : List Char → Option (Option Char × List Char)
  | [] => none
  | c :: cs =>
    if c = '"' then some (none, cs) else if c = '\\' then readEscape cs else some (some c, cs)

/-- The characters of a string up to its closing quote, and what follows it. The first
argument bounds their number. -/
def readString : ℕ → List Char → Option (List Char × List Char)
  | 0, _ => none
  | n + 1, cs =>
    match readChar cs with
    | none => none
    | some (none, rest) => some ([], rest)
    | some (some c, rest) => (readString n rest).map fun r => (c :: r.1, r.2)

/-- The digits in front of a text, and what follows them. -/
def readNat (cs : List Char) : Option (ℕ × List Char) :=
  match cs.takeWhile Char.isDigit with
  | [] => none
  | digits => some (Nat.ofDigitChars 10 digits 0, cs.dropWhile Char.isDigit)

def readInt : List Char → Option (ℤ × List Char)
  | '-' :: cs => (readNat cs).map fun r => (-(r.1 : ℤ), r.2)
  | cs => (readNat cs).map fun r => ((r.1 : ℤ), r.2)

mutual

/-- The value in front of a text, and what follows it. The first argument bounds the
number of characters to look at. -/
def read : ℕ → List Char → Option (Json × List Char)
  | 0, _ => none
  | _ + 1, [] => none
  | n + 1, c :: cs =>
    if c = 'n' then (expect ['u', 'l', 'l'] cs).map fun r => (.null, r)
    else if c = 't' then (expect ['r', 'u', 'e'] cs).map fun r => (.bool true, r)
    else if c = 'f' then (expect ['a', 'l', 's', 'e'] cs).map fun r => (.bool false, r)
    else if c = '"' then (readString n cs).map fun r => (.str (String.ofList r.1), r.2)
    else if c = '[' then
      match expect [']'] cs with
      | some r => some (.arr [], r)
      | none => (readItems n cs).map fun r => (.arr r.1, r.2)
    else if c = '{' then
      match expect ['}'] cs with
      | some r => some (.obj [], r)
      | none => (readFields n cs).map fun r => (.obj r.1, r.2)
    else (readInt (c :: cs)).map fun r => (.int r.1, r.2)

/-- The items up to the closing bracket. -/
def readItems : ℕ → List Char → Option (List Json × List Char)
  | 0, _ => none
  | n + 1, cs =>
    (read n cs).bind fun r =>
      match r.2 with
      | ']' :: rest => some ([r.1], rest)
      | ',' :: rest => (readItems n rest).map fun r' => (r.1 :: r'.1, r'.2)
      | _ => none

/-- The fields up to the closing brace. -/
def readFields : ℕ → List Char → Option (List (String × Json) × List Char)
  | 0, _ => none
  | n + 1, cs =>
    (expect ['"'] cs).bind fun cs =>
      (readString n cs).bind fun key =>
        (expect [':'] key.2).bind fun cs =>
          (read n cs).bind fun r =>
            match r.2 with
            | '}' :: rest => some ([(String.ofList key.1, r.1)], rest)
            | ',' :: rest =>
              (readFields n rest).map fun r' => ((String.ofList key.1, r.1) :: r'.1, r'.2)
            | _ => none

end

/-- The value that a text holds, when it holds one and nothing else. -/
def ofText (cs : List Char) : Option Json :=
  match read (cs.length + 1) cs with
  | some (value, []) => some value
  | _ => none

/-! ### A text is read back -/

/-- Two hexadecimal digits give their number back. -/
theorem hexValue_digitChar : ∀ n < 16, hexValue n.digitChar = n := by decide

/-- An escaped character is read back. -/
theorem readChar_escape (c : Char) (cs : List Char) :
    readChar (escape c ++ cs) = some (some c, cs) := by
  unfold escape
  split_ifs with h1 h2 h3 h4 h5 h6 h7 h8
  · rw [h1]; rfl
  · rw [h2]; rfl
  · rw [h3]; rfl
  · rw [h4]; rfl
  · rw [h5]; rfl
  · rw [h6]; rfl
  · rw [h7]; rfl
  · -- A control character goes by its code point.
    have hcode : Char.ofNat (16 * hexValue (c.toNat / 16).digitChar +
        hexValue (c.toNat % 16).digitChar) = c := by
      rw [hexValue_digitChar _ (by omega), hexValue_digitChar _ (by omega), Nat.div_add_mod]
      exact Char.ofNat_toNat c
    change some (some (Char.ofNat (16 * hexValue (c.toNat / 16).digitChar +
      hexValue (c.toNat % 16).digitChar)), cs) = _
    rw [hcode]
  · change readChar (c :: cs) = _
    rw [readChar, if_neg h1, if_neg h2]

theorem readString_flatMap (l cs : List Char) {n : ℕ} (hn : l.length < n) :
    readString n (l.flatMap escape ++ '"' :: cs) = some (l, cs) := by
  induction l generalizing n with
  | nil =>
    obtain ⟨n, rfl⟩ := Nat.exists_eq_add_one_of_ne_zero (by omega : n ≠ 0)
    rfl
  | cons c l ih =>
    rw [List.length_cons] at hn
    obtain ⟨n, rfl⟩ := Nat.exists_eq_add_one_of_ne_zero (by omega : n ≠ 0)
    rw [List.flatMap_cons, List.append_assoc, readString, readChar_escape]
    dsimp only
    rw [ih (by omega), Option.map_some]

/-- A text that does not go on with a digit. -/
def NoDigit (cs : List Char) : Prop := ∀ c ∈ cs.head?, c.isDigit = false

theorem readNat_toDigits (n : ℕ) {cs : List Char} (hcs : NoDigit cs) :
    readNat (Nat.toDigits 10 n ++ cs) = some (n, cs) := by
  have hdigits : ∀ c ∈ Nat.toDigits 10 n, c.isDigit = true := fun c hc =>
    Nat.isDigit_of_mem_toDigits (by omega) (by omega) hc
  have hrest : cs.takeWhile Char.isDigit = [] ∧ cs.dropWhile Char.isDigit = cs := by
    cases cs with
    | nil => exact ⟨rfl, rfl⟩
    | cons c cs =>
      have hc : c.isDigit = false := hcs c rfl
      exact ⟨List.takeWhile_cons_of_neg (by simp [hc]), List.dropWhile_cons_of_neg (by simp [hc])⟩
  have htake : (Nat.toDigits 10 n ++ cs).takeWhile Char.isDigit = Nat.toDigits 10 n := by
    rw [List.takeWhile_append_of_pos hdigits, hrest.1, List.append_nil]
  have hdrop : (Nat.toDigits 10 n ++ cs).dropWhile Char.isDigit = cs := by
    rw [List.dropWhile_append_of_pos hdigits, hrest.2]
  unfold readNat
  rw [htake, hdrop]
  split
  · next hnil => exact absurd hnil Nat.toDigits_ne_nil
  · rw [Nat.ofDigitChars_ten_toDigits]

theorem readInt_intText (n : ℤ) {cs : List Char} (hcs : NoDigit cs) :
    readInt (intText n ++ cs) = some (n, cs) := by
  unfold intText
  split_ifs with hn
  · rw [List.cons_append, readInt, readNat_toDigits _ hcs, Option.map_some]
    have habs : -((n.natAbs : ℕ) : ℤ) = n := by omega
    rw [habs]
  · have habs : ((n.natAbs : ℕ) : ℤ) = n := by omega
    rw [readInt.eq_2, readNat_toDigits _ hcs, Option.map_some, habs]
    -- A digit is not a minus sign.
    intro cs' heq
    have hmem : '-' ∈ Nat.toDigits 10 n.natAbs := by
      cases hdigits : Nat.toDigits 10 n.natAbs with
      | nil => exact absurd hdigits Nat.toDigits_ne_nil
      | cons d ds =>
        rw [hdigits, List.cons_append] at heq
        rw [(List.cons.inj heq).1]
        exact List.mem_cons_self
    have hdigit := Nat.isDigit_of_mem_toDigits (by omega) (by omega) hmem
    simp at hdigit

theorem length_le_flatMap_escape (l : List Char) : l.length ≤ (l.flatMap escape).length := by
  have hescape : ∀ c, 1 ≤ (escape c).length := by
    intro c
    unfold escape
    split_ifs <;> simp
  induction l with
  | nil => exact Nat.zero_le _
  | cons c l ih =>
    have hc := hescape c
    rw [List.flatMap_cons, List.length_append, List.length_cons]
    omega

/-- A quoted string is read back, after its opening quote. -/
theorem readString_quote (s : String) (cs : List Char) {n : ℕ} (hn : (quote s).length ≤ n + 1) :
    readString n ((s.toList.flatMap escape ++ ['"']) ++ cs) = some (s.toList, cs) := by
  have hlength := length_le_flatMap_escape s.toList
  have hquote : (quote s).length = (s.toList.flatMap escape).length + 2 := by
    rw [quote, List.length_cons, List.length_append, List.length_singleton]
  rw [List.append_assoc, List.singleton_append]
  exact readString_flatMap _ _ (by omega)

/-- The first character of an integer is none of the others. -/
theorem intText_eq_cons (n : ℤ) : ∃ c cs, intText n = c :: cs ∧ (c = '-' ∨ c.isDigit = true) := by
  unfold intText
  split_ifs with hn
  · exact ⟨_, _, rfl, Or.inl rfl⟩
  · cases hdigits : Nat.toDigits 10 n.natAbs with
    | nil => exact absurd hdigits Nat.toDigits_ne_nil
    | cons d ds =>
      refine ⟨d, ds, rfl, Or.inr ?_⟩
      exact Nat.isDigit_of_mem_toDigits (by omega) (by omega) (hdigits ▸ List.mem_cons_self)

theorem read_intText (value : ℤ) {n : ℕ} {r : List Char} (hr : NoDigit r)
    (hn : (intText value).length ≤ n) : read n (intText value ++ r) = some (.int value, r) := by
  obtain ⟨c, cs, heq, hc⟩ := intText_eq_cons value
  have hother : ∀ c', c'.isDigit = false → c' ≠ '-' → c ≠ c' := by
    rintro c' hdigit hminus rfl
    rcases hc with hc | hc
    · exact hminus hc
    · exact Bool.false_ne_true (hdigit.symm.trans hc)
  have hread := readInt_intText value hr
  rw [heq, List.cons_append] at hread ⊢
  obtain ⟨n, rfl⟩ : ∃ k, n = k + 1 := by
    rw [heq, List.length_cons] at hn
    exact ⟨n - 1, by omega⟩
  rw [read, if_neg (hother _ rfl (by decide)), if_neg (hother _ rfl (by decide)),
    if_neg (hother _ rfl (by decide)), if_neg (hother _ rfl (by decide)),
    if_neg (hother _ rfl (by decide)), if_neg (hother _ rfl (by decide)), hread, Option.map_some]

/-- No text starts with a closing bracket. -/
theorem text_eq_cons {value : Json} (free : value.floatFree = true) :
    ∃ c cs, value.text = c :: cs ∧ c ≠ ']' := by
  cases value with
  | null => exact ⟨_, _, rfl, by decide⟩
  | bool b => cases b <;> exact ⟨_, _, rfl, by decide⟩
  | int n =>
    obtain ⟨c, cs, heq, hc⟩ := intText_eq_cons n
    refine ⟨c, cs, heq, ?_⟩
    rintro rfl
    simp at hc
  | float bits => exact absurd free Bool.false_ne_true
  | str s => exact ⟨_, _, rfl, by decide⟩
  | arr items => exact ⟨_, _, rfl, by decide⟩
  | obj fields => exact ⟨_, _, rfl, by decide⟩

theorem noDigit_moreItemsText (items : List Json) (r : List Char) :
    NoDigit (moreItemsText items ++ r) := by
  intro c hc
  cases items <;> (obtain rfl := Option.some.inj hc; rfl)

theorem noDigit_moreFieldsText (fields : List (String × Json)) (r : List Char) :
    NoDigit (moreFieldsText fields ++ r) := by
  intro c hc
  rcases fields with _ | ⟨⟨key, value⟩, fields⟩ <;> (obtain rfl := Option.some.inj hc; rfl)

mutual

/-- **A text is read back**, whatever follows it, when there is enough of a bound. -/
theorem read_text : ∀ (value : Json) (n : ℕ) (r : List Char), value.floatFree = true → NoDigit r →
    value.text.length ≤ n → read n (value.text ++ r) = some (value, r)
  | .null, n + 1, r, _, _, _ => rfl
  | .bool true, n + 1, r, _, _, _ => rfl
  | .bool false, n + 1, r, _, _, _ => rfl
  | .int value, n, r, _, hr, hn => read_intText value hr hn
  | .float _, _, _, free, _, _ => absurd free Bool.false_ne_true
  | .str s, n + 1, r, _, _, hn => by
    have hread := readString_quote s r hn
    change (readString n ((s.toList.flatMap escape ++ ['"']) ++ r)).map _ = _
    rw [hread, Option.map_some, String.ofList_toList]
  | .arr [], n + 1, r, _, _, _ => rfl
  | .arr (item :: items), n + 1, r, free, _, hn => by
    have hitems := readItems_text (item :: items) n r free (List.cons_ne_nil _ _)
      (Nat.le_of_succ_le_succ hn)
    -- A value's text never begins with a bracket that closes, so the array is not taken for an
    -- empty one.
    have hopen : expect [']'] (itemsText (item :: items) ++ r) = none := by
      obtain ⟨c, cs, heq, hc⟩ := text_eq_cons (Bool.and_eq_true_iff.mp free).1
      rw [itemsText, heq, List.cons_append, List.cons_append, expect, if_neg hc]
    change (match expect [']'] (itemsText (item :: items) ++ r) with
      | some r => some (Json.arr [], r)
      | none => (readItems n (itemsText (item :: items) ++ r)).map
        fun r : List Json × List Char => (Json.arr r.1, r.2)) = _
    rw [hopen]
    dsimp only
    rw [hitems, Option.map_some]
  | .obj [], n + 1, r, _, _, _ => rfl
  | .obj ((key, value) :: fields), n + 1, r, free, _, hn => by
    have hfields := readFields_text ((key, value) :: fields) n r free (List.cons_ne_nil _ _)
      (Nat.le_of_succ_le_succ hn)
    change (readFields n (fieldsText ((key, value) :: fields) ++ r)).map
      (fun r => (Json.obj r.1, r.2)) = _
    rw [hfields, Option.map_some]

theorem readItems_text : ∀ (items : List Json) (n : ℕ) (r : List Char), floatFreeItems items = true →
    items ≠ [] → (itemsText items).length ≤ n →
    readItems n (itemsText items ++ r) = some (items, r)
  | [], _, _, _, hne, _ => absurd rfl hne
  | [item], n, r, free, _, hn => by
    obtain ⟨hfirst, hrest⟩ := Bool.and_eq_true_iff.mp free
    rw [itemsText, moreItemsText, List.length_append, List.length_singleton] at hn
    obtain ⟨n, rfl⟩ := Nat.exists_eq_add_one_of_ne_zero (by omega : n ≠ 0)
    have hitem := read_text item n (']' :: r) hfirst (noDigit_moreItemsText [] r) (by omega)
    rw [itemsText, moreItemsText, List.append_assoc, List.singleton_append, readItems, hitem]
    rfl
  | item :: next :: items, n, r, free, _, hn => by
    obtain ⟨hfirst, hrest⟩ := Bool.and_eq_true_iff.mp free
    -- the fuel is the length of the text: each item leaves enough of it to the rest
    have hlength : (moreItemsText (next :: items)).length =
        (itemsText (next :: items)).length + 1 := rfl
    rw [itemsText, List.length_append, hlength] at hn
    obtain ⟨n, rfl⟩ := Nat.exists_eq_add_one_of_ne_zero (by omega : n ≠ 0)
    have hitem := read_text item n (moreItemsText (next :: items) ++ r) hfirst
      (noDigit_moreItemsText _ r) (by omega)
    have hitems := readItems_text (next :: items) n r hrest (List.cons_ne_nil _ _) (by omega)
    rw [itemsText, List.append_assoc, readItems, hitem]
    change (readItems n (itemsText (next :: items) ++ r)).map _ = _
    rw [hitems, Option.map_some]

theorem readFields_text : ∀ (fields : List (String × Json)) (n : ℕ) (r : List Char),
    floatFreeFields fields = true → fields ≠ [] → (fieldsText fields).length ≤ n →
    readFields n (fieldsText fields ++ r) = some (fields, r)
  | [], _, _, _, hne, _ => absurd rfl hne
  | (key, value) :: fields, n, r, free, _, hn => by
    obtain ⟨hfirst, hrest⟩ := Bool.and_eq_true_iff.mp free
    have hlength : (fieldsText ((key, value) :: fields)).length =
        (quote key).length + (value.text.length + (moreFieldsText fields).length + 1) := by
      rw [fieldsText, List.length_append, List.length_cons, List.length_append]
    -- The fuel is at least the text's length, so there is some left for the first field.
    obtain ⟨n, rfl⟩ := Nat.exists_eq_add_one_of_ne_zero (by omega : n ≠ 0)
    have hkey := readString_quote key (':' :: (value.text ++ moreFieldsText fields) ++ r)
      (n := n) (by omega)
    have hvalue := read_text value n (moreFieldsText fields ++ r) hfirst
      (noDigit_moreFieldsText fields r) (by omega)
    -- The key and the value are read back; the next character decides whether the object ends.
    have hhead : readFields (n + 1) (fieldsText ((key, value) :: fields) ++ r) =
        match moreFieldsText fields ++ r with
        | '}' :: rest => some ([(key, value)], rest)
        | ',' :: rest => (readFields n rest).map fun r' => ((key, value) :: r'.1, r'.2)
        | _ => none := by
      rw [fieldsText, List.append_assoc, readFields]
      change (readString n ((key.toList.flatMap escape ++ ['"']) ++
        (':' :: (value.text ++ moreFieldsText fields) ++ r))).bind _ = _
      rw [hkey, Option.bind_some]
      change (read n ((value.text ++ moreFieldsText fields) ++ r)).bind _ = _
      rw [List.append_assoc, hvalue, Option.bind_some, String.ofList_toList]
    rw [hhead]
    cases fields with
    | nil => rfl
    | cons next fields =>
      have hmore : (moreFieldsText (next :: fields)).length =
          (fieldsText (next :: fields)).length + 1 := rfl
      have hfields := readFields_text (next :: fields) n r hrest (List.cons_ne_nil _ _) (by omega)
      change (readFields n (fieldsText (next :: fields) ++ r)).map _ = _
      rw [hfields, Option.map_some]

end

/-- **The text of a value holds the value.** -/
theorem ofText_text {value : Json} (free : value.floatFree = true) :
    ofText value.text = some value := by
  have hread := read_text value (value.text.length + 1) [] free (fun c hc => by simp at hc)
    (Nat.le_succ _)
  rw [List.append_nil] at hread
  rw [ofText, hread]

/-! ### Bytes -/

/-- The text in UTF-8. -/
def bytes (value : Json) : List UInt8 := (String.ofList value.text).toUTF8.data.toList

/-- The value that bytes hold in UTF-8. -/
def ofBytes (bytes : List UInt8) : Option Json :=
  (String.fromUTF8? ⟨bytes.toArray⟩).bind fun s => ofText s.toList

theorem ofBytes_bytes {value : Json} (free : value.floatFree = true) :
    ofBytes value.bytes = some value := by
  have hbytes : (⟨value.bytes.toArray⟩ : ByteArray) = (String.ofList value.text).toByteArray := rfl
  have hdecode : String.fromUTF8? ⟨value.bytes.toArray⟩ = some (String.ofList value.text) := by
    rw [hbytes, String.fromUTF8?, dif_pos (String.ofList value.text).isValidUTF8]
    rfl
  rw [ofBytes, hdecode, Option.bind_some, String.toList_ofList, ofText_text free]

/-! ### Reading a field -/

/-- A field of an object is found in the sorted object. -/
theorem lookup_sortFields {fields : List (String × Json)} (nodup : (fields.map Prod.fst).Nodup)
    (key : String) : (sortFields fields).lookup key = (fields.lookup key).map sorted := by
  have hfst : (fields.map fun f => (f.1, f.2.sorted)).map Prod.fst = fields.map Prod.fst := by
    rw [List.map_map]
    rfl
  rw [Dict.lookup_eq_of_perm (perm_sortFields fields).symm (by rwa [hfst]), Dict.lookup_map]

/-- Objects with the same keys in the same order agree when their values do. -/
theorem sortFields_eq_iff {fields fields' : List (String × Json)}
    (keys : fields.map Prod.fst = fields'.map Prod.fst) (nodup : (fields.map Prod.fst).Nodup) :
    sortFields fields = sortFields fields' ↔
      fields.map (fun f => f.2.sorted) = fields'.map fun f => f.2.sorted := by
  have hpairs : ∀ l : List (String × Json),
      (l.map fun f => (f.1, f.2.sorted)) = (l.map Prod.fst).zip (l.map fun f => f.2.sorted) := by
    intro l
    rw [List.zip_map']
  constructor
  · intro h
    have hperm := ((perm_sortFields fields).symm.trans (h ▸ perm_sortFields fields'))
    have hlength : fields.length = fields'.length := by
      simpa using congrArg List.length keys
    refine List.ext_getElem (by simpa using hlength) fun i hi hi' => ?_
    rw [List.length_map] at hi hi'
    have hkey : fields[i].1 = fields'[i].1 := by
      have hget := List.getElem_of_eq keys (show i < (fields.map Prod.fst).length by simpa using hi)
      simpa using hget
    rw [List.getElem_map, List.getElem_map]
    -- both stand under the same key of the sorted object
    have hmem : (fields[i].1, fields[i].2.sorted) ∈ fields'.map fun f => (f.1, f.2.sorted) :=
      hperm.subset (List.mem_map.mpr ⟨fields[i], List.getElem_mem hi, rfl⟩)
    have hmem' : (fields'[i].1, fields'[i].2.sorted) ∈ fields'.map fun f => (f.1, f.2.sorted) :=
      List.mem_map.mpr ⟨fields'[i], List.getElem_mem hi', rfl⟩
    have hnodup' : ((fields'.map fun f => (f.1, f.2.sorted)).map Prod.fst).Nodup := by
      rw [List.map_map]
      exact keys ▸ nodup
    have hget := Dict.mem_entries_iff.mp
      (show _ ∈ (Dict.mk (fields'.map fun f => (f.1, f.2.sorted)) hnodup').entries from hmem)
    have hget' := Dict.mem_entries_iff.mp
      (show _ ∈ (Dict.mk (fields'.map fun f => (f.1, f.2.sorted)) hnodup').entries from hmem')
    rw [hkey, hget'] at hget
    exact (Option.some.inj hget).symm
  · intro h
    rw [sortFields, sortFields, hpairs, hpairs, keys, h]

end Json

end Framework
