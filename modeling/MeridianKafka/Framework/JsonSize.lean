import MeridianKafka.Framework.Json
import Mathlib.Algebra.Ring.Nat

/-!
# The size of a JSON text

`Json.byteSize` counts the bytes of a compact text without writing it: an item is counted
with the comma or the bracket behind it, a field with its colon as well. The count is that
of the text (`length_bytes`), and it does not depend on the order in which the fields of an
object were written (`byteSize_sorted`).
-/

namespace Framework

namespace Json

/-- The bytes of a text in UTF-8. -/
def utf8Length (cs : List Char) : ℕ := (cs.map Char.utf8Size).sum

@[simp] theorem utf8Length_nil : utf8Length [] = 0 := rfl

@[simp] theorem utf8Length_cons (c : Char) (cs : List Char) :
    utf8Length (c :: cs) = c.utf8Size + utf8Length cs := rfl

@[simp] theorem utf8Length_append (cs cs' : List Char) :
    utf8Length (cs ++ cs') = utf8Length cs + utf8Length cs' := by
  unfold utf8Length
  rw [List.map_append, List.sum_append]

/-- The bytes of a string between its quotes. -/
def quoteSize (s : String) : ℕ := utf8Length (quote s)

mutual

/-- The bytes of the compact text. -/
def byteSize : Json → ℕ
  | .null => 4
  | .bool true => 4
  | .bool false => 5
  | .int value => (intText value).length
  | .float _ => 0
  | .str value => quoteSize value
  | .arr items => 1 + max 1 (itemsSize items)
  | .obj fields => 1 + max 1 (fieldsSize fields)

/-- The bytes of the items, each with what stands behind it. -/
def itemsSize : List Json → ℕ
  | [] => 0
  | item :: items => item.byteSize + 1 + itemsSize items

/-- The bytes of the fields, each with what stands behind it. -/
def fieldsSize : List (String × Json) → ℕ
  | [] => 0
  | (key, value) :: fields => quoteSize key + 1 + value.byteSize + 1 + fieldsSize fields

end

theorem fieldsSize_eq (fields : List (String × Json)) :
    fieldsSize fields = (fields.map fun f => quoteSize f.1 + 1 + f.2.byteSize + 1).sum := by
  induction fields with
  | nil => rfl
  | cons field fields ih => rw [fieldsSize, ih, List.map_cons, List.sum_cons]

/-! ### The size of the text -/

/-- An ASCII text has as many bytes as characters. -/
theorem utf8Length_of_ascii {cs : List Char} (h : ∀ c ∈ cs, c.toNat < 128) :
    utf8Length cs = cs.length := by
  induction cs with
  | nil => rfl
  | cons c cs ih =>
    have hc : c.utf8Size = 1 := by
      rw [Char.utf8Size_eq_one_iff, UInt32.le_iff_toNat_le]
      exact Nat.le_of_lt_succ (h c List.mem_cons_self)
    rw [utf8Length_cons, hc, ih fun d hd => h d (List.mem_cons_of_mem c hd), List.length_cons,
      Nat.add_comm]

/-- A sign and digits take one byte each. -/
theorem utf8Length_intText (n : ℤ) : utf8Length (intText n) = (intText n).length := by
  have hdigits : ∀ c ∈ Nat.toDigits 10 n.natAbs, c.toNat < 128 := by
    intro c hc
    have hdigit := Nat.isDigit_of_mem_toDigits (by omega) (by omega) hc
    simp only [Char.isDigit, Bool.and_eq_true, decide_eq_true_eq,
      UInt32.le_iff_toNat_le] at hdigit
    exact hdigit.2.trans_lt (by decide)
  refine utf8Length_of_ascii fun c hc => ?_
  unfold intText at hc
  split_ifs at hc
  · obtain rfl | hc := List.mem_cons.mp hc
    · decide
    · exact hdigits c hc
  · exact hdigits c hc

mutual

/-- **The count is the size of the text**, value by value. -/
theorem utf8Length_text : ∀ value : Json, utf8Length value.text = value.byteSize
  | .null => by rw [text, byteSize]; decide
  | .bool true => by rw [text, byteSize]; decide
  | .bool false => by rw [text, byteSize]; decide
  | .int value => by rw [text, byteSize, utf8Length_intText]
  | .float _ => by rw [text, byteSize, utf8Length_nil]
  | .str value => by rw [text, byteSize, quoteSize]
  | .arr items => by
    have hopen : '['.utf8Size = 1 := by decide
    have hclose : utf8Length [']'] = 1 := by decide
    rw [text, byteSize, utf8Length_cons, hopen]
    cases items with
    | nil => rw [itemsText, itemsSize, hclose]; rfl
    | cons item items =>
      -- Each later item is counted with its comma, and the last one with the bracket.
      rw [itemsText, itemsSize, utf8Length_append, utf8Length_text item,
        utf8Length_moreItemsText items]
      omega
  | .obj fields => by
    have hopen : '{'.utf8Size = 1 := by decide
    have hclose : utf8Length ['}'] = 1 := by decide
    have hcolon : ':'.utf8Size = 1 := by decide
    rw [text, byteSize, utf8Length_cons, hopen]
    cases fields with
    | nil => rw [fieldsText, fieldsSize, hclose]; rfl
    | cons field fields =>
      obtain ⟨key, value⟩ := field
      rw [fieldsText, fieldsSize, utf8Length_append, utf8Length_cons, utf8Length_append, hcolon,
        utf8Length_text value, utf8Length_moreFieldsText fields, quoteSize]
      omega

/-- What follows an item: the other items, and one bracket more. -/
theorem utf8Length_moreItemsText :
    ∀ items : List Json, utf8Length (moreItemsText items) = 1 + itemsSize items
  | [] => by rw [moreItemsText, itemsSize]; decide
  | item :: items => by
    have hcomma : ','.utf8Size = 1 := by decide
    rw [moreItemsText, itemsSize, utf8Length_cons, utf8Length_append, hcomma,
      utf8Length_text item, utf8Length_moreItemsText items]
    omega

theorem utf8Length_moreFieldsText :
    ∀ fields : List (String × Json), utf8Length (moreFieldsText fields) = 1 + fieldsSize fields
  | [] => by rw [moreFieldsText, fieldsSize]; decide
  | (key, value) :: fields => by
    have hcomma : ','.utf8Size = 1 := by decide
    have hcolon : ':'.utf8Size = 1 := by decide
    rw [moreFieldsText, fieldsSize, utf8Length_cons, utf8Length_append, utf8Length_cons,
      utf8Length_append, hcomma, hcolon, utf8Length_text value, utf8Length_moreFieldsText fields,
      quoteSize]
    omega

end

theorem length_bytes (value : Json) : value.bytes.length = value.byteSize := by
  have hlength : value.bytes.length = (String.ofList value.text).utf8ByteSize := by
    rw [← String.size_toByteArray]
    rfl
  rw [hlength, ← String.size_toByteArray, ← String.utf8Encode_toList, String.toList_ofList,
    ← utf8Length_text]
  simp only [List.utf8Encode, List.size_toByteArray, List.length_flatMap,
    String.length_utf8EncodeChar, utf8Length]

/-! ### Texts without escapes -/

/-- A character that a string holds as the one byte that it is. -/
def Plain (c : Char) : Prop := escape c = [c] ∧ c.utf8Size = 1

instance (c : Char) : Decidable (Plain c) := inferInstanceAs (Decidable (_ ∧ _))

theorem plain_digitChar : ∀ n < 16, Plain n.digitChar := by decide

theorem plain_of_isDigit {c : Char} (h : c.isDigit = true) : Plain c := by
  have hcodes : ∀ n < 58, 48 ≤ n → Plain (Char.ofNat n) := by decide
  simp only [Char.isDigit, Bool.and_eq_true, decide_eq_true_eq, UInt32.le_iff_toNat_le] at h
  have hplain := hcodes c.toNat (Nat.lt_succ_of_le h.2) h.1
  rwa [Char.ofNat_toNat] at hplain

/-- Such a text is two bytes longer between its quotes. -/
theorem quoteSize_of_plain {s : String} (h : ∀ c ∈ s.toList, Plain c) :
    quoteSize s = s.toList.length + 2 := by
  have hquote : '"'.utf8Size = 1 := by decide
  have hbody : ∀ l : List Char, (∀ c ∈ l, Plain c) → utf8Length (l.flatMap escape) = l.length := by
    intro l hl
    induction l with
    | nil => rfl
    | cons c l ih =>
      obtain ⟨hescape, hsize⟩ := hl c List.mem_cons_self
      rw [List.flatMap_cons, hescape, utf8Length_append, utf8Length_cons, utf8Length_nil, hsize,
        ih fun d hd => hl d (List.mem_cons_of_mem c hd), List.length_cons]
      omega
  unfold quoteSize quote
  rw [utf8Length_cons, utf8Length_append, hbody _ h, utf8Length_cons, utf8Length_nil, hquote]
  omega

/-! ### The order of the fields -/

/-- The order of the fields does not matter. -/
theorem fieldsSize_perm {fields fields' : List (String × Json)} (h : fields.Perm fields') :
    fieldsSize fields = fieldsSize fields' := by
  rw [fieldsSize_eq, fieldsSize_eq]
  exact (h.map _).sum_nat

mutual

/-- **Sorting the keys** keeps the size, at every depth. -/
theorem byteSize_sorted : ∀ value : Json, value.sorted.byteSize = value.byteSize
  | .null | .bool _ | .int _ | .float _ | .str _ => rfl
  | .arr items => by rw [sorted, byteSize, byteSize, itemsSize_sortedItems items]
  | .obj fields => by
    have hperm : ((sortedFields fields).insertionSort fun f g => f.1 ≤ g.1).Perm
        (sortedFields fields) := List.perm_insertionSort _ _
    rw [sorted, byteSize, byteSize, fieldsSize_perm hperm, fieldsSize_sortedFields fields]

theorem itemsSize_sortedItems : ∀ items : List Json, itemsSize (sortedItems items) = itemsSize items
  | [] => rfl
  | item :: items => by
    rw [sortedItems, itemsSize, itemsSize, byteSize_sorted item, itemsSize_sortedItems items]

theorem fieldsSize_sortedFields :
    ∀ fields : List (String × Json), fieldsSize (sortedFields fields) = fieldsSize fields
  | [] => rfl
  | (key, value) :: fields => by
    rw [sortedFields, fieldsSize, fieldsSize, byteSize_sorted value,
      fieldsSize_sortedFields fields]

end

end Json

end Framework
